import ItemStore.Proofs.Shape.Compilation
/-!
# Valid declarations

The rules of declarations with nothing in them of the order in which they are checked (`Declaration.Valid`).  They are
what it takes to compile (`exists_compilesTo_iff_valid`), and what a descriptor says is then in the declaration, part by
part (`Descriptor.Mirrors`).
-/
namespace ItemStore

/-! ## The rules -/

namespace IndexDeclaration

/-- The partition attribute of an index on a table with this partition key. -/
def partitionIn (tablePartition : String) (i : IndexDeclaration) : String := i.partition.getD tablePartition

/-- The index that the declaration describes. -/
def index (tablePartition : String) (i : IndexDeclaration) : Index :=
  ⟨i.name, i.kind, ⟨i.partitionIn tablePartition, i.sort⟩⟩

/-- The index can stand on a table with this partition key and these attributes. -/
structure Valid (tablePartition : String) (as : List Attribute) (i : IndexDeclaration) : Prop where
  global : i.kind = .global → i.partition ≠ none
  shared : i.kind = .local → i.partition = none ∨ i.partition = some tablePartition
  sorted : i.kind = .local → i.sort ≠ none
  scalar : ∀ name, name = i.partitionIn tablePartition ∨ i.sort = some name →
    ∃ a ∈ as, a.name = name ∧ a.kind.isKeyScalar = true
  different : i.sort ≠ some (i.partitionIn tablePartition)

end IndexDeclaration

/-- The declaration keeps all rules. -/
structure Declaration.Valid (d : Declaration) : Prop where
  table : d.table ≠ ""
  named : ∀ a ∈ d.attributes, a.name ≠ ""
  distinct : (d.attributes.map (·.name)).Nodup
  partition : d.attributes.countP (fun a => a.role == .partition) = 1
  sort : d.attributes.countP (fun a => a.role == .sort) ≤ 1
  scalar : ∀ a ∈ d.attributes, a.role ≠ .none → a.kind.isKeyScalar = true
  required : ∀ a ∈ d.attributes, a.role ≠ .none → a.optional = false ∧ a.nullable = false
  indexNames : (d.indexes.map (·.name)).Nodup
  indexes : ∀ a ∈ d.attributes, a.role = .partition → ∀ i ∈ d.indexes, i.Valid a.name d.attributes

/-- The descriptor has the parts of the declaration, in their order. -/
structure Descriptor.Mirrors (s : Descriptor) (d : Declaration) : Prop where
  name : s.name = d.name
  table : s.table = d.table
  attributes : s.attributes = d.attributes
  partition : ∃ a ∈ d.attributes, a.role = .partition ∧ a.name = s.key.partition
  sort : s.key.sort = (d.attributes.find? fun a => a.role == .sort).map (·.name)
  indexes : s.indexes = d.indexes.map (·.index s.key.partition)

/-! ## Indexes -/

namespace IndexDeclaration
variable {tablePartition : String} {as : List Attribute} {i : IndexDeclaration}

theorem CompilesTo.eq_index {x : Index} (h : i.CompilesTo tablePartition as x) : x = i.index tablePartition := by
  obtain ⟨name, kind, partition, sort⟩ := x
  obtain rfl : name = i.name := h.name
  obtain rfl : kind = i.kind := h.kind
  obtain rfl : partition = i.partitionIn tablePartition := h.partition_eq
  obtain rfl : sort = i.sort := h.sort
  rfl

theorem mem_names_index {name : String} :
    name ∈ (i.index tablePartition).key.names ↔ name = i.partitionIn tablePartition ∨ i.sort = some name := by
  simp [KeySchema.names, index, Option.mem_toList]

/-- What an index needs to compile is what it needs to be valid. -/
theorem compilesTo_index_iff : i.CompilesTo tablePartition as (i.index tablePartition) ↔ i.Valid tablePartition as := by
  constructor
  · intro h
    refine ⟨fun hglobal hnone => ?_, fun hlocal => ?_, h.sorted, fun name hname =>
      h.scalar name (mem_names_index.2 hname), h.different⟩
    · rcases h.partition with hnamed | ⟨hlocal, -⟩
      · rw [hnone] at hnamed
        cases hnamed
      · rw [hglobal] at hlocal
        cases hlocal
    · cases hpartition : i.partition with
      | none => exact .inl rfl
      | some p =>
        have hshared : p = tablePartition := by simpa [index, partitionIn, hpartition] using h.shared hlocal
        exact .inr (congrArg some hshared)
  · intro h
    refine ⟨rfl, rfl, ?_, fun hlocal => ?_, rfl, h.sorted, fun name hname => h.scalar name (mem_names_index.1 hname),
      h.different⟩
    · cases hpartition : i.partition with
      | some p => exact .inl (by simp [index, partitionIn, hpartition])
      | none =>
        have hkind : i.kind = .local := by
          cases hkind : i.kind with
          | «local» => rfl
          | global => exact absurd hpartition (h.global hkind)
        exact .inr ⟨hkind, rfl⟩
    · rcases h.shared hlocal with hnone | hsome
      · simp [index, partitionIn, hnone]
      · simp [index, partitionIn, hsome]

end IndexDeclaration

/-! ## Declarations -/

theorem length_namesOf (role : KeyRole) (as : List Attribute) :
    (namesOf role as).length = as.countP fun a => a.role == role := by
  rw [namesOf, List.length_map, List.countP_eq_length_filter]

theorem mem_namesOf {role : KeyRole} {as : List Attribute} {name : String} :
    name ∈ namesOf role as ↔ ∃ a ∈ as, a.role = role ∧ a.name = name := by
  simp [namesOf, and_assoc]

theorem Attribute.isKey_iff {a : Attribute} : a.isKey = true ↔ a.role ≠ .none := by
  simp [isKey]

namespace Declaration
variable {d : Declaration} {s : Descriptor}

theorem CompilesTo.mirrors (h : d.CompilesTo s) : s.Mirrors d := by
  have hpartition : s.key.partition ∈ namesOf .partition d.attributes := by
    rw [h.partition]
    exact List.mem_singleton_self _
  refine ⟨h.name, h.table, h.attributes, mem_namesOf.1 hpartition, ?_, ?_⟩
  · have hhead := congrArg List.head? h.sort
    rw [namesOf, List.head?_map, List.head?_filter] at hhead
    rw [hhead]
    cases s.key.sort <;> rfl
  · rw [← List.forall₂_eq_eq_eq, List.forall₂_map_right_iff]
    exact h.indexes.flip.imp fun x i hx => IndexDeclaration.CompilesTo.eq_index hx

/-- **A declaration compiles exactly if it is valid.** -/
theorem exists_compilesTo_iff_valid : (∃ s, d.CompilesTo s) ↔ d.Valid := by
  constructor
  · rintro ⟨s, h⟩
    refine ⟨h.tableNamed, h.named, h.distinct, ?_, ?_, fun a ha hrole => ?_, fun a ha hrole => ?_, h.indexNames,
      fun a ha hrole i hi => ?_⟩
    · rw [← length_namesOf, h.partition, List.length_singleton]
    · rw [← length_namesOf, h.sort]
      cases s.key.sort <;> simp
    · exact (h.fit a ha (Attribute.isKey_iff.2 hrole)).scalar
    · have hfit := h.fit a ha (Attribute.isKey_iff.2 hrole)
      exact ⟨hfit.required, hfit.present⟩
    · have hname : a.name ∈ namesOf .partition d.attributes := mem_namesOf.2 ⟨a, ha, hrole, rfl⟩
      rw [h.partition, List.mem_singleton] at hname
      rw [hname]
      obtain ⟨n, hn, rfl⟩ := List.getElem_of_mem hi
      have hx := h.indexes.get hn (h.indexes.length_eq ▸ hn)
      exact IndexDeclaration.compilesTo_index_iff.1 (IndexDeclaration.CompilesTo.eq_index hx ▸ hx)
  · intro h
    obtain ⟨partition, hpartition⟩ :=
      List.length_eq_one_iff.1 ((length_namesOf .partition d.attributes).trans h.partition)
    obtain ⟨sort, hsort⟩ : ∃ sort : Option String, namesOf .sort d.attributes = sort.toList := by
      have hlength := h.sort
      rw [← length_namesOf] at hlength
      cases hnames : namesOf .sort d.attributes with
      | nil => exact ⟨none, rfl⟩
      | cons name names =>
        rw [hnames, List.length_cons] at hlength
        exact ⟨some name, by rw [List.eq_nil_of_length_eq_zero (by omega : names.length = 0)]; rfl⟩
    obtain ⟨a, ha, hrole, rfl⟩ := mem_namesOf.1 (hpartition ▸ List.mem_singleton_self partition)
    refine ⟨⟨d.name, d.table, d.attributes, ⟨a.name, sort⟩, d.indexes.map (·.index a.name)⟩, rfl, rfl, rfl,
      h.table, h.named, h.distinct, fun b hb hkey => ?_, hpartition, hsort, h.indexNames, ?_⟩
    · have hkey := Attribute.isKey_iff.1 hkey
      exact ⟨h.scalar b hb hkey, (h.required b hb hkey).1, (h.required b hb hkey).2⟩
    · rw [List.forall₂_map_right_iff, List.forall₂_same]
      exact fun i hi => IndexDeclaration.compilesTo_index_iff.2 (h.indexes a ha hrole i hi)

end Declaration
end ItemStore
