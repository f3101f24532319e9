import ItemStore.Proofs.Record.Indexes
import ItemStore.Proofs.Shape.Compilation
import ItemStore.Record.Samples
/-!
# Shapes from record definitions

An accepted definition of a record with a table declares a shape.  What has been checked by then (`ShapeParts.Checked`)
is nearly all that compiling asks for: the declaration compiles unless a field is stored under the empty name, or an
index has one attribute as both of its keys (`definition_compiles_iff`).
-/
namespace ItemStore

open Outcome (bind_eq_ok foldlM_invariant exists_of_mem_mapM)

/-! ## Names -/

namespace Text

theorem mapCase_ne_nil {runs : List CaseRun} {expansions : List (Nat × List Nat)} (h : ∀ e ∈ expansions, e.2 ≠ [])
    (c : Char) : mapCase runs expansions c ≠ [] := by
  unfold mapCase
  split
  · next codes hcodes =>
    obtain ⟨before, after, rfl, -⟩ := List.lookup_eq_some_iff.1 hcodes
    exact fun hnil => h _ (List.mem_append_right _ List.mem_cons_self) (List.map_eq_nil_iff.1 hnil)
  · split <;> exact List.cons_ne_nil _ _

theorem upperChar_ne_nil (c : Char) : upperChar c ≠ [] := by
  unfold upperChar
  split
  · exact List.cons_ne_nil _ _
  · exact mapCase_ne_nil (by decide) c

theorem lowerChar_ne_nil (c : Char) : lowerChar c ≠ [] := by
  unfold lowerChar
  split
  · exact List.cons_ne_nil _ _
  · exact mapCase_ne_nil (by decide) c

end Text

namespace Renaming

theorem words_eq_nil_iff : ∀ {cs : List Char}, words cs = [] ↔ ∀ c ∈ cs, c = '_'
  | [] => by simp [words]
  | c :: cs => by
    have ih : words cs = [] ↔ ∀ c ∈ cs, c = '_' := words_eq_nil_iff
    unfold words at ih ⊢
    rw [List.splitOnP_cons_eq_if_modifyHead, List.forall_mem_cons]
    by_cases hc : c = '_'
    · simp only [hc, beq_self_eq_true, if_true, true_and]
      rw [List.filter_cons_of_neg (by simp), ih]
    · obtain ⟨w, ws, hws⟩ := List.exists_cons_of_ne_nil (List.splitOnP_ne_nil (· == '_') cs)
      simp [hc, hws, List.modifyHead]

theorem capitalized_ne_nil {w : List Char} (h : w ≠ []) : capitalized w ≠ [] := by
  cases w with
  | nil => exact absurd rfl h
  | cons c rest => exact fun hnil => Text.upperChar_ne_nil c (List.append_eq_nil_iff.1 hnil).1

theorem uncapitalized_eq_nil {w : List Char} : uncapitalized w = [] ↔ w = [] := by
  cases w with
  | nil => exact iff_of_true rfl rfl
  | cons c rest =>
    exact iff_of_false (fun hnil => Text.lowerChar_ne_nil c (List.append_eq_nil_iff.1 hnil).1) (List.cons_ne_nil _ _)

theorem flatMap_capitalized_eq_nil {cs : List Char} : (words cs).flatMap capitalized = [] ↔ ∀ c ∈ cs, c = '_' := by
  rw [← words_eq_nil_iff, List.flatMap_eq_nil_iff]
  constructor
  · intro h
    refine List.eq_nil_iff_forall_not_mem.2 fun w hw => capitalized_ne_nil ?_ (h w hw)
    simpa using (List.mem_filter.1 hw).2
  · intro h w hw
    rw [h] at hw
    cases hw

/-- Only a name of underscores is renamed to nothing. -/
theorem underscores_of_apply_eq_empty {r : Renaming} {field : String} (h : r.apply field = "") :
    ∀ c ∈ field.toList, c = '_' := by
  cases r with
  | none => simp [show field = "" from h]
  | snake => simp [show field = "" from h]
  | pascal => exact flatMap_capitalized_eq_nil.1 (String.ofList_eq_empty_iff.1 h)
  | camel => exact flatMap_capitalized_eq_nil.1 (uncapitalized_eq_nil.1 (String.ofList_eq_empty_iff.1 h))

end Renaming

/-! ## What an accepted definition has passed -/

section

variable {τ : Type}

theorem firstRepeated_eq_none : ∀ {names seen : List String}, firstRepeated seen names = none →
    names.Nodup ∧ ∀ name ∈ names, name ∉ seen
  | [], _, _ => ⟨.nil, fun _ h => absurd h List.not_mem_nil⟩
  | name :: names, seen, h => by
    rw [firstRepeated] at h
    split at h
    · cases h
    · next hseen =>
      obtain ⟨hnodup, hunseen⟩ := firstRepeated_eq_none h
      refine ⟨List.nodup_cons.2 ⟨fun hmem => hunseen name hmem List.mem_cons_self, hnodup⟩, ?_⟩
      exact List.forall_mem_cons.2 ⟨hseen, fun other hother hmem =>
        hunseen other hother (List.mem_cons_of_mem name hmem)⟩

/-- Where no role is repeated, each is taken once at most. -/
theorem repeatedRole?_eq_none : ∀ {fs : List (FieldPart τ)} {partition sort : Bool},
    repeatedRole? partition sort fs = none →
      partition.toNat + (fs.filter fun f => f.role == .partition).length ≤ 1 ∧
        sort.toNat + (fs.filter fun f => f.role == .sort).length ≤ 1
  | [], partition, sort, _ => ⟨Bool.toNat_le partition, Bool.toNat_le sort⟩
  | f :: fs, partition, sort, h => by
    rw [repeatedRole?] at h
    cases hrole : f.role with
    | none =>
      rw [hrole] at h
      rw [List.filter_cons_of_neg (by simp [hrole]), List.filter_cons_of_neg (by simp [hrole])]
      exact repeatedRole?_eq_none h
    | partition =>
      rw [hrole] at h
      cases partition with
      | true => cases h
      | false =>
        obtain ⟨hpartition, hsort⟩ := repeatedRole?_eq_none h
        rw [List.filter_cons_of_pos (by simp [hrole]), List.filter_cons_of_neg (by simp [hrole]), List.length_cons]
        simp only [Bool.toNat_true, Bool.toNat_false] at hpartition ⊢
        exact ⟨by omega, hsort⟩
    | sort =>
      rw [hrole] at h
      cases sort with
      | true => cases h
      | false =>
        obtain ⟨hpartition, hsort⟩ := repeatedRole?_eq_none h
        rw [List.filter_cons_of_neg (by simp [hrole]), List.filter_cons_of_pos (by simp [hrole]), List.length_cons]
        simp only [Bool.toNat_true, Bool.toNat_false] at hsort ⊢
        exact ⟨hpartition, by omega⟩

theorem filter_eq_toList_find? {α : Type} {p : α → Bool} {xs : List α} (h : (xs.filter p).length ≤ 1) :
    xs.filter p = (xs.find? p).toList := by
  rw [← List.head?_filter]
  match hfilter : xs.filter p with
  | [] => rfl
  | [x] => rfl
  | x :: y :: rest =>
    rw [hfilter, List.length_cons, List.length_cons] at h
    omega

theorem table_of_notes {d : Definition τ} {n : RecordNotes} (h : d.notes = .ok n) : n.table ≠ some "" := by
  have hstart : (none : Option String) ≠ some "" := nofun
  refine foldlM_invariant (P := fun n : RecordNotes => n.table ≠ some "") (fun n a n' hn hadd => ?_) hstart h
  unfold RecordNotes.add at hadd
  split at hadd
  · obtain ⟨table, -, hadd⟩ := bind_eq_ok.1 hadd
    split at hadd
    · cases hadd
    · next htable =>
      cases hadd
      exact fun h => htable (Option.some.inj h)
  · obtain ⟨text, -, hadd⟩ := bind_eq_ok.1 hadd
    split at hadd
    · cases hadd
      exact hn
    · cases hadd
  · cases hadd

theorem Annotation.needFlag_eq_ok {α : Type} {a : Annotation} {x y : α} (h : a.needFlag x = .ok y) : y = x := by
  unfold needFlag at h
  split at h
  · cases h
  · cases h
    rfl

/-- An annotation renames a field to something, or leaves its name. -/
theorem FieldPart.name_of_add {f g : FieldPart τ} {a : Annotation} (h : f.add a = .ok g) :
    g.name = f.name ∨ g.name ≠ "" := by
  have hrole : ∀ {role : KeyRole}, (f.setRole role >>= fun f => a.needFlag f) = .ok g → g.name = f.name := by
    intro role h
    obtain ⟨f', hset, h⟩ := bind_eq_ok.1 h
    obtain rfl := Annotation.needFlag_eq_ok h
    unfold setRole at hset
    split at hset
    · cases hset
      rfl
    · cases hset
  unfold add at h
  split at h
  · exact .inl (hrole h)
  · exact .inl (hrole h)
  · obtain ⟨name, -, h⟩ := bind_eq_ok.1 h
    split at h
    · cases h
    · next hname =>
      cases h
      exact .inr hname
  · obtain rfl := Annotation.needFlag_eq_ok h
    exact .inl rfl
  · obtain rfl := Annotation.needFlag_eq_ok h
    exact .inl rfl
  · obtain ⟨index, -, h⟩ := bind_eq_ok.1 h
    cases h
    exact .inl rfl
  · obtain ⟨index, -, h⟩ := bind_eq_ok.1 h
    cases h
    exact .inl rfl
  · obtain ⟨index, -, h⟩ := bind_eq_ok.1 h
    cases h
    exact .inl rfl
  · cases h

variable [OptionalType τ]

/-- What is known of a field once its annotations have been checked. -/
structure FieldPart.Checked (f : FieldPart τ) : Prop where
  skipped : f.skip = true → f.role = .none ∧ f.hasIndex = false
  required : f.role ≠ .none → f.nullable = false ∧ OptionalType.inner? f.type = none

/-- What is known of the parts of a shape once the definition has been accepted. -/
structure ShapeParts.Checked (s : ShapeParts τ) : Prop where
  table : s.table ≠ ""
  names : (s.persisted.map (·.name)).Nodup
  fields : ∀ f ∈ s.fields, f.Checked
  partition : (s.persisted.filter fun f => f.role == .partition) = [s.partition]
  sort : (s.persisted.filter fun f => f.role == .sort) = s.sort.toList
  indexes : IndexesOf s.fields s.indexes

theorem FieldPart.check_eq_ok {f g : FieldPart τ} (h : f.check = .ok g) : g = f := by
  unfold check at h
  repeat' split at h
  all_goals cases h
  all_goals rfl

theorem FieldPart.checked_of_check {f g : FieldPart τ} (h : f.check = .ok g) : g.Checked := by
  unfold check at h
  split at h
  · cases h
  · next hskip =>
    have hskipped : f.skip = true → f.role = .none ∧ f.hasIndex = false := by
      intro hs
      rw [hs, Bool.true_and, Bool.or_eq_true, Bool.or_eq_true, not_or, not_or] at hskip
      exact ⟨by simpa using hskip.1.1, by simpa using hskip.2⟩
    split at h
    · next hrole =>
      cases h
      exact ⟨hskipped, fun hne => absurd hrole hne⟩
    · split at h
      · cases h
      · next hnullable =>
        split at h
        · cases h
        · next hinner =>
          cases h
          exact ⟨hskipped, fun _ => ⟨by simpa using hnullable, Option.not_isSome_iff_eq_none.1 hinner⟩⟩

/-- Only a field whose own name is nothing but underscores can come to be stored under the empty name. -/
theorem FieldPart.underscores_of_unnamed {rule : Renaming} {d : FieldDefinition τ} {f : FieldPart τ}
    (h : ofDefinition rule d = .ok f) (hname : f.name = "") : ∀ c ∈ (unmarked d.ident).toList, c = '_' := by
  obtain ⟨g, hg, hcheck⟩ := bind_eq_ok.1 h
  obtain rfl := check_eq_ok hcheck
  have hrenamed : f.name = rule.apply (unmarked d.ident) ∨ f.name ≠ "" := by
    refine foldlM_invariant (P := fun g : FieldPart τ => g.name = rule.apply (unmarked d.ident) ∨ g.name ≠ "")
      (fun g a g' hg hadd => ?_) (.inl rfl) hg
    rcases name_of_add hadd with hsame | hnamed
    · rwa [hsame]
    · exact .inr hnamed
  exact Renaming.underscores_of_apply_eq_empty ((hrenamed.resolve_right fun hne => hne hname).symm.trans hname)

/-- What shapes and documents have both been asked for. -/
theorem parts_eq_ok {use : RecordUse} {d : Definition τ} {notes : RecordNotes} {record : RecordParts τ}
    (h : d.parts use = .ok (notes, record)) : d.notes = .ok notes ∧
      (∃ fields : List (FieldDefinition τ), fields.mapM (FieldPart.ofDefinition notes.rule) = .ok record.fields) ∧
      (record.persisted.map (·.name)).Nodup := by
  unfold Definition.parts at h
  split at h
  · cases h
  · split at h
    · cases h
    · cases h
    · obtain ⟨notes, hnotes, h⟩ := bind_eq_ok.1 h
      obtain ⟨fields, hfields, h⟩ := bind_eq_ok.1 h
      dsimp only at h
      split at h
      · cases h
      · next hrepeated =>
        cases h
        exact ⟨hnotes, ⟨_, hfields⟩, (firstRepeated_eq_none hrepeated).1⟩

theorem parts_of_document {d : Definition τ} {r : RecordParts τ} (h : d.document = .ok r) :
    ∃ notes, d.parts .document = .ok (notes, r) := by
  unfold Definition.document at h
  obtain ⟨⟨notes, record⟩, hparts, h⟩ := bind_eq_ok.1 h
  dsimp only at h
  repeat' split at h
  all_goals cases h
  exact ⟨notes, hparts⟩

theorem checked_of_shape {d : Definition τ} {s : ShapeParts τ} (h : d.shape = .ok s) : s.Checked := by
  unfold Definition.shape at h
  obtain ⟨⟨notes, record⟩, hparts, h⟩ := bind_eq_ok.1 h
  obtain ⟨hnotes, ⟨defs, hfields⟩, hnames⟩ := parts_eq_ok hparts
  dsimp only at h
  split at h
  · cases h
  · next table htable =>
    split at h
    · cases h
    · next hroles =>
      split at h
      · cases h
      · next partition hpartition =>
        obtain ⟨indexes, hindexes, h⟩ := bind_eq_ok.1 h
        cases h
        have honce := repeatedRole?_eq_none hroles
        rw [Bool.toNat_false, Nat.zero_add, Nat.zero_add] at honce
        refine ⟨fun h => table_of_notes hnotes (htable.trans (congrArg some h)), hnames, fun f hf => ?_, ?_,
          filter_eq_toList_find? honce.2, collectIndexes_spec hindexes⟩
        · obtain ⟨def', -, hdef⟩ := exists_of_mem_mapM hfields f hf
          obtain ⟨_, -, hcheck⟩ := bind_eq_ok.1 hdef
          exact FieldPart.checked_of_check hcheck
        · exact (filter_eq_toList_find? honce.1).trans (by rw [hpartition]; rfl)

end

/-! ## What compiling asks for -/

/-- The types that keys may have. -/
def FieldType.isKeyType : FieldType → Bool
  | .text | .numeral | .binary | .integer _ | .timestamp | .date | .uuid => true
  | _ => false

theorem FieldType.scalar_of_isKeyType {t : FieldType} (h : t.isKeyType = true) :
    t.kind.isKeyScalar = true ∧ t.isOptional = false := by
  cases t <;> first | exact ⟨rfl, rfl⟩ | cases h

theorem ShapeParts.scalar_of_bareType {f : FieldPart FieldType} (h : (bareType f).isKeyType = true) :
    f.type.kind.isKeyScalar = true := by
  unfold bareType at h
  cases htype : f.type with
  | option inner =>
    rw [htype] at h
    exact (FieldType.scalar_of_isKeyType (t := inner) h).1
  | _ =>
    rw [htype] at h
    exact (FieldType.scalar_of_isKeyType h).1

/-- What the checks of the definition leave to the author of a field: a name, and never to be both keys of an index. -/
structure FieldPart.Declarable (f : FieldPart FieldType) : Prop where
  named : f.name ≠ ""
  global : f.gsiPartition.isSome = true → f.gsiSort ≠ f.gsiPartition
  «local» : f.role = .partition → f.lsi = none

namespace ShapeParts

/-- The attribute that a stored field declares. -/
def declared (f : FieldPart FieldType) : Attribute where
  name := f.name
  kind := f.type.kind
  optional := f.type.isOptional
  nullable := f.nullable
  role := f.role

variable {s : ShapeParts FieldType}

theorem attributes_eq : s.declaration.attributes = s.persisted.map declared := rfl

theorem map_name_attributes : s.declaration.attributes.map (·.name) = s.persisted.map (·.name) := by
  rw [attributes_eq, List.map_map]
  rfl

theorem namesOf_attributes (role : KeyRole) :
    namesOf role s.declaration.attributes = (s.persisted.filter fun f => f.role == role).map (·.name) := by
  rw [namesOf, attributes_eq, List.filter_map, List.map_map]
  rfl

/-- The partition key that an index has once the table's stands in for a missing one. -/
def indexPartitionOf (s : ShapeParts FieldType) (x : IndexDeclaration) : String := x.partition.getD s.partition.name

section

variable (h : s.Checked)
include h

theorem Checked.mem_persisted {f : FieldPart FieldType} (hf : f ∈ s.fields) (hindex : f.hasIndex = true) :
    f ∈ s.persisted := by
  refine List.mem_filter.2 ⟨hf, ?_⟩
  cases hskip : f.skip with
  | false => rfl
  | true => exact absurd hindex (by rw [((h.fields f hf).skipped hskip).2]; exact nofun)

/-- The field that a part comes from. -/
theorem Checked.exists_field {p : IndexPart} (hp : p ∈ s.fields.flatMap (·.indexParts)) :
    ∃ f ∈ s.persisted, f.hasIndex = true ∧ p ∈ f.indexParts := by
  obtain ⟨f, hf, hpart⟩ := List.mem_flatMap.1 hp
  have hindex : f.hasIndex = true := by
    unfold FieldPart.hasIndex
    rcases (FieldPart.mem_indexParts.1 hpart).2 with ⟨-, -, hname⟩ | ⟨-, -, hname⟩ |
      ⟨-, -, hname⟩ <;> simp [hname]
  exact ⟨f, h.mem_persisted hf hindex, hindex, hpart⟩

theorem Checked.eq_of_name {f g : FieldPart FieldType} (hf : f ∈ s.persisted) (hg : g ∈ s.persisted)
    (hname : f.name = g.name) : f = g :=
  List.inj_on_of_nodup_map h.names hf hg hname

theorem Checked.partition_mem : s.partition ∈ s.persisted ∧ s.partition.role = .partition := by
  have hmem : s.partition ∈ s.persisted.filter fun f => f.role == .partition := by
    rw [h.partition]
    exact List.mem_singleton_self _
  obtain ⟨hmem, hrole⟩ := List.mem_filter.1 hmem
  exact ⟨hmem, beq_iff_eq.1 hrole⟩

theorem Checked.eq_partition {f : FieldPart FieldType} (hf : f ∈ s.persisted) (hrole : f.role = .partition) :
    f = s.partition := by
  have hmem : f ∈ s.persisted.filter fun f => f.role == .partition := List.mem_filter.2 ⟨hf, beq_iff_eq.2 hrole⟩
  rw [h.partition] at hmem
  exact List.mem_singleton.1 hmem

/-- Every field with a key, of the table or of an index, is of a type fit for it. -/
theorem Checked.scalar (hkeys : ∀ t ∈ s.keyTypes, t.isKeyType = true) {f : FieldPart FieldType} (hf : f ∈ s.persisted)
    (hkey : f.role ≠ .none ∨ f.hasIndex = true) : (bareType f).isKeyType = true := by
  refine hkeys _ (List.mem_map_of_mem ?_)
  rw [List.mem_append, List.mem_cons]
  cases hrole : f.role with
  | partition => exact .inl (.inl (h.eq_partition hf hrole))
  | sort =>
    refine .inl (.inr ?_)
    rw [← h.sort]
    exact List.mem_filter.2 ⟨hf, beq_iff_eq.2 hrole⟩
  | none =>
    have hindex := hkey.resolve_left fun hne => hne hrole
    exact .inr (List.mem_filter.2 ⟨hf, by rw [hindex, hrole]; rfl⟩)

theorem Checked.fitsKey (hkeys : ∀ t ∈ s.keyTypes, t.isKeyType = true) {f : FieldPart FieldType}
    (hf : f ∈ s.persisted) (hrole : f.role ≠ .none) : (declared f).FitsKey := by
  obtain ⟨hnullable, hinner⟩ := (h.fields f (List.mem_filter.1 hf).1).required hrole
  have htype := h.scalar hkeys hf (.inl hrole)
  rw [bareType, hinner, Option.getD_none] at htype
  obtain ⟨hscalar, hoptional⟩ := FieldType.scalar_of_isKeyType htype
  exact ⟨hscalar, hoptional, hnullable⟩

/-- The keys of an index are stored fields, and one field is not both. -/
theorem Checked.index_compilesTo (hkeys : ∀ t ∈ s.keyTypes, t.isKeyType = true) {x : IndexDeclaration}
    (hx : x ∈ s.indexes) (happart : x.sort ≠ some (s.indexPartitionOf x)) :
    x.CompilesTo s.partition.name s.declaration.attributes ⟨x.name, x.kind, ⟨s.indexPartitionOf x, x.sort⟩⟩ := by
  have hformed := h.indexes.formed x hx
  have hkey : ∀ name, (∃ p ∈ s.fields.flatMap (·.indexParts), p.name = name) →
      ∃ a ∈ s.declaration.attributes, a.name = name ∧ a.kind.isKeyScalar = true := by
    rintro _ ⟨p, hp, rfl⟩
    obtain ⟨f, hf, hindex, hpart⟩ := h.exists_field hp
    have hname : p.name = f.name := (FieldPart.mem_indexParts.1 hpart).1
    exact ⟨declared f, List.mem_map_of_mem hf, hname.symm, scalar_of_bareType (h.scalar hkeys hf (.inr hindex))⟩
  have hpartition : ∃ a ∈ s.declaration.attributes, a.name = s.indexPartitionOf x ∧ a.kind.isKeyScalar = true := by
    unfold indexPartitionOf
    cases hname : x.partition with
    | some name => exact hkey name ⟨_, (hformed.partition name).1 hname, rfl⟩
    | none =>
      obtain ⟨hmem, hrole⟩ := h.partition_mem
      exact ⟨declared s.partition, List.mem_map_of_mem hmem, rfl,
        (h.fitsKey hkeys hmem (by rw [hrole]; exact nofun)).scalar⟩
  refine ⟨rfl, rfl, ?_, fun hlocal => ?_, rfl, fun hlocal => ?_, fun name hname => ?_, happart⟩
  · cases hkind : x.kind with
    | global =>
      obtain ⟨name, hname⟩ := Option.isSome_iff_exists.1 (h.indexes.globalKey x hx hkind)
      exact .inl (by rw [indexPartitionOf, hname]; rfl)
    | «local» => exact .inr ⟨rfl, (h.indexes.localKey x hx hkind).1⟩
  · rw [indexPartitionOf, (h.indexes.localKey x hx hlocal).1]
    rfl
  · exact Option.isSome_iff_ne_none.1 (h.indexes.localKey x hx hlocal).2
  · rcases List.mem_cons.1 hname with rfl | hsort
    · exact hpartition
    · exact hkey name ⟨_, (hformed.sort name).1 (Option.mem_toList.1 hsort), rfl⟩

/-- One field is both keys of an index only where its annotations say so. -/
theorem Checked.keys_apart_iff : (∀ x ∈ s.indexes, x.sort ≠ some (s.indexPartitionOf x)) ↔
    ∀ f ∈ s.persisted, (f.gsiPartition.isSome = true → f.gsiSort ≠ f.gsiPartition) ∧
      (f.role = .partition → f.lsi = none) := by
  constructor
  · intro hapart f hf
    have hpart : ∀ p ∈ f.indexParts, p ∈ s.fields.flatMap (·.indexParts) :=
      fun p hp => List.mem_flatMap.2 ⟨f, (List.mem_filter.1 hf).1, hp⟩
    -- either way the index that the field is put into has it for both keys
    refine ⟨fun hsome hsame => ?_, fun hrole => Option.eq_none_iff_forall_ne_some.2 fun index hlsi => ?_⟩
    · obtain ⟨index, hindex⟩ := Option.isSome_iff_exists.1 hsome
      have hp := hpart ⟨index, .global, .partition, f.name⟩
        (FieldPart.mem_indexParts.2 ⟨rfl, .inl ⟨rfl, rfl, hindex⟩⟩)
      have hs := hpart ⟨index, .global, .sort, f.name⟩
        (FieldPart.mem_indexParts.2 ⟨rfl, .inr (.inl ⟨rfl, rfl, hsame.trans hindex⟩)⟩)
      obtain ⟨x, hx, rfl⟩ := h.indexes.complete _ hp
      have hformed := h.indexes.formed x hx
      have hkind := hformed.kind _ hp rfl
      refine hapart x hx ?_
      rw [indexPartitionOf, (hformed.partition f.name).2 (hkind ▸ hp)]
      exact (hformed.sort f.name).2 (hkind ▸ hs)
    · have hs := hpart ⟨index, .local, .sort, f.name⟩
        (FieldPart.mem_indexParts.2 ⟨rfl, .inr (.inr ⟨rfl, rfl, hlsi⟩)⟩)
      obtain ⟨x, hx, rfl⟩ := h.indexes.complete _ hs
      have hformed := h.indexes.formed x hx
      have hkind := hformed.kind _ hs rfl
      refine hapart x hx ?_
      rw [indexPartitionOf, (h.indexes.localKey x hx hkind.symm).1, Option.getD_none, ← h.eq_partition hf hrole]
      exact (hformed.sort f.name).2 (hkind ▸ hs)
  · intro hfields x hx hsame
    -- the fields that are the keys of the index have one name, so they are one field
    have hformed := h.indexes.formed x hx
    obtain ⟨f, hf, -, hpart⟩ := h.exists_field ((hformed.sort _).1 hsame)
    obtain ⟨hname, hcase⟩ := FieldPart.mem_indexParts.1 hpart
    obtain ⟨hglobal, hlocal⟩ := hfields f hf
    rcases hcase with ⟨-, hrole, -⟩ | ⟨hkind, -, hsort⟩ | ⟨hkind, -, hlsi⟩
    · cases hrole
    · obtain ⟨name, hpartition⟩ := Option.isSome_iff_exists.1 (h.indexes.globalKey x hx hkind)
      obtain ⟨g, hg, -, hpart'⟩ := h.exists_field ((hformed.partition name).1 hpartition)
      obtain ⟨hname', hcase'⟩ := FieldPart.mem_indexParts.1 hpart'
      rw [indexPartitionOf, hpartition] at hname
      obtain rfl : f = g := h.eq_of_name hf hg (hname.symm.trans hname')
      rcases hcase' with ⟨-, -, hindex⟩ | ⟨-, hrole, -⟩ | ⟨-, hrole, -⟩
      · exact hglobal (Option.isSome_iff_exists.2 ⟨_, hindex⟩) (hsort.trans hindex.symm)
      · cases hrole
      · cases hrole
    · rw [indexPartitionOf, (h.indexes.localKey x hx hkind).1] at hname
      obtain ⟨hmem, hrole⟩ := h.partition_mem
      obtain rfl : f = s.partition := h.eq_of_name hf hmem hname.symm
      cases hlsi.symm.trans (hlocal hrole)

end

end ShapeParts

/-- **The shape of an accepted definition compiles exactly if every field has a name and none is both keys of an
index.**  The types of keys are asked to be fit for them, and everything else has been checked. -/
theorem definition_compiles_iff (d : Definition FieldType) (s : ShapeParts FieldType) (h : d.shape = .ok s)
    (hkeys : ∀ t ∈ s.keyTypes, t.isKeyType = true) :
    (∃ desc, s.declaration.compile = .ok desc) ↔ ∀ f ∈ s.persisted, f.Declarable := by
  have hchecked := checked_of_shape h
  have hsplit : (∀ f ∈ s.persisted, f.Declarable) ↔
      (∀ f ∈ s.persisted, f.name ≠ "") ∧ ∀ x ∈ s.indexes, x.sort ≠ some (s.indexPartitionOf x) := by
    rw [hchecked.keys_apart_iff]
    constructor
    · exact fun hf => ⟨fun f hmem => (hf f hmem).named, fun f hmem => ⟨(hf f hmem).global, (hf f hmem).local⟩⟩
    · exact fun hf f hmem => ⟨hf.1 f hmem, (hf.2 f hmem).1, (hf.2 f hmem).2⟩
  rw [hsplit]
  constructor
  · rintro ⟨desc, hdesc⟩
    have hcompiles := Declaration.compile_eq_ok_iff.1 hdesc
    have hpartition : desc.key.partition = s.partition.name := by
      have hnames := hcompiles.partition
      rw [ShapeParts.namesOf_attributes, hchecked.partition] at hnames
      exact (List.cons.inj hnames).1.symm
    have hapart : List.Forall₂ (fun x y => x.sort ≠ some (s.indexPartitionOf x) ∧
        x.CompilesTo desc.key.partition s.declaration.attributes y) s.indexes desc.indexes :=
      hcompiles.indexes.imp fun x y hy =>
        ⟨by rw [ShapeParts.indexPartitionOf, ← hpartition, ← hy.partition_eq]; exact hy.different, hy⟩
    exact ⟨fun f hf => hcompiles.named (ShapeParts.declared f) (List.mem_map_of_mem hf),
      ((List.forall₂_and_left _ _).1 hapart).1⟩
  · rintro ⟨hnamed, hapart⟩
    refine ⟨⟨s.name, s.table, s.declaration.attributes, ⟨s.partition.name, s.sort.map (·.name)⟩,
      s.indexes.map fun x => ⟨x.name, x.kind, ⟨s.indexPartitionOf x, x.sort⟩⟩⟩,
      Declaration.compile_eq_ok_iff.2 ?_⟩
    refine ⟨rfl, rfl, rfl, hchecked.table, List.forall_mem_map.2 hnamed, ?_, ?_, ?_, ?_, hchecked.indexes.names, ?_⟩
    · rw [ShapeParts.map_name_attributes]
      exact hchecked.names
    · refine List.forall_mem_map.2 fun f hf hkey => hchecked.fitsKey hkeys hf ?_
      simpa [Attribute.isKey, ShapeParts.declared] using hkey
    · rw [ShapeParts.namesOf_attributes, hchecked.partition]
      rfl
    · rw [ShapeParts.namesOf_attributes, hchecked.sort]
      cases s.sort <;> rfl
    · refine List.forall₂_map_right_iff.2 (List.forall₂_same.2 fun x hx => ?_)
      exact hchecked.index_compilesTo hkeys hx (hapart x hx)

theorem definition_compiles_iff_of_orders : ∃ s, Samples.orderDefinition.shape = .ok s ∧
    (∀ t ∈ s.keyTypes, t.isKeyType = true) ∧
      ((∃ desc, s.declaration.compile = .ok desc) ↔ ∀ f ∈ s.persisted, f.Declarable) := by
  have hshape : ∃ s, Samples.orderDefinition.shape = .ok s ∧ ∀ t ∈ s.keyTypes, t.isKeyType = true := by
    refine ⟨_, rfl, ?_⟩
    decide
  obtain ⟨s, hs, hkeys⟩ := hshape
  exact ⟨s, hs, hkeys, definition_compiles_iff _ s hs hkeys⟩

/-- A record whose partition key is also to be the sort key of a local index. -/
def selfIndexed : Definition FieldType :=
  Samples.record "T" [Samples.setting "table" "t"]
    [Samples.field "id" .text [Samples.flag "partition_key", Samples.setting "lsi" "byId"]]

/-- The definition is accepted, all types of its keys are fit for them, and yet its declaration does not compile. -/
theorem self_indexed_does_not_compile : ∃ s, selfIndexed.shape = .ok s ∧ (∀ t ∈ s.keyTypes, t.isKeyType = true) ∧
    s.declaration.compile =
      .error (.schema "T" "index 'byId' uses 'id' as both partition and sort key") := by
  refine ⟨_, rfl, ?_, rfl⟩
  decide

end ItemStore
