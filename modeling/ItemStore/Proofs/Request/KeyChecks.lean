import ItemStore.Proofs.Request.KeyCondition
import ItemStore.Proofs.Request.Keys
import ItemStore.Proofs.Shape.Validity
/-!
# What a compiled shape knows of its keys

A descriptor that has come out of a declaration has the attributes that its keys name, those of the table and those of
each index.  So whatever else the checks of a key find wrong, it is never that the shape lacks the attribute
(`Descriptor.ChecksKeys`).
-/
namespace ItemStore

open Outcome (bind_eq_ok bind_eq_error)

/-- Whatever has gone wrong, it is not that the shape lacks an attribute. -/
def Outcome.Knows {α : Type} (x : Except Error α) : Prop := ∀ shape name, x ≠ .error (.unknownAttribute shape name)

namespace Outcome
variable {α β : Type}

theorem knows_ok (a : α) : Knows (.ok a : Except Error α) := fun _ _ h => by cases h

theorem Knows.bind {x : Except Error α} {f : α → Except Error β} (hx : Knows x)
    (hf : ∀ a, x = .ok a → Knows (f a)) : Knows (x >>= f) := by
  intro shape name h
  rcases bind_eq_error.1 h with h | ⟨a, ha, h⟩
  · exact hx shape name h
  · exact hf a ha shape name h

end Outcome

open Outcome (Knows knows_ok Knows.bind)

namespace Descriptor

/-- The checks of keys that requests for this shape make. -/
structure ChecksKeys (s : Descriptor) : Prop where
  /-- A value for an attribute of the key of the table or of an index. -/
  value : ∀ index key, s.keySchema index = .ok key → ∀ name ∈ key.names, ∀ v, Knows (s.checkKeyValue name v)
  /-- The values of a primary key. -/
  keyItem : ∀ k, Knows (s.keyItem k)
  /-- The key that an item carries. -/
  keyOfItem : ∀ item, Knows (s.keyOfItem item)
  /-- The key of a query, and the conditions that it comes to. -/
  query : ∀ (q : Query) (key : KeySchema), q.shape = s → s.keySchema q.index = .ok key → Knows (q.keyClauses key) ∧
    ∀ partition sort, q.keyClauses key = .ok (partition, sort) →
      Knows (partition.validate s) ∧ Knows (Query.checkSort s sort)

/-- The keys that can be asked for are those of the table and of the indexes. -/
structure HasKeys (s : Descriptor) : Prop where
  table : s.keySchema none = .ok s.key
  index : ∀ i ∈ s.indexes, s.keySchema (some i.name) = .ok i.key
  no_other : ∀ name, (∀ i ∈ s.indexes, i.name ≠ name) →
    ∃ detail, s.keySchema (some name) = .error (.invalidQuery detail)

end Descriptor

/-! ## Keys are declared -/

namespace Declaration.CompilesTo
variable {d : Declaration} {s : Descriptor}

theorem hasKeys (h : d.CompilesTo s) : s.HasKeys := by
  have hnames : (s.indexes.map (·.name)).Nodup := by
    have hsame : s.indexes.map (·.name) = d.indexes.map (·.name) := by
      rw [h.mirrors.indexes, List.map_map]
      rfl
    rw [hsame]
    exact h.indexNames
  refine ⟨rfl, fun i hi => ?_, fun name hname => ?_⟩
  · have hfind : s.index? i.name = some i := by
      cases hfind : s.index? i.name with
      | none => exact absurd (beq_self_eq_true i.name) (List.find?_eq_none.1 hfind i hi)
      | some j =>
        have hj : j.name = i.name := by simpa using List.find?_some hfind
        rw [List.inj_on_of_nodup_map hnames (List.mem_of_find?_eq_some hfind) hi hj]
    simp only [Descriptor.keySchema, hfind]
  · have hnone : s.index? name = none := List.find?_eq_none.2 fun i hi => by simpa using hname i hi
    simp only [Descriptor.keySchema, hnone]
    exact ⟨_, rfl⟩

/-- The names of a key are those of declared attributes that can be keys. -/
theorem exists_of_mem_names (h : d.CompilesTo s) {index : Option String} {key : KeySchema}
    (hkey : s.keySchema index = .ok key) {name : String} (hname : name ∈ key.names) :
    ∃ a ∈ d.attributes, a.name = name ∧ a.kind.isKeyScalar = true ∧ s.attribute? name = some a := by
  cases index with
  | none =>
    obtain rfl : s.key = key := Except.ok.inj hkey
    obtain ⟨a, ha, hfit⟩ := h.exists_keyAttribute hname
    have hmem : a ∈ d.attributes := h.attributes ▸ List.mem_of_find?_eq_some ha
    have hself : a.name = name := by simpa using List.find?_some ha
    exact ⟨a, hmem, hself, hfit.scalar, ha⟩
  | some indexName =>
    cases hfound : s.index? indexName with
    | none => simp [Descriptor.keySchema, hfound] at hkey
    | some i =>
      obtain rfl : i.key = key := by simpa [Descriptor.keySchema, hfound] using hkey
      have hi : i ∈ d.indexes.map (·.index s.key.partition) := h.mirrors.indexes ▸ List.mem_of_find?_eq_some hfound
      obtain ⟨declared, hdeclared, rfl⟩ := List.mem_map.1 hi
      obtain ⟨p, hp, hrole, hpartition⟩ := h.mirrors.partition
      have hvalid := (exists_compilesTo_iff_valid.1 ⟨s, h⟩).indexes p hp hrole declared hdeclared
      rw [hpartition] at hvalid
      obtain ⟨a, ha, rfl, hscalar⟩ := hvalid.scalar name (IndexDeclaration.mem_names_index.1 hname)
      exact ⟨a, ha, rfl, hscalar, by rw [Descriptor.attribute?, h.attributes, find?_name h.distinct ha]⟩

/-! ## Checks of keys -/

theorem knows_requireAttribute (h : d.CompilesTo s) {index : Option String} {key : KeySchema}
    (hkey : s.keySchema index = .ok key) {name : String} (hname : name ∈ key.names) :
    Knows (s.requireAttribute name) := by
  obtain ⟨a, -, -, -, ha⟩ := h.exists_of_mem_names hkey hname
  rw [Descriptor.requireAttribute, ha]
  exact knows_ok a

theorem knows_checkKeyValue (h : d.CompilesTo s) {index : Option String} {key : KeySchema}
    (hkey : s.keySchema index = .ok key) {name : String} (hname : name ∈ key.names) (v : Value) :
    Knows (s.checkKeyValue name v) := by
  refine (h.knows_requireAttribute hkey hname).bind fun a _ => ?_
  split
  · exact knows_ok ()
  · exact fun _ _ hfault => by cases hfault

/-- The table's own key is what is read without an index. -/
theorem knows_checkTableKey (h : d.CompilesTo s) {name : String} (hname : name ∈ s.key.names) (v : Value) :
    Knows (s.checkKeyValue name v) := by
  have hkey : s.keySchema none = .ok s.key := rfl
  exact h.knows_checkKeyValue hkey hname v

theorem knows_keyItem (h : d.CompilesTo s) (k : PrimaryKey) : Knows (s.keyItem k) := by
  unfold Descriptor.keyItem
  refine (h.knows_checkTableKey List.mem_cons_self _).bind fun _ _ => ?_
  split
  · next name v hsort _ =>
    have hname : name ∈ s.key.names := List.mem_cons_of_mem _ (by rw [hsort]; exact List.mem_singleton_self name)
    exact (h.knows_checkTableKey hname v).bind fun _ _ => knows_ok _
  all_goals exact fun _ _ hfault => by cases hfault

theorem knows_takeKey (h : d.CompilesTo s) (item : Item) : ∀ (names : List String) (key : Item),
    (∀ name ∈ names, name ∈ s.key.names) → Knows (s.takeKey item key names)
  | [], key, _ => knows_ok key
  | name :: names, key, hnames => by
    obtain ⟨hname, hnames⟩ := List.forall_mem_cons.1 hnames
    rw [Descriptor.takeKey]
    split
    · exact fun _ _ hfault => by cases hfault
    · next v _ =>
      exact (h.knows_checkTableKey hname v).bind fun _ _ => h.knows_takeKey item names _ hnames

end Declaration.CompilesTo

/-! ## Queries -/

namespace Condition

theorem knows_conjuncts (c : Condition) : Knows c.conjuncts := by
  induction c with
  | and left right ihl ihr => exact ihl.bind fun ls _ => ihr.bind fun rs _ => knows_ok _
  | or | not => exact fun _ _ hfault => by cases hfault
  | _ => exact knows_ok _

theorem knows_checkOperand (a : Attribute) (v : Value) : Knows (checkOperand a v) := by
  unfold checkOperand
  split
  · exact knows_ok ()
  · exact fun _ _ hfault => by cases hfault

theorem knows_requireOrdered (a : Attribute) : Knows (requireOrdered a) := by
  unfold requireOrdered
  split
  · exact knows_ok ()
  · exact fun _ _ hfault => by cases hfault

end Condition

namespace Query

theorem knows_add (target : String) (key : KeySchema) (k : KeyClauses) (c : Condition) :
    Knows (k.add target key c) := by
  unfold KeyClauses.add
  intro shape name h
  dsimp only at h
  repeat' split at h
  all_goals cases h

theorem knows_foldlM (target : String) (key : KeySchema) : ∀ (cs : List Condition) (k : KeyClauses),
    Knows (cs.foldlM (KeyClauses.add target key) k)
  | [], k => knows_ok k
  | c :: cs, k => by
    rw [List.foldlM_cons]
    exact (knows_add target key k c).bind fun k' _ => knows_foldlM target key cs k'

theorem knows_mapM_conjuncts : ∀ cs : List Condition, Knows (cs.mapM Condition.conjuncts)
  | [] => knows_ok []
  | c :: cs => by
    rw [List.mapM_cons]
    exact c.knows_conjuncts.bind fun ls _ => (knows_mapM_conjuncts cs).bind fun rest _ => knows_ok _

theorem knows_keyClauses (q : Query) (key : KeySchema) : Knows (q.keyClauses key) := by
  have hsort : Knows (q.sortClause key) := by
    unfold sortClause
    split
    · exact knows_ok _
    · exact fun _ _ hfault => by cases hfault
    · exact knows_ok none
  unfold keyClauses
  refine hsort.bind fun sort _ => (knows_mapM_conjuncts _).bind fun leaves _ =>
    (knows_foldlM _ _ _ _).bind fun k _ => ?_
  split
  · exact knows_ok _
  · exact fun _ _ hfault => by cases hfault

end Query

theorem SortCondition.knows_validate {d : Descriptor} {name : String} (h : Knows (d.requireAttribute name))
    (c : SortCondition) : Knows ((c.on name).validate d) := by
  have hcompare : ∀ op v, Knows ((Condition.compare name op v).validate d) := fun op v => by
    rw [Condition.validate]
    refine h.bind fun a _ => ?_
    split
    · exact (Condition.knows_requireOrdered a).bind fun _ _ => Condition.knows_checkOperand a v
    · exact Condition.knows_checkOperand a v
  cases c with
  | between low high =>
    rw [on, Condition.validate]
    exact h.bind fun a _ => (Condition.knows_requireOrdered a).bind fun _ _ =>
      (Condition.knows_checkOperand a low).bind fun _ _ => Condition.knows_checkOperand a high
  | beginsWith start =>
    rw [on, Condition.validate]
    refine h.bind fun a _ => ?_
    split
    · exact Condition.knows_checkOperand a start
    · exact fun _ _ hfault => by cases hfault
  | _ => exact hcompare _ _

/-- A shape that has compiled has the attributes that its keys speak of. -/
theorem Declaration.CompilesTo.checksKeys {d : Declaration} {s : Descriptor} (h : d.CompilesTo s) : s.ChecksKeys := by
  refine ⟨fun _ _ hkey _ hname v => h.knows_checkKeyValue hkey hname v, h.knows_keyItem,
    fun item => h.knows_takeKey item s.key.names [] fun _ hname => hname, ?_⟩
  rintro q key rfl hkey
  refine ⟨q.knows_keyClauses key, fun partition sort hclauses => ?_⟩
  obtain ⟨⟨v, rfl⟩, hsort⟩ := Query.keyClauses_forms hclauses
  refine ⟨(SortCondition.equal v).knows_validate (h.knows_requireAttribute hkey List.mem_cons_self), ?_⟩
  cases sort with
  | none => exact knows_ok ()
  | some c =>
    obtain ⟨name, hname, c, rfl⟩ := hsort c rfl
    exact c.knows_validate (h.knows_requireAttribute hkey (List.mem_cons_of_mem _ (Option.mem_toList.2 hname)))

/-! ## Declarations and their descriptors -/

/-- **A declaration compiles exactly if it is valid, and into its mirror image.**  Every key of the table and of its
indexes then names declared attributes of scalar kinds, and no check of a key ever finds that the shape lacks one. -/
theorem declarations_compile_iff_valid (d : Declaration) :
    ((∃ s, d.compile = .ok s) ↔ d.Valid) ∧
    ∀ s, d.compile = .ok s → s.Mirrors d ∧ s.HasKeys ∧
      (∀ index key, s.keySchema index = .ok key → ∀ name ∈ key.names,
        ∃ a ∈ d.attributes, a.name = name ∧ a.kind.isKeyScalar = true ∧ s.attribute? name = some a) ∧
      s.ChecksKeys := by
  simp only [Declaration.compile_eq_ok_iff]
  exact ⟨Declaration.exists_compilesTo_iff_valid, fun s h => ⟨h.mirrors, h.hasKeys,
    fun _ _ hkey _ hname => h.exists_of_mem_names hkey hname, h.checksKeys⟩⟩

/-- Orders with an index of each kind, the local one on the table's own partition key. -/
theorem declarations_compile_iff_valid_of_orders :
    let attributes : List Attribute :=
      [⟨"id", .string, false, false, .partition⟩, ⟨"at", .string, false, false, .sort⟩,
        ⟨"customer", .string, true, false, .none⟩, ⟨"total", .number, false, true, .none⟩]
    let d : Declaration := ⟨"Order", "orders", attributes,
      [⟨"byTotal", .local, none, some "total"⟩, ⟨"byCustomer", .global, some "customer", some "at"⟩]⟩
    d.Valid ∧ ∃ s, d.compile = .ok s ∧ s.Mirrors d ∧ s.HasKeys ∧
      s.keySchema (some "byTotal") = .ok ⟨"id", some "total"⟩ ∧ (∀ name ∈ ["id", "total"],
        ∃ a ∈ d.attributes, a.name = name ∧ a.kind.isKeyScalar = true ∧ s.attribute? name = some a) ∧
      s.ChecksKeys := by
  intro attributes d
  obtain ⟨hvalid, hall⟩ := declarations_compile_iff_valid d
  have hcompile : d.compile = .ok ⟨"Order", "orders", attributes, ⟨"id", some "at"⟩,
    [⟨"byTotal", .local, ⟨"id", some "total"⟩⟩, ⟨"byCustomer", .global, ⟨"customer", some "at"⟩⟩]⟩ := rfl
  obtain ⟨hmirrors, hkeys, hnames, hchecks⟩ := hall _ hcompile
  exact ⟨hvalid.1 ⟨_, hcompile⟩, _, hcompile, hmirrors, hkeys, rfl, hnames (some "byTotal") _ rfl, hchecks⟩

end ItemStore
