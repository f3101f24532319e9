import Mathlib.Data.List.Nodup
import ItemStore.Proofs.Outcome
import ItemStore.Shape.Compile
/-!
# What a declaration needs to compile

The checks of a declaration, one after the other and each stopping at the first fault, come to a list of rules that
mentions no order (`Declaration.CompilesTo`), and the descriptor they make is the declaration with its keys named
(`Declaration.compile_eq_ok_iff`).
-/
namespace ItemStore

open Outcome (bind_eq_ok mapError_eq_ok forM_eq_ok)

/-! ## The rules -/

/-- The names of the attributes with a part in the table's key. -/
def namesOf (role : KeyRole) (as : List Attribute) : List String := (as.filter fun a => a.role == role).map (·.name)

structure Attribute.FitsKey (a : Attribute) : Prop where
  scalar : a.kind.isKeyScalar = true
  required : a.optional = false
  present : a.nullable = false

/-- The index `x` is what the declaration `i` describes. -/
structure IndexDeclaration.CompilesTo (tablePartition : String) (as : List Attribute) (i : IndexDeclaration)
    (x : Index) : Prop where
  name : x.name = i.name
  kind : x.kind = i.kind
  partition : i.partition = some x.key.partition ∨ i.kind = .local ∧ i.partition = none
  shared : i.kind = .local → x.key.partition = tablePartition
  sort : x.key.sort = i.sort
  sorted : i.kind = .local → i.sort ≠ none
  scalar : ∀ name ∈ x.key.names, ∃ a ∈ as, a.name = name ∧ a.kind.isKeyScalar = true
  different : i.sort ≠ some x.key.partition

/-- The declaration keeps all the rules, and the descriptor mirrors it. -/
structure Declaration.CompilesTo (d : Declaration) (s : Descriptor) : Prop where
  name : s.name = d.name
  table : s.table = d.table
  attributes : s.attributes = d.attributes
  tableNamed : d.table ≠ ""
  named : ∀ a ∈ d.attributes, a.name ≠ ""
  distinct : (d.attributes.map (·.name)).Nodup
  fit : ∀ a ∈ d.attributes, a.isKey = true → a.FitsKey
  partition : namesOf .partition d.attributes = [s.key.partition]
  sort : namesOf .sort d.attributes = s.key.sort.toList
  indexNames : (d.indexes.map (·.name)).Nodup
  indexes : List.Forall₂ (IndexDeclaration.CompilesTo s.key.partition d.attributes) d.indexes s.indexes

/-! ## Attributes -/

theorem namesOf_cons (role : KeyRole) (a : Attribute) (as : List Attribute) :
    namesOf role (a :: as) = namesOf role [a] ++ namesOf role as := by
  rw [namesOf, namesOf, namesOf, ← List.map_append, ← List.filter_append, List.singleton_append]

theorem namesOf_self {role : KeyRole} {a : Attribute} (h : a.role = role) : namesOf role [a] = [a.name] := by
  simp [namesOf, h]

theorem namesOf_other {role : KeyRole} {a : Attribute} (h : a.role ≠ role) : namesOf role [a] = [] := by
  simp [namesOf, h]

theorem checkKeyAttribute_eq_ok {a : Attribute} : checkKeyAttribute a = .ok () ↔ a.FitsKey := by
  unfold checkKeyAttribute
  constructor
  · intro h
    split at h
    · cases h
    · next hscalar =>
      split at h
      · cases h
      · next habsent =>
        obtain ⟨hoptional, hnullable⟩ := Bool.or_eq_false_iff.1 (Bool.eq_false_iff.2 habsent)
        exact ⟨by simpa using hscalar, hoptional, hnullable⟩
  · intro ⟨hscalar, hoptional, hnullable⟩
    rw [hscalar, hoptional, hnullable]
    rfl

theorem toList_inj {α : Type} {o o' : Option α} : o.toList = o'.toList ↔ o = o' := by
  cases o <;> cases o' <;> simp

/-- What is found first of a role is all that may be found of it. -/
theorem KeysFound.add_eq_ok {k k' : KeysFound} {a : Attribute} : k.add a = .ok k' ↔
    (a.isKey = true → a.FitsKey) ∧ k'.partition.toList = k.partition.toList ++ namesOf .partition [a] ∧
      k'.sort.toList = k.sort.toList ++ namesOf .sort [a] := by
  obtain ⟨partition, sort⟩ := k
  obtain ⟨partition', sort'⟩ := k'
  unfold add
  cases hrole : a.role with
  | none =>
    have hkey : a.isKey = false := by rw [Attribute.isKey, hrole]; rfl
    rw [namesOf_other (by rw [hrole]; decide), namesOf_other (by rw [hrole]; decide), hkey]
    simp [toList_inj, eq_comm]
  | partition =>
    have hkey : a.isKey = true := by rw [Attribute.isKey, hrole]; rfl
    rw [namesOf_self hrole, namesOf_other (by rw [hrole]; decide), hkey]
    cases partition with
    | some first => cases partition' <;> simp
    | none =>
      rw [← checkKeyAttribute_eq_ok]
      have hfirst : partition'.toList = [a.name] ↔ partition' = some a.name := @toList_inj _ partition' (some a.name)
      cases checkKeyAttribute a <;> simp [Except.map, toList_inj, hfirst, eq_comm]
  | sort =>
    have hkey : a.isKey = true := by rw [Attribute.isKey, hrole]; rfl
    rw [namesOf_self hrole, namesOf_other (by rw [hrole]; decide), hkey]
    cases sort with
    | some first => cases sort' <;> simp
    | none =>
      rw [← checkKeyAttribute_eq_ok]
      have hfirst : sort'.toList = [a.name] ↔ sort' = some a.name := @toList_inj _ sort' (some a.name)
      cases checkKeyAttribute a <;> simp [Except.map, toList_inj, hfirst, eq_comm]

theorem exists_toList_of_append {α : Type} {o : Option α} {xs ys : List α} (h : o.toList = xs ++ ys) :
    ∃ o' : Option α, o'.toList = xs := by
  cases xs with
  | nil => exact ⟨none, rfl⟩
  | cons x xs =>
    cases o with
    | none => cases h
    | some a =>
      obtain ⟨rfl, hrest⟩ := List.cons_eq_cons.1 h
      exact ⟨some a, by rw [(List.append_eq_nil_iff.1 hrest.symm).1]; rfl⟩

/-- The search goes through exactly when the names are good, the key attributes fit, and no role is taken twice. -/
theorem findKeys_eq_ok : ∀ {as : List Attribute} {seen : List String} {k k' : KeysFound}, findKeys seen k as = .ok k' ↔
    (∀ a ∈ as, a.name ≠ "") ∧ (as.map (·.name)).Nodup ∧ (∀ a ∈ as, a.name ∉ seen) ∧
      (∀ a ∈ as, a.isKey = true → a.FitsKey) ∧ k'.partition.toList = k.partition.toList ++ namesOf .partition as ∧
      k'.sort.toList = k.sort.toList ++ namesOf .sort as
  | [], seen, k, k' => by
    obtain ⟨partition, sort⟩ := k
    obtain ⟨partition', sort'⟩ := k'
    simp only [findKeys, namesOf, List.filter_nil, List.map_nil, List.append_nil, toList_inj]
    constructor
    · intro h
      cases h
      simp
    · rintro ⟨-, -, -, -, rfl, rfl⟩
      rfl
  | a :: as, seen, k, k' => by
    rw [findKeys, namesOf_cons .partition, namesOf_cons .sort, List.map_cons, List.nodup_cons]
    simp only [List.forall_mem_cons]
    constructor
    · intro h
      split at h
      · cases h
      · next hname =>
        split at h
        · cases h
        · next hseen =>
          obtain ⟨next, hadd, hrest⟩ := bind_eq_ok.1 h
          obtain ⟨hfit, hpartition, hsort⟩ := KeysFound.add_eq_ok.1 hadd
          obtain ⟨hnames, hnodup, hunseen, hfits, hpartition', hsort'⟩ := findKeys_eq_ok.1 hrest
          refine ⟨⟨hname, hnames⟩, ⟨fun hmem => ?_, hnodup⟩, ⟨hseen, fun b hb => ?_⟩, ⟨hfit, hfits⟩,
            ?_, ?_⟩
          · obtain ⟨b, hb, hba⟩ := List.mem_map.1 hmem
            exact hunseen b hb (hba ▸ List.mem_cons_self)
          · exact fun hmem => hunseen b hb (List.mem_cons_of_mem a.name hmem)
          · rw [hpartition', hpartition, List.append_assoc]
          · rw [hsort', hsort, List.append_assoc]
    · rintro ⟨⟨hname, hnames⟩, ⟨hfresh, hnodup⟩, ⟨hseen, hunseen⟩, ⟨hfit, hfits⟩, hpartition, hsort⟩
      rw [← List.append_assoc] at hpartition hsort
      obtain ⟨partition, hpartition'⟩ := exists_toList_of_append hpartition
      obtain ⟨sort, hsort'⟩ := exists_toList_of_append hsort
      have hadd : k.add a = .ok ⟨partition, sort⟩ := KeysFound.add_eq_ok.2 ⟨hfit, hpartition', hsort'⟩
      rw [if_neg hname, if_neg hseen]
      refine bind_eq_ok.2 ⟨⟨partition, sort⟩, hadd,
        findKeys_eq_ok.2 ⟨hnames, hnodup, fun b hb => ?_, hfits, ?_, ?_⟩⟩
      · rw [List.mem_cons, not_or]
        exact ⟨fun hba => hfresh (List.mem_map.2 ⟨b, hb, hba⟩), hunseen b hb⟩
      · rw [hpartition, hpartition']
      · rw [hsort, hsort']

/-- Names tell attributes apart. -/
theorem find?_name {as : List Attribute} (h : (as.map (·.name)).Nodup) {a : Attribute} (ha : a ∈ as) :
    as.find? (fun b => b.name == a.name) = some a := by
  cases hfind : as.find? fun b => b.name == a.name with
  | none => exact absurd (beq_self_eq_true a.name) (List.find?_eq_none.1 hfind a ha)
  | some b =>
    have hname : b.name = a.name := beq_iff_eq.1 (List.find?_some (p := fun b : Attribute => b.name == a.name) hfind)
    rw [List.inj_on_of_nodup_map h (List.mem_of_find?_eq_some hfind) ha hname]

/-! ## Indexes -/

section Indexes

variable {tablePartition : String} {as : List Attribute}

theorem indexPartition_eq_ok {i : IndexDeclaration} {p : String} : indexPartition tablePartition i = .ok p ↔
    (i.partition = some p ∨ i.kind = .local ∧ i.partition = none) ∧ (i.kind = .local → p = tablePartition) := by
  unfold indexPartition
  cases i.kind <;> cases i.partition
  case «local».some q =>
    by_cases hq : q = tablePartition
    · simp [hq, eq_comm]
    · simp only [if_neg hq, reduceCtorEq, Option.some.injEq, and_false, or_false, forall_const, false_iff, not_and]
      exact fun hqp hp => hq (hqp.trans hp)
  all_goals simp [eq_comm]

theorem checkIndexKey_eq_ok (h : (as.map (·.name)).Nodup) {index name : String} :
    checkIndexKey as index name = .ok () ↔ ∃ a ∈ as, a.name = name ∧ a.kind.isKeyScalar = true := by
  unfold checkIndexKey
  constructor
  · intro hcheck
    split at hcheck
    · cases hcheck
    · next a hfind =>
      split at hcheck
      · next hscalar =>
        have hname : a.name = name := beq_iff_eq.1 (List.find?_some (p := fun a : Attribute => a.name == name) hfind)
        exact ⟨a, List.mem_of_find?_eq_some hfind, hname, hscalar⟩
      · cases hcheck
  · rintro ⟨a, ha, rfl, hscalar⟩
    rw [find?_name h ha]
    exact if_pos hscalar

theorem compileIndex_eq_ok (h : (as.map (·.name)).Nodup) {i : IndexDeclaration} {x : Index} :
    compileIndex tablePartition as i = .ok x ↔ i.CompilesTo tablePartition as x := by
  unfold compileIndex
  rw [bind_eq_ok]
  constructor
  · rintro ⟨p, hp, hx⟩
    obtain ⟨hpartition, hshared⟩ := indexPartition_eq_ok.1 hp
    split at hx
    · cases hx
    · next hsorted =>
      obtain ⟨_, hkeys, hx⟩ := bind_eq_ok.1 hx
      split at hx
      · cases hx
      · next hdifferent =>
        cases hx
        exact ⟨rfl, rfl, hpartition, hshared, rfl, fun hlocal hnone => hsorted ⟨hlocal, hnone⟩,
          fun name hname => (checkIndexKey_eq_ok h).1 (forM_eq_ok.1 hkeys name hname), hdifferent⟩
  · intro hx
    obtain ⟨name, kind, partition, sort⟩ := x
    obtain ⟨rfl, rfl, hpartition, hshared, hsort, hsorted, hscalar, hdifferent⟩ := hx
    obtain rfl : sort = i.sort := hsort
    refine ⟨partition, indexPartition_eq_ok.2 ⟨hpartition, hshared⟩, ?_⟩
    rw [if_neg fun hunsorted => hsorted hunsorted.1 hunsorted.2]
    refine bind_eq_ok.2 ⟨⟨⟩, forM_eq_ok.2 fun name hname => (checkIndexKey_eq_ok h).2 (hscalar name hname), ?_⟩
    exact if_neg hdifferent

theorem compileIndexes_eq_ok (h : (as.map (·.name)).Nodup) : ∀ {is : List IndexDeclaration} {seen : List String}
    {xs : List Index}, compileIndexes tablePartition as seen is = .ok xs ↔
      (is.map (·.name)).Nodup ∧ (∀ i ∈ is, i.name ∉ seen) ∧
        List.Forall₂ (IndexDeclaration.CompilesTo tablePartition as) is xs
  | [], seen, xs => by
    simp [compileIndexes, eq_comm]
  | i :: is, seen, xs => by
    rw [compileIndexes, List.map_cons, List.nodup_cons, List.forall_mem_cons]
    constructor
    · intro hxs
      split at hxs
      · cases hxs
      · next hseen =>
        obtain ⟨x, hx, hxs⟩ := bind_eq_ok.1 hxs
        obtain ⟨rest, hrest, hxs⟩ := bind_eq_ok.1 hxs
        cases hxs
        obtain ⟨hnodup, hunseen, hall⟩ := (compileIndexes_eq_ok h).1 hrest
        refine ⟨⟨fun hmem => ?_, hnodup⟩,
          ⟨hseen, fun j hj hmem => ?_⟩, .cons ((compileIndex_eq_ok h).1 hx) hall⟩
        · obtain ⟨j, hj, hji⟩ := List.mem_map.1 hmem
          exact hunseen j hj (hji ▸ List.mem_cons_self)
        · exact hunseen j hj (List.mem_cons_of_mem i.name hmem)
    · rintro ⟨⟨hfresh, hnodup⟩, ⟨hseen, hunseen⟩, hall⟩
      cases hall with
      | cons hx hall =>
        rw [if_neg hseen]
        refine bind_eq_ok.2 ⟨_, (compileIndex_eq_ok h).2 hx, bind_eq_ok.2 ⟨_, (compileIndexes_eq_ok h).2
          ⟨hnodup, fun j hj => ?_, hall⟩, rfl⟩⟩
        rw [List.mem_cons, not_or]
        exact ⟨fun hji => hfresh (List.mem_map.2 ⟨j, hj, hji⟩), hunseen j hj⟩

end Indexes

/-- The partition key of an index is the one it names, or else the table's. -/
theorem IndexDeclaration.CompilesTo.partition_eq {tablePartition : String} {as : List Attribute} {i : IndexDeclaration}
    {x : Index} (h : i.CompilesTo tablePartition as x) : x.key.partition = i.partition.getD tablePartition := by
  rcases h.partition with hnamed | ⟨hlocal, hnone⟩
  · rw [hnamed, Option.getD_some]
  · rw [hnone, Option.getD_none, h.shared hlocal]

/-! ## Declarations -/

namespace Declaration

variable {d : Declaration} {s : Descriptor}

theorem check_eq_ok : d.check = .ok s ↔ d.CompilesTo s := by
  unfold check
  constructor
  · intro h
    split at h
    · cases h
    · next htable =>
      obtain ⟨keys, hkeys, h⟩ := bind_eq_ok.1 h
      obtain ⟨hnamed, hdistinct, -, hfit, hpartition, hsort⟩ := findKeys_eq_ok.1 hkeys
      split at h
      · cases h
      · next partition hfound =>
        obtain ⟨indexes, hindexes, h⟩ := bind_eq_ok.1 h
        cases h
        obtain ⟨hnodup, -, hall⟩ := (compileIndexes_eq_ok hdistinct).1 hindexes
        rw [hfound] at hpartition
        exact ⟨rfl, rfl, rfl, htable, hnamed, hdistinct, hfit, hpartition.symm, hsort.symm, hnodup, hall⟩
  · intro h
    have hkeys : findKeys [] ⟨none, none⟩ d.attributes = .ok ⟨some s.key.partition, s.key.sort⟩ :=
      findKeys_eq_ok.2 ⟨h.named, h.distinct, fun _ _ => List.not_mem_nil, h.fit, h.partition.symm, h.sort.symm⟩
    have hindexes : compileIndexes s.key.partition d.attributes [] d.indexes = .ok s.indexes :=
      (compileIndexes_eq_ok h.distinct).2 ⟨h.indexNames, fun _ _ => List.not_mem_nil, h.indexes⟩
    obtain ⟨name, table, attributes, ⟨partition, sort⟩, indexes⟩ := s
    obtain rfl : name = d.name := h.name
    obtain rfl : table = d.table := h.table
    obtain rfl : attributes = d.attributes := h.attributes
    rw [if_neg h.tableNamed]
    exact bind_eq_ok.2 ⟨_, hkeys, bind_eq_ok.2 ⟨indexes, hindexes, rfl⟩⟩

/-- **A declaration compiles exactly when it keeps the rules, and to its own mirror image.** -/
theorem compile_eq_ok_iff : d.compile = .ok s ↔ d.CompilesTo s := by
  rw [compile, mapError_eq_ok, check_eq_ok]

/-- No attribute has two parts in the key. -/
theorem CompilesTo.nodup_names (h : d.CompilesTo s) : s.key.names.Nodup := by
  rw [KeySchema.names, List.nodup_cons, ← h.sort]
  refine ⟨fun hmem => ?_, ?_⟩
  · have hpartition : s.key.partition ∈ namesOf .partition d.attributes := by
      rw [h.partition]
      exact List.mem_singleton_self _
    obtain ⟨a, ha, haname⟩ := List.mem_map.1 hpartition
    obtain ⟨b, hb, hbname⟩ := List.mem_map.1 hmem
    obtain ⟨ha, harole⟩ := List.mem_filter.1 ha
    obtain ⟨hb, hbrole⟩ := List.mem_filter.1 hb
    obtain rfl : a = b := List.inj_on_of_nodup_map h.distinct ha hb (haname.trans hbname.symm)
    rw [beq_iff_eq.1 harole] at hbrole
    cases hbrole
  · exact h.distinct.sublist (List.filter_sublist.map _)

/-- The attributes of the key are declared and fit for it. -/
theorem CompilesTo.exists_keyAttribute (h : d.CompilesTo s) {name : String} (hname : name ∈ s.key.names) :
    ∃ a, s.attribute? name = some a ∧ a.FitsKey := by
  have hrole : ∃ a ∈ d.attributes, a.isKey = true ∧ a.name = name := by
    rcases List.mem_cons.1 hname with rfl | hsort
    · have hmem : s.key.partition ∈ namesOf .partition d.attributes := by
        rw [h.partition]
        exact List.mem_singleton_self _
      obtain ⟨a, ha, haname⟩ := List.mem_map.1 hmem
      obtain ⟨ha, hpartition⟩ := List.mem_filter.1 ha
      exact ⟨a, ha, by rw [Attribute.isKey, beq_iff_eq.1 hpartition]; rfl, haname⟩
    · rw [← h.sort] at hsort
      obtain ⟨a, ha, haname⟩ := List.mem_map.1 hsort
      obtain ⟨ha, hsort⟩ := List.mem_filter.1 ha
      exact ⟨a, ha, by rw [Attribute.isKey, beq_iff_eq.1 hsort]; rfl, haname⟩
  obtain ⟨a, ha, hkey, rfl⟩ := hrole
  refine ⟨a, ?_, h.fit a ha hkey⟩
  rw [Descriptor.attribute?, h.attributes, find?_name h.distinct ha]

/-- The sort key of a table or an index is not its partition key. -/
theorem CompilesTo.sort_ne_partition (h : d.CompilesTo s) {index : Option String} {key : KeySchema}
    (hkey : s.keySchema index = .ok key) : key.sort ≠ some key.partition := by
  unfold Descriptor.keySchema at hkey
  split at hkey
  · cases hkey
    intro hsort
    have hnodup := h.nodup_names
    rw [KeySchema.names, hsort] at hnodup
    exact (List.nodup_cons.1 hnodup).1 (List.mem_singleton_self _)
  · split at hkey
    · next i hfound =>
      cases hkey
      obtain ⟨n, hn, rfl⟩ := List.getElem_of_mem (List.mem_of_find?_eq_some hfound)
      have hi : (d.indexes.get ⟨n, _⟩).CompilesTo s.key.partition d.attributes s.indexes[n] :=
        h.indexes.get (by rwa [h.indexes.length_eq]) hn
      rw [hi.sort]
      exact hi.different
    · cases hkey

end Declaration
end ItemStore
