import Mathlib.Data.List.Perm.Basic
import ItemStore.Proofs.Request.KeyCondition
import ItemStore.Proofs.Shape.Compilation
/-!
# Key predicates

A query can be told about its key in two ways, by values and by typed conditions, in any order and any grouping.  What
counts is only which predicates it is told (`Query.predicates`): they have to be, in some order, one equality on the
partition key and at most one condition on the sort key (`Query.keyClauses_eq_ok_iff`), and these two are what the text
of the key condition asks.
-/
namespace ItemStore

open Outcome (bind_eq_ok)

/-! ## What a query is told -/

/-- A call that tells a query about its key. -/
inductive KeyCall where
  | partition (v : Value)
  | sort (s : SortCondition)
  | key (c : Condition)

/-- A value or a sort condition takes the place of an earlier one; typed conditions are collected. -/
def Query.tell (q : Query) : KeyCall → Query
  | .partition v => { q with partition := some v }
  | .sort s => { q with sort := some s }
  | .key c => { q with keyConditions := q.keyConditions ++ [c] }

def Query.told (q : Query) (calls : List KeyCall) : Query := calls.foldl Query.tell q

/-- The calls say nothing of the rest of a query. -/
theorem Query.told_rest : ∀ (calls : List KeyCall) (q : Query),
    (q.told calls).toPagedRead = q.toPagedRead ∧ (q.told calls).forward = q.forward
  | [], _ => ⟨rfl, rfl⟩
  | call :: calls, q => by
    have hcall : (q.tell call).toPagedRead = q.toPagedRead ∧ (q.tell call).forward = q.forward := by
      cases call <;> exact ⟨rfl, rfl⟩
    have hcalls := told_rest calls (q.tell call)
    exact ⟨hcalls.1.trans hcall.1, hcalls.2.trans hcall.2⟩

namespace Condition

/-- The conditions that are joined by AND, left to right, whatever they are. -/
def leaves : Condition → List Condition
  | and left right => left.leaves ++ right.leaves
  | c => [c]

end Condition

/-- A predicate on the key that is read. -/
inductive KeyPredicate where
  | condition (c : Condition)
  /-- A condition on the sort key of a key that has none. -/
  | unplaced (s : SortCondition)

theorem KeyPredicate.condition_injective : Function.Injective condition := fun _ _ h => KeyPredicate.condition.inj h

def KeySchema.onSort (key : KeySchema) (s : SortCondition) : KeyPredicate :=
  match key.sort with
  | some name => .condition (s.on name)
  | none => .unplaced s

/-- All that a query has been told about this key, in either way. -/
def Query.predicates (q : Query) (key : KeySchema) : List KeyPredicate :=
  (q.partition.toList.map fun v => .condition (.compare key.partition .eq v)) ++ q.sort.toList.map key.onSort ++
    (q.keyConditions.flatMap Condition.leaves).map .condition

/-! ## Typed conditions -/

namespace Condition

theorem conjuncts_eq_ok_iff : ∀ {c : Condition} {ls : List Condition},
    c.conjuncts = .ok ls ↔ ls = c.leaves ∧ ∀ l ∈ c.leaves, l.isLeaf = true
  | .and left right, ls => by
    rw [conjuncts, leaves, List.forall_mem_append, bind_eq_ok]
    constructor
    · rintro ⟨lefts, hlefts, h⟩
      obtain ⟨rights, hrights, h⟩ := bind_eq_ok.1 h
      cases h
      obtain ⟨rfl, hleft⟩ := conjuncts_eq_ok_iff.1 hlefts
      obtain ⟨rfl, hright⟩ := conjuncts_eq_ok_iff.1 hrights
      exact ⟨rfl, hleft, hright⟩
    · rintro ⟨rfl, hleft, hright⟩
      exact ⟨_, conjuncts_eq_ok_iff.2 ⟨rfl, hleft⟩,
        bind_eq_ok.2 ⟨_, conjuncts_eq_ok_iff.2 ⟨rfl, hright⟩, rfl⟩⟩
  | .or left right, ls => by simp [conjuncts, leaves, isLeaf]
  | .not inner, ls => by simp [conjuncts, leaves, isLeaf]
  | .compare .., _ | .between .., _ | .isIn .., _ | .beginsWith .., _ | .contains .., _ | .present _, _ | .absent _, _
  | .hasType .., _ => by
    constructor
    · intro h
      cases h
      exact ⟨rfl, List.forall_mem_singleton.2 rfl⟩
    · rintro ⟨rfl, -⟩
      rfl

end Condition

/-! ## Sorting predicates into two slots -/

/-- The conditions found so far, the one on the partition key first. -/
def KeyClauses.conditions (k : KeyClauses) : List Condition := k.partition.toList ++ k.sort.toList

theorem toList_eq_of_perm {α : Type} {o o' : Option α} (h : o.toList.Perm o'.toList) : o = o' := by
  cases o' with
  | none => exact Option.toList_eq_nil_iff.1 (List.perm_nil.1 h)
  | some a => exact Option.toList_eq_singleton_iff.1 (List.perm_singleton.1 h)

section Slots

variable {target : String} {key : KeySchema} {k k' : KeyClauses} {c : Condition}

/-- The condition speaks of the partition key and of nothing else. -/
def KeySchema.isPartitionOf (key : KeySchema) (c : Condition) : Bool := c.attributes == [key.partition]

theorem KeySchema.AsksPartition.isPartitionOf (h : key.AsksPartition c) : key.isPartitionOf c = true := by
  obtain ⟨v, rfl⟩ := h
  exact beq_self_eq_true _

theorem KeySchema.AsksSort.attributes (h : key.AsksSort c) : ∃ name, key.sort = some name ∧ c.attributes = [name] := by
  obtain ⟨name, hname, s, rfl⟩ := h
  refine ⟨name, hname, ?_⟩
  cases s <;> rfl

/-- The two parts of a key are different attributes. -/
theorem KeySchema.AsksSort.isPartitionOf (hkey : key.sort ≠ some key.partition) (h : key.AsksSort c) :
    key.isPartitionOf c = false := by
  obtain ⟨name, hname, hattributes⟩ := h.attributes
  rw [KeySchema.isPartitionOf, hattributes, beq_eq_false_iff_ne]
  rintro heq
  cases heq
  exact hkey hname

theorem KeySchema.AsksPartition.isSortCondition (h : key.AsksPartition c) : c.isSortCondition = true := by
  obtain ⟨v, rfl⟩ := h
  rfl

namespace KeyClauses

theorem add_of_asksPartition (h : key.AsksPartition c) (hnone : k.partition = none) :
    k.add target key c = .ok { k with partition := some c } := by
  obtain ⟨v, rfl⟩ := h
  simp [add, Condition.attributes, Condition.isEquality, hnone]

theorem add_of_asksSort (hkey : key.sort ≠ some key.partition) (h : key.AsksSort c) (hnone : k.sort = none) :
    k.add target key c = .ok { k with sort := some c } := by
  obtain ⟨name, hname, hattributes⟩ := h.attributes
  have hne : name ≠ key.partition := by
    rintro rfl
    exact hkey hname
  simp [add, hattributes, h.isSortCondition, hname, hne, hnone]

/-- What is taken in is one more of the conditions found. -/
theorem perm_add (h : k.add target key c = .ok k') : (c :: k.conditions).Perm k'.conditions := by
  rcases add_cases h with ⟨-, hnone, rfl⟩ | ⟨-, hnone, rfl⟩
  · rw [conditions, hnone]
    exact .refl _
  · rw [conditions, hnone, Option.toList_none, List.append_nil]
    exact (List.perm_append_singleton c _).symm

/-- The slots are told apart by what their conditions speak of. -/
theorem Formed.filter_conditions (hkey : key.sort ≠ some key.partition) (hk : k.Formed key) :
    k.conditions.filter key.isPartitionOf = k.partition.toList ∧
      k.conditions.filter (fun c => !key.isPartitionOf c) = k.sort.toList := by
  have hpartition : ∀ c ∈ k.partition.toList, key.isPartitionOf c = true := fun c hc =>
    (hk.partition c (Option.mem_toList.1 hc)).isPartitionOf
  have hsort : ∀ c ∈ k.sort.toList, key.isPartitionOf c = false := fun c hc =>
    (hk.sort c (Option.mem_toList.1 hc)).isPartitionOf hkey
  rw [conditions, List.filter_append, List.filter_append]
  constructor
  · rw [List.filter_eq_self.2 hpartition, List.filter_eq_nil_iff.2 fun c hc => Bool.eq_false_iff.1 (hsort c hc),
      List.append_nil]
  · rw [List.filter_eq_nil_iff.2 fun c hc => by simp [hpartition c hc],
      List.filter_eq_self.2 fun c hc => by simp [hsort c hc], List.nil_append]

/-- The conditions found, in any order, say what is in which slot. -/
theorem Formed.eq_of_perm (hkey : key.sort ≠ some key.partition) (hk : k.Formed key) (hk' : k'.Formed key)
    (h : k.conditions.Perm k'.conditions) : k = k' := by
  have hpartition := h.filter key.isPartitionOf
  have hsort := h.filter fun c => !key.isPartitionOf c
  rw [(hk.filter_conditions hkey).1, (hk'.filter_conditions hkey).1] at hpartition
  rw [(hk.filter_conditions hkey).2, (hk'.filter_conditions hkey).2] at hsort
  cases k
  cases k'
  rw [mk.injEq]
  exact ⟨toList_eq_of_perm hpartition, toList_eq_of_perm hsort⟩

/-- A condition that is among those to be found still has a slot. -/
theorem Formed.exists_add (hkey : key.sort ≠ some key.partition) (hk : k.Formed key) (hk' : k'.Formed key)
    {cs : List Condition} (h : (k.conditions ++ c :: cs).Perm k'.conditions) : ∃ k₁, k.add target key c = .ok k₁ := by
  have hfree : ∀ {o o' : Option Condition} {rest : List Condition}, (o.toList ++ c :: rest).Perm o'.toList →
      o = none := by
    intro o o' rest hperm
    have hlength := hperm.length_eq
    cases o <;> cases o' <;> simp at hlength ⊢
  have hmem : c ∈ k'.conditions := h.subset (List.mem_append_right _ List.mem_cons_self)
  rcases List.mem_append.1 hmem with hmem | hmem
  · have hasks := hk'.partition c (Option.mem_toList.1 hmem)
    have hperm := h.filter key.isPartitionOf
    rw [List.filter_append, List.filter_cons_of_pos hasks.isPartitionOf, (hk.filter_conditions hkey).1,
      (hk'.filter_conditions hkey).1] at hperm
    exact ⟨_, add_of_asksPartition hasks (hfree hperm)⟩
  · have hasks := hk'.sort c (Option.mem_toList.1 hmem)
    have hperm := h.filter fun c => !key.isPartitionOf c
    rw [List.filter_append, List.filter_cons_of_pos (by simp [hasks.isPartitionOf hkey]), (hk.filter_conditions hkey).2,
      (hk'.filter_conditions hkey).2] at hperm
    exact ⟨_, add_of_asksSort hkey hasks (hfree hperm)⟩

/-- **Conditions are taken in, in any order, exactly if they fill the slots.** -/
theorem Formed.foldlM_add_eq_ok_iff (hkey : key.sort ≠ some key.partition) : ∀ {cs : List Condition} {k : KeyClauses},
    k.Formed key → (cs.foldlM (add target key) k = .ok k' ↔ k'.Formed key ∧ (k.conditions ++ cs).Perm k'.conditions)
  | [], k, hk => by
    rw [List.append_nil]
    constructor
    · intro h
      cases h
      exact ⟨hk, .refl _⟩
    · rintro ⟨hk', h⟩
      rw [hk.eq_of_perm hkey hk' h]
      rfl
  | c :: cs, k, hk => by
    have hmiddle : (k.conditions ++ c :: cs).Perm (c :: k.conditions ++ cs) := List.perm_middle
    rw [List.foldlM_cons, bind_eq_ok]
    constructor
    · rintro ⟨k₁, hstep, hrest⟩
      obtain ⟨hk', hperm⟩ := ((formed_add hk hstep).foldlM_add_eq_ok_iff hkey).1 hrest
      exact ⟨hk', hmiddle.trans (((perm_add hstep).append_right cs).trans hperm)⟩
    · rintro ⟨hk', hperm⟩
      obtain ⟨k₁, hstep⟩ := hk.exists_add hkey hk' hperm
      have hrest := ((perm_add hstep).append_right cs).symm.trans (hmiddle.symm.trans hperm)
      exact ⟨k₁, hstep, ((formed_add hk hstep).foldlM_add_eq_ok_iff hkey).2 ⟨hk', hrest⟩⟩

end KeyClauses

end Slots

namespace Query
variable {q : Query} {key : KeySchema} {partition : Condition} {sort : Option Condition}

theorem sortClause_eq_ok_iff :
    q.sortClause key = .ok sort ↔ q.sort.toList.map key.onSort = sort.toList.map .condition := by
  unfold sortClause KeySchema.onSort
  cases q.sort with
  | none => cases sort <;> simp
  | some s => cases key.sort <;> cases sort <;> simp

/-- Where the sort condition has a place, all predicates are conditions: the clauses that the collecting begins with,
and the leaves. -/
theorem predicates_eq (h : q.sortClause key = .ok sort) : q.predicates key =
    ((KeyClauses.conditions ⟨q.partition.map fun v => Condition.compare key.partition .eq v, sort⟩) ++
      q.keyConditions.flatMap Condition.leaves).map .condition := by
  rw [predicates, sortClause_eq_ok_iff.1 h, KeyClauses.conditions, List.map_append, List.map_append]
  cases q.partition <;> rfl

theorem formed_start (h : q.sortClause key = .ok sort) :
    KeyClauses.Formed key ⟨q.partition.map fun v => Condition.compare key.partition .eq v, sort⟩ := by
  refine ⟨fun c hc => ?_, sortClause_form h⟩
  obtain ⟨v, _, rfl⟩ := Option.map_eq_some_iff.1 hc
  exact ⟨v, rfl⟩

theorem mapM_conjuncts_eq_ok_iff {cs : List Condition} {leaves : List (List Condition)} :
    cs.mapM Condition.conjuncts = .ok leaves ↔
      leaves = cs.map Condition.leaves ∧ ∀ l ∈ cs.flatMap Condition.leaves, l.isLeaf = true := by
  rw [Outcome.mapM_eq_ok_map_iff fun c _ ls => Condition.conjuncts_eq_ok_iff]
  simp only [List.mem_flatMap, forall_exists_index, and_imp]
  refine and_congr_right fun _ => ⟨fun h l c hc hl => h c hc l hl, fun h c hc l hl => h l c hc hl⟩

/-- **The key of a query comes to two conditions exactly if its predicates are these, in any order.** -/
theorem keyClauses_eq_ok_iff (hkey : key.sort ≠ some key.partition) : q.keyClauses key = .ok (partition, sort) ↔
    KeyClauses.Formed key ⟨some partition, sort⟩ ∧
      (q.predicates key).Perm ((partition :: sort.toList).map .condition) := by
  unfold keyClauses
  constructor
  · intro h
    obtain ⟨start, hstart, h⟩ := bind_eq_ok.1 h
    obtain ⟨leaves, hleaves, h⟩ := bind_eq_ok.1 h
    obtain ⟨⟨partition', sort'⟩, hk, h⟩ := bind_eq_ok.1 h
    obtain ⟨rfl, -⟩ := mapM_conjuncts_eq_ok_iff.1 hleaves
    obtain ⟨hformed, hperm⟩ := ((formed_start hstart).foldlM_add_eq_ok_iff hkey).1 hk
    cases partition' with
    | none => cases h
    | some c =>
      cases h
      refine ⟨hformed, ?_⟩
      rw [predicates_eq hstart, List.flatMap_def]
      exact hperm.map _
  · rintro ⟨hformed, hperm⟩
    have hplaced : ∃ start, q.sortClause key = .ok start := by
      unfold sortClause
      split
      · exact ⟨_, rfl⟩
      · next s hs hsort =>
        have hmem : KeyPredicate.unplaced s ∈ q.predicates key := by simp [predicates, hs, KeySchema.onSort, hsort]
        obtain ⟨c, -, hc⟩ := List.mem_map.1 (hperm.subset hmem)
        cases hc
      · exact ⟨_, rfl⟩
    obtain ⟨start, hstart⟩ := hplaced
    rw [predicates_eq hstart, List.map_perm_map_iff KeyPredicate.condition_injective] at hperm
    have hleaves : ∀ l ∈ q.keyConditions.flatMap Condition.leaves, l.isLeaf = true := by
      intro l hl
      rcases List.mem_cons.1 (hperm.subset (List.mem_append_right _ hl)) with rfl | hmem
      · exact (Condition.isLeaf_of_isSortCondition (hformed.partition l rfl).isSortCondition).1
      · exact (Condition.isLeaf_of_isSortCondition (hformed.sort l (Option.mem_toList.1 hmem)).isSortCondition).1
    refine bind_eq_ok.2 ⟨start, hstart, bind_eq_ok.2 ⟨_, mapM_conjuncts_eq_ok_iff.2 ⟨rfl, hleaves⟩, bind_eq_ok.2
      ⟨⟨some partition, sort⟩, ?_, rfl⟩⟩⟩
    rw [← List.flatMap_def]
    exact ((formed_start hstart).foldlM_add_eq_ok_iff hkey).2 ⟨hformed, hperm⟩

end Query

/-! ## What the text asks -/

/-- The formula asks of an item what the condition on a key attribute does: its placeholders stand for the attribute
and the operands of the condition. -/
inductive Formula.Asks (b : Bindings) : Condition → Formula → Prop
  | compare {name n p : String} {op : Comparator} {v : Value} : b.name n = .ok name → b.value p = .ok v →
      Asks b (.compare name op v) (.compare op (.path n) (.value p))
  | between {name n p p' : String} {low high : Value} : b.name n = .ok name → b.value p = .ok low →
      b.value p' = .ok high → Asks b (.between name low high) (.between (.path n) (.value p) (.value p'))
  | beginsWith {name n p : String} {v : Value} : b.name n = .ok name → b.value p = .ok v →
      Asks b (.beginsWith name v) (.beginsWith (.path n) (.value p))

/-- The formula asks the condition on the partition key, and with it the one on the sort key, if there is one. -/
inductive Formula.AsksKey (b : Bindings) (partition : Condition) : Option Condition → Formula → Prop
  | alone {f : Formula} : f.Asks b partition → AsksKey b partition none f
  | both {f g : Formula} {sort : Condition} : f.Asks b partition → g.Asks b sort →
      AsksKey b partition (some sort) (.and f g)

namespace Writer

theorem exists_writes_asks (w : Writer) {c : Condition} (h : c.isSortCondition = true) :
    ∃ f, Writes (w.condition c).1 (.comparison f) ∧ ∀ w', Extends (w.condition c).2 w' → f.Asks w'.bindings c := by
  cases c with
  | compare name op v =>
    have hn := nameAs_nameValue w name v
    have hp := valueAs_nameValue w name v
    exact ⟨_, writes_compare op hn hp, fun _ he => .compare (hn.bound he) (hp.bound he)⟩
  | between name low high =>
    have hext := extends_value (w.nameValue name low).2.2 high
    have hn := (nameAs_nameValue w name low).later hext
    have hp := (valueAs_nameValue w name low).later hext
    have hq := valueAs_value (w.nameValue name low).2.2 high
    exact ⟨_, writes_between hn hp hq, fun _ he => .between (hn.bound he) (hp.bound he) (hq.bound he)⟩
  | beginsWith name v =>
    have hn := nameAs_nameValue w name v
    have hp := valueAs_nameValue w name v
    exact ⟨_, writes_beginsWith hn hp, fun _ he => .beginsWith (hn.bound he) (hp.bound he)⟩
  | _ => cases h

end Writer

open Writer (Extends) in
/-- **The text of a key condition asks its one or two conditions and nothing else.** -/
theorem Query.exists_parse_asksKey (w : Writer) {key : KeySchema} {partition : Condition} {sort : Option Condition}
    (hpartition : key.AsksPartition partition) (hsort : ∀ c ∈ sort, key.AsksSort c) :
    ∃ f, Formula.parse (writeKeyCondition w partition sort).1 = .ok f ∧
      ∀ w', Extends (writeKeyCondition w partition sort).2 w' → f.AsksKey w'.bindings partition sort := by
  obtain ⟨f, hf, hasks⟩ := w.exists_writes_asks hpartition.isSortCondition
  cases sort with
  | none => exact ⟨f, hf.negation.conjunction.disjunction.parse_eq, fun w' he => .alone (hasks w' he)⟩
  | some c =>
    obtain ⟨g, hg, hasks'⟩ := (w.condition partition).2.exists_writes_asks (hsort c rfl).isSortCondition
    have htext : Writer.Writes s!"{(w.condition partition).1} AND {((w.condition partition).2.condition c).1}"
        (.conjunction (.and f g)) := Writer.writes_and (by simp [toString]) hf.negation.conjunction hg.negation
    have hext := Writer.extends_condition (w.condition partition).2 c
    exact ⟨.and f g, htext.disjunction.parse_eq, fun w' he => .both (hasks w' (hext.trans he)) (hasks' w' he)⟩

/-! ## What a query makes of what it is told -/

namespace Query
variable {d : Declaration} {q q' : Query} {key : KeySchema} {plan : Plan}

theorem source_spec (hd : d.compile = .ok q.shape) (h : q.source = .ok key) :
    q.shape.keySchema q.index = .ok key ∧ key.sort ≠ some key.partition := by
  obtain ⟨_, -, h⟩ := bind_eq_ok.1 h
  obtain ⟨key', hkey, h⟩ := bind_eq_ok.1 h
  obtain ⟨_, -, h⟩ := bind_eq_ok.1 h
  cases h
  exact ⟨hkey, (Declaration.compile_eq_ok_iff.1 hd).sort_ne_partition hkey⟩

/-- Of the key, only the predicates count for the plan. -/
theorem build_eq_ok_iff_of_perm (hd : d.compile = .ok q.shape) (hread : q'.toPagedRead = q.toPagedRead)
    (hforward : q'.forward = q.forward)
    (hperm : ∀ key, q.shape.keySchema q.index = .ok key → (q'.predicates key).Perm (q.predicates key)) :
    q'.build = .ok plan ↔ q.build = .ok plan := by
  rw [build_eq_ok_iff, build_eq_ok_iff, hread, hforward]
  refine exists_congr fun key => exists_congr fun partition => exists_congr fun sort =>
    and_congr_right fun hsource => ?_
  obtain ⟨hkey, hne⟩ := source_spec hd hsource
  refine and_congr_left' ?_
  rw [keyClauses_eq_ok_iff hne, keyClauses_eq_ok_iff hne]
  exact and_congr_right fun _ => ⟨(hperm key hkey).symm.trans, (hperm key hkey).trans⟩

/-- What the key condition of a plan is, and what the filters are not. -/
theorem asksKey_of_build (hd : d.compile = .ok q.shape) (h : q.build = .ok plan) : ∃ key partition sort text f,
    q.shape.keySchema q.index = .ok key ∧ key.AsksPartition partition ∧ (∀ c ∈ sort, key.AsksSort c) ∧
    (q.predicates key).Perm ((partition :: sort.toList).map .condition) ∧ plan.operation = .query text ∧
    Formula.parse text = .ok f ∧ f.AsksKey plan.expressions.bindings partition sort ∧
    ∀ c ∈ q.filters, ∀ name ∈ c.attributes, name ∉ key.names := by
  obtain ⟨key, partition, sort, hsource, hclauses, -, -, -, hfilters, -, -, -, rfl⟩ := build_eq_ok_iff.1 h
  obtain ⟨hkey, hne⟩ := source_spec hd hsource
  obtain ⟨hformed, hperm⟩ := (keyClauses_eq_ok_iff hne).1 hclauses
  have hpartition := hformed.partition partition rfl
  obtain ⟨f, hparse, hasks⟩ := exists_parse_asksKey Writer.empty hpartition hformed.sort
  obtain ⟨calls, hcalls⟩ := exists_run_plan q.toPagedRead (.query (writeKeyCondition Writer.empty partition sort).1)
    (writeKeyCondition Writer.empty partition sort).2
  have hasks := hasks _ (Writer.extends_run calls _)
  rw [← hcalls] at hasks
  exact ⟨key, partition, sort, _, f, hkey, hpartition, hformed.sort, hperm, rfl, hparse, hasks, hfilters⟩

end Query

/-- **Only the predicates that a query is told decide its plan.**  Told the same predicates, in whatever order, grouping
and style, a query makes the same plans; and the key condition of a plan is one equality on the partition key, with at
most one condition on the sort key.  These two are all the predicates, and no filter speaks of the key. -/
theorem key_predicates_decide_the_plan {d : Declaration} {q : Query} (hd : d.compile = .ok q.shape)
    (calls : List KeyCall) :
    (∀ calls', (∀ key, q.shape.keySchema q.index = .ok key →
        ((q.told calls').predicates key).Perm ((q.told calls).predicates key)) →
      ∀ plan, (q.told calls').build = .ok plan ↔ (q.told calls).build = .ok plan) ∧
    ∀ plan, (q.told calls).build = .ok plan → ∃ key partition sort text f, q.shape.keySchema q.index = .ok key ∧
      key.AsksPartition partition ∧ (∀ c ∈ sort, key.AsksSort c) ∧
      ((q.told calls).predicates key).Perm ((partition :: sort.toList).map .condition) ∧
      plan.operation = .query text ∧ Formula.parse text = .ok f ∧ f.AsksKey plan.expressions.bindings partition sort ∧
      ∀ c ∈ q.filters, ∀ name ∈ c.attributes, name ∉ key.names := by
  obtain ⟨hread, hforward⟩ := Query.told_rest calls q
  have hshape : d.compile = .ok (q.told calls).shape := by rwa [hread]
  constructor
  · intro calls' hperm plan
    obtain ⟨hread', hforward'⟩ := Query.told_rest calls' q
    rw [← hread] at hperm
    exact Query.build_eq_ok_iff_of_perm hshape (hread'.trans hread.symm) (hforward'.trans hforward.symm) hperm
  · intro plan hbuild
    obtain ⟨key, partition, sort, text, f, h⟩ := Query.asksKey_of_build hshape hbuild
    rw [hread] at h
    exact ⟨key, partition, sort, text, f, h⟩

/-- The orders of one id within a range of dates, asked for by values of which the first is taken back, and by one typed
condition that speaks of the sort key first. -/
theorem key_predicates_decide_the_plan_of_orders :
    let attributes : List Attribute :=
      [⟨"id", .string, false, false, .partition⟩, ⟨"at", .string, false, false, .sort⟩,
      ⟨"total", .number, false, true, .none⟩]
    let q : Query :=
      { shape := ⟨"Order", "orders", attributes, ⟨"id", some "at"⟩, []⟩, filters := [.present "total"] }
    let calls : List KeyCall := [.partition (.string "B"), .sort (.between (.string "01") (.string "06")),
      .partition (.string "A")]
    let calls' : List KeyCall :=
      [.key (.and (.between "at" (.string "01") (.string "06")) (.compare "id" .eq (.string "A")))]
    (⟨"Order", "orders", attributes, []⟩ : Declaration).compile = .ok q.shape ∧
    ∃ plan, (q.told calls).build = .ok plan ∧
      (∀ key, q.shape.keySchema q.index = .ok key →
        ((q.told calls').predicates key).Perm ((q.told calls).predicates key)) ∧
      (q.told calls').build = .ok plan ∧
      ∃ key partition sort text f, q.shape.keySchema q.index = .ok key ∧
        key.AsksPartition partition ∧ (∀ c ∈ sort, key.AsksSort c) ∧
        ((q.told calls).predicates key).Perm ((partition :: sort.toList).map .condition) ∧
        plan.operation = .query text ∧ Formula.parse text = .ok f ∧
          f.AsksKey plan.expressions.bindings partition sort ∧
        ∀ c ∈ q.filters, ∀ name ∈ c.attributes, name ∉ key.names := by
  intro attributes q calls calls'
  have hd : (⟨"Order", "orders", attributes, []⟩ : Declaration).compile = .ok q.shape := rfl
  obtain ⟨plan, hbuild⟩ : ∃ plan, (q.told calls).build = .ok plan := ⟨_, rfl⟩
  have hperm : ∀ key, q.shape.keySchema q.index = .ok key →
      ((q.told calls').predicates key).Perm ((q.told calls).predicates key) := by
    intro key hkey
    cases hkey
    exact .swap _ _ _
  exact ⟨hd, plan, hbuild, hperm, ((key_predicates_decide_the_plan hd calls).1 calls' hperm plan).2 hbuild,
    (key_predicates_decide_the_plan hd calls).2 plan hbuild⟩

end ItemStore
