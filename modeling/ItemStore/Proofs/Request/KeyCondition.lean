import ItemStore.Proofs.Expression.ConditionText
import ItemStore.Proofs.Outcome
import ItemStore.Request.Query
/-!
# The key condition of a query

What a query collects for its key is one equality and at most one condition on the sort key, both leaves
(`keyClauses_forms`).  So the text that joins them without parentheses is read as their conjunction, and every
condition that goes into a plan, alone, in a list or as part of the key, holds of the items that it is meant to hold of.
-/
namespace ItemStore

open Outcome (bind_eq_ok)

/-! ## The clauses that are collected -/

theorem Condition.isLeaf_of_isEquality {c : Condition} (h : c.isEquality = true) :
    c.isLeaf = true ∧ c.listsFilled = true := by
  cases c <;> first | exact ⟨rfl, rfl⟩ | cases h

theorem Condition.isLeaf_of_isSortCondition {c : Condition} (h : c.isSortCondition = true) :
    c.isLeaf = true ∧ c.listsFilled = true := by
  cases c <;> first | exact ⟨rfl, rfl⟩ | cases h

theorem SortCondition.isSortCondition_on (s : SortCondition) (name : String) :
    (s.on name).isSortCondition = true := by
  cases s <;> rfl

/-- The condition is an equality on the partition key. -/
def KeySchema.AsksPartition (key : KeySchema) (c : Condition) : Prop := ∃ v, c = .compare key.partition .eq v

/-- The condition is one that a sort key can be asked for, and this key has one. -/
def KeySchema.AsksSort (key : KeySchema) (c : Condition) : Prop :=
  ∃ name ∈ key.sort, ∃ s : SortCondition, c = s.on name

theorem KeySchema.AsksSort.isSortCondition {key : KeySchema} {c : Condition} (h : key.AsksSort c) :
    c.isSortCondition = true := by
  obtain ⟨name, -, s, rfl⟩ := h
  exact s.isSortCondition_on name

theorem Condition.exists_on_of_isSortCondition {c : Condition} (h : c.isSortCondition = true) :
    ∃ s : SortCondition, c = s.on (c.attributes.headD "") := by
  cases c with
  | compare name op v =>
    cases op with
    | eq => exact ⟨.equal v, rfl⟩
    | ne => cases h
    | lt => exact ⟨.less v, rfl⟩
    | le => exact ⟨.atMost v, rfl⟩
    | gt => exact ⟨.greater v, rfl⟩
    | ge => exact ⟨.atLeast v, rfl⟩
  | between name low high => exact ⟨.between low high, rfl⟩
  | beginsWith name start => exact ⟨.beginsWith start, rfl⟩
  | _ => cases h

namespace KeyClauses
variable {target : String} {key : KeySchema} {k k' : KeyClauses} {c : Condition}

/-- All that a condition that is taken in can do. -/
theorem add_cases (h : k.add target key c = .ok k') :
    (key.AsksPartition c ∧ k.partition = none ∧ k' = { k with partition := some c }) ∨
    (key.AsksSort c ∧ k.sort = none ∧ k' = { k with sort := some c }) := by
  have hnone : ∀ {o : Option Condition}, ¬o.isSome = true → o = none := fun h =>
    Option.isNone_iff_eq_none.1 (Option.isSome_eq_false_iff.1 (Bool.not_eq_true _ ▸ h))
  unfold add at h
  simp only at h
  split at h
  · next hname =>
    split at h
    · cases h
    · next hequality =>
      split at h
      · cases h
      · next hpartition =>
        cases h
        refine .inl ⟨?_, hnone hpartition, rfl⟩
        cases c with
        | compare name op v =>
          obtain rfl : name = key.partition := hname
          cases op with
          | eq => exact ⟨v, rfl⟩
          | _ => exact absurd rfl hequality
        | _ => exact absurd rfl hequality
  · split at h
    · next hname =>
      split at h
      · cases h
      · next hcondition =>
        split at h
        · cases h
        · next hsort =>
          cases h
          obtain ⟨s, hs⟩ := Condition.exists_on_of_isSortCondition (Bool.not_eq_false _ ▸ hcondition)
          exact .inr ⟨⟨_, hname.symm, s, hs⟩, hnone hsort, rfl⟩
    · cases h

/-- The partition condition is an equality on the partition key, the sort condition one that sort keys can be asked
for. -/
structure Formed (key : KeySchema) (k : KeyClauses) : Prop where
  partition : ∀ c ∈ k.partition, key.AsksPartition c
  sort : ∀ c ∈ k.sort, key.AsksSort c

theorem formed_add (hk : k.Formed key) (h : k.add target key c = .ok k') : k'.Formed key := by
  rcases add_cases h with ⟨hpartition, -, rfl⟩ | ⟨hsort, -, rfl⟩
  · refine ⟨fun d hd => ?_, hk.sort⟩
    cases hd
    exact hpartition
  · refine ⟨hk.partition, fun d hd => ?_⟩
    cases hd
    exact hsort

end KeyClauses

theorem Writer.exists_run_projection? (w : Writer) (names : List String) :
    ∃ calls, (w.projection? names).2 = w.run calls := by
  by_cases hnames : names = []
  · rw [projection?, if_pos hnames]
    exact ⟨[], rfl⟩
  · rw [projection?, if_neg hnames]
    exact ⟨[.projection names], rfl⟩

theorem checkLimit_eq_ok {limit : Option Nat} : checkLimit limit = .ok () ↔ limit ≠ some 0 := by
  unfold checkLimit
  split <;> simp [*]

namespace Query

theorem sortClause_form {q : Query} {key : KeySchema} {sort : Option Condition} (h : q.sortClause key = .ok sort) :
    ∀ c ∈ sort, key.AsksSort c := by
  unfold sortClause at h
  split at h
  · next s name _ hname =>
    cases h
    intro c hc
    cases hc
    exact ⟨name, hname, s, rfl⟩
  · cases h
  · cases h
    intro c hc
    cases hc

/-- **The key of a query comes to one equality on the partition key and at most one condition on the sort key.** -/
theorem keyClauses_forms {q : Query} {key : KeySchema} {partition : Condition} {sort : Option Condition}
    (h : q.keyClauses key = .ok (partition, sort)) : key.AsksPartition partition ∧ ∀ c ∈ sort, key.AsksSort c := by
  unfold keyClauses at h
  obtain ⟨s, hs, h⟩ := bind_eq_ok.1 h
  obtain ⟨leaves, _, h⟩ := bind_eq_ok.1 h
  obtain ⟨k, hk, h⟩ := bind_eq_ok.1 h
  have hstart : KeyClauses.Formed key ⟨q.partition.map fun v => Condition.compare key.partition .eq v, s⟩ := by
    refine ⟨fun c hc => ?_, sortClause_form hs⟩
    obtain ⟨v, _, rfl⟩ := Option.map_eq_some_iff.1 hc
    exact ⟨v, rfl⟩
  have hformed := Outcome.foldlM_invariant (fun _ _ _ => KeyClauses.formed_add) hstart hk
  split at h
  · next c hc =>
    cases h
    exact ⟨hformed.partition _ hc, hformed.sort⟩
  · cases h

/-! ## The text -/

theorem expresses_writeKeyCondition (w : Writer) {partition : Condition} {sort : Option Condition}
    (hp : partition.isEquality = true) (hs : ∀ c ∈ sort, c.isSortCondition = true) :
    Writer.Expresses (writeKeyCondition w partition sort).2 (writeKeyCondition w partition sort).1
      fun item => partition.holds item && sort.all fun c => c.holds item := by
  obtain ⟨hleaf, hfilled⟩ := Condition.isLeaf_of_isEquality hp
  cases sort with
  | none =>
    have hmeaning : (fun item => partition.holds item && (none : Option Condition).all fun c => c.holds item) =
        fun item => partition.holds item := by
      funext item
      exact Bool.and_true _
    rw [hmeaning]
    exact Writer.expresses_condition w hfilled
  | some c =>
    obtain ⟨hleaf', hfilled'⟩ := Condition.isLeaf_of_isSortCondition (hs c rfl)
    exact Writer.expresses_side_by_side w hleaf hleaf' hfilled hfilled'

theorem expresses_keyClauses {q : Query} {key : KeySchema} {partition : Condition} {sort : Option Condition}
    (h : q.keyClauses key = .ok (partition, sort)) (w : Writer) :
    Writer.Expresses (writeKeyCondition w partition sort).2 (writeKeyCondition w partition sort).1
      fun item => partition.holds item && sort.all fun c => c.holds item := by
  obtain ⟨⟨v, rfl⟩, hsort⟩ := keyClauses_forms h
  exact expresses_writeKeyCondition w rfl fun c hc => (hsort c hc).isSortCondition

/-- Behind what is already written, a plan has its writer only write filters and a projection. -/
theorem exists_run_plan (r : PagedRead) (operation : Operation) (w : Writer) :
    ∃ calls, (r.plan operation w).expressions.bindings = (w.run calls).bindings := by
  obtain ⟨calls, hcalls⟩ := (w.conjunction r.filters).2.exists_run_projection? r.projection
  exact ⟨.conjunction r.filters :: calls, congrArg Writer.bindings hcalls⟩

theorem checkFilter_eq_ok {key : KeySchema} {c : Condition} :
    checkFilter key c = .ok () ↔ ∀ name ∈ c.attributes, name ∉ key.names := by
  unfold checkFilter
  split
  · next name hfound =>
    refine iff_of_false nofun fun hfree => ?_
    exact hfree name (List.mem_of_find?_eq_some hfound) (List.contains_iff_mem.1 (List.find?_some hfound))
  · next hnone =>
    refine iff_of_true rfl fun name hname hkey => ?_
    exact List.find?_eq_none.1 hnone name hname (List.contains_iff_mem.2 hkey)

/-- **A query is built if it passes its checks**, and its plan is then the key condition with the rest of the query. -/
theorem build_eq_ok_iff {q : Query} {plan : Plan} : q.build = .ok plan ↔ ∃ key partition sort, q.source = .ok key ∧
    q.keyClauses key = .ok (partition, sort) ∧ partition.validate q.shape = .ok () ∧ checkSort q.shape sort = .ok () ∧
    (∀ c ∈ q.filters, c.validate q.shape = .ok ()) ∧
    (∀ c ∈ q.filters, ∀ name ∈ c.attributes, name ∉ key.names) ∧
    q.shape.checkProjection q.projection = .ok () ∧ q.limit ≠ some 0 ∧ q.start.checkShape q.shape.name = .ok () ∧
    plan = { q.plan (.query (writeKeyCondition Writer.empty partition sort).1)
      (writeKeyCondition Writer.empty partition sort).2 with forward := q.forward } := by
  unfold build
  constructor
  · intro h
    obtain ⟨key, hkey, h⟩ := bind_eq_ok.1 h
    obtain ⟨⟨partition, sort⟩, hclauses, h⟩ := bind_eq_ok.1 h
    obtain ⟨_, hpartition, h⟩ := bind_eq_ok.1 h
    obtain ⟨_, hsort, h⟩ := bind_eq_ok.1 h
    obtain ⟨_, hfilters, h⟩ := bind_eq_ok.1 h
    obtain ⟨_, hfree, h⟩ := bind_eq_ok.1 h
    obtain ⟨_, hprojection, h⟩ := bind_eq_ok.1 h
    obtain ⟨_, hlimit, h⟩ := bind_eq_ok.1 h
    obtain ⟨_, hstart, h⟩ := bind_eq_ok.1 h
    cases h
    have hfree := fun c hc => checkFilter_eq_ok.1 (Outcome.forM_eq_ok.1 hfree c hc)
    exact ⟨key, partition, sort, hkey, hclauses, hpartition, hsort, Outcome.forM_eq_ok.1 hfilters, hfree, hprojection,
      checkLimit_eq_ok.1 hlimit, hstart, rfl⟩
  · rintro ⟨key, partition, sort, hkey, hclauses, hpartition, hsort, hfilters, hfree, hprojection, hlimit, hstart, rfl⟩
    have hfree := Outcome.forM_eq_ok.2 fun c hc => checkFilter_eq_ok.2 (hfree c hc)
    exact bind_eq_ok.2 ⟨key, hkey, bind_eq_ok.2 ⟨_, hclauses, bind_eq_ok.2 ⟨(), hpartition, bind_eq_ok.2 ⟨(), hsort,
      bind_eq_ok.2 ⟨(), Outcome.forM_eq_ok.2 hfilters, bind_eq_ok.2 ⟨(), hfree, bind_eq_ok.2 ⟨(), hprojection,
        bind_eq_ok.2 ⟨(), checkLimit_eq_ok.2 hlimit, bind_eq_ok.2 ⟨(), hstart, rfl⟩⟩⟩⟩⟩⟩⟩⟩⟩

/-- What a query has passed, and its plan. -/
theorem exists_of_build {q : Query} {plan : Plan} (h : q.build = .ok plan) : ∃ key partition sort, q.source = .ok key ∧
    q.keyClauses key = .ok (partition, sort) ∧ (∀ c ∈ q.filters, c.validate q.shape = .ok ()) ∧
    q.limit ≠ some 0 ∧ plan = { q.plan (.query (writeKeyCondition Writer.empty partition sort).1)
      (writeKeyCondition Writer.empty partition sort).2 with forward := q.forward } := by
  obtain ⟨key, partition, sort, hkey, hclauses, -, -, hfilters, -, -, hlimit, -, hplan⟩ := build_eq_ok_iff.1 h
  exact ⟨key, partition, sort, hkey, hclauses, hfilters, hlimit, hplan⟩

/-- What a built plan asks of the key, and the bindings it asks it under. -/
theorem build_ok {q : Query} {plan : Plan} (h : q.build = .ok plan) :
    ∃ key partition sort calls, q.source = .ok key ∧ q.keyClauses key = .ok (partition, sort) ∧
      plan.operation = .query (writeKeyCondition Writer.empty partition sort).1 ∧
      plan.expressions.bindings = ((writeKeyCondition Writer.empty partition sort).2.run calls).bindings := by
  obtain ⟨key, partition, sort, hkey, hclauses, -, -, rfl⟩ := exists_of_build h
  obtain ⟨calls, hcalls⟩ := exists_run_plan q.toPagedRead (.query (writeKeyCondition Writer.empty partition sort).1)
    (writeKeyCondition Writer.empty partition sort).2
  exact ⟨key, partition, sort, calls, hkey, hclauses, rfl, hcalls⟩

end Query

/-! ## All texts of conditions -/

/-- **Written conditions are read as they are meant.**  From any state of a writer, the text of a condition, and that of
several, can be read, and what is read holds, without a fault, of just those items of which the conditions hold, under
the bindings of the writer then or after any further calls.  So it is with the key condition of a plan. -/
theorem written_conditions_hold_as_meant (w : Writer) :
    (∀ c : Condition, c.listsFilled = true →
      Writer.Expresses (w.condition c).2 (w.condition c).1 fun item => c.holds item) ∧
    (∀ cs : List Condition, (∀ c ∈ cs, c.listsFilled = true) →
      match (w.conjunction cs).1 with
      | none => cs = []
      | some text => Writer.Expresses (w.conjunction cs).2 text fun item => Condition.allHold item cs) ∧
    ∀ (q : Query) (plan : Plan), q.build = .ok plan →
      ∃ key partition sort text f, q.source = .ok key ∧ q.keyClauses key = .ok (partition, sort) ∧
        plan.operation = .query text ∧ Formula.parse text = .ok f ∧
        ∀ item, f.holds plan.expressions.bindings item =
          .ok (partition.holds item && sort.all fun c => c.holds item) := by
  refine ⟨fun c hc => Writer.expresses_condition w hc, fun cs hcs => Writer.expresses_conjunction w hcs, ?_⟩
  intro q plan hbuild
  obtain ⟨key, partition, sort, calls, hsource, hclauses, hoperation, hbindings⟩ := Query.build_ok hbuild
  obtain ⟨f, hparse, hholds⟩ := Query.expresses_keyClauses hclauses Writer.empty
  refine ⟨key, partition, sort, _, f, hsource, hclauses, hoperation, hparse, fun item => ?_⟩
  rw [hbindings]
  exact hholds calls item

/-- A list of candidates beside a range, behind a call that has already handed out a name, and the orders of one id
whose date begins with a year. -/
theorem written_conditions_hold_as_meant_of_orders :
    let w := Writer.empty.run [.condition (.present "total")]
    let c := Condition.or (.isIn "total" [.string "a", .null]) (.not (.between "at" (.string "b") (.string "c")))
    let attributes : List Attribute :=
      [⟨"id", .string, false, false, .partition⟩, ⟨"at", .string, false, false, .sort⟩]
    let q : Query :=
      { shape := ⟨"Order", "orders", attributes, ⟨"id", some "at"⟩, []⟩, partition := some (.string "A"),
        sort := some (.beginsWith (.string "2024")) }
    (c.listsFilled = true ∧ Writer.Expresses (w.condition c).2 (w.condition c).1 fun item => c.holds item) ∧
    ((∀ d ∈ [c, c], d.listsFilled = true) ∧
      match (w.conjunction [c, c]).1 with
      | none => [c, c] = []
      | some text => Writer.Expresses (w.conjunction [c, c]).2 text fun item => Condition.allHold item [c, c]) ∧
    ∃ plan, q.build = .ok plan ∧ ∃ key partition sort text f, q.source = .ok key ∧
      q.keyClauses key = .ok (partition, sort) ∧ plan.operation = .query text ∧ Formula.parse text = .ok f ∧
        ∀ item, f.holds plan.expressions.bindings item =
          .ok (partition.holds item && sort.all fun c => c.holds item) := by
  intro w c attributes q
  have hfilled : ∀ d ∈ [c, c], d.listsFilled = true := by decide
  exact ⟨⟨rfl, (written_conditions_hold_as_meant w).1 c rfl⟩,
    ⟨hfilled, (written_conditions_hold_as_meant w).2.1 [c, c] hfilled⟩,
    _, rfl, (written_conditions_hold_as_meant w).2.2 q _ rfl⟩

end ItemStore
