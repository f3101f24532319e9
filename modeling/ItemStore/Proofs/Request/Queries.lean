import ItemStore.Proofs.Expression.ProjectionText
import ItemStore.Proofs.Request.KeyCondition
/-!
# What a query asks for

A query asks for items by its key conditions, given in either way, and by its filters (`Query.Asks`).  Its plan is
texts, of which a store makes just that: the key condition and the filter hold of the items that are meant, without a
fault, and the projection shows the names that were given (`Query.says_of_build`).
-/
namespace ItemStore

open Outcome (bind_eq_ok)

/-- The item carries the key that is read, and all that is asked of it holds. -/
structure Query.Asks (q : Query) (key : KeySchema) (item : Item) : Prop where
  covers : key.covers item = true
  partition : ∀ v ∈ q.partition, (Condition.compare key.partition .eq v).holds item = true
  sort : ∀ c ∈ q.sort, ∀ name ∈ key.sort, (c.on name).holds item = true
  keyConditions : ∀ c ∈ q.keyConditions, c.holds item = true
  filters : ∀ c ∈ q.filters, c.holds item = true

/-- The item as the query's projection shows it; without one it is shown whole. -/
def PagedRead.shown (r : PagedRead) (item : Item) : Item :=
  if r.projection = [] then item else item.restrict r.projection

/-! ## The clauses that are collected -/

theorem Condition.all_conjuncts {item : Item} : ∀ {c : Condition} {ls : List Condition}, c.conjuncts = .ok ls →
    ls.all (fun l => l.holds item) = c.holds item
  | .and left right, ls, h => by
    obtain ⟨lefts, hlefts, h⟩ := bind_eq_ok.1 h
    obtain ⟨rights, hrights, h⟩ := bind_eq_ok.1 h
    cases h
    rw [List.all_append, all_conjuncts hlefts, all_conjuncts hrights]
    rfl
  | .or _ _, _, h | .not _, _, h => by cases h
  | .compare _ _ _, _, h | .between _ _ _, _, h | .isIn _ _, _, h | .beginsWith _ _, _, h | .contains _ _, _, h
  | .present _, _, h | .absent _, _, h | .hasType _ _, _, h => by
    cases h
    exact Bool.and_true _

theorem all_flatten_conjuncts {item : Item} {cs : List Condition} {leaves : List (List Condition)}
    (h : cs.mapM Condition.conjuncts = .ok leaves) :
    leaves.flatten.all (fun l => l.holds item) = cs.all fun c => c.holds item := by
  have hmap := Outcome.map_eq_of_mapM (g := fun c => c.holds item) (k := fun ls => ls.all fun l => l.holds item)
    (fun c ls hls => (Condition.all_conjuncts hls).symm) h
  have hall := congrArg (List.all · id) hmap
  simp only [List.all_map, Function.id_comp] at hall
  rw [List.all_flatten]
  exact hall.symm

namespace KeyClauses

/-- Both of the conditions, as far as they are there, hold of the item. -/
def holds (k : KeyClauses) (item : Item) : Bool :=
  (k.partition.all fun c => c.holds item) && k.sort.all fun c => c.holds item

theorem holds_add {target : String} {key : KeySchema} {k k' : KeyClauses} {c : Condition}
    (h : k.add target key c = .ok k') (item : Item) : k'.holds item = (k.holds item && c.holds item) := by
  rcases add_cases h with ⟨-, hnone, rfl⟩ | ⟨-, hnone, rfl⟩
  · rw [holds, holds, hnone, Option.all_none, Option.all_some, Bool.true_and, Bool.and_comm]
  · rw [holds, holds, hnone, Option.all_none, Option.all_some, Bool.and_true]

theorem holds_foldlM {target : String} {key : KeySchema} {item : Item} : ∀ {cs : List Condition} {k k' : KeyClauses},
    cs.foldlM (add target key) k = .ok k' → k'.holds item = (k.holds item && cs.all fun c => c.holds item)
  | [], k, k', h => by
    cases h
    exact (Bool.and_true _).symm
  | c :: cs, k, k', h => by
    rw [List.foldlM_cons] at h
    obtain ⟨k₁, hstep, hrest⟩ := bind_eq_ok.1 h
    rw [holds_foldlM hrest, holds_add hstep, Bool.and_assoc]
    rfl

end KeyClauses

namespace Query
variable {q : Query} {key : KeySchema} {partition : Condition} {sort : Option Condition}

theorem sortClause_holds {item : Item} (h : q.sortClause key = .ok sort) :
    sort.all (fun c => c.holds item) = true ↔ ∀ c ∈ q.sort, ∀ name ∈ key.sort, (c.on name).holds item = true := by
  unfold sortClause at h
  split at h
  · next c name hc hname =>
    cases h
    constructor
    · intro hholds c' hc' name' hname'
      rw [hc] at hc'
      rw [hname] at hname'
      cases hc'
      cases hname'
      exact hholds
    · intro hall
      exact hall c hc name hname
  · cases h
  · next hnone =>
    cases h
    refine iff_of_true rfl fun c hc => ?_
    rw [hnone] at hc
    cases hc

/-- **What is collected for the key holds of the items that it was collected for.** -/
theorem keyClauses_holds {item : Item} (h : q.keyClauses key = .ok (partition, sort)) :
    (partition.holds item && sort.all fun c => c.holds item) = true ↔
      (∀ v ∈ q.partition, (Condition.compare key.partition .eq v).holds item = true) ∧
      (∀ c ∈ q.sort, ∀ name ∈ key.sort, (c.on name).holds item = true) ∧
      ∀ c ∈ q.keyConditions, c.holds item = true := by
  unfold keyClauses at h
  obtain ⟨sort', hsort, h⟩ := bind_eq_ok.1 h
  obtain ⟨leaves, hleaves, h⟩ := bind_eq_ok.1 h
  obtain ⟨k, hk, h⟩ := bind_eq_ok.1 h
  split at h
  · next c hc =>
    cases h
    have hk : k.holds item = _ := KeyClauses.holds_foldlM hk
    have hpartition :
        (q.partition.map fun v => Condition.compare key.partition .eq v).all (fun c => c.holds item) = true ↔
        ∀ v ∈ q.partition, (Condition.compare key.partition .eq v).holds item = true := by
      rw [Option.all_map, Option.all_eq_true]
      rfl
    rw [KeyClauses.holds, hc, Option.all_some] at hk
    rw [hk, KeyClauses.holds, all_flatten_conjuncts hleaves, Bool.and_eq_true, Bool.and_eq_true, hpartition,
      sortClause_holds hsort, List.all_eq_true, and_assoc]
  · cases h

end Query

/-! ## The texts of the plan -/

/-- A condition that suits a shape has no empty list of candidates. -/
theorem Condition.listsFilled_of_validate {shape : Descriptor} : ∀ {c : Condition}, c.validate shape = .ok () →
    c.listsFilled = true
  | .and left right, h | .or left right, h => by
    obtain ⟨_, hleft, hright⟩ := bind_eq_ok.1 h
    rw [listsFilled, listsFilled_of_validate hleft, listsFilled_of_validate hright]
    rfl
  | .not inner, h => listsFilled_of_validate (c := inner) h
  | .isIn name [], h => by
    obtain ⟨a, -, h⟩ := bind_eq_ok.1 h
    cases h
  | .isIn _ (_ :: _), _ | .compare _ _ _, _ | .between _ _ _, _ | .beginsWith _ _, _ | .contains _ _, _
  | .present _, _ | .absent _, _ | .hasType _ _, _ => rfl

/-- What a store makes of the texts of a plan, whatever the item: the key condition holds of it or not, and so does the
filter, and there is something to show of it. -/
structure PlanOf.Says (p : Plan) (meets admits : Item → Bool) (shown : Item → Item) : Prop where
  meets : ∃ text, p.operation = .query text ∧
    ∀ item, Table.conditionHolds p.expressions.bindings item (some text) = .ok (meets item)
  admits : ∀ item, Table.conditionHolds p.expressions.bindings item p.expressions.filter = .ok (admits item)
  shown : ∀ item, Table.project p.expressions item = .ok (shown item)

theorem Writer.Expresses.conditionHolds {w w' : Writer} {text : String} {meaning : Item → Bool}
    (h : Writer.Expresses w text meaning) {calls : List Writer.Call} (hw : w' = w.run calls) (item : Item) :
    Table.conditionHolds w'.bindings item (some text) = .ok (meaning item) := by
  obtain ⟨f, hparse, hholds⟩ := h
  rw [hw, Table.conditionHolds, hparse]
  show expressionFault (f.holds (w.run calls).bindings item) = _
  rw [hholds]
  rfl

/-- What is written for several conditions holds of the items of which all of them hold, whatever is written after
it. -/
theorem Writer.conditionHolds_conjunction (w : Writer) {cs : List Condition} (h : ∀ c ∈ cs, c.listsFilled = true)
    {w' : Writer} {calls : List Writer.Call} (hw : w' = (w.conjunction cs).2.run calls) (item : Item) :
    Table.conditionHolds w'.bindings item (w.conjunction cs).1 = .ok (Condition.allHold item cs) := by
  have hconjunction := Writer.expresses_conjunction w h
  cases htext : (w.conjunction cs).1 with
  | none =>
    rw [htext] at hconjunction
    rw [show cs = [] from hconjunction]
    rfl
  | some text =>
    rw [htext] at hconjunction
    exact Writer.Expresses.conditionHolds hconjunction hw item

namespace PagedRead

/-- The filter of a plan says that all filters hold. -/
theorem admits_plan (r : PagedRead) (operation : Operation) (w : Writer)
    (hfilters : ∀ c ∈ r.filters, c.listsFilled = true) (item : Item) :
    Table.conditionHolds (r.plan operation w).expressions.bindings item
      (r.plan operation w).expressions.filter = .ok (Condition.allHold item r.filters) := by
  obtain ⟨calls, hcalls⟩ := (w.conjunction r.filters).2.exists_run_projection? r.projection
  exact w.conditionHolds_conjunction hfilters hcalls item

/-- The projection of a plan shows what is asked for. -/
theorem shown_plan (r : PagedRead) (operation : Operation) (w : Writer) (item : Item) :
    Table.project (r.plan operation w).expressions item = .ok (r.shown item) :=
  (w.conjunction r.filters).2.project_projection? r.projection _ none item

/-- Behind a key condition, both do so. -/
theorem says_plan (r : PagedRead) {w : Writer} {text : String} {meets : Item → Bool}
    (hmeets : Writer.Expresses w text meets) (hfilters : ∀ c ∈ r.filters, c.listsFilled = true) :
    (r.plan (.query text) w).Says meets (fun item => Condition.allHold item r.filters) r.shown := by
  obtain ⟨calls, hcalls⟩ := (w.conjunction r.filters).2.exists_run_projection? r.projection
  have hafter : ((w.conjunction r.filters).2.projection? r.projection).2 =
      w.run (.conjunction r.filters :: calls) := hcalls
  exact ⟨⟨text, rfl, hmeets.conditionHolds hafter⟩, r.admits_plan _ w hfilters, r.shown_plan _ w⟩

end PagedRead

namespace Query
variable {q : Query} {plan : Plan}

/-- **The texts of a plan say what the query asks for**, and its other parts are those of the query. -/
theorem says_of_build (h : q.build = .ok plan) : ∃ key partition sort, q.source = .ok key ∧
    q.keyClauses key = .ok (partition, sort) ∧
    plan.Says (fun item => partition.holds item && sort.all fun c => c.holds item)
      (fun item => Condition.allHold item q.filters) q.shown ∧
    q.limit ≠ some 0 ∧ ∃ operation expressions, plan =
      { shape := q.shape.name, table := q.shape.table, operation, expressions, index := q.index
        consistency := q.consistency, limit := q.limit, cursor := q.start.cursor, forward := q.forward } := by
  obtain ⟨key, partition, sort, hkey, hclauses, hfilters, hlimit, rfl⟩ := exists_of_build h
  have htexts := q.says_plan (expresses_keyClauses hclauses Writer.empty) fun c hc =>
    Condition.listsFilled_of_validate (hfilters c hc)
  exact ⟨key, partition, sort, hkey, hclauses, ⟨htexts.meets, htexts.admits, htexts.shown⟩, hlimit, _, _, rfl⟩

end Query
end ItemStore
