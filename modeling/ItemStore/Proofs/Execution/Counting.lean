import Mathlib.Algebra.Ring.Int.Defs
import ItemStore.Proofs.Execution.Interleaving
import ItemStore.Proofs.Number.Integers
import ItemStore.Proofs.Request.Items
import ItemStore.Proofs.Store.Deeds
import ItemStore.Proofs.Store.Transactions
/-!
# Counting up and down

An update can count a number up or down by an amount, and clients that share a store count together.  The sum is exact
as long as the amount and both sums are integers that fit 128 bits and are written without point or exponent
(`Numeral.sum_of_writes`); then each write that the store serves changes the number by its amount, or is refused and
changes nothing (`Tables.Shows.writeOne`).  So no count is lost, and none is made twice (`no_count_is_lost`).
-/
namespace ItemStore

open Outcome (bind_eq_ok bind_eq_error)

/-! ## Integers as they are written -/

namespace Numeral
variable {x y : Numeral} {m n : Int}

/-- The numeral is the integer, written without point or exponent. -/
def Writes (x : Numeral) (n : Int) : Prop := Parts.readInt? x.text.toList = some n

theorem writes_ofInt (n : Int) : (ofInt n).Writes n := by
  rw [Writes, ofInt, String.toList_ofList, Parts.readInt?_integerChars]

theorem Writes.toInteger (h : x.Writes n) (hn : (IntType.signed 128).Contains n) :
    x.toInteger (.signed 128) = .ok n :=
  toInteger_eq_ok_iff.2 ⟨Parts.readInt?_eq_some_iff.1 h, hn, nofun⟩

/-- **Integers of 128 bits have an exact sum, if that is one of 128 bits.** -/
theorem sum_of_writes (subtract : Bool) (hx : x.Writes m) (hy : y.Writes n) (hm : (IntType.signed 128).Contains m)
    (hn : (IntType.signed 128).Contains n) (hsum : (IntType.signed 128).Contains (if subtract then m - n else m + n)) :
    x.sum y subtract = .ok (ofInt (if subtract then m - n else m + n)) := by
  have hexact : exactSum? x y subtract = some (if subtract then m - n else m + n) := by
    rw [exactSum?, hx.toInteger hm, hy.toInteger hn]
    exact if_pos hsum
  rw [sum, hexact]

end Numeral

/-! ## Actions that count -/

namespace UpdateAction

/-- The action counts the attribute up or down by an amount that is written as an integer; `change` is the amount with
its sign. -/
inductive CountsBy (name : String) (amount : Int) : UpdateAction → (change : Int) → Prop where
  | increment {x : Numeral} : x.Writes amount → CountsBy name amount (.increment name x) amount
  | decrement {x : Numeral} : x.Writes amount → CountsBy name amount (.decrement name x) (-amount)
  | add {x : Numeral} : x.Writes amount → CountsBy name amount (.add name (.number x)) amount

variable {u : UpdateAction} {name : String} {amount change n : Int} {item made : Item} {x : Numeral}

theorem CountsBy.name_eq (h : u.CountsBy name amount change) : u.name = name := by cases h <;> rfl

/-- What the action makes of a number. -/
theorem CountsBy.newValue (h : u.CountsBy name amount change) (hitem : item.get? name = some (.number x))
    (hx : x.Writes n) (hn : (IntType.signed 128).Contains n) (hamount : (IntType.signed 128).Contains amount)
    (hsum : (IntType.signed 128).Contains (n + change)) :
    u.newValue item = .ok (some (.number (.ofInt (n + change)))) := by
  have hold : oldValue item name = .ok (.number x) := by rw [oldValue, hitem]
  cases h with
  | increment hy =>
    have hexact := Numeral.sum_of_writes false hx hy hn hamount hsum
    rw [UpdateAction.newValue, hold]
    show (do return some (← (x.sum _ false).map Value.number)) = _
    rw [hexact]
    rfl
  | decrement hy =>
    have hexact := Numeral.sum_of_writes true hx hy hn hamount hsum
    rw [UpdateAction.newValue, hold]
    show (do return some (← (x.sum _ true).map Value.number)) = _
    rw [hexact]
    rfl
  | add hy =>
    have hexact := Numeral.sum_of_writes false hx hy hn hamount hsum
    rw [UpdateAction.newValue, hitem]
    show (do return some (← (x.sum _ false).map Value.number)) = _
    rw [hexact]
    rfl

theorem CountsBy.get?_apply (h : u.CountsBy name amount change) (hitem : item.get? name = some (.number x))
    (hx : x.Writes n) (hn : (IntType.signed 128).Contains n) (hamount : (IntType.signed 128).Contains amount)
    (hsum : (IntType.signed 128).Contains (n + change)) (hmade : u.apply item = .ok made) :
    made.get? name = some (.number (.ofInt (n + change))) := by
  obtain ⟨v, hv, rfl⟩ := apply_eq_ok hmade
  obtain rfl : some (.number (.ofInt (n + change))) = v :=
    Except.ok.inj ((h.newValue hitem hx hn hamount hsum).symm.trans hv)
  rw [← h.name_eq, Entries.get?_write_self]

end UpdateAction

/-! ## Updates of one action -/

/-- What a table makes of the text of an update of one action is what the action makes. -/
theorem Update.apply_of_build {u : Update} {p : Plan} {action : UpdateAction} (h : u.build = .ok p)
    (hactions : u.actions = [action]) : ∃ key text, u.keyItem = .ok key ∧ p.operation = .update key text ∧
      ∀ {t : Table} {item : Item} {touched : List String}, t.updated p.expressions key text = .ok (item, touched) →
        action.apply ((t.find? key).getD key) = .ok item := by
  obtain ⟨key, hkey, hvalid, -, rfl⟩ := build_eq_ok_iff.1 h
  refine ⟨key, _, hkey, rfl, fun {t item touched} hupdated => ?_⟩
  obtain ⟨hne, hd⟩ := UpdateAction.distinct_of_validateAll hvalid
  obtain ⟨-, cs, hparse, -, hmade⟩ := Table.updated_eq_ok hupdated
  have he := Writer.extends_conjunction (Writer.empty.update u.actions).2 u.conditions
  obtain ⟨taken, hperm, htaken⟩ := Writer.exists_taken Writer.empty hne hd he hparse ((t.find? key).getD key)
  rw [hactions] at hperm
  obtain rfl := List.perm_singleton.1 hperm
  obtain ⟨made, hmade', hrest⟩ := bind_eq_ok.1 ((UpdateAction.applyAll_cons _ action []).symm.trans
    (htaken.symm.trans hmade))
  cases hrest
  exact hmade'

/-- The plan has been built from an update that does nothing but to count an attribute of the item of this key. -/
def PlanOf.Counts (p : Plan) (table : String) (t : Table) (key : Item) (name : String) (amount change : Int) : Prop :=
  ∃ (u : Update) (action : UpdateAction) (k : Item), u.build = .ok p ∧ u.shape.table = table ∧ u.keyItem = .ok k ∧
    t.sameKey k key = true ∧ u.actions = [action] ∧ action.CountsBy name amount change

theorem PlanOf.Counts.isWrite {p : Plan} {table : String} {t : Table} {key : Item} {name : String} {amount change : Int}
    (h : p.Counts table t key name amount change) : p.operation.isWrite = true := by
  obtain ⟨u, _, _, hbuild, -⟩ := h
  exact (SingleWrite.plan_of_build (w := .update u) hbuild).1

/-! ## One write -/

namespace Tables
variable {ts ts' : Tables} {p : Plan} {table name : String} {t : Table} {key : Item} {n amount change : Int}

/-- The attribute of the item of this key is a number that is written as this integer. -/
def Shows (ts : Tables) (table : String) (schema : KeySchema) (key : Item) (name : String) (n : Int) : Prop :=
  ∃ t item x, ts.get? table = some t ∧ t.key = schema ∧ t.find? key = some item ∧
    item.get? name = some (.number x) ∧ x.Writes n

/-- **A write that counts is written and changes the number by its amount, or it changes nothing.** -/
theorem Shows.writeOne (h : ts.Shows table t.key key name n) (hp : p.Counts table t key name amount change) :
    (wasWritten (ts.outcomeOf p) = false ∧ (ts.writeOne p).2.Shows table t.key key name n) ∨
    (wasWritten (ts.outcomeOf p) = true ∧ ((IntType.signed 128).Contains n → (IntType.signed 128).Contains amount →
      (IntType.signed 128).Contains (n + change) → (ts.writeOne p).2.Shows table t.key key name (n + change))) := by
  obtain ⟨t', item, x, ht', hschema, hfind, hx, hn⟩ := h
  obtain ⟨u, action, k, hbuild, rfl, hk, hsame, hactions, hcounts⟩ := hp
  obtain ⟨k', text, hk', hoperation, happly⟩ := u.apply_of_build hbuild hactions
  obtain rfl : k = k' := Except.ok.inj (hk.symm.trans hk')
  have htable : p.table = u.shape.table := (SingleWrite.plan_of_build (w := .update u) hbuild).2
  rw [← htable] at ht' ⊢
  have hsame' : t'.sameKey k key = true := (Table.sameKey_congr hschema k key).trans hsame
  have hwrite := writeOne_eq ht'
  rw [hoperation, Table.write] at hwrite
  cases hupdated : t'.updated p.expressions k text with
  | error err =>
    rw [hupdated] at hwrite
    refine .inl ⟨Bool.eq_false_iff.2 fun hwritten => ?_, t', item, x, ?_, hschema, hfind, hx, hn⟩
    · obtain ⟨_, hdone⟩ := wasWritten_outcomeOf.1 hwritten
      rw [hwrite] at hdone
      cases hdone
    · rw [hwrite, Entries.get?_put_self]
  | ok made =>
    rw [hupdated] at hwrite
    refine .inr ⟨wasWritten_outcomeOf.2 ⟨_, congrArg Prod.fst hwrite⟩, fun hfits hamount hsum => ?_⟩
    have hmade := happly hupdated
    rw [Table.find?_congr_key hsame', hfind, Option.getD_some] at hmade
    have hkey := Table.sameKey_trans (Table.sameKey_of_updated hupdated) hsame'
    refine ⟨t'.put made.1, made.1, _, ?_, hschema, ?_, hcounts.get?_apply hx hn hfits hamount hsum hmade,
      Numeral.writes_ofInt _⟩
    · rw [hwrite, Entries.get?_put_self]
    · rw [Table.find?_put, if_pos hkey]

end Tables

/-! ## Many writes -/

namespace JointWrites

/-- The changes of the writes that were written, in their order. -/
def writtenChanges (change : Nat → Int) (done : List (WriteTask × Except Error WriteOutcome)) : List Int :=
  (done.filter fun e => wasWritten e.2).map fun e => change e.1.index

theorem writtenChanges_cons_of_written {change : Nat → Int} {e : WriteTask × Except Error WriteOutcome}
    (h : wasWritten e.2 = true) (done : List (WriteTask × Except Error WriteOutcome)) :
    writtenChanges change (e :: done) = change e.1.index :: writtenChanges change done := by
  rw [writtenChanges, List.filter_cons, if_pos h]
  rfl

theorem writtenChanges_cons_of_not {change : Nat → Int} {e : WriteTask × Except Error WriteOutcome}
    (h : wasWritten e.2 = false) (done : List (WriteTask × Except Error WriteOutcome)) :
    writtenChanges change (e :: done) = writtenChanges change done := by
  rw [writtenChanges, List.filter_cons, if_neg (ne_true_of_eq_false h)]
  rfl

/-- **The sum follows the writes that were written**, as long as the amounts and all sums on the way fit 128 bits. -/
theorem shows_of_oneByOne {table name : String} {t : Table} {key : Item} {amount change : Nat → Int} :
    ∀ {done : List (WriteTask × Except Error WriteOutcome)} {ts ts' : Tables} {n : Int},
    ts.Shows table t.key key name n → ts.OneByOne (served done) ts' →
    (∀ e ∈ done, e.1.plan.Counts table t key name (amount e.1.index) (change e.1.index)) →
    (∀ e ∈ done, wasWritten e.2 = true → (IntType.signed 128).Contains (amount e.1.index)) →
    (∀ k, (IntType.signed 128).Contains (n + ((writtenChanges change done).take k).sum)) →
    ts'.Shows table t.key key name (n + (writtenChanges change done).sum)
  | [], ts, ts', n, hshows, hone, _, _, _ => by
    cases hone
    rw [writtenChanges, List.filter_nil, List.map_nil, List.sum_nil, Int.add_zero]
    exact hshows
  | (task, outcome) :: done, ts, ts', n, hshows, hone, hcounts, hamounts, hsums => by
    obtain ⟨hcount, hcounts'⟩ := List.forall_mem_cons.1 hcounts
    obtain ⟨hamount, hamounts'⟩ := List.forall_mem_cons.1 hamounts
    cases hgaveUp : gaveUp outcome with
    | true =>
      -- the write has been throttled to its end, so the tables have not seen it
      rw [served, List.filter_cons, if_neg (by rw [hgaveUp]; exact Bool.false_ne_true)] at hone
      rw [writtenChanges_cons_of_not (wasWritten_of_gaveUp hgaveUp)] at hsums ⊢
      exact shows_of_oneByOne hshows hone hcounts' hamounts' hsums
    | false =>
      rw [served, List.filter_cons, if_pos (by rw [hgaveUp]; rfl), List.map_cons] at hone
      have hone : ts.OneByOne ((task.plan, outcome) :: served done) ts' := hone
      obtain ⟨rfl, hrest⟩ := hone.of_cons
      rcases hshows.writeOne hcount with ⟨hnot, hnext⟩ | ⟨hwritten, hnext⟩
      · rw [writtenChanges_cons_of_not hnot] at hsums ⊢
        exact shows_of_oneByOne hnext hrest hcounts' hamounts' hsums
      · rw [writtenChanges_cons_of_written hwritten] at hsums ⊢
        have hbefore := hsums 0
        have hafter := hsums 1
        rw [List.take_zero, List.sum_nil, Int.add_zero] at hbefore
        rw [List.take_succ_cons, List.take_zero, List.sum_singleton] at hafter
        rw [List.sum_cons, ← Int.add_assoc]
        refine shows_of_oneByOne (hnext hbefore (hamount hwritten) hafter) hrest hcounts' hamounts' fun k => ?_
        have hk := hsums (k + 1)
        rwa [List.take_succ_cons, List.sum_cons, ← Int.add_assoc] at hk

end JointWrites

/-- **No count is lost.**  Clients of one store run updates that count one number of one item up or down, under whatever
conditions.  In whatever order their requests come, and however often they are throttled and sent again, the number is
at any time what it was at first and the changes of exactly those writes that were written until then.  This is so as
long as the amounts and all sums on the way fit 128 bits. -/
theorem no_count_is_lost (x : Nat → Executor) (s : Store) (herrors : s.faults.errors = [])
    {table name : String} {t : Table} {key item : Item} {number : Numeral} {initial : Int}
    (ht : s.tables.get? table = some t) (hitem : t.find? key = some item)
    (hnumber : item.get? name = some (.number number)) (hinitial : number.Writes initial)
    (plans : List Plan) (amount change : Nat → Int)
    (hplans : ∀ e ∈ plans.zipIdx, e.1.Counts table t key name (amount e.2) (change e.2))
    (es : List Store.Event) (hes : ∀ e ∈ es, e.Quiet) (j : JointWrites)
    (hproceeds : JointWrites.Proceeds x (.start x s plans) es j)
    (hamounts : ∀ e ∈ j.finished, wasWritten e.2 = true → (IntType.signed 128).Contains (amount e.1.index))
    (hsums : ∀ k,
      (IntType.signed 128).Contains (initial + ((JointWrites.writtenChanges change j.finished).take k).sum)) :
    j.inventory.Perm plans.zipIdx ∧
    ∃ t' item' number', j.store.tables.get? table = some t' ∧ t'.find? key = some item' ∧
      item'.get? name = some (.number number') ∧
      number'.Writes (initial + (JointWrites.writtenChanges change j.finished).sum) := by
  have hinventory : j.inventory.Perm plans.zipIdx := JointWrites.inventory_start x s plans ▸ hproceeds.inventory
  have hwrites : ∀ e ∈ (JointWrites.start x s plans).inventory, e.1.operation.isWrite = true := by
    rw [JointWrites.inventory_start]
    exact fun e he => (hplans e he).isWrite
  obtain ⟨done, rfl, hone⟩ := hproceeds.oneByOne hes herrors hwrites
  have hcounts : ∀ e ∈ j.finished, e.1.plan.Counts table t key name (amount e.1.index) (change e.1.index) :=
    fun e he => hplans (e.1.plan, e.1.index) (hinventory.mem_iff.1
      (List.mem_map.2 ⟨e.1, List.mem_append_right _ (List.mem_map_of_mem he), rfl⟩))
  obtain ⟨t', item', number', ht', -, hitem', hnumber', hwritten⟩ := JointWrites.shows_of_oneByOne
    ⟨t, item, number, ht, rfl, hitem, hnumber, hinitial⟩ hone hcounts hamounts hsums
  exact ⟨hinventory, t', item', number', ht', hitem', hnumber', hwritten⟩

namespace Samples

def counter : Descriptor :=
  ⟨"Counter", "counters", [⟨"id", .string, false, false, .partition⟩, ⟨"n", .number, false, false, .none⟩],
    ⟨"id", none⟩, []⟩

def counterKey : Item := [("id", .string "a")]

def counterAt (n : Int) : Table where
  key := counter.key
  items := [[("id", .string "a"), ("n", .number (.ofInt n))]]

/-- A store whose only item is a counter. -/
def counting (n : Int) : Store := { tables := [(counter.table, counterAt n)] }

def countBy (action : UpdateAction) : Update :=
  { shape := counter, key := { partition := .string "a" }, actions := [action] }

/-- What the counter reads. -/
def reading (ts : Tables) : Option Value :=
  (ts.get? counter.table).bind fun t => (t.find? counterKey).bind (·.get? "n")

end Samples

section
open Samples

set_option maxRecDepth 10000 in
/-- One client counts up by 5, the other down by 2, and the first request is throttled. -/
theorem no_count_is_lost_of_two_clients :
    let x : Nat → Executor := fun _ => twice
    ∃ p q j number, (countBy (.increment "n" (.ofInt 5))).build = .ok p ∧
      (countBy (.decrement "n" (.ofInt 2))).build = .ok q ∧
      JointWrites.Proceeds x (.start x (counting 4) [p, q]) [.throttleNext 1] j ∧ j.underWay = [] ∧
      (∀ e ∈ j.finished, wasWritten e.2 = true) ∧
      reading j.store.tables = some (.number number) ∧ number.Writes 7 := by
  intro x
  let amount : Nat → Int := fun i => if i = 0 then 5 else 2
  let change : Nat → Int := fun i => if i = 0 then 5 else -2
  obtain ⟨p, hp⟩ : ∃ p, (countBy (.increment "n" (.ofInt 5))).build = .ok p := ⟨_, rfl⟩
  obtain ⟨q, hq⟩ : ∃ q, (countBy (.decrement "n" (.ofInt 2))).build = .ok q := ⟨_, rfl⟩
  have hplans : ∀ e ∈ [p, q].zipIdx, e.1.Counts "counters" (counterAt 4) counterKey "n" (amount e.2) (change e.2) := by
    refine List.forall_mem_cons.2 ⟨?_, List.forall_mem_singleton.2 ?_⟩
    · exact ⟨_, _, counterKey, hp, rfl, rfl, rfl, rfl, .increment (Numeral.writes_ofInt 5)⟩
    · exact ⟨_, _, counterKey, hq, rfl, rfl, rfl, rfl, .decrement (Numeral.writes_ofInt 2)⟩
  obtain ⟨j, t, t', hproceeds, hdone, hfinished, ⟨rfl, hindex⟩, ⟨rfl, hindex'⟩⟩ :=
    JointWrites.exists_both_served x
    (s := (counting 4).throttleNext 1) rfl (hplans (p, 0) (.head _)).isWrite (hplans (q, 1) (.tail _ (.head _))).isWrite
    fun _ => Nat.le_refl 1
  have hboth : ((countBy (.increment "n" (.ofInt 5))).build.toOption.any fun p =>
      wasWritten ((counting 4).tables.outcomeOf p) &&
      (countBy (.decrement "n" (.ofInt 2))).build.toOption.any fun q =>
        wasWritten (((counting 4).tables.writeOne p).2.outcomeOf q)) = true := by decide +kernel
  rw [hp, hq] at hboth
  obtain ⟨hwritten, hwritten'⟩ := Bool.and_eq_true_iff.1 hboth
  have hall : ∀ e ∈ j.finished, wasWritten e.2 = true := by
    rw [hfinished]
    exact List.forall_mem_cons.2 ⟨hwritten, List.forall_mem_singleton.2 hwritten'⟩
  have hchanges : JointWrites.writtenChanges change j.finished = [change t.index, change t'.index] := by
    rw [JointWrites.writtenChanges, List.filter_eq_self.2 hall, hfinished]
    rfl
  rw [hindex, hindex'] at hchanges
  have hamounts : ∀ i, (IntType.signed 128).Contains (amount i) := by
    intro i
    show (IntType.signed 128).Contains (if i = 0 then 5 else 2)
    split <;> decide
  have hsums : ∀ k,
      (IntType.signed 128).Contains (4 + ((JointWrites.writtenChanges change j.finished).take k).sum) := by
    intro k
    rw [hchanges]
    rcases k with _ | _ | k
    · decide
    · decide
    · rw [List.take_of_length_le (Nat.le_add_left 2 k)]
      decide
  obtain ⟨-, t, item, number, ht, hitem, hnumber, hseven⟩ := no_count_is_lost x (counting 4) rfl
    (show (counting 4).tables.get? "counters" = some (counterAt 4) from rfl) rfl rfl (Numeral.writes_ofInt 4) _ amount
    change hplans [.throttleNext 1] (List.forall_mem_singleton.2 (Store.Event.quiet_throttleNext 1)) j
      (.event hproceeds)
    (fun e _ _ => hamounts e.1.index) hsums
  rw [hchanges] at hseven
  refine ⟨_, _, j, number, hp, hq, .event hproceeds, hdone, hall, ?_, hseven⟩
  rw [reading, show (j.store.tables.get? counter.table) = some t from ht]
  exact (congrArg (·.bind (·.get? "n")) hitem).trans hnumber

set_option maxRecDepth 10000 in
/-- **Without a bound on the amounts, counts are lost**: what does not fit 128 bits is added as floating-point numbers
are, even if both sums do fit. -/
theorem large_amounts_are_rounded :
    let x : Nat → Executor := fun _ => twice
    let initial : Int := -100000000000000000000000000000000000001
    let amount : Int := 200000000000000000000000000000000000000
    ∃ p j, (countBy (.increment "n" (.ofInt amount))).build = .ok p ∧
      JointWrites.Proceeds x (.start x (counting initial) [p]) [] j ∧ j.underWay = [] ∧
      JointWrites.writtenChanges (fun _ => amount) j.finished = [amount] ∧
      (∀ k, (IntType.signed 128).Contains (initial + ([amount].take k).sum)) ∧
      ∃ number, reading j.store.tables = some (.number number) ∧ ¬number.Writes (initial + amount) := by
  intro x initial amount
  obtain ⟨p, hp⟩ : ∃ p, (countBy (.increment "n" (.ofInt amount))).build = .ok p := ⟨_, rfl⟩
  have hwrite : p.operation.isWrite = true :=
    (SingleWrite.plan_of_build (w := .update (countBy (.increment "n" (.ofInt amount)))) hp).1
  obtain ⟨j, hproceeds, hdone, horder, hone⟩ := JointWrites.exists_served_in_order x (s := counting initial) rfl
    (List.forall_mem_singleton.2 hwrite) fun _ => Nat.zero_le _
  obtain ⟨e, _, hfinished, he, hnil⟩ := List.map_eq_cons_iff.1 horder
  obtain rfl := List.map_eq_nil_iff.1 hnil
  obtain ⟨rfl, -⟩ := Prod.mk.inj he
  rw [hfinished] at hone
  obtain ⟨houtcome, hone⟩ := hone.of_cons
  have hrounded : ((countBy (.increment "n" (.ofInt amount))).build.toOption.any fun p =>
      wasWritten ((counting initial).tables.outcomeOf p) &&
      decide (reading ((counting initial).tables.writeOne p).2 =
        some (.number (.ofInt 100000000000000000000000000000000000000)))) = true := by decide +kernel
  rw [hp] at hrounded
  obtain ⟨hwritten, hreading⟩ := Bool.and_eq_true_iff.1 hrounded
  have hreading := of_decide_eq_true hreading
  refine ⟨_, j, hp, hproceeds, hdone, ?_, fun k => ?_, .ofInt 100000000000000000000000000000000000000, ?_,
    fun hwrites => ?_⟩
  · rw [hfinished, JointWrites.writtenChanges_cons_of_written (houtcome ▸ hwritten)]
    rfl
  · cases k with
    | zero => decide
    | succ k =>
      rw [List.take_of_length_le (Nat.le_add_left 1 k)]
      decide
  · generalize j.store.tables = ts at hone
    cases hone
    exact hreading
  · exact absurd ((Numeral.writes_ofInt _).symm.trans hwrites) (by decide)

end
end ItemStore
