import ItemStore.Execution.WritePool
import ItemStore.Proofs.Execution.Retries
/-!
# Writes of many clients on one store

Clients that share a store send their writes when they please, and those that are throttled send them again.  What the
store sees of them is turns, one for each attempt, in some order; between the turns anything else may happen to it
(`JointWrites.Proceeds`).  A turn is throttled or served (`JointWrites.turn_cases`), so as long as nothing else touches
the tables, they and the outcomes are what the writes that were served come to one by one
(`JointWrites.Proceeds.oneByOne`).
-/
namespace ItemStore

/-! ## One attempt -/

/-- What comes of a write that the tables serve. -/
def Tables.outcomeOf (ts : Tables) (p : Plan) : Except Error WriteOutcome :=
  WriteOutcome.ofResult ((ts.writeOne p).1.mapError StoreError.error)

/-- The write has been given up after so many attempts, all of them throttled. -/
def gaveUp : Except Error WriteOutcome → Bool
  | .error (.capacityExceeded _) => true
  | _ => false

def wasWritten : Except Error WriteOutcome → Bool
  | .ok (.written _) => true
  | _ => false

theorem wasWritten_of_gaveUp {outcome : Except Error WriteOutcome} (h : gaveUp outcome = true) :
    wasWritten outcome = false := by
  unfold gaveUp at h
  split at h
  · rfl
  · cases h

theorem Tables.wasWritten_outcomeOf {ts : Tables} {p : Plan} :
    wasWritten (ts.outcomeOf p) = true ↔ ∃ response, (ts.writeOne p).1 = .ok response := by
  unfold outcomeOf
  cases (ts.writeOne p).1 with
  | ok response => exact iff_of_true rfl ⟨response, rfl⟩
  | error err => cases err <;> exact iff_of_false Bool.false_ne_true nofun

theorem Tables.not_throttles_writeOne (ts : Tables) (p : Plan) : ¬Throttles (ts.writeOne p).1 := by
  rintro ⟨detail, h⟩
  exact (refusal_of_writeOne h).not_throttles ⟨detail, rfl⟩

theorem Tables.gaveUp_outcomeOf (ts : Tables) (p : Plan) : gaveUp (ts.outcomeOf p) = false := by
  unfold outcomeOf
  cases (ts.writeOne p).1 with
  | ok response => rfl
  | error e => cases e <;> rfl

theorem Faults.errors_of_next {f : Faults} (h : f.next.1 = none) : f.errors = [] := by
  unfold next at h
  split at h
  · cases h
  · cases h
  · next herrors => exact herrors

theorem Faults.throttled_of_next {f : Faults} (h : f.next.1 = none) : f.throttled = 0 := by
  unfold next at h
  split at h
  · cases h
  · cases h
  · next hthrottled _ => exact hthrottled

/-- A write that is run alone on a store without faults comes to what the tables make of it. -/
theorem Executor.write_of_no_fault (x : Executor) {s : Store} (hnext : s.faults.next.1 = none) {p : Plan}
    (hp : p.operation.isWrite = true) (time : Nat) : (x.write p ⟨s, time⟩).1 = s.tables.outcomeOf p := by
  have hattempts : 0 < x.retry.totalAttempts := by
    rw [← x.retries_succ]
    exact Nat.succ_pos _
  have hsubmit := (Store.submit_throttled x hnext hp hattempts (t := time) rfl).1
  rw [Store.throttleNext_of_no_fault hnext] at hsubmit
  rw [x.write_of_isWrite hp]
  exact congrArg WriteOutcome.ofResult hsubmit

namespace Executor
variable {σ : Type} [Client σ] {x : Executor} {t : WriteTask} {w w' : World σ}

theorem advance_of_throttled (hp : t.plan.operation.isWrite = true) {left : Nat} (hleft : t.left = left + 1)
    {detail : String} (hsend : w.send t.plan.request = (.error (.throttling detail), w')) :
    x.advance t w = (.asleep (x.retry.backoff t.made) { t with made := t.made + 1, left }, w') := by
  simp only [advance, WriteOutcome.checkPlan, PlanOf.checkOperation, if_pos hp, hleft, hsend]

theorem advance_of_last (hp : t.plan.operation.isWrite = true) {reply : Reply}
    (hsend : w.send t.plan.request = (reply, w')) (hlast : Throttles reply → t.left = 0) :
    x.advance t w = (.finished (WriteOutcome.ofResult (conclude (t.made + 1) reply)), w') := by
  simp only [advance, WriteOutcome.checkPlan, PlanOf.checkOperation, if_pos hp, hsend]
  split
  · next hleft heq =>
    cases heq
    exact absurd (hleft.symm.trans (hlast ⟨_, rfl⟩)) (Nat.succ_ne_zero _)
  · next heq _ =>
    cases heq
    rfl

/-- A write that is to be sent again is the same write. -/
theorem advance_asleep {wait : Nat} {again : WriteTask} (h : x.advance t w = (.asleep wait again, w')) :
    again.plan = t.plan ∧ again.index = t.index ∧ again.left + 1 = t.left := by
  unfold advance at h
  split at h
  · cases h
  · split at h
    · next hleft _ =>
      cases h
      exact ⟨rfl, rfl, hleft.symm⟩
    · cases h

end Executor

theorem World.send_store {s s' : Store} {r : Request} {reply : Reply} (h : s.send r = (reply, s')) (time : Nat) :
    World.send ⟨s, time⟩ r = (reply, (⟨s', time⟩ : World Store)) := by
  show (((s.send r).1, ⟨(s.send r).2, time⟩) : Reply × World Store) = _
  rw [h]

/-! ## Turns -/

/-- Writes under way on one store, each run by a client of its own. -/
structure JointWrites where
  store : Store
  underWay : List WriteTask
  /-- The writes that are done, in the order in which they were finished. -/
  finished : List (WriteTask × Except Error WriteOutcome) := []

namespace JointWrites

/-- No plan has been sent yet; each is run by the executor of its place. -/
def start (x : Nat → Executor) (s : Store) (plans : List Plan) : JointWrites where
  store := s
  underWay := plans.zipIdx.map fun e => { index := e.2, plan := e.1, left := (x e.2).retries }

/-- The store is sent an attempt of one of the writes. -/
def turn (x : Nat → Executor) (j : JointWrites) (t : WriteTask) (others : List WriteTask) : JointWrites :=
  match (x t.index).advance t ⟨j.store, 0⟩ with
  | (.finished outcome, w) => { store := w.client, underWay := others, finished := j.finished ++ [(t, outcome)] }
  | (.asleep _ again, w) => { store := w.client, underWay := again :: others, finished := j.finished }

/-- Turns of the writes under way in any order, with events of the store between them. -/
inductive Proceeds (x : Nat → Executor) : JointWrites → List Store.Event → JointWrites → Prop where
  | rest (j : JointWrites) : Proceeds x j [] j
  | turn {j j' : JointWrites} {es : List Store.Event} {t : WriteTask} {others : List WriteTask} :
      j.underWay.Perm (t :: others) → Proceeds x (j.turn x t others) es j' → Proceeds x j es j'
  | event {j j' : JointWrites} {es : List Store.Event} {e : Store.Event} :
      Proceeds x { j with store := j.store.handle e } es j' → Proceeds x j (e :: es) j'

variable {x : Nat → Executor} {j j' : JointWrites} {t : WriteTask} {others : List WriteTask} {es : List Store.Event}

theorem Proceeds.trans {j'' : JointWrites} {es' : List Store.Event} (h : Proceeds x j es j')
    (h' : Proceeds x j' es' j'') : Proceeds x j (es ++ es') j'' := by
  induction h with
  | rest _ => exact h'
  | turn hperm _ ih => exact .turn hperm (ih h')
  | event _ ih => exact .event (ih h')

/-- What a turn can do on a store that waits with no errors: the attempt is throttled, and there is another one or not,
or it is served. -/
inductive Turned (j : JointWrites) (t : WriteTask) (others : List WriteTask) : JointWrites → Prop where
  | again {s : Store} {left : Nat} : t.left = left + 1 → s.tables = j.store.tables → s.faults.errors = [] →
      s.faults.throttled + 1 = j.store.faults.throttled →
      Turned j t others
        { store := s, underWay := { t with made := t.made + 1, left } :: others, finished := j.finished }
  | givenUp {s : Store} : t.left = 0 → s.tables = j.store.tables → s.faults.errors = [] →
      s.faults.throttled + 1 = j.store.faults.throttled →
      Turned j t others
        { store := s, underWay := others, finished := j.finished ++ [(t, .error (.capacityExceeded (t.made + 1)))] }
  | served {s : Store} : s.tables = (j.store.tables.writeOne t.plan).2 → s.faults.errors = [] →
      s.faults.throttled = 0 →
      Turned j t others
        { store := s, underWay := others, finished := j.finished ++ [(t, j.store.tables.outcomeOf t.plan)] }

theorem turn_of_throttled (hp : t.plan.operation.isWrite = true) {left : Nat} (hleft : t.left = left + 1)
    {detail : String} {s : Store} (hsend : j.store.send t.plan.request = (.error (.throttling detail), s)) :
    j.turn x t others =
      { store := s, underWay := { t with made := t.made + 1, left } :: others, finished := j.finished } := by
  have hworld : World.send ⟨j.store, 0⟩ t.plan.request = (.error (.throttling detail), (⟨s, 0⟩ : World Store)) :=
    World.send_store hsend 0
  rw [turn, Executor.advance_of_throttled hp hleft hworld]

theorem turn_of_last (hp : t.plan.operation.isWrite = true) {reply : Reply} {s : Store}
    (hsend : j.store.send t.plan.request = (reply, s)) (hlast : Throttles reply → t.left = 0) :
    j.turn x t others =
      { store := s, underWay := others
        finished := j.finished ++ [(t, WriteOutcome.ofResult (Executor.conclude (t.made + 1) reply))] } := by
  rw [turn, Executor.advance_of_last hp (World.send_store hsend 0) hlast]

/-- **A turn is throttled or served.** -/
theorem turn_cases (x : Nat → Executor) (others : List WriteTask) (hp : t.plan.operation.isWrite = true)
    (herrors : j.store.faults.errors = []) : Turned j t others (j.turn x t others) := by
  cases hthrottled : j.store.faults.throttled with
  | zero =>
    have hnext : j.store.faults.next.1 = none := by rw [Faults.next, hthrottled, herrors]
    have hnot := Tables.not_throttles_writeOne j.store.tables t.plan
    rw [turn_of_last hp (Store.send_writeOne hnext hp) fun hthrottles => absurd hthrottles hnot,
      Executor.conclude_of_not_throttles hnot]
    exact .served rfl herrors hthrottled
  | succ n =>
    obtain ⟨detail, hnext⟩ : ∃ detail, j.store.faults.next =
        (some (.throttling detail), { j.store.faults with throttled := n }) := ⟨_, by rw [Faults.next, hthrottled]⟩
    have hsend := Store.send_of_fault hnext t.plan.request
    cases hleft : t.left with
    | zero =>
      rw [turn_of_last hp hsend fun _ => hleft]
      exact .givenUp hleft rfl herrors hthrottled.symm
    | succ left =>
      rw [turn_of_throttled hp hleft hsend]
      exact .again hleft rfl herrors hthrottled.symm

/-- **A write that nothing interrupts is `Executor.write`.** -/
theorem exists_last_of_submission {talk : List Exchange} {result : Except Error Response} {made left : Nat}
    {r : Request} (h : Submission r made left talk result) : ∀ {j : JointWrites} {t : WriteTask} {s : Store},
    t.plan.operation.isWrite = true → t.plan.request = r → t.made = made → t.left = left →
    j.underWay.Perm (t :: others) → Talks j.store talk s → ∃ last : WriteTask, last.plan = t.plan ∧
      last.index = t.index ∧ Proceeds x j []
        { store := s, underWay := others, finished := j.finished ++ [(last, WriteOutcome.ofResult result)] } := by
  induction h with
  | last hlast =>
    intro j t s hp hr hmade hleft hperm htalk
    cases htalk with
    | exchange hsend hend =>
      cases hend
      have hturn : j.turn x t others = _ := turn_of_last hp (hr ▸ hsend) fun ⟨detail, hreply⟩ =>
        hleft.trans (hlast detail hreply)
      rw [hmade] at hturn
      exact ⟨t, rfl, rfl, .turn hperm (hturn ▸ .rest _)⟩
  | @again made left detail talk result _ ih =>
    intro j t s hp hr hmade hleft hperm htalk
    cases htalk with
    | exchange hsend hrest =>
      have hturn : j.turn x t others = _ := turn_of_throttled hp hleft (hr ▸ hsend)
      obtain ⟨last, hplan, hindex, hproceeds⟩ := @ih
        { store := _, underWay := { t with made := t.made + 1, left } :: others, finished := j.finished }
        { t with made := t.made + 1, left } s hp hr (congrArg (· + 1) hmade) rfl (.refl _) hrest
      exact ⟨last, hplan, hindex, .turn hperm (hturn ▸ hproceeds)⟩

theorem exists_last_of_write (hp : t.plan.operation.isWrite = true) (hmade : t.made = 0)
    (hleft : t.left = (x t.index).retries) (hperm : j.underWay.Perm (t :: others)) (time : Nat) :
    ∃ last : WriteTask, last.plan = t.plan ∧ last.index = t.index ∧
      Proceeds x j []
        { store := ((x t.index).write t.plan ⟨j.store, time⟩).2.client, underWay := others
          finished := j.finished ++ [(last, ((x t.index).write t.plan ⟨j.store, time⟩).1)] } := by
  obtain ⟨talk, htalk, hsubmission⟩ := (x t.index).submit_talks (r := t.plan.request) (w := ⟨j.store, time⟩) rfl
  rw [(x t.index).write_of_isWrite hp]
  exact exists_last_of_submission hsubmission hp rfl hmade hleft hperm htalk

/-- The writes can be run one after the other in any order. -/
theorem exists_run_in_order : ∀ {order : List WriteTask} {j : JointWrites}, j.underWay.Perm order →
    (∀ t ∈ order, t.plan.operation.isWrite = true ∧ t.made = 0 ∧ t.left = (x t.index).retries) →
    ∃ j', Proceeds x j [] j' ∧ j'.underWay = [] ∧ (j'.finished.map fun e => (e.1.plan, e.1.index)) =
      (j.finished.map fun e => (e.1.plan, e.1.index)) ++ order.map fun t => (t.plan, t.index)
  | [], j, hperm, _ => ⟨j, .rest j, List.perm_nil.1 hperm, (List.append_nil _).symm⟩
  | t :: order, j, hperm, hnew => by
    obtain ⟨⟨hp, hmade, hleft⟩, hnew⟩ := List.forall_mem_cons.1 hnew
    obtain ⟨last, hplan, hindex, hfirst⟩ := exists_last_of_write hp hmade hleft hperm 0
    obtain ⟨j', hrest, hdone, horder⟩ := exists_run_in_order (j := ⟨_, order, _⟩) (.refl order) hnew
    refine ⟨j', hfirst.trans hrest, hdone, horder.trans ?_⟩
    rw [List.map_append, List.map_singleton, List.append_assoc, hplan, hindex]
    rfl

/-! ## The writes that there are -/

/-- The plans of all writes with their places, be they under way or finished. -/
def inventory (j : JointWrites) : List (Plan × Nat) :=
  (j.underWay ++ j.finished.map Prod.fst).map fun t => (t.plan, t.index)

theorem inventory_start (x : Nat → Executor) (s : Store) (plans : List Plan) :
    (start x s plans).inventory = plans.zipIdx := by
  rw [inventory, start, List.map_nil, List.append_nil, List.map_map]
  exact List.map_id _

theorem isWrite_inventory_start {s : Store} {plans : List Plan} (hwrites : ∀ p ∈ plans, p.operation.isWrite = true) :
    ∀ e ∈ (start x s plans).inventory, e.1.operation.isWrite = true := by
  rw [inventory_start]
  exact fun e he => hwrites e.1 (List.fst_mem_of_mem_zipIdx he)

theorem mem_inventory (hperm : j.underWay.Perm (t :: others)) : (t.plan, t.index) ∈ j.inventory :=
  List.mem_map.2 ⟨t, List.mem_append_left _ (hperm.mem_iff.2 List.mem_cons_self), rfl⟩

theorem inventory_turn (x : Nat → Executor) (hperm : j.underWay.Perm (t :: others)) :
    (j.turn x t others).inventory.Perm j.inventory := by
  have hbefore : (((t :: others) ++ j.finished.map Prod.fst).map fun t => (t.plan, t.index)).Perm j.inventory :=
    (hperm.symm.append_right _).map _
  refine .trans ?_ hbefore
  unfold turn
  split
  · next outcome w _ =>
    rw [inventory, List.map_append (f := Prod.fst), List.cons_append, ← List.append_assoc]
    exact (List.perm_append_singleton t _).map _
  · next wait again w hagain =>
    obtain ⟨hplan, hindex, -⟩ := Executor.advance_asleep hagain
    rw [inventory, List.cons_append, List.cons_append, List.map_cons, List.map_cons, hplan, hindex]

theorem Proceeds.inventory (h : Proceeds x j es j') : j'.inventory.Perm j.inventory := by
  induction h with
  | rest _ => exact .refl _
  | turn hperm _ ih => exact ih.trans (inventory_turn x hperm)
  | event _ ih => exact ih

/-! ## One by one -/

end JointWrites

/-- The tables are sent the writes one by one, with these outcomes. -/
inductive Tables.OneByOne : Tables → List (Plan × Except Error WriteOutcome) → Tables → Prop where
  | nil (ts : Tables) : OneByOne ts [] ts
  | cons {ts ts' : Tables} (p : Plan) {rest : List (Plan × Except Error WriteOutcome)} :
      OneByOne (ts.writeOne p).2 rest ts' → OneByOne ts ((p, ts.outcomeOf p) :: rest) ts'

theorem Tables.OneByOne.of_cons {ts ts' : Tables} {p : Plan} {o : Except Error WriteOutcome}
    {rest : List (Plan × Except Error WriteOutcome)} (h : ts.OneByOne ((p, o) :: rest) ts') :
    o = ts.outcomeOf p ∧ (ts.writeOne p).2.OneByOne rest ts' := by
  generalize hdone : (p, o) :: rest = done at h
  cases h with
  | nil => cases hdone
  | cons p' hrest =>
    obtain ⟨hhead, rfl⟩ := List.cons.inj hdone
    obtain ⟨rfl, rfl⟩ := Prod.mk.inj hhead
    exact ⟨rfl, hrest⟩

/-- The event leaves the tables, and no error waits after it if none did before. -/
def Store.Event.Quiet (e : Store.Event) : Prop :=
  ∀ s : Store, (s.handle e).tables = s.tables ∧ (s.faults.errors = [] → (s.handle e).faults.errors = [])

theorem Store.Event.quiet_throttleNext (n : Nat) : Quiet (.throttleNext n) := fun _ => ⟨rfl, id⟩

namespace JointWrites

variable {x : Nat → Executor} {j j' : JointWrites} {t : WriteTask} {others : List WriteTask} {es : List Store.Event}

/-- The writes among those that are done which the tables have served. -/
def served (done : List (WriteTask × Except Error WriteOutcome)) : List (Plan × Except Error WriteOutcome) :=
  (done.filter fun e => !gaveUp e.2).map fun e => (e.1.plan, e.2)

theorem served_append (done done' : List (WriteTask × Except Error WriteOutcome)) :
    served (done ++ done') = served done ++ served done' := by
  rw [served, List.filter_append, List.map_append]
  rfl

theorem served_append_gaveUp (done : List (WriteTask × Except Error WriteOutcome)) (t : WriteTask) (attempts : Nat) :
    served (done ++ [(t, .error (.capacityExceeded attempts))]) = served done := by
  rw [served_append]
  exact List.append_nil _

theorem served_append_outcomeOf (done : List (WriteTask × Except Error WriteOutcome)) (t : WriteTask) (ts : Tables) :
    served (done ++ [(t, ts.outcomeOf t.plan)]) = served done ++ [(t.plan, ts.outcomeOf t.plan)] := by
  rw [served_append, served, served, List.filter_singleton, Tables.gaveUp_outcomeOf]
  rfl

/-- **As long as nothing else touches the tables, the writes are served one by one.** -/
theorem Proceeds.oneByOne (h : Proceeds x j es j') (hes : ∀ e ∈ es, e.Quiet) (herrors : j.store.faults.errors = [])
    (hwrites : ∀ e ∈ j.inventory, e.1.operation.isWrite = true) :
    ∃ done, j'.finished = j.finished ++ done ∧ j.store.tables.OneByOne (served done) j'.store.tables := by
  induction h with
  | rest j => exact ⟨[], (List.append_nil _).symm, .nil _⟩
  | @turn j j' es t others hperm _ ih =>
    have hturned := turn_cases x others (hwrites _ (mem_inventory hperm)) herrors
    have hinventory := inventory_turn x hperm
    generalize j.turn x t others = next at hturned hinventory ih
    have hnext : ∀ e ∈ next.inventory, e.1.operation.isWrite = true := fun e he => hwrites e (hinventory.mem_iff.1 he)
    cases hturned with
    | again _ htables herrors' _ =>
      obtain ⟨done, hfinished, hdone⟩ := ih hes herrors' hnext
      exact ⟨done, hfinished, htables ▸ hdone⟩
    | givenUp _ htables herrors' _ =>
      obtain ⟨done, hfinished, hdone⟩ := ih hes herrors' hnext
      exact ⟨_ :: done, hfinished.trans (List.append_assoc ..), htables ▸ hdone⟩
    | served htables herrors' _ =>
      obtain ⟨done, hfinished, hdone⟩ := ih hes herrors' hnext
      refine ⟨_ :: done, hfinished.trans (List.append_assoc ..), ?_⟩
      rw [← List.singleton_append, served_append, JointWrites.served, List.filter_singleton, Tables.gaveUp_outcomeOf]
      exact .cons t.plan (htables ▸ hdone)
  | @event j j' es e _ ih =>
    obtain ⟨he, hes⟩ := List.forall_mem_cons.1 hes
    obtain ⟨htables, herrors'⟩ := he j.store
    obtain ⟨done, hfinished, hdone⟩ := ih hes (herrors' herrors) hwrites
    exact ⟨done, hfinished, htables ▸ hdone⟩

theorem Proceeds.nobody_gives_up {k : Nat} (h : Proceeds x j es j') (hes : es = [])
    (herrors : j.store.faults.errors = []) (hwrites : ∀ e ∈ j.inventory, e.1.operation.isWrite = true)
    (hbudget : ∀ t ∈ j.underWay, t.made + j.store.faults.throttled ≤ k ∧ k ≤ t.made + t.left)
    (hserved : ∀ e ∈ j.finished, gaveUp e.2 = false) : ∀ e ∈ j'.finished, gaveUp e.2 = false := by
  induction h with
  | rest _ => exact hserved
  | @turn j j' es t others hperm _ ih =>
    have hturned := turn_cases x others (hwrites _ (mem_inventory hperm)) herrors
    have hinventory := inventory_turn x hperm
    generalize j.turn x t others = next at hturned hinventory ih
    have hnext : ∀ e ∈ next.inventory, e.1.operation.isWrite = true := fun e he => hwrites e (hinventory.mem_iff.1 he)
    obtain ⟨hbudgett, hbudgets⟩ := List.forall_mem_cons.1 fun t' ht' => hbudget t' (hperm.mem_iff.2 ht')
    cases hturned with
    | @again s left hleft htables herrors' hthrottled =>
      refine ih hes herrors' hnext (List.forall_mem_cons.2 ⟨?_, fun t' ht' => ?_⟩) hserved
      · dsimp only
        omega
      · have := hbudgets t' ht'
        dsimp only
        omega
    | givenUp hleft _ _ hthrottled => omega
    | served _ herrors' hthrottled =>
      refine ih hes herrors' hnext (fun t' ht' => ?_) (List.forall_mem_append.2 ⟨hserved, ?_⟩)
      · have := hbudgets t' ht'
        dsimp only
        omega
      · exact List.forall_mem_singleton.2 (Tables.gaveUp_outcomeOf _ _)
  | event => cases hes

/-- **If no more requests are throttled than each write may be sent again, no write is given up.** -/
theorem Proceeds.all_served {s : Store} {plans : List Plan} (h : Proceeds x (.start x s plans) [] j)
    (herrors : s.faults.errors = []) (hwrites : ∀ p ∈ plans, p.operation.isWrite = true)
    (hretries : ∀ i, s.faults.throttled ≤ (x i).retries) : ∀ e ∈ j.finished, gaveUp e.2 = false := by
  refine h.nobody_gives_up rfl herrors (isWrite_inventory_start hwrites) (k := s.faults.throttled) ?_
    (List.forall_mem_nil _)
  rw [start, List.forall_mem_map]
  exact fun e _ => ⟨Nat.le_of_eq (Nat.zero_add _), Nat.le_trans (hretries e.2) (Nat.le_add_left _ 0)⟩

theorem exists_served_in_order (x : Nat → Executor) {s : Store} {plans : List Plan} (herrors : s.faults.errors = [])
    (hwrites : ∀ p ∈ plans, p.operation.isWrite = true) (hretries : ∀ i, s.faults.throttled ≤ (x i).retries) :
    ∃ j, Proceeds x (.start x s plans) [] j ∧ j.underWay = [] ∧
      (j.finished.map fun e => (e.1.plan, e.1.index)) = plans.zipIdx ∧
      s.tables.OneByOne (j.finished.map fun e => (e.1.plan, e.2)) j.store.tables := by
  obtain ⟨j, hproceeds, hdone, horder⟩ := exists_run_in_order (x := x) (j := .start x s plans) (.refl _) (by
    rw [start, List.forall_mem_map]
    exact fun e he => ⟨hwrites e.1 (List.fst_mem_of_mem_zipIdx he), rfl, rfl⟩)
  have hserved := hproceeds.all_served herrors hwrites hretries
  obtain ⟨done, rfl, hone⟩ := hproceeds.oneByOne (List.forall_mem_nil _) herrors (isWrite_inventory_start hwrites)
  refine ⟨j, hproceeds, hdone, horder.trans ?_, ?_⟩
  · rw [start, List.map_map]
    exact List.map_id _
  · rwa [served, List.filter_eq_self.2 fun e he => by rw [hserved e he]; rfl] at hone

theorem exists_both_served (x : Nat → Executor) {s : Store} {p q : Plan} (herrors : s.faults.errors = [])
    (hp : p.operation.isWrite = true) (hq : q.operation.isWrite = true)
    (hretries : ∀ i, s.faults.throttled ≤ (x i).retries) :
    ∃ j t t', Proceeds x (.start x s [p, q]) [] j ∧ j.underWay = [] ∧
      j.finished = [(t, s.tables.outcomeOf t.plan)] ++ [(t', (s.tables.writeOne t.plan).2.outcomeOf t'.plan)] ∧
      (t.plan = p ∧ t.index = 0) ∧ t'.plan = q ∧ t'.index = 1 := by
  obtain ⟨j, hproceeds, hdone, horder, hone⟩ := exists_served_in_order x herrors
    (List.forall_mem_cons.2 ⟨hp, List.forall_mem_singleton.2 hq⟩) hretries
  obtain ⟨⟨t, outcome⟩, _, hfinished, ht, hrest⟩ := List.map_eq_cons_iff.1 horder
  obtain ⟨⟨t', outcome'⟩, _, rfl, ht', hnil⟩ := List.map_eq_cons_iff.1 hrest
  obtain rfl := List.map_eq_nil_iff.1 hnil
  rw [hfinished] at hone
  have hboth : s.tables.OneByOne [(t.plan, outcome), (t'.plan, outcome')] j.store.tables := hone
  obtain ⟨rfl, hlast⟩ := hboth.of_cons
  obtain ⟨rfl, -⟩ := hlast.of_cons
  exact ⟨j, t, t', hproceeds, hdone, hfinished, Prod.mk.inj ht, Prod.mk.inj ht'⟩

end JointWrites
end ItemStore
