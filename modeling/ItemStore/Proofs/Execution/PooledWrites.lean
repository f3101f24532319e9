import Mathlib.Algebra.BigOperators.Group.List.Basic
import Mathlib.Algebra.GroupWithZero.Nat
import ItemStore.Proofs.Execution.Independence
/-!
# Writes run as a pool

The pool of writes is one way in which clients can share a store: what it does step by step is turns of the writes under
way (`WritePool.Mirrors.step`), and it stops when all are done and handed out in the order of the plans
(`WritePool.idle_of_stuck`).  So writes of different items come out of it as each of them would alone
(`different_items_are_written_independently`).
-/
namespace ItemStore

theorem Executor.advance_time (x : Executor) (t : WriteTask) (s : Store) (time : Nat) :
    x.advance t ⟨s, time⟩ = ((x.advance t ⟨s, 0⟩).1, ⟨(x.advance t ⟨s, 0⟩).2.client, time⟩) := by
  unfold advance
  cases WriteOutcome.checkPlan t.plan with
  | error e => rfl
  | ok _ =>
    rcases hsend : s.send t.plan.request with ⟨reply, s'⟩
    rw [World.send_store hsend, World.send_store hsend]
    cases t.left with
    | zero => rfl
    | succ left =>
      cases reply with
      | ok response => rfl
      | error e => cases e <;> rfl

namespace WritePool

/-! ## Steps -/

section
variable {σ : Type} {x : Executor} {p p' : WritePool σ}

/-- The task that a plan begins with. -/
def begun (x : Executor) (e : Plan × Nat) : WriteTask := { index := e.2, plan := e.1, left := x.retries }

/-- The tasks that are not done, be they begun or not. -/
def tasks (x : Executor) (p : WritePool σ) : List WriteTask :=
  p.waiting.map (begun x) ++ (p.ready ++ p.asleep.map Prod.snd)

/-- The outcomes with their places, be they handed out or not. -/
def done (p : WritePool σ) : List (Nat × Except Error WriteOutcome) := p.finished ++ p.outcomes.zipIdx.map Prod.swap

/-- A step hands out an outcome, or gives a task its turn, or wakes tasks. -/
theorem poolStep_cases [Client σ] (h : x.poolStep p = some p') : (p.fill x).handOut = some p' ∨
    (∃ t ready, (p.fill x).ready = t :: ready ∧ p' = x.turn t { p.fill x with ready }) ∨
    (p.fill x).wake = some p' := by
  unfold Executor.poolStep at h
  dsimp only at h
  split at h
  · next hhandOut =>
    cases h
    exact .inl hhandOut
  · next hready =>
    cases h
    exact .inr (.inl ⟨_, _, hready, rfl⟩)
  · exact .inr (.inr h)

theorem poolStep_eq_none [Client σ] (h : x.poolStep p = none) :
    (p.fill x).handOut = none ∧ (p.fill x).ready = [] ∧ (p.fill x).wake = none := by
  unfold Executor.poolStep at h
  dsimp only at h
  split at h
  · cases h
  · cases h
  · next hhandOut hready => exact ⟨hhandOut, hready, h⟩

theorem tasks_fill (x : Executor) (p : WritePool σ) : ((p.fill x).tasks x).Perm (p.tasks x) := by
  let room := x.writeConcurrency - p.underWay
  show ((p.waiting.drop room).map (begun x) ++ (p.ready ++ (p.waiting.take room).map (begun x) ++ _)).Perm _
  rw [tasks, List.append_assoc]
  refine (List.perm_append_comm_assoc _ _ _).trans ?_
  refine .trans ?_ (List.perm_append_comm_assoc _ _ _)
  refine List.Perm.append_left _ ?_
  rw [← List.append_assoc]
  refine List.Perm.append_right _ (List.perm_append_comm.trans (.of_eq ?_))
  rw [← List.map_append, List.take_append_drop]

theorem handOut_eq_some (h : p.handOut = some p') : ∃ outcome, (p.outcomes.length, outcome) ∈ p.finished ∧
    p' = { p with outcomes := p.outcomes ++ [outcome]
                  finished := p.finished.filter fun e => e.1 != p.outcomes.length } := by
  unfold handOut at h
  split at h
  · next n outcome hfind =>
    cases h
    obtain rfl : n = p.outcomes.length := by simpa using List.find?_some hfind
    exact ⟨outcome, List.mem_of_find?_eq_some hfind, rfl⟩
  · cases h

theorem wake_eq_some (h : p.wake = some p') : ∃ time, (∃ e ∈ p.asleep, e.1 ≤ time) ∧
    p' = { p with ready := p.ready ++ (p.asleep.filter fun e => e.1 ≤ time).map Prod.snd
                  asleep := p.asleep.filter fun e => !decide (e.1 ≤ time)
                  world := { p.world with time } } := by
  unfold wake at h
  split at h
  · cases h
  · next time hmin =>
    obtain ⟨e, he, htime⟩ := List.mem_map.1 (List.min?_mem hmin)
    rw [List.partition_eq_filter_filter] at h
    cases h
    exact ⟨time, ⟨e, he, Nat.le_of_eq htime⟩, rfl⟩

theorem tasks_wake (h : p.wake = some p') : (p'.tasks x).Perm (p.tasks x) := by
  obtain ⟨time, -, rfl⟩ := wake_eq_some h
  have hasleep := (List.filter_append_perm (fun e : Nat × WriteTask => decide (e.1 ≤ time)) p.asleep).map Prod.snd
  refine List.Perm.append_left _ ?_
  show (p.ready ++ _ ++ _).Perm _
  rw [List.append_assoc, ← List.map_append]
  exact hasleep.append_left _

/-- Of entries with different numbers, one alone has a number. -/
theorem filter_number {α : Type} {n : Nat} {a : α} :
    ∀ {es : List (Nat × α)}, (es.map Prod.fst).Nodup → (n, a) ∈ es → es.filter (fun e => e.1 == n) = [(n, a)]
  | e :: es, hd, hmem => by
    obtain ⟨hfresh, hd⟩ := List.nodup_cons.1 hd
    rw [List.filter_cons]
    rcases List.mem_cons.1 hmem with rfl | hmem
    · rw [if_pos (beq_self_eq_true n), List.filter_eq_nil_iff.2 fun e' he' heq => ?_]
      exact hfresh (List.mem_map.2 ⟨e', he', beq_iff_eq.1 heq⟩)
    · have hne : e.1 ≠ n := fun heq => hfresh (List.mem_map.2 ⟨(n, a), hmem, heq.symm⟩)
      rw [if_neg fun heq => hne (beq_iff_eq.1 heq), filter_number hd hmem]

theorem done_handOut (h : p.handOut = some p') (hd : (p.finished.map Prod.fst).Nodup) : p'.done.Perm p.done := by
  obtain ⟨outcome, hmem, rfl⟩ := handOut_eq_some h
  have hsplit := List.filter_append_perm (fun e : Nat × Except Error WriteOutcome =>
    e.1 == p.outcomes.length) p.finished
  rw [filter_number hd hmem, List.singleton_append] at hsplit
  rw [done, done, List.zipIdx_append, List.map_append, List.zipIdx_singleton, List.map_singleton, Nat.zero_add,
    ← List.append_assoc]
  exact (List.perm_append_singleton _ _).trans (hsplit.append_right _)

end

/-! ## Turns -/

variable {x : Executor} {p p' : WritePool Store} {j : JointWrites}

/-- The pool stands where the joint run stands. -/
structure Mirrors (x : Executor) (p : WritePool Store) (j : JointWrites) : Prop where
  store : p.world.client = j.store
  underWay : j.underWay.Perm (p.tasks x)
  finished : (j.finished.map fun e => (e.1.index, e.2)).Perm p.done

namespace Mirrors

/-- Every place is that of a task or of an outcome. -/
theorem places (h : p.Mirrors x j) :
    ((p.tasks x).map (·.index) ++ p.done.map Prod.fst).Perm (j.inventory.map Prod.snd) := by
  have hplaces := (h.underWay.map (·.index)).symm.append (h.finished.map Prod.fst).symm
  refine hplaces.trans (.of_eq ?_)
  simp only [JointWrites.inventory, List.map_map, List.map_append]
  rfl

theorem turn {t : WriteTask} {ready : List WriteTask} (h : p.Mirrors x j) (hready : p.ready = t :: ready) :
    ∃ others, j.underWay.Perm (t :: others) ∧
      Mirrors x (x.turn t { p with ready }) (j.turn (fun _ => x) t others) := by
  have htasks : j.underWay.Perm (p.waiting.map (begun x) ++ (t :: ready ++ p.asleep.map Prod.snd)) := by
    rw [← hready]
    exact h.underWay
  refine ⟨p.waiting.map (begun x) ++ (ready ++ p.asleep.map Prod.snd), htasks.trans List.perm_middle, ?_⟩
  have hworld : p.world = ⟨j.store, p.world.time⟩ := by rw [← h.store]
  have htime := x.advance_time t j.store p.world.time
  rw [← hworld] at htime
  rcases hadvance : x.advance t ⟨j.store, 0⟩ with ⟨outcome | ⟨wait, again⟩, world⟩
  · rw [hadvance] at htime
    rw [JointWrites.turn, hadvance, Executor.turn, htime]
    refine ⟨rfl, .refl _, ?_⟩
    show ((j.finished ++ [(t, outcome)]).map _).Perm (p.finished ++ [(t.index, outcome)] ++ _)
    rw [List.map_append, List.map_singleton, List.append_assoc]
    refine (h.finished.append_right _).trans ?_
    rw [done, List.append_assoc]
    exact List.perm_append_comm.append_left _
  · rw [hadvance] at htime
    rw [JointWrites.turn, hadvance, Executor.turn, htime]
    cases wait with
    | zero => exact ⟨rfl, List.perm_middle.symm, h.finished⟩
    | succ wait =>
      refine ⟨rfl, ?_, h.finished⟩
      show (again :: _).Perm (p.waiting.map (begun x) ++ (ready ++ (p.asleep ++ [(_, again)]).map Prod.snd))
      rw [List.map_append, List.map_singleton, ← List.append_assoc, ← List.append_assoc, ← List.append_assoc]
      exact (List.perm_append_singleton _ _).symm

/-- **A step of the pool is turns of a joint run.** -/
theorem step (h : p.Mirrors x j) (hd : (j.inventory.map Prod.snd).Nodup) (hstep : x.poolStep p = some p') :
    ∃ j', JointWrites.Proceeds (fun _ => x) j [] j' ∧ p'.Mirrors x j' := by
  have hfill : (p.fill x).Mirrors x j := ⟨h.store, h.underWay.trans (tasks_fill x p).symm, h.finished⟩
  rcases poolStep_cases hstep with hhandOut | ⟨t, ready, hready, rfl⟩ | hwake
  · have hnodup : ((p.fill x).finished.map Prod.fst).Nodup := by
      have hplaces := hfill.places.nodup_iff.2 hd
      rw [done, List.map_append] at hplaces
      exact (hplaces.of_append_right).of_append_left
    have hdone := done_handOut hhandOut hnodup
    obtain ⟨outcome, -, rfl⟩ := handOut_eq_some hhandOut
    exact ⟨j, .rest j, hfill.store, hfill.underWay, hfill.finished.trans hdone.symm⟩
  · obtain ⟨others, hperm, hturn⟩ := hfill.turn hready
    exact ⟨_, .turn hperm (.rest _), hturn⟩
  · have htasks := tasks_wake (x := x) hwake
    obtain ⟨time, -, rfl⟩ := wake_eq_some hwake
    exact ⟨j, .rest j, hfill.store, hfill.underWay.trans htasks.symm, hfill.finished⟩

theorem run : ∀ (steps : Nat) {p : WritePool Store} {j : JointWrites}, p.Mirrors x j →
    (j.inventory.map Prod.snd).Nodup →
    ∃ j', JointWrites.Proceeds (fun _ => x) j [] j' ∧ (x.runPool steps p).Mirrors x j'
  | 0, _, j, h, _ => ⟨j, .rest j, h⟩
  | steps + 1, p, j, h, hd => by
    unfold Executor.runPool
    split
    · next p' hstep =>
      obtain ⟨j', hproceeds, h'⟩ := h.step hd hstep
      obtain ⟨j'', hproceeds', h''⟩ := run steps h' ((hproceeds.inventory.map Prod.snd).nodup_iff.2 hd)
      exact ⟨j'', hproceeds.trans hproceeds', h''⟩
    · exact ⟨j, .rest j, h⟩

end Mirrors

/-! ## The end -/

section
variable {σ : Type} {x : Executor} {p p' : WritePool σ}

/-- Steps that are left at most: a task has its turns, wakes up before each but the first, and is handed out. -/
def weight (x : Executor) (p : WritePool σ) : Nat :=
  p.waiting.length * (2 * x.retries + 2) + (p.ready.map fun t => 2 * t.left + 2).sum +
    (p.asleep.map fun e => 2 * e.2.left + 3).sum + p.finished.length

theorem weight_fill (x : Executor) (p : WritePool σ) : (p.fill x).weight x = p.weight x := by
  let room := x.writeConcurrency - p.underWay
  have hlength : p.waiting.length = (p.waiting.take room).length + (p.waiting.drop room).length := by
    rw [← List.length_append, List.take_append_drop]
  have hbegun : (((p.waiting.take room).map (begun x)).map fun t => 2 * t.left + 2).sum =
      (p.waiting.take room).length * (2 * x.retries + 2) := by
    rw [List.map_map]
    show ((p.waiting.take room).map fun _ => 2 * x.retries + 2).sum = _
    rw [List.map_const', List.sum_replicate_nat]
  show (p.waiting.drop room).length * _ + ((p.ready ++ (p.waiting.take room).map (begun x)).map _).sum +
    (p.asleep.map _).sum + p.finished.length = _
  rw [List.map_append, List.sum_append, hbegun, weight, hlength, Nat.add_mul]
  omega

theorem weight_turn [Client σ] {t : WriteTask} {ready : List WriteTask} (hready : p.ready = t :: ready) :
    (x.turn t { p with ready }).weight x < p.weight x := by
  have hbefore : p.weight x = p.waiting.length * (2 * x.retries + 2) +
      (2 * t.left + 2 + (ready.map fun t => 2 * t.left + 2).sum) +
      (p.asleep.map fun e => 2 * e.2.left + 3).sum + p.finished.length := by
    rw [weight, hready, List.map_cons, List.sum_cons]
  rw [hbefore]
  unfold Executor.turn
  split
  · simp only [weight, List.length_append, List.length_singleton]
    omega
  · next again world hadvance =>
    obtain ⟨-, -, hleft⟩ := Executor.advance_asleep hadvance
    simp only [weight, List.map_cons, List.sum_cons]
    omega
  · next wait again world _ hadvance =>
    obtain ⟨-, -, hleft⟩ := Executor.advance_asleep hadvance
    simp only [weight, List.map_append, List.map_cons, List.map_nil, List.sum_append, List.sum_cons, List.sum_nil]
    omega

theorem weight_handOut (h : p.handOut = some p') : p'.weight x < p.weight x := by
  obtain ⟨outcome, hmem, rfl⟩ := handOut_eq_some h
  have hless : (p.finished.filter fun e => e.1 != p.outcomes.length).length < p.finished.length :=
    List.length_filter_lt_length_iff_exists.2 ⟨_, hmem, by simp⟩
  exact Nat.add_lt_add_left hless _

theorem weight_wake (h : p.wake = some p') : p'.weight x < p.weight x := by
  obtain ⟨time, ⟨e, he, htime⟩, rfl⟩ := wake_eq_some h
  have hsplit := ((List.filter_append_perm (fun e : Nat × WriteTask => decide (e.1 ≤ time)) p.asleep).map
    fun e => 2 * e.2.left + 3).sum_eq
  have hawake : ∀ es : List (Nat × WriteTask), (es.map fun e => 2 * e.2.left + 3).sum =
      ((es.map Prod.snd).map fun t => 2 * t.left + 2).sum + es.length := by
    intro es
    induction es with
    | nil => rfl
    | cons e es ih =>
      simp only [List.map_cons, List.sum_cons, List.length_cons, ih]
      omega
  have hsome : 0 < (p.asleep.filter fun e => decide (e.1 ≤ time)).length :=
    List.length_pos_of_mem (List.mem_filter.2 ⟨he, decide_eq_true htime⟩)
  rw [List.map_append, List.sum_append, hawake (p.asleep.filter fun e => decide (e.1 ≤ time))] at hsplit
  simp only [weight, List.map_append, List.sum_append]
  omega

/-- **Every step leaves fewer to be made.** -/
theorem weight_poolStep [Client σ] (h : x.poolStep p = some p') : p'.weight x < p.weight x := by
  rw [← weight_fill x p]
  rcases poolStep_cases h with hhandOut | ⟨t, ready, hready, rfl⟩ | hwake
  · exact weight_handOut hhandOut
  · exact weight_turn hready
  · exact weight_wake hwake

theorem stuck_runPool [Client σ] :
    ∀ {steps : Nat} {p : WritePool σ}, p.weight x < steps → x.poolStep (x.runPool steps p) = none
  | steps + 1, p, h => by
    unfold Executor.runPool
    split
    · next hstep => exact stuck_runPool (Nat.lt_of_lt_of_le (weight_poolStep hstep) (Nat.le_of_lt_succ h))
    · next hstuck => exact hstuck

/-- Plans begin in their order. -/
theorem waiting_poolStep [Client σ] (h : x.poolStep p = some p') : p'.waiting <:+ p.waiting := by
  have hfill : (p.fill x).waiting <:+ p.waiting := List.drop_suffix _ _
  rcases poolStep_cases h with hhandOut | ⟨t, ready, -, rfl⟩ | hwake
  · obtain ⟨_, -, rfl⟩ := handOut_eq_some hhandOut
    exact hfill
  · unfold Executor.turn
    split <;> exact hfill
  · obtain ⟨_, -, rfl⟩ := wake_eq_some hwake
    exact hfill

theorem waiting_runPool [Client σ] : ∀ (steps : Nat) (p : WritePool σ), (x.runPool steps p).waiting <:+ p.waiting
  | 0, _ => List.suffix_rfl
  | steps + 1, p => by
    unfold Executor.runPool
    split
    · next hstep => exact (waiting_runPool steps _).trans (waiting_poolStep hstep)
    · exact List.suffix_rfl

/-- Outcomes that leave no gap are all handed out. -/
theorem finished_of_no_gap {n : Nat} (hplaces : (p.done.map Prod.fst).Perm (List.range n))
    (hhandOut : p.handOut = none) : p.finished = [] := by
  by_contra hsome
  have hlength := hplaces.length_eq
  rw [List.length_map, done, List.length_append, List.length_map, List.length_zipIdx, List.length_range] at hlength
  have hnext : p.outcomes.length ∈ p.done.map Prod.fst :=
    hplaces.mem_iff.2 (List.mem_range.2 (by have := List.length_pos_iff.2 hsome; omega))
  rw [done, List.map_append, List.mem_append] at hnext
  rcases hnext with hfinished | houtcomes
  · obtain ⟨⟨_, outcome⟩, hmem, rfl⟩ := List.mem_map.1 hfinished
    have hfound : (p.finished.find? fun e => e.1 == p.outcomes.length).isSome = true :=
      List.find?_isSome.2 ⟨_, hmem, beq_self_eq_true _⟩
    unfold handOut at hhandOut
    split at hhandOut
    · cases hhandOut
    · next hnone =>
      rw [hnone] at hfound
      cases hfound
  · rw [List.map_map, List.mem_map] at houtcomes
    obtain ⟨⟨outcome, i⟩, hmem, hi⟩ := houtcomes
    have hless := (List.mem_zipIdx hmem).2.1
    change i = _ at hi
    omega

/-- **The pool stops when all is done.** -/
theorem idle_of_stuck [Client σ] {plans : List Plan} (hstuck : x.poolStep p = none)
    (hwaiting : p.waiting <:+ plans.zipIdx)
    (hplaces : ((p.tasks x).map (·.index) ++ p.done.map Prod.fst).Perm (List.range plans.length)) :
    p.tasks x = [] ∧ p.finished = [] := by
  obtain ⟨hhandOut, hready, hwake⟩ := poolStep_eq_none hstuck
  obtain ⟨hready, hbegun⟩ := List.append_eq_nil_iff.1 hready
  have hasleep : p.asleep = [] := by
    unfold wake at hwake
    split at hwake
    · next hmin => exact List.map_eq_nil_iff.1 (List.min?_eq_none_iff.1 hmin)
    · cases hwake
  have htasks : p.tasks x = p.waiting.map (begun x) := by
    rw [tasks, hready, hasleep, List.map_nil, List.append_nil, List.append_nil]
  -- the plans that have not begun are the last ones, so the others leave no gap
  obtain ⟨before, hbefore⟩ := hwaiting
  have hrange : List.range plans.length = before.map Prod.snd ++ p.waiting.map Prod.snd := by
    rw [← List.map_append, hbefore, List.zipIdx_map_snd, List.range_eq_range']
  have hfirst : before.map Prod.snd = List.range before.length := by
    have htake := congrArg (List.take before.length) hrange
    rw [List.take_range, List.take_left' (List.length_map _)] at htake
    rw [← htake, Nat.min_eq_left]
    have hlength := congrArg List.length hrange
    simp only [List.length_range, List.length_append, List.length_map] at hlength
    omega
  have hdone : (p.done.map Prod.fst).Perm (List.range before.length) := by
    rw [htasks, List.map_map, hrange, hfirst] at hplaces
    exact (List.perm_append_left_iff _).1 (hplaces.trans List.perm_append_comm)
  have hfinished : p.finished = [] := finished_of_no_gap (p := p.fill x) hdone hhandOut
  refine ⟨?_, hfinished⟩
  rw [htasks]
  have hroom : x.writeConcurrency - p.underWay = x.writeConcurrency := by
    rw [underWay, hready, hasleep, hfinished]
    rfl
  rw [hroom, List.map_eq_nil_iff, List.take_eq_nil_iff] at hbegun
  rcases hbegun with hzero | hnone
  · exact absurd hzero (Nat.pos_iff_ne_zero.1 (Settings.sizes_of_valid x.valid).2.2.1)
  · rw [hnone, List.map_nil]

end

end WritePool

theorem eq_of_zipIdx_perm {α : Type} {xs ys : List α} (h : (xs.zipIdx.map Prod.swap).Perm (ys.zipIdx.map Prod.swap)) :
    xs = ys := by
  have hmem : ∀ {zs : List α} {i : Nat} {a : α}, (i, a) ∈ zs.zipIdx.map Prod.swap ↔ zs[i]? = some a := by
    intro zs i a
    rw [← List.mk_mem_zipIdx_iff_getElem?, List.mem_map]
    exact ⟨fun ⟨_, he, heq⟩ => by cases heq; exact he, fun he => ⟨_, he, rfl⟩⟩
  exact List.ext_getElem? fun i => Option.ext fun a => by rw [← hmem, ← hmem, h.mem_iff]

namespace Executor

/-- **The pool is a joint run of its plans to the end.** -/
theorem exists_joint_run (x : Executor) (plans : List Plan) (s : Store) (time : Nat) :
    ∃ j, JointWrites.Proceeds (fun _ => x) (.start (fun _ => x) s plans) [] j ∧ j.underWay = [] ∧
      (x.writeAll plans ⟨s, time⟩).2.client = j.store ∧
      (j.finished.map fun e => (e.1.index, e.2)).Perm ((x.writeAll plans ⟨s, time⟩).1.zipIdx.map Prod.swap) := by
  let pool : WritePool Store := { waiting := plans.zipIdx, world := ⟨s, time⟩ }
  have hstart : pool.Mirrors x (.start (fun _ => x) s plans) := ⟨rfl, .of_eq (List.append_nil _).symm, .refl _⟩
  have hinventory := JointWrites.inventory_start (fun _ => x) s plans
  have hindices : plans.zipIdx.map Prod.snd = List.range plans.length := by
    rw [List.zipIdx_map_snd, List.range_eq_range']
  obtain ⟨j, hproceeds, hmirrors⟩ := hstart.run (x.poolSteps plans) (by
    rw [hinventory, hindices]
    exact List.nodup_range)
  have hweight : pool.weight x < x.poolSteps plans := by
    show plans.zipIdx.length * (2 * x.retries + 2) + 0 + 0 + 0 < plans.length * (2 * (x.retries + 1) + 1) + 1
    rw [List.length_zipIdx]
    exact Nat.lt_succ_of_le (Nat.mul_le_mul_left _ (by omega))
  have hplaces := hmirrors.places.trans (hproceeds.inventory.map Prod.snd)
  rw [hinventory, hindices] at hplaces
  obtain ⟨htasks, hfinished⟩ :=
    WritePool.idle_of_stuck (WritePool.stuck_runPool hweight) (WritePool.waiting_runPool _ pool) hplaces
  refine ⟨j, hproceeds, List.perm_nil.1 (htasks ▸ hmirrors.underWay), hmirrors.store, ?_⟩
  have hdone := hmirrors.finished
  rw [WritePool.done, hfinished, List.nil_append] at hdone
  exact hdone

end Executor

/-- **Writes of different items do not notice each other.**  Take puts, updates and deletes, no two of which are about
one item, for a store on which no fault waits.  Clients can have them processed in any order.  In whatever order they
are, and however often requests are throttled and sent again, when each has been processed it has got the outcome that
it gets alone on the store as it was, and the tables hold the same items.  So it is with a pool of such writes: unless
more requests are throttled than each write may be sent again, the outcomes are those that each plan gets alone, in the
order of the plans. -/
theorem different_items_are_written_independently (s : Store) (hnext : s.faults.next.1 = none) (plans : List Plan)
    (hwrites : ∀ p ∈ plans, p.operation.isWrite = true) (hitems : plans.Pairwise fun p q => ¬s.tables.SameItem p q) :
    (∀ (x : Nat → Executor) (order : List (Plan × Nat)), order.Perm plans.zipIdx →
      ∃ j, JointWrites.Proceeds x (.start x s plans) [] j ∧ j.underWay = [] ∧
        (∀ e ∈ j.finished, gaveUp e.2 = false) ∧ (j.finished.map fun e => (e.1.plan, e.1.index)) = order) ∧
    (∀ (x : Nat → Executor) (es : List Store.Event) (j : JointWrites) (time : Nat), (∀ e ∈ es, e.Quiet) →
      JointWrites.Proceeds x (.start x s plans) es j → j.underWay = [] → (∀ e ∈ j.finished, gaveUp e.2 = false) →
      (j.finished.map fun e => (e.1.index, e.2)).Perm
        (plans.zipIdx.map fun e => (e.2, ((x e.2).write e.1 ⟨s, time⟩).1)) ∧
      (s.tables.writeAll plans).SameUpToOrder j.store.tables) ∧
    ∀ (x : Executor) (k time time' : Nat), k < x.retry.totalAttempts →
      (x.writeAll plans ⟨s.throttleNext k, time⟩).1 = (plans.map fun p => (x.write p ⟨s, time'⟩).1) ∧
      (s.tables.writeAll plans).SameUpToOrder (x.writeAll plans ⟨s.throttleNext k, time⟩).2.client.tables := by
  have herrors := Faults.errors_of_next hnext
  have halone : ∀ (x : Executor) (time : Nat), ∀ e ∈ plans.zipIdx, (x.write e.1 ⟨s, time⟩).1 =
      s.tables.outcomeOf e.1 :=
    fun x time e he => x.write_of_no_fault hnext (hwrites e.1 (List.fst_mem_of_mem_zipIdx he)) time
  refine ⟨fun x order horder => ?_, fun x es j time hes hproceeds hdone hserved => ?_, fun x k time time' hk => ?_⟩
  · have hnew : ∀ t ∈ order.map fun e => ({ index := e.2, plan := e.1, left := (x e.2).retries } : WriteTask),
        t.plan.operation.isWrite = true ∧ t.made = 0 ∧ t.left = (x t.index).retries := by
      rw [List.forall_mem_map]
      exact fun e he => ⟨hwrites e.1 (List.fst_mem_of_mem_zipIdx (horder.mem_iff.1 he)), rfl, rfl⟩
    obtain ⟨j, hproceeds, hdone, hfinished⟩ :=
      JointWrites.exists_run_in_order (j := .start x s plans) (horder.symm.map _) hnew
    refine ⟨j, hproceeds, hdone, hproceeds.all_served herrors hwrites fun i => ?_, ?_⟩
    · rw [Faults.throttled_of_next hnext]
      exact Nat.zero_le _
    · rw [hfinished, List.map_map]
      exact List.map_id _
  · obtain ⟨houtcomes, htables⟩ := hproceeds.independent hes herrors hwrites hitems hdone hserved
    refine ⟨houtcomes.trans (.of_eq ?_), htables.sameUpToOrder⟩
    exact List.map_congr_left fun e he => by rw [halone (x e.2) time e he]
  · obtain ⟨j, hproceeds, hdone, hstore, houtcomes⟩ := x.exists_joint_run plans (s.throttleNext k) time
    have hretries : k ≤ x.retries := by
      rw [← x.retries_succ] at hk
      exact Nat.le_of_lt_succ hk
    obtain ⟨hserved, htables⟩ := hproceeds.independent (s := s.throttleNext k) (List.forall_mem_nil _) herrors hwrites
      hitems hdone (hproceeds.all_served herrors hwrites fun _ => hretries)
    refine ⟨eq_of_zipIdx_perm (houtcomes.symm.trans (hserved.trans (.of_eq ?_))), hstore ▸ htables.sameUpToOrder⟩
    rw [List.zipIdx_map, List.map_map]
    exact List.map_congr_left fun e he => Prod.ext rfl (halone x time' e he).symm

open Samples in
/-- Of three writes the second is for a table that is not there; the others come out as if it were not among them,
though the first request is throttled. -/
theorem different_items_are_written_independently_of_orders :
    let a : Item := [("id", .string "a")]
    let b : Item := [("id", .string "b")]
    let s := Store.run {} [.create bareOrder.shape, .insert "orders" a]
    let write (table : String) (operation : Operation) : Plan :=
      ItemWrite.plan ⟨{ bareOrder.shape with table }, [], .allOld⟩ operation .empty
    let plans := [write "orders" (.put b), write "invoices" (.put b), write "orders" (.delete a)]
    s.faults.next.1 = none ∧ (∀ p ∈ plans, p.operation.isWrite = true) ∧
      plans.Pairwise (fun p q => ¬s.tables.SameItem p q) ∧ 1 < twice.retry.totalAttempts ∧
      (twice.writeAll plans ⟨s.throttleNext 1, 0⟩).1 = [.ok (.written none),
        .error (.service "ResourceNotFoundException: table 'invoices' not found"), .ok (.written (some a))] ∧
      (s.tables.writeAll plans).SameUpToOrder (twice.writeAll plans ⟨s.throttleNext 1, 0⟩).2.client.tables := by
  intro a b s write plans
  have hcalm : s.faults.next.1 = none := rfl
  have hwrites : ∀ p ∈ plans, p.operation.isWrite = true :=
    List.forall_mem_cons.2 ⟨rfl, List.forall_mem_cons.2 ⟨rfl, List.forall_mem_singleton.2 rfl⟩⟩
  have hitems : plans.Pairwise fun p q => ¬s.tables.SameItem p q := by
    refine List.pairwise_cons.2 ⟨List.forall_mem_cons.2 ⟨?_, List.forall_mem_singleton.2 ?_⟩,
      List.pairwise_pair.2 ?_⟩
    · rintro ⟨htable, -⟩
      exact absurd htable (by decide)
    · rintro ⟨-, t, x, y, ht, hx, hy, -, -, hsame⟩
      cases ht
      cases hx
      cases hy
      exact absurd hsame (by decide)
    · rintro ⟨htable, -⟩
      exact absurd htable (by decide)
  have hattempts : 1 < twice.retry.totalAttempts := by decide
  obtain ⟨-, -, hpool⟩ := different_items_are_written_independently s hcalm plans hwrites hitems
  obtain ⟨houtcomes, htables⟩ := hpool twice 1 0 0 hattempts
  exact ⟨hcalm, hwrites, hitems, hattempts, houtcomes.trans rfl, htables⟩

end ItemStore
