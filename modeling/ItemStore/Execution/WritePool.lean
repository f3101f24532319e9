import ItemStore.Execution.Writing
/-!
# Writes under way together

Writes that do not depend on each other are run with only so many under way at once; the
outcomes come in the order of the plans.  A write runs until it sleeps or is finished, then
the next one whose turn it is runs; when all sleep, the time moves on to where the first of
them wakes.  A write that has finished before an earlier one keeps its place among those
under way until the earlier one is finished too.
-/
namespace ItemStore

/-- A write under way, which has been sent `made` times and may be sent `left` times more
after the next. -/
structure WriteTask where
  index : Nat
  plan : Plan
  made : Nat := 0
  left : Nat

/-- How far a task has come. -/
inductive WriteTask.Progress where
  | finished (outcome : Except Error WriteOutcome)
  | asleep (wait : Nat) (task : WriteTask)

structure WritePool (σ : Type) where
  /-- Plans that have not begun, with their places. -/
  waiting : List (Plan × Nat)
  /-- Tasks in the order of their turns. -/
  ready : List WriteTask := []
  /-- Tasks with the times at which they wake, those first that fell asleep first. -/
  asleep : List (Nat × WriteTask) := []
  /-- Outcomes that wait for earlier ones. -/
  finished : List (Nat × Except Error WriteOutcome) := []
  /-- The outcomes of the first plans. -/
  outcomes : List (Except Error WriteOutcome) := []
  world : World σ

namespace WritePool
variable {σ : Type}

def underWay (p : WritePool σ) : Nat := p.ready.length + p.asleep.length + p.finished.length

/-- Begins as many plans as there is room for. -/
def fill (p : WritePool σ) (x : Executor) : WritePool σ :=
  let room := x.writeConcurrency - p.underWay
  let begun := (p.waiting.take room).map fun e =>
    ({ index := e.2, plan := e.1, left := x.retries } : WriteTask)
  { p with waiting := p.waiting.drop room, ready := p.ready ++ begun }

/-- Moves the time on to where the first sleeper wakes; none if there is no sleeper. -/
def wake (p : WritePool σ) : Option (WritePool σ) :=
  match (p.asleep.map Prod.fst).min? with
  | none => none
  | some time =>
    let (awake, asleep) := p.asleep.partition fun e => e.1 ≤ time
    some { p with ready := p.ready ++ awake.map Prod.snd, asleep
                  world := { p.world with time } }

/-- Hands out the outcome that comes next, if it is there. -/
def handOut (p : WritePool σ) : Option (WritePool σ) :=
  match p.finished.find? fun e => e.1 == p.outcomes.length with
  | some (n, outcome) =>
    some { p with outcomes := p.outcomes ++ [outcome]
                  finished := p.finished.filter fun e => e.1 != n }
  | none => none

end WritePool

namespace Executor
variable {σ : Type} [Client σ]

/-- Runs a task up to where it sleeps or is finished. -/
def advance (x : Executor) (t : WriteTask) (w : World σ) : WriteTask.Progress × World σ :=
  match WriteOutcome.checkPlan t.plan with
  | .error e => (.finished (.error e), w)
  | .ok () =>
    match t.left, w.send t.plan.request with
    | left + 1, (.error (.throttling _), w) =>
      (.asleep (x.retry.backoff t.made) { t with made := t.made + 1, left }, w)
    | _, (reply, w) => (.finished (WriteOutcome.ofResult (conclude (t.made + 1) reply)), w)

/-- Gives the task whose turn it is its turn.  One that has no time to wait goes on. -/
def turn (x : Executor) (t : WriteTask) (p : WritePool σ) : WritePool σ :=
  match x.advance t p.world with
  | (.finished outcome, world) => { p with finished := p.finished ++ [(t.index, outcome)], world }
  | (.asleep 0 t, world) => { p with ready := t :: p.ready, world }
  | (.asleep wait t, world) => { p with asleep := p.asleep ++ [(world.time + wait, t)], world }

/-- One step of the pool; none when all is done. -/
def poolStep (x : Executor) (p : WritePool σ) : Option (WritePool σ) :=
  let p := p.fill x
  match p.handOut, p.ready with
  | some p, _ => some p
  | none, t :: ready => some (x.turn t { p with ready })
  | none, [] => p.wake

def runPool (x : Executor) : Nat → WritePool σ → WritePool σ
  | 0, p => p
  | steps + 1, p =>
    match x.poolStep p with
    | some p => x.runPool steps p
    | none => p

/-- More steps than it takes: every plan is handed out once and every attempt is one turn,
after each of which the time may move on. -/
def poolSteps (x : Executor) (plans : List Plan) : Nat :=
  plans.length * (2 * (x.retries + 1) + 1) + 1

def writeAll (x : Executor) (plans : List Plan) (w : World σ) :
    List (Except Error WriteOutcome) × World σ :=
  let p := x.runPool (x.poolSteps plans) { waiting := plans.zipIdx, world := w }
  (p.outcomes, p.world)

end Executor
end ItemStore
