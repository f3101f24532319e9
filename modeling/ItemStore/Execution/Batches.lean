import ItemStore.Execution.Reading
/-!
# Batches

A batch is cut into parts of a size that the store takes.  Each part is sent in rounds: what
the store leaves undone is sent again after a backoff, for as many rounds as there are
retries.  A part that fails holds up no other.
-/
namespace ItemStore

/-- Cuts a list into parts of `n` entries, of which the last may have fewer. -/
def chunks {α : Type} (n : Nat) : List α → List (List α)
  | [] => []
  | x :: xs => (x :: xs.take (n - 1)) :: chunks n (xs.drop (n - 1))
termination_by xs => xs.length
decreasing_by simp only [List.length_drop, List.length_cons]; omega

/-- The entries of a batch: how they are sent, and which of them a response has left. -/
structure BatchKind (ε : Type) where
  operation : List ε → Operation
  undone : Response → List ε

namespace BatchKind

def get : BatchKind Item := ⟨.batchGet, Response.unprocessedKeys⟩

def write : BatchKind BatchEntry := ⟨.batchWrite, Response.unprocessedWrites⟩

end BatchKind

/-- How the rounds of one part of a batch have gone. -/
structure BatchRun (ε : Type) where
  /-- For each round that was answered what was sent, and the response. -/
  answered : List (List ε × Response) := []
  /-- What was left in the end. -/
  undone : List ε := []
  /-- What was sent in a round that failed. -/
  failed : List (ε × Error) := []

namespace Executor
variable {σ ε : Type} [Client σ]

/-- Sends entries after `made` rounds, with up to `left` rounds to come after this. -/
def batchRounds (x : Executor) (kind : BatchKind ε) (base : Request) (made : Nat) :
    Nat → List ε → World σ → BatchRun ε × World σ
  | left, entries, w =>
    match x.submit { base with operation := kind.operation entries } w with
    | (.error e, w) => ({ failed := entries.map fun entry => (entry, e) }, w)
    | (.ok response, w) =>
      match left, kind.undone response with
      | _, [] => ({ answered := [(entries, response)] }, w)
      | 0, undone => ({ answered := [(entries, response)], undone }, w)
      | left + 1, undone =>
        let (run, w) := x.batchRounds kind base (made + 1) left undone
          (w.sleep (x.retry.backoff made))
        ({ run with answered := (entries, response) :: run.answered }, w)

/-- Runs the parts one after the other. -/
def batchRuns (x : Executor) (kind : BatchKind ε) (base : Request) :
    List (List ε) → World σ → List (BatchRun ε) × World σ
  | [], w => ([], w)
  | part :: parts, w =>
    let (run, w) := x.batchRounds kind base 0 x.retry.maxAttempts part w
    let (runs, w) := x.batchRuns kind base parts w
    (run :: runs, w)

end Executor

/-! ## Gets -/

structure BatchGetOutcome (α : Type) where
  items : List α
  /-- Keys that were not read, with the reason. -/
  failed : List (Item × Error)

def Operation.batchKeys? : Operation → Option (List Item)
  | batchGet keys => some keys
  | _ => none

namespace Executor
variable {σ α : Type} [Client σ]

/-- The keys of a part that were not read; the last round may have left some. -/
def unread (x : Executor) (run : BatchRun Item) : List (Item × Error) :=
  run.failed ++ run.undone.map fun key => (key, .capacityExceeded (x.retry.maxAttempts + 1))

/-- Fails as a whole only where an item is no record. -/
def batchGet (x : Executor) (d : RecordReader α) (p : Plan) (w : World σ) :
    Except Error (BatchGetOutcome α) × World σ :=
  match p.checkShape d.shape, p.operation.batchKeys? with
  | .error e, _ => (.error e, w)
  | .ok (), none => (.error (p.operationFault "batch_get"), w)
  | .ok (), some keys =>
    let (runs, w) := x.batchRuns .get p.request (chunks x.batchGetSize keys) w
    let items := runs.flatMap fun run => run.answered.flatMap fun a => a.2.items
    ((items.mapM d.read).map fun items => { items, failed := runs.flatMap x.unread }, w)

end Executor

/-! ## Writes -/

structure BatchWriteOutcome where
  written : Nat
  /-- What the store still left undone in the end. -/
  unprocessed : List BatchEntry
  failed : List (BatchEntry × Error)

def Operation.batchEntries? : Operation → Option (List BatchEntry)
  | batchWrite entries => some entries
  | _ => none

namespace BatchRun

/-- How many of the entries sent in all rounds were not left undone. -/
def done (run : BatchRun BatchEntry) : Nat :=
  run.answered.foldr (fun a n => a.1.length - a.2.unprocessedWrites.length + n) 0

end BatchRun

namespace Executor
variable {σ : Type} [Client σ]

def batchWrite (x : Executor) (p : Plan) (w : World σ) :
    Except Error BatchWriteOutcome × World σ :=
  match p.operation.batchEntries? with
  | none => (.error (p.operationFault "batch_write"), w)
  | some entries =>
    let (runs, w) := x.batchRuns .write p.request (chunks x.batchWriteSize entries) w
    (.ok { written := runs.foldr (fun run n => run.done + n) 0
           unprocessed := runs.flatMap BatchRun.undone
           failed := runs.flatMap BatchRun.failed }, w)

end Executor
end ItemStore
