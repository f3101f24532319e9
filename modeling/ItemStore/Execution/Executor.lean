import ItemStore.Execution.Client
import ItemStore.Execution.Settings
/-!
# Executors

An executor is what runs plans against a client; it is nothing but settings that have been
checked.  Every request it sends goes through `Executor.submit`, which sends it again, after
a backoff, for as long as the client throttles it and the retry policy has attempts left.
Any other reply is final.
-/
namespace ItemStore

structure Executor extends Settings where
  valid : toSettings.validate = .ok ()

namespace Executor

def ofSettings (c : Settings) : Except Error Executor :=
  match h : c.validate with
  | .ok () => .ok ⟨c, h⟩
  | .error fault => .error (.invalidArgument fault.message)

/-! ## Sending -/

section Submit
variable {σ : Type} [Client σ]

/-- What a reply means that is not answered by another attempt, after so many in all. -/
def conclude (attempts : Nat) : Reply → Except Error Response
  | .ok response => .ok response
  | .error (.throttling _) => .error (.capacityExceeded attempts)
  | .error e => .error e.error

/-- Sends a request that has been sent `made` times, and up to `left` times more after
this. -/
def submitFrom (x : Executor) (r : Request) (made : Nat) :
    Nat → World σ → Except Error Response × World σ
  | 0, w =>
    let (reply, w) := w.send r
    (conclude (made + 1) reply, w)
  | left + 1, w =>
    match w.send r with
    | (.error (.throttling _), w) => x.submitFrom r (made + 1) left (w.sleep (x.retry.backoff made))
    | (reply, w) => (conclude (made + 1) reply, w)

/-- How often a request may be sent after the first time. -/
def retries (x : Executor) : Nat := x.retry.totalAttempts - 1

def submit (x : Executor) (r : Request) (w : World σ) : Except Error Response × World σ :=
  x.submitFrom r 0 x.retries w

end Submit
end Executor

/-! ## What a plan may be used for -/

namespace PlanOf

def checkShape (p : Plan) (shape : String) : Except Error Unit :=
  if p.shape = shape then .ok ()
  else .error (.invalidArgument s!"plan was built for shape '{p.shape}', not '{shape}'")

/-- The plan is not one of those that were expected. -/
def operationFault (p : Plan) (expected : String) : Error :=
  .invalidArgument s!"expected a {expected} plan, got {p.operation.name}"

/-- `expected` names the operations for which the test holds. -/
def checkOperation (p : Plan) (expected : String) (test : Operation → Bool) : Except Error Unit :=
  if test p.operation then .ok () else .error (p.operationFault expected)

end PlanOf
end ItemStore
