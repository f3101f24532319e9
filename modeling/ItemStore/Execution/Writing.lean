import ItemStore.Execution.Executor
/-!
# Writes and transactions

That a condition does not hold is an outcome of a write like any other, and so is the
cancellation of a transaction; neither is an error.
-/
namespace ItemStore

inductive WriteOutcome where
  /-- With the image that was asked for. -/
  | written (attributes : Option Item)
  | conditionFailed (reason : String)
  deriving DecidableEq

def WriteOutcome.attributes : WriteOutcome → Option Item
  | written attributes => attributes
  | conditionFailed _ => none

inductive TransactionOutcome where
  | committed
  /-- For each write why it was refused, if it was. -/
  | canceled (reasons : List (Option String))
  deriving DecidableEq

namespace WriteOutcome

def ofResult : Except Error Response → Except Error WriteOutcome
  | .ok response => .ok (.written response.attributes)
  | .error (.conditionalCheckFailed reason) => .ok (.conditionFailed reason)
  | .error e => .error e

/-- Only puts, updates and deletes can be written. -/
def checkPlan (p : Plan) : Except Error Unit :=
  p.checkOperation "put, update or delete" Operation.isWrite

end WriteOutcome

namespace TransactionOutcome

def ofResult : Except Error Response → Except Error TransactionOutcome
  | .ok _ => .ok .committed
  | .error (.transactionCanceled reasons) => .ok (.canceled reasons)
  | .error e => .error e

end TransactionOutcome

def Operation.isTransaction : Operation → Bool
  | transaction .. => true
  | _ => false

namespace Executor
variable {σ : Type} [Client σ]

def write (x : Executor) (p : Plan) (w : World σ) : Except Error WriteOutcome × World σ :=
  match WriteOutcome.checkPlan p with
  | .error e => (.error e, w)
  | .ok () =>
    let (result, w) := x.submit p.request w
    (WriteOutcome.ofResult result, w)

def transact (x : Executor) (p : Plan) (w : World σ) : Except Error TransactionOutcome × World σ :=
  match p.checkOperation "transact_write" Operation.isTransaction with
  | .error e => (.error e, w)
  | .ok () =>
    let (result, w) := x.submit p.request w
    (TransactionOutcome.ofResult result, w)

end Executor
end ItemStore
