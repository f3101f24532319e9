import ItemStore.Text.JsonRead
/-!
# Retry policies

A request that the store throttles is sent again after a backoff: the initial one times the
multiplier for every retry before, up to a maximum.  With jitter the wait is drawn at
random between a smallest time and the backoff.
-/
namespace ItemStore

/-- How much of a backoff is left to chance. -/
inductive Jitter where
  | none
  /-- Anything up to the backoff. -/
  | full
  /-- At least half of the backoff. -/
  | equal
  deriving DecidableEq

namespace Jitter

def all : List Jitter := [none, full, equal]

def text : Jitter → String
  | none => "none"
  | full => "full"
  | equal => "equal"

/-- The shortest wait for a backoff; the longest is the backoff itself. -/
def shortest : Jitter → Nat → Nat
  | none, backoff => backoff
  | full, _ => 0
  | equal, backoff => backoff / 2

/-- A name, or an object with the name over a null. -/
def ofJson? : Json → Option Jitter
  | .str name | .obj [(name, .null)] => all.find? fun j => j.text == name
  | _ => Option.none

end Jitter

structure RetryPolicy where
  /-- Retries after the first attempt. -/
  maxAttempts : Nat
  /-- Times are in milliseconds. -/
  initialBackoff : Nat
  maxBackoff : Nat
  multiplier : Binary64
  jitter : Jitter
  deriving DecidableEq

namespace RetryPolicy

def withJitter (maxAttempts initialBackoff maxBackoff multiplier : Nat) : RetryPolicy :=
  ⟨maxAttempts, initialBackoff, maxBackoff, .ofNat multiplier, .full⟩

/-- For stores that take a while to recover; the policy where nothing is said. -/
def standard : RetryPolicy := withJitter 5 100 5000 2

/-- For trouble that passes quickly. -/
def fast : RetryPolicy := withJitter 3 10 100 2

def noRetry : RetryPolicy := ⟨0, 0, 0, .ofNat 1, .none⟩

/-- Waits that hardly cost any time. -/
def quick (maxAttempts : Nat) : RetryPolicy := withJitter maxAttempts 1 5 2

/-- One above the greatest count of attempts. -/
def countBound : Nat := twoPow 32

/-- One above the longest time. -/
def timeBound : Nat := twoPow 64

/-- How often one request may be sent. -/
def totalAttempts (p : RetryPolicy) : Nat := min (p.maxAttempts + 1) (countBound - 1)

/-- The wait before retry `n`, the first being 0, without jitter. -/
def backoff (p : RetryPolicy) (n : Nat) : Nat :=
  let grown := (Binary64.ofNat p.initialBackoff).mul (p.multiplier.pow (min n (twoPow 31 - 1)))
  (grown.least (.ofNat p.maxBackoff)).clamp (timeBound - 1)

inductive Fault where
  | multiplier
  | initialBackoff
  deriving DecidableEq

def Fault.message : Fault → String
  | multiplier => "backoff_multiplier must be at least 1.0"
  | initialBackoff => "initial_backoff_ms must not exceed max_backoff_ms"

def validate (p : RetryPolicy) : Except Fault Unit :=
  if p.multiplier.lessThan (.ofNat 1) then .error .multiplier
  else if p.initialBackoff > p.maxBackoff then .error .initialBackoff
  else .ok ()

/-- A member that is not there leaves the standard. -/
def ofJson? (j : Json) : Option RetryPolicy := do
  let member {α : Type} (read : Json → Option α) (standard : α) : Option Json → Option α
    | some x => read x
    | none => some standard
  match ← Json.record? ["max_attempts", "initial_backoff_ms", "max_backoff_ms",
      "backoff_multiplier", "jitter"] j with
  | [attempts, initial, greatest, multiplier, jitter] =>
    return {
      maxAttempts := ← member (Json.natBelow? countBound) standard.maxAttempts attempts
      initialBackoff := ← member (Json.natBelow? timeBound) standard.initialBackoff initial
      maxBackoff := ← member (Json.natBelow? timeBound) standard.maxBackoff greatest
      multiplier := ← member Json.float? standard.multiplier multiplier
      jitter := ← member Jitter.ofJson? standard.jitter jitter }
  | _ => none

/-- Times are written as texts, since they may be beyond what others read as a number. -/
def toJson (p : RetryPolicy) : Json :=
  .obj [("max_attempts", .ofNat p.maxAttempts),
    ("initial_backoff_ms", .str (toString p.initialBackoff)),
    ("max_backoff_ms", .str (toString p.maxBackoff)),
    ("backoff_multiplier", .ofFloat p.multiplier), ("jitter", .str p.jitter.text)]

end RetryPolicy
end ItemStore
