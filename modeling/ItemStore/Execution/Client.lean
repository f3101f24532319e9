import ItemStore.Store.Serving
/-!
# Clients

A client answers requests and changes with each of them.  The store in memory is one; a
script is another, which gives the replies laid down for it in turn and keeps a log, so
that what is sent can be looked at.  A `World` is a client together with the time.
-/
namespace ItemStore

class Client (σ : Type) where
  send : σ → Request → Reply × σ

instance : Client Store := ⟨Store.send⟩

/-! ## Scripts -/

structure Script where
  /-- The replies to come. -/
  replies : List Reply
  /-- The requests that have been sent, the first one first. -/
  log : List Request := []

namespace Script

/-- The reply that a script gives for each of `n` throttled requests. -/
def throttled (n : Nat) : List Reply := List.replicate n (.error (.throttling "throughput exceeded"))

/-- A script that has ended refuses everything. -/
def send (s : Script) (r : Request) : Reply × Script :=
  match s.replies with
  | reply :: replies => (reply, { replies, log := s.log ++ [r] })
  | [] => (.error (.service "no scripted reply left"), { s with log := s.log ++ [r] })

end Script

instance : Client Script := ⟨Script.send⟩

/-! ## Time -/

structure World (σ : Type) where
  client : σ
  /-- In milliseconds. -/
  time : Nat := 0

namespace World

def send {σ : Type} [Client σ] (w : World σ) (r : Request) : Reply × World σ :=
  let (reply, client) := Client.send w.client r
  (reply, { w with client })

def sleep {σ : Type} (w : World σ) (wait : Nat) : World σ := { w with time := w.time + wait }

end World
end ItemStore
