import ItemStore.Execution.Writing
import ItemStore.Proofs.Execution.Conversation
import ItemStore.Proofs.Request.Items
import ItemStore.Proofs.Store.Locality
import ItemStore.Proofs.Store.Refusals
/-!
# Requests that are throttled

A request that is submitted is sent until a reply comes that does not throttle it, and no more often than the retry
policy allows (`Submission.attempts`, `Executor.submit_replies`).  So throttling that passes while attempts are left
makes no difference to a write, and with more of it the store is not touched (`throttled_requests_are_sent_again`).
-/
namespace ItemStore

open Outcome (bind_eq_error mapError_eq_error)

/-- The reply asks for another attempt. -/
def Throttles (reply : Reply) : Prop := ∃ detail, reply = .error (.throttling detail)

/-! ## The same request again and again -/

namespace Client
variable {σ : Type} [Client σ]

/-- The client when it has been sent the same request `n` times. -/
def after (c : σ) (r : Request) : Nat → σ
  | 0 => c
  | n + 1 => after (send c r).2 r n

theorem after_succ (r : Request) : ∀ (n : Nat) (c : σ), after c r (n + 1) = (send (after c r n) r).2
  | 0, _ => rfl
  | n + 1, c => after_succ r n (send c r).2

/-- What the client replies to the request when it has been sent it `n` times before. -/
def reply (c : σ) (r : Request) (n : Nat) : Reply := (send (after c r n) r).1

end Client

/-- A conversation of one request alone is the replies of the client in turn. -/
theorem Talks.replies {σ : Type} [Client σ] {r : Request} {c c' : σ} {talk : List Exchange} (h : Talks c talk c')
    (hr : ∀ e ∈ talk, e.1 = r) : c' = Client.after c r talk.length ∧
    ∀ (i : Nat) (e : Exchange), talk[i]? = some e → e.2 = Client.reply c r i := by
  induction h with
  | silence c => exact ⟨rfl, fun i e he => by cases he⟩
  | @exchange c c₁ c' r' reply talk hsend _ ih =>
    obtain ⟨rfl, hrest⟩ := List.forall_mem_cons.1 hr
    obtain ⟨hc', hreplies⟩ := ih hrest
    obtain rfl : (Client.send c r').2 = c₁ := congrArg Prod.snd hsend
    refine ⟨hc', fun i e he => ?_⟩
    cases i with
    | zero =>
      cases he
      exact (congrArg Prod.fst hsend).symm
    | succ i => exact hreplies i e he

/-- All attempts of a submission but the last are throttled, and the last is the one that it may not go beyond, or else
is answered. -/
theorem Submission.attempts {r : Request} {made left : Nat} {talk : List Exchange} {result : Except Error Response}
    (h : Submission r made left talk result) : ∃ again reply, talk = again ++ [(r, reply)] ∧
      (∀ e ∈ again, e.1 = r ∧ Throttles e.2) ∧ (Throttles reply → again.length = left) ∧
      again.length ≤ left ∧ result = Executor.conclude (made + again.length + 1) reply := by
  induction h with
  | last hlast =>
    exact ⟨[], _, rfl, List.forall_mem_nil _, fun ⟨detail, hreply⟩ => (hlast detail hreply).symm,
      Nat.zero_le _, rfl⟩
  | @again made left detail talk result _ ih =>
    obtain ⟨again, reply, rfl, hagain, hlast, hlength, rfl⟩ := ih
    refine ⟨_ :: again, reply, rfl, List.forall_mem_cons.2 ⟨⟨rfl, detail, rfl⟩, hagain⟩,
      fun hthrottles => ?_, ?_, ?_⟩
    · rw [List.length_cons, hlast hthrottles]
    · exact Nat.succ_le_succ hlength
    · rw [List.length_cons, Nat.add_right_comm made 1, Nat.add_assoc made]

namespace Executor

theorem conclude_of_throttles {attempts : Nat} {reply : Reply} (h : Throttles reply) :
    conclude attempts reply = .error (.capacityExceeded attempts) := by
  obtain ⟨detail, rfl⟩ := h
  rfl

theorem conclude_of_not_throttles {attempts : Nat} {reply : Reply} (h : ¬Throttles reply) :
    conclude attempts reply = reply.mapError StoreError.error := by
  cases reply with
  | ok response => rfl
  | error e =>
    cases e with
    | throttling detail => exact absurd ⟨detail, rfl⟩ h
    | _ => rfl

end Executor

/-- What a submission fails with is the fault that it was answered with last, and throttling only after all attempts. -/
theorem Submission.exists_fault {r : Request} {made left : Nat} {talk : List Exchange} {e : Error}
    (h : Submission r made left talk (.error e)) :
    ∃ fault, (r, .error fault) ∈ talk ∧ Executor.conclude (made + left + 1) (.error fault) = .error e := by
  obtain ⟨again, reply, rfl, -, hlast, -, hresult⟩ := h.attempts
  cases reply with
  | ok response => cases hresult
  | error fault =>
    refine ⟨fault, by simp, ?_⟩
    rw [hresult]
    by_cases hthrottles : Throttles (.error fault)
    · rw [hlast hthrottles]
    · rw [Executor.conclude_of_not_throttles hthrottles, Executor.conclude_of_not_throttles hthrottles]

namespace Executor

section Submit
variable {σ : Type} [Client σ] {r : Request} {w w' : World σ} {result : Except Error Response}

/-- **What comes of a submission, by the replies of the client**: of attempt `n + 1`, the last. -/
theorem submit_replies (x : Executor) (h : x.submit r w = (result, w')) : ∃ n, n < x.retry.totalAttempts ∧
    w'.client = Client.after w.client r (n + 1) ∧ (∀ i < n, Throttles (Client.reply w.client r i)) ∧
    ((¬Throttles (Client.reply w.client r n) ∧ result = (Client.reply w.client r n).mapError StoreError.error) ∨
      (Throttles (Client.reply w.client r n) ∧ n + 1 = x.retry.totalAttempts ∧
        result = .error (.capacityExceeded x.retry.totalAttempts))) := by
  obtain ⟨talk, htalk, hsubmission⟩ := x.submit_talks h
  obtain ⟨again, reply, rfl, hagain, hlast, hlength, rfl⟩ := hsubmission.attempts
  have hr : ∀ e ∈ again ++ [(r, reply)], e.1 = r := by
    rw [List.forall_mem_append]
    exact ⟨fun e he => (hagain e he).1, List.forall_mem_singleton.2 rfl⟩
  obtain ⟨hclient, hreplies⟩ := htalk.replies hr
  have hretries := x.retries_succ
  have hreply : reply = Client.reply w.client r again.length := hreplies _ _ List.getElem?_concat_length
  refine ⟨again.length, by omega, ?_, fun i hi => ?_, ?_⟩
  · rw [hclient, List.length_append, List.length_singleton]
  · have hmem : (again ++ [(r, reply)])[i]? = some again[i] := by
      rw [List.getElem?_append_left hi, List.getElem?_eq_getElem hi]
    rw [← hreplies i _ hmem]
    exact (hagain _ (List.getElem_mem hi)).2
  -- the last reply throttles only if no attempt is left
  · rw [← hreply, Nat.zero_add]
    by_cases hthrottles : Throttles reply
    · have hall : again.length + 1 = x.retry.totalAttempts := by rw [hlast hthrottles, hretries]
      rw [conclude_of_throttles hthrottles, hall]
      exact .inr ⟨hthrottles, rfl, rfl⟩
    · exact .inl ⟨hthrottles, conclude_of_not_throttles hthrottles⟩

/-- A submission ends with the first reply that does not throttle it, if that comes in time. -/
theorem submit_of_first (x : Executor) (h : x.submit r w = (result, w')) {k : Nat} (hk : k < x.retry.totalAttempts)
    (hbefore : ∀ i < k, Throttles (Client.reply w.client r i)) (hlast : ¬Throttles (Client.reply w.client r k)) :
    result = (Client.reply w.client r k).mapError StoreError.error ∧ w'.client = Client.after w.client r (k + 1) := by
  obtain ⟨n, hn, hclient, hagain, hend⟩ := x.submit_replies h
  -- no reply before this one ends the submission, and none after it is waited for
  rcases Nat.lt_trichotomy n k with hlt | rfl | hgt
  · have hthrottles := hbefore n hlt
    rcases hend with ⟨hnot, -⟩ | ⟨-, hall, -⟩
    · exact absurd hthrottles hnot
    · omega
  · rcases hend with ⟨-, hresult⟩ | ⟨hthrottles, -⟩
    · exact ⟨hresult, hclient⟩
    · exact absurd hthrottles hlast
  · exact absurd (hagain k hgt) hlast

theorem mapError_ne_capacityExceeded (reply : Reply) (attempts : Nat) :
    reply.mapError StoreError.error ≠ .error (.capacityExceeded attempts) := by
  cases reply with
  | ok response => nofun
  | error e => cases e <;> exact nofun

/-- **Capacity is exceeded exactly if all the attempts that there are have been throttled.** -/
theorem submit_eq_capacityExceeded_iff (x : Executor) (h : x.submit r w = (result, w')) {attempts : Nat} :
    result = .error (.capacityExceeded attempts) ↔
      attempts = x.retry.totalAttempts ∧ ∀ i < x.retry.totalAttempts, Throttles (Client.reply w.client r i) := by
  obtain ⟨n, hn, -, hbefore, ⟨hlast, rfl⟩ | ⟨hlast, hall, rfl⟩⟩ := x.submit_replies h
  · constructor
    · intro hresult
      exact absurd hresult (mapError_ne_capacityExceeded _ _)
    · rintro ⟨-, hthrottles⟩
      exact absurd (hthrottles n hn) hlast
  · constructor
    · intro hresult
      cases hresult
      refine ⟨rfl, fun i hi => ?_⟩
      rcases Nat.lt_or_ge i n with hlt | hge
      · exact hbefore i hlt
      · obtain rfl : i = n := by omega
        exact hlast
    · rintro ⟨rfl, -⟩
      rfl

end Submit
end Executor

namespace Script

/-- The reply to a request before which there are so many others. -/
def replyTo (s : Script) (n : Nat) : Reply := s.replies[n]?.getD (.error (.service "no scripted reply left"))

/-- A script gives its replies in turn and logs each request. -/
theorem after_eq (r : Request) : ∀ (n : Nat) (s : Script),
    Client.after s r n = { replies := s.replies.drop n, log := s.log ++ List.replicate n r }
  | 0, s => by
    rw [List.drop_zero, List.replicate_zero, List.append_nil]
    rfl
  | n + 1, s => by
    rw [Client.after, after_eq r n, List.replicate_succ]
    rcases s with ⟨_ | ⟨reply, replies⟩, log⟩
    · show mk (List.drop n []) (log ++ [r] ++ _) = _
      rw [List.drop_nil, List.drop_nil, List.append_assoc]
      rfl
    · show mk (List.drop n replies) (log ++ [r] ++ _) = _
      rw [List.append_assoc]
      rfl

theorem reply_eq (s : Script) (r : Request) (n : Nat) : Client.reply s r n = s.replyTo n := by
  rw [Client.reply, after_eq, replyTo, ← List.head?_drop]
  cases s.replies.drop n with
  | nil => rfl
  | cons reply replies => rfl

end Script

/-! ## Stores that throttle -/

/-- What a write of one item is refused with. -/
inductive Refusal : StoreError → Prop where
  | fault (fault : RequestFault) : Refusal fault.error
  | condition (detail : String) : Refusal (.conditionFailed detail)

namespace Refusal

theorem not_throttles {err : StoreError} (h : Refusal err) : ¬Throttles (.error err) := by
  rintro ⟨detail, heq⟩
  cases h with
  | fault fault => cases fault <;> cases heq
  | condition _ => cases heq

theorem of_mapError {α : Type} {x : Except RequestFault α} {err : StoreError}
    (h : x.mapError RequestFault.error = .error err) : Refusal err := by
  obtain ⟨fault, -, rfl⟩ := mapError_eq_error.1 h
  exact .fault fault

end Refusal

namespace Table
variable {t : Table} {e : Expressions} {key : Item} {err : StoreError}

theorem refusal_of_checkCondition {existing : Option Item} (h : checkCondition e existing = .error err) :
    Refusal err := by
  unfold checkCondition at h
  rcases bind_eq_error.1 h with h | ⟨holds, -, h⟩
  · exact .of_mapError h
  · cases holds with
    | true => cases h
    | false =>
      cases h
      exact .condition _

theorem refusal_of_checkWrite {keyCheck : Except RequestFault Unit} (h : t.checkWrite e keyCheck key = .error err) :
    Refusal err := by
  rcases bind_eq_error.1 h with h | ⟨_, -, h⟩
  · exact .of_mapError h
  · exact refusal_of_checkCondition h

theorem refusal_of_updated {update : String} (h : t.updated e key update = .error err) : Refusal err := by
  unfold updated at h
  rcases bind_eq_error.1 h with h | ⟨_, -, h⟩
  · exact .of_mapError h
  · rcases bind_eq_error.1 h with h | ⟨_, -, h⟩
    · exact refusal_of_checkCondition h
    · rcases bind_eq_error.1 h with h | ⟨_, -, h⟩
      · exact .of_mapError h
      · cases h

theorem refusal_of_oldImage {action : String} {existing : Option Item} {image : ReturnValues}
    (h : oldImage action existing image = .error err) : Refusal err := by
  unfold oldImage at h
  split at h
  · cases h
  · cases h
  · cases h
    exact .fault _

theorem refusal_of_write {op : Operation} {image : ReturnValues} (h : (t.write op e image).1 = .error err) :
    Refusal err := by
  unfold write at h
  split at h
  · split at h
    · next hcheck =>
      cases h
      exact refusal_of_checkWrite hcheck
    · exact refusal_of_oldImage h
  · split at h
    · next hcheck =>
      cases h
      exact refusal_of_checkWrite hcheck
    · exact refusal_of_oldImage h
  · split at h
    · next hupdated =>
      cases h
      exact refusal_of_updated hupdated
    · cases h
  · cases h
    exact .fault _

end Table

theorem Tables.refusal_of_writeOne {ts : Tables} {p : Plan} {err : StoreError} (h : (ts.writeOne p).1 = .error err) :
    Refusal err := by
  unfold writeOne at h
  split at h
  · cases h
    exact .fault _
  · exact Table.refusal_of_write h

namespace Store
variable {p : Plan} {result : Except Error Response} {w' : World Store}

theorem send_writeOne {s : Store} (hnext : s.faults.next.1 = none) (hp : p.operation.isWrite = true) :
    s.send p.request =
      ((s.tables.writeOne p).1, { s with log := s.log ++ [p.request], tables := (s.tables.writeOne p).2 }) := by
  have hfaults : s.faults.next = (none, s.faults.next.2) := Prod.ext hnext rfl
  unfold Tables.writeOne
  split
  · next ht =>
    rw [send_of_no_fault hfaults]
    cases hop : p.operation with
    | put item => simp only [serve, PlanOf.request, hop, ht]
    | update key update => simp only [serve, PlanOf.request, hop, ht]
    | delete key => simp only [serve, PlanOf.request, hop, ht]
    | _ =>
      rw [hop] at hp
      cases hp
  · next t ht => exact send_write hfaults ht hp rfl

theorem throttleNext_of_no_fault {s : Store} (h : s.faults.next.1 = none) : s.throttleNext 0 = s := by
  rcases s with ⟨tables, ⟨_ | throttled, errors, unprocessed⟩, log⟩
  · rfl
  · cases h

theorem after_throttled (r : Request) (k : Nat) : ∀ (i : Nat) (s : Store), Client.after (s.throttleNext (k + i)) r i =
    { s with log := s.log ++ List.replicate i r }.throttleNext k
  | 0, s => by
    rw [List.replicate_zero, List.append_nil]
    rfl
  | i + 1, s => by
    have hsend : (Client.send (s.throttleNext (k + i + 1)) r).2 = { s with log := s.log ++ [r] }.throttleNext (k + i) :=
      rfl
    rw [Client.after, ← Nat.add_assoc, hsend, after_throttled r k i, List.replicate_succ]
    show throttleNext ⟨s.tables, s.faults, s.log ++ [r] ++ _⟩ k = _
    rw [List.append_assoc]
    rfl

theorem reply_throttled (s : Store) (r : Request) {k i : Nat} (h : i < k) :
    Throttles (Client.reply (s.throttleNext k) r i) := by
  obtain ⟨d, rfl⟩ : ∃ d, k = d + 1 + i := ⟨k - i - 1, by omega⟩
  rw [Client.reply, after_throttled]
  exact ⟨_, rfl⟩

/-- **Throttling that passes in time makes no difference to a write.** -/
theorem submit_throttled (x : Executor) {s : Store} (hnext : s.faults.next.1 = none) (hp : p.operation.isWrite = true)
    {k : Nat} (hk : k < x.retry.totalAttempts) {t : Nat} (h : x.submit p.request ⟨s.throttleNext k, t⟩ = (result, w')) :
    result = (s.tables.writeOne p).1.mapError StoreError.error ∧ w'.client.tables = (s.tables.writeOne p).2 := by
  -- the request that is no longer throttled finds the tables as they were
  have hafter := after_throttled p.request 0 k s
  rw [Nat.zero_add, throttleNext_of_no_fault (by exact hnext)] at hafter
  have hserved : Client.send (Client.after (s.throttleNext k) p.request k) p.request = ((s.tables.writeOne p).1,
      { s with log := s.log ++ List.replicate k p.request ++ [p.request], tables := (s.tables.writeOne p).2 }) := by
    rw [hafter]
    exact send_writeOne (by exact hnext) hp
  have hreply : Client.reply (s.throttleNext k) p.request k = (s.tables.writeOne p).1 := congrArg Prod.fst hserved
  have hlast : ¬Throttles (Client.reply (s.throttleNext k) p.request k) := by
    rw [hreply]
    rintro ⟨detail, hthrottled⟩
    exact (Tables.refusal_of_writeOne hthrottled).not_throttles ⟨detail, rfl⟩
  obtain ⟨hresult, hclient⟩ := x.submit_of_first h hk (fun i hi => reply_throttled s p.request hi) hlast
  refine ⟨hresult.trans (by rw [hreply]), ?_⟩
  rw [hclient, Client.after_succ]
  exact congrArg (fun sent => sent.2.tables) hserved

/-- **Throttling that lasts leaves the store as it was.** -/
theorem submit_throttled_throughout (x : Executor) {s : Store} {r : Request} {k : Nat} (hk : x.retry.totalAttempts ≤ k)
    {t : Nat} (h : x.submit r ⟨s.throttleNext k, t⟩ = (result, w')) :
    result = .error (.capacityExceeded x.retry.totalAttempts) ∧ w'.client.tables = s.tables := by
  have hall : ∀ i < x.retry.totalAttempts, Throttles (Client.reply (s.throttleNext k) r i) :=
    fun i hi => reply_throttled s r (Nat.lt_of_lt_of_le hi hk)
  refine ⟨(x.submit_eq_capacityExceeded_iff h).2 ⟨rfl, hall⟩, ?_⟩
  obtain ⟨n, hn, hclient, -⟩ := x.submit_replies h
  obtain ⟨d, rfl⟩ : ∃ d, k = d + (n + 1) := ⟨k - (n + 1), by omega⟩
  rw [hclient, after_throttled]
  rfl

end Store

/-! ## Executors -/

namespace Executor

theorem write_of_isWrite {σ : Type} [Client σ] (x : Executor) {p : Plan} (hp : p.operation.isWrite = true)
    (w : World σ) : x.write p w = (WriteOutcome.ofResult (x.submit p.request w).1, (x.submit p.request w).2) := by
  rw [write, WriteOutcome.checkPlan, PlanOf.checkOperation, if_pos hp]

/-- **A request is sent until it is not throttled, and no more often than the retry policy allows.**  Whatever the
client, the requests that it is sent are one and the same; the last reply is the first that does not throttle, and its
result is the result, or all the attempts that there are have been throttled, and the result says so.  So a write on a
store that throttles `k` requests comes out as on one that does not, if there are more attempts than that, and otherwise
it fails and the tables are as before. -/
theorem throttled_requests_are_sent_again (x : Executor) :
    x.retry.totalAttempts = min (x.retry.maxAttempts + 1) (twoPow 32 - 1) ∧
    (∀ {σ : Type} [Client σ] (r : Request) (w : World σ), ∃ n < x.retry.totalAttempts,
      (x.submit r w).2.client = Client.after w.client r (n + 1) ∧
      (∀ i < n, Throttles (Client.reply w.client r i)) ∧
      ((¬Throttles (Client.reply w.client r n) ∧
          (x.submit r w).1 = (Client.reply w.client r n).mapError StoreError.error) ∨
        (Throttles (Client.reply w.client r n) ∧ n + 1 = x.retry.totalAttempts ∧
          (x.submit r w).1 = .error (.capacityExceeded x.retry.totalAttempts))) ∧
      ∀ attempts, (x.submit r w).1 = .error (.capacityExceeded attempts) ↔
        attempts = x.retry.totalAttempts ∧ ∀ i < x.retry.totalAttempts, Throttles (Client.reply w.client r i)) ∧
    (∀ (s : Script) (r : Request) (n : Nat),
      Client.after s r n = { replies := s.replies.drop n, log := s.log ++ List.replicate n r } ∧
      Client.reply s r n = s.replies[n]?.getD (.error (.service "no scripted reply left"))) ∧
    ∀ (s : Store) (write : SingleWrite) (p : Plan) (time k : Nat), s.faults.next.1 = none → write.build = .ok p →
      (k < x.retry.totalAttempts → (x.write p ⟨s.throttleNext k, time⟩).1 = (x.write p ⟨s, time⟩).1 ∧
        (x.write p ⟨s.throttleNext k, time⟩).2.client.tables = (x.write p ⟨s, time⟩).2.client.tables) ∧
      (x.retry.totalAttempts ≤ k →
        (x.write p ⟨s.throttleNext k, time⟩).1 = .error (.capacityExceeded x.retry.totalAttempts) ∧
        (x.write p ⟨s.throttleNext k, time⟩).2.client.tables = s.tables) := by
  refine ⟨rfl, fun r w => ?_, fun s r n => ⟨Script.after_eq r n s, Script.reply_eq s r n⟩,
    fun s write p time k hnext hbuild => ⟨fun hk => ?_, fun hk => ?_⟩⟩
  · obtain ⟨n, hn, hclient, hbefore, hend⟩ := x.submit_replies (r := r) (w := w) rfl
    exact ⟨n, hn, hclient, hbefore, hend, fun attempts => x.submit_eq_capacityExceeded_iff rfl⟩
  · obtain ⟨hp, -⟩ := SingleWrite.plan_of_build hbuild
    have hpos : 0 < x.retry.totalAttempts := Nat.zero_lt_of_lt hk
    have hthrottled := Store.submit_throttled x hnext hp hk (t := time) rfl
    have hplain := Store.submit_throttled x hnext hp hpos (t := time) rfl
    rw [Store.throttleNext_of_no_fault hnext] at hplain
    rw [x.write_of_isWrite hp, x.write_of_isWrite hp]
    exact ⟨congrArg WriteOutcome.ofResult (hthrottled.1.trans hplain.1.symm), hthrottled.2.trans hplain.2.symm⟩
  · have hthrottled := Store.submit_throttled_throughout x (s := s) (r := p.request) hk (t := time) rfl
    rw [x.write_of_isWrite (SingleWrite.plan_of_build hbuild).1]
    exact ⟨congrArg WriteOutcome.ofResult hthrottled.1, hthrottled.2⟩

end Executor

namespace Samples

/-- An executor that sends a request twice at most. -/
def twice : Executor := { retry := .quick 1, valid := rfl }

def bareOrder : Put :=
  { shape := ⟨"Order", "orders", [⟨"id", .string, false, false, .partition⟩], ⟨"id", none⟩, []⟩
    item := [("id", .string "A")] }

def noOrders : Store := { tables := [("orders", { key := ⟨"id", none⟩ })] }

end Samples

open Samples in
theorem throttled_requests_are_sent_again_of_put : ∃ p, (SingleWrite.put bareOrder).build = .ok p ∧
    (twice.write p ⟨noOrders.throttleNext 1, 0⟩).1 = .ok (.written none) ∧
    (twice.write p ⟨noOrders.throttleNext 1, 0⟩).2.client.tables =
      [("orders", { key := ⟨"id", none⟩, items := [[("id", .string "A")]] })] ∧
    (twice.write p ⟨noOrders.throttleNext 2, 0⟩).1 = .error (.capacityExceeded 2) ∧
    (twice.write p ⟨noOrders.throttleNext 2, 0⟩).2.client.tables = noOrders.tables := by
  obtain ⟨-, -, -, hstores⟩ := Executor.throttled_requests_are_sent_again twice
  refine ⟨_, rfl, ?_⟩
  obtain ⟨hone, htables⟩ := (hstores noOrders (.put bareOrder) _ 0 1 rfl rfl).1 (by decide)
  obtain ⟨htwo, hsame⟩ := (hstores noOrders (.put bareOrder) _ 0 2 rfl rfl).2 (by decide)
  exact ⟨hone.trans rfl, htables.trans rfl, htwo.trans rfl, hsame⟩

end ItemStore
