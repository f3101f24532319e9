import ItemStore.Execution.Executor
import ItemStore.Proofs.Outcome
/-!
# What an executor and its client say to each other

A conversation is the requests that a client was sent, each with its reply.  `Talks` says which conversations a client
can have; what an executor says in one does not depend on the client.  A submission, for one, is a single request, again
and again for as long as it is throttled and attempts are left (`submit_talks`).
-/
namespace ItemStore

/-- A request, and what it was answered. -/
abbrev Exchange := Request × Reply

/-! ## Clients -/

section Talks
variable {σ : Type} [Client σ]

/-- What was said to the client as it went from the first state to the second. -/
inductive Talks : σ → List Exchange → σ → Prop where
  | silence (c : σ) : Talks c [] c
  | exchange {c c₁ c' : σ} {r : Request} {reply : Reply} {talk : List Exchange} :
      Client.send c r = (reply, c₁) → Talks c₁ talk c' → Talks c ((r, reply) :: talk) c'

namespace Talks

theorem of_send {c c' : σ} {r : Request} {reply : Reply} (h : Client.send c r = (reply, c')) :
    Talks c [(r, reply)] c' :=
  .exchange h (.silence c')

theorem append {c c₁ c' : σ} {talk talk' : List Exchange} (h : Talks c talk c₁) (h' : Talks c₁ talk' c') :
    Talks c (talk ++ talk') c' := by
  induction h with
  | silence _ => exact h'
  | exchange hsend _ ih => exact .exchange hsend (ih h')

theorem split {talk talk' : List Exchange} {c c' : σ} (h : Talks c (talk ++ talk') c') :
    ∃ c₁, Talks c talk c₁ ∧ Talks c₁ talk' c' := by
  induction talk generalizing c with
  | nil => exact ⟨c, .silence c, h⟩
  | cons _ talk ih =>
    cases h with
    | exchange hsend h =>
      obtain ⟨c₁, hfront, hback⟩ := ih h
      exact ⟨c₁, .exchange hsend hfront, hback⟩

/-- Each part of a conversation is one. -/
theorem of_mem_flatMap {β : Type} {f : β → List Exchange} {xs : List β} {x : β} {c c' : σ}
    (h : Talks c (xs.flatMap f) c') (hx : x ∈ xs) : ∃ c₁ c₂ : σ, Talks c₁ (f x) c₂ := by
  obtain ⟨before, after, rfl⟩ := List.append_of_mem hx
  rw [List.flatMap_append, List.flatMap_cons] at h
  obtain ⟨c₁, -, h⟩ := h.split
  obtain ⟨c₂, h, -⟩ := h.split
  exact ⟨c₁, c₂, h⟩

/-- What every failing exchange keeps, a conversation of nothing else keeps. -/
theorem keeps {P : σ → Prop} {r : Request} (hfail : ∀ {c c' err}, P c → Client.send c r = (.error err, c') → P c')
    {c c' : σ} {talk : List Exchange} (h : Talks c talk c') (hr : ∀ e ∈ talk, ∃ err, e = (r, .error err))
    (hc : P c) : P c' := by
  induction h with
  | silence _ => exact hc
  | exchange hsend _ ih =>
    obtain ⟨⟨err, heq⟩, hrest⟩ := List.forall_mem_cons.1 hr
    cases heq
    exact ih hrest (hfail hc hsend)

end Talks

/-- What is said when requests are sent one after the other, and the client then. -/
def Client.sendAll (c : σ) : List Request → List Exchange × σ
  | [] => ([], c)
  | r :: rs => ((r, (send c r).1) :: (sendAll (send c r).2 rs).1, (sendAll (send c r).2 rs).2)

theorem Talks.of_sendAll : ∀ (rs : List Request) (c : σ), Talks c (Client.sendAll c rs).1 (Client.sendAll c rs).2
  | [], c => .silence c
  | _ :: rs, _ => .exchange rfl (of_sendAll rs _)

end Talks

/-- A script logs what it is sent, and what it answers is the replies laid down, each in its place, and errors. -/
theorem Script.log_of_talks {s s' : Script} {talk : List Exchange} (h : Talks s talk s') :
    s'.log = s.log ++ talk.map Prod.fst ∧
      ∀ e ∈ talk, e ∈ (talk.map Prod.fst).zip s.replies ∨ ∃ err, e.2 = .error err := by
  induction h with
  | silence s => exact ⟨(List.append_nil _).symm, List.forall_mem_nil _⟩
  | @exchange s s₁ s' r reply talk hsend _ ih =>
    obtain ⟨hlog, hreplies⟩ := ih
    rcases s with ⟨_ | ⟨first, replies⟩, log⟩
    · cases hsend
      refine ⟨hlog.trans (List.append_assoc log [r] _),
        List.forall_mem_cons.2 ⟨.inr ⟨_, rfl⟩, fun e he => .inr ?_⟩⟩
      rcases hreplies e he with hzip | herr
      · rw [List.zip_nil_right] at hzip
        cases hzip
      · exact herr
    · cases hsend
      refine ⟨hlog.trans (List.append_assoc log [r] _),
        List.forall_mem_cons.2 ⟨.inl List.mem_cons_self, fun e he => ?_⟩⟩
      exact (hreplies e he).imp_left (List.mem_cons_of_mem _)

/-! ## Submissions -/

/-- One request that has been sent `made` times, and up to `left` times more after this: it is sent again for as long as
it is throttled. -/
inductive Submission (r : Request) : Nat → Nat → List Exchange → Except Error Response → Prop where
  | last {made left : Nat} {reply : Reply} : (∀ detail, reply = .error (.throttling detail) → left = 0) →
      Submission r made left [(r, reply)] (Executor.conclude (made + 1) reply)
  | again {made left : Nat} {detail : String} {talk : List Exchange} {result : Except Error Response} :
      Submission r (made + 1) left talk result →
      Submission r made (left + 1) ((r, .error (.throttling detail)) :: talk) result

namespace Submission
variable {r : Request} {made left : Nat} {talk : List Exchange}

/-- The request is sent at least once and no more often than it may be, and nothing else is sent. -/
theorem requests {result : Except Error Response} (h : Submission r made left talk result) :
    talk.map Prod.fst = List.replicate talk.length r ∧ 1 ≤ talk.length ∧ talk.length ≤ left + 1 := by
  induction h with
  | last _ => exact ⟨rfl, Nat.le_refl 1, Nat.le_add_left 1 _⟩
  | again _ ih =>
    obtain ⟨hrequests, -, hlength⟩ := ih
    exact ⟨congrArg (r :: ·) hrequests, Nat.le_add_left 1 _, Nat.succ_le_succ hlength⟩

/-- A response is the last reply, and before it there were errors only. -/
theorem of_ok {response : Response} (h : Submission r made left talk (.ok response)) :
    ∃ failing, talk = failing ++ [(r, .ok response)] ∧ ∀ e ∈ failing, ∃ err, e = (r, .error err) := by
  generalize hresult : Except.ok response = result at h
  induction h with
  | @last _ _ reply _ =>
    unfold Executor.conclude at hresult
    split at hresult
    · cases hresult
      exact ⟨[], rfl, List.forall_mem_nil _⟩
    · cases hresult
    · cases hresult
  | again _ ih =>
    obtain ⟨failing, rfl, hfailing⟩ := ih hresult
    exact ⟨_ :: failing, rfl, List.forall_mem_cons.2 ⟨⟨_, rfl⟩, hfailing⟩⟩

/-- Without a response there were errors only. -/
theorem of_error {e : Error} (h : Submission r made left talk (.error e)) :
    ∀ e ∈ talk, ∃ err, e = (r, .error err) := by
  generalize hresult : Except.error e = result at h
  induction h with
  | @last _ _ reply _ =>
    unfold Executor.conclude at hresult
    split at hresult
    · cases hresult
    · exact List.forall_mem_singleton.2 ⟨_, rfl⟩
    · exact List.forall_mem_singleton.2 ⟨_, rfl⟩
  | again _ ih => exact List.forall_mem_cons.2 ⟨⟨_, rfl⟩, ih hresult⟩

/-- A request that is answered at once is sent once. -/
theorem of_send_ok {σ : Type} [Client σ] {c c₁ c' : σ} {response : Response} {result : Except Error Response}
    (h : Submission r made left talk result) (hsend : Client.send c r = (.ok response, c₁)) (htalk : Talks c talk c') :
    result = .ok response ∧ c' = c₁ := by
  cases h with
  | last _ =>
    cases htalk with
    | exchange hsend' hend =>
      cases hend
      cases hsend.symm.trans hsend'
      exact ⟨rfl, rfl⟩
  | again _ =>
    cases htalk with
    | exchange hsend' _ => cases hsend.symm.trans hsend'

end Submission

namespace Executor
variable {σ : Type} [Client σ]

theorem submitFrom_talks (x : Executor) (r : Request) : ∀ (made left : Nat) (w : World σ),
    ∃ talk, Talks w.client talk (x.submitFrom r made left w).2.client ∧
      Submission r made left talk (x.submitFrom r made left w).1
  | _, 0, _ => ⟨_, .of_send rfl, .last fun _ _ => rfl⟩
  | made, left + 1, w => by
    rcases hsend : w.send r with ⟨reply, w'⟩
    have hclient : Client.send w.client r = (reply, w'.client) := by
      cases hsend
      rfl
    unfold submitFrom
    rw [hsend]
    split
    · next detail w'' heq =>
      cases heq
      obtain ⟨talk, htalk, hsubmission⟩ := submitFrom_talks x r (made + 1) left (w'.sleep (x.retry.backoff made))
      exact ⟨_, .exchange hclient htalk, .again hsubmission⟩
    · next reply' w'' hfinal heq =>
      cases heq
      exact ⟨_, .of_send hclient, .last fun detail hreply => (hfinal detail hreply).elim⟩

/-- **To submit a request is to send it until it is not throttled, as often as the retry policy allows.** -/
theorem submit_talks (x : Executor) {r : Request} {w w' : World σ} {result : Except Error Response}
    (h : x.submit r w = (result, w')) :
    ∃ talk, Talks w.client talk w'.client ∧ Submission r 0 x.retries talk result := by
  have htalks := x.submitFrom_talks r 0 x.retries w
  rw [submit] at h
  rw [h] at htalks
  exact htalks

/-- A response to the first attempt is the result. -/
theorem submit_of_ok (x : Executor) {r : Request} {w : World σ} {c : σ} {response : Response}
    (h : Client.send w.client r = (.ok response, c)) : x.submit r w = (.ok response, { w with client := c }) := by
  have hsend : w.send r = (.ok response, { w with client := c }) := by rw [World.send, h]
  unfold submit
  cases x.retries with
  | zero =>
    rw [submitFrom, hsend]
    rfl
  | succ left =>
    rw [submitFrom, hsend]
    rfl

end Executor

/-! ## Settings -/

/-- What an executor's settings have passed. -/
theorem Settings.bounds_of_valid {c : Settings} (h : c.validate = .ok ()) :
    (0 < c.batchGetSize ∧ c.batchGetSize ≤ maxBatchGet) ∧
      (0 < c.batchWriteSize ∧ c.batchWriteSize ≤ maxBatchWrite) ∧
      0 < c.writeConcurrency ∧ c.pageSize ≠ some 0 := by
  unfold validate at h
  obtain ⟨_, -, h⟩ := Outcome.bind_eq_ok.1 h
  split at h
  · cases h
  · next hget =>
    split at h
    · cases h
    · next hwrite =>
      split at h
      · cases h
      · next hconcurrency =>
        split at h
        · cases h
        · next hpage => exact ⟨by omega, by omega, by omega, hpage⟩

theorem Settings.sizes_of_valid {c : Settings} (h : c.validate = .ok ()) :
    0 < c.batchGetSize ∧ 0 < c.batchWriteSize ∧ 0 < c.writeConcurrency ∧ c.pageSize ≠ some 0 := by
  obtain ⟨hget, hwrite, hrest⟩ := bounds_of_valid h
  exact ⟨hget.1, hwrite.1, hrest⟩

theorem Executor.retries_succ (x : Executor) : x.retries + 1 = x.retry.totalAttempts := by
  have hpos : 1 ≤ x.retry.totalAttempts := Nat.le_min.2 ⟨Nat.le_add_left 1 _, by decide⟩
  exact Nat.sub_add_cancel hpos

end ItemStore
