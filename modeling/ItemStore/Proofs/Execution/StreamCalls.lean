import ItemStore.Proofs.Execution.Following
import ItemStore.Proofs.Execution.Retries
/-!
# The calls of a stream

Each call for the next item of a stream is a conversation with the client and an answer, and what a stream says in one
does not depend on the client (`ItemStream.Answers`).  Over any run of calls the accounts of a stream are kept
(`ItemStream.Accounts`): what it has served, and holds, is what the pages have brought, and each request begins where
the latest page ended.  So a page that cannot be fetched is asked for again, and behind the last page nothing is
(`streams_read_page_by_page`).
-/
namespace ItemStore

open Outcome (bind_eq_ok)

/-! ## What a reply means to a stream -/

namespace Reply

def items : Reply → List Item
  | .ok page => page.items
  | .error _ => []

def error? : Reply → Option Error
  | .ok _ => none
  | .error e => some e.error

def isLast : Reply → Bool
  | .ok page => page.last.isNone
  | .error _ => false

/-- Where the next page of a plan of that shape begins: a page says so, and an error leaves it. -/
def resume (shape : String) (cursor : Option PageCursor) : Reply → Option PageCursor
  | .ok page => page.last.map fun key => ⟨shape, key⟩
  | .error _ => cursor

end Reply

/-- The plan as it goes on after the replies. -/
def PlanOf.resumed (p : Plan) (heard : List Reply) : Plan :=
  { p with cursor := heard.foldl (Reply.resume p.shape) p.cursor }

/-- What is said in one call for the next item, and what it comes to: the item, or none behind the last, or an error. -/
structure StreamCall where
  talk : List Exchange
  answer : Except Error (Option Item)

namespace StreamCall

def heard (c : StreamCall) : List Reply := c.talk.map Prod.snd

/-- The items that the pages of a call have brought. -/
def fetched (c : StreamCall) : List Item := c.heard.flatMap Reply.items

def item? (c : StreamCall) : Option Item :=
  match c.answer with
  | .ok found => found
  | .error _ => none

def error? (c : StreamCall) : Option Error :=
  match c.answer with
  | .ok _ => none
  | .error e => some e

/-- The result, with the item as it is read. -/
def result {α : Type} (read : Item → Except Error α) (c : StreamCall) : Except Error (Option α) :=
  c.answer.bind fun found => found.mapM read

theorem filterMap_cons {β : Type} (f : StreamCall → Option β) (c : StreamCall) (calls : List StreamCall) :
    (c :: calls).filterMap f = (f c).toList ++ calls.filterMap f := by
  rw [List.filterMap_cons]
  cases f c <;> rfl

end StreamCall

namespace ItemStream

def request (s : ItemStream) : Request := PlanOf.request { s.plan with cursor := s.cursor }

/-! ## One call -/

/-- How a stream answers a call for the next item: from what it has fetched, or else with pages until one is not
empty. -/
inductive Answers : ItemStream → StreamCall → ItemStream → Prop where
  | fromBuffer {s : ItemStream} {item : Item} {buffer : List Item} :
      s.buffer = item :: buffer → Answers s ⟨[], .ok (some item)⟩ { s with buffer }
  | atEnd {s : ItemStream} : s.buffer = [] → s.lastFetched = true → Answers s ⟨[], .ok none⟩ s
  | failed {s : ItemStream} {err : StoreError} : s.buffer = [] → s.lastFetched = false →
      Answers s ⟨[(s.request, .error err)], .error err.error⟩ s
  | fetched {s s' : ItemStream} {page : Response} {call : StreamCall} : s.buffer = [] → s.lastFetched = false →
      Answers (s.extend page) call s' → Answers s ⟨(s.request, .ok page) :: call.talk, call.answer⟩ s'

inductive AnswersAll : ItemStream → List StreamCall → ItemStream → Prop where
  | nil (s : ItemStream) : AnswersAll s [] s
  | cons {s s₁ s' : ItemStream} {call : StreamCall} {calls : List StreamCall} :
      Answers s call s₁ → AnswersAll s₁ calls s' → AnswersAll s (call :: calls) s'

theorem AnswersAll.split {front back : List StreamCall} {s s' : ItemStream} (h : AnswersAll s (front ++ back) s') :
    ∃ s₁, AnswersAll s front s₁ ∧ AnswersAll s₁ back s' := by
  induction front generalizing s with
  | nil => exact ⟨s, .nil s, h⟩
  | cons call front ih =>
    cases h with
    | cons hcall h =>
      obtain ⟨s₁, hfront, hback⟩ := ih h
      exact ⟨s₁, .cons hcall hfront, hback⟩

namespace Answers
variable {s s' : ItemStream} {call : StreamCall}

/-- Something is asked for only when nothing that has been fetched is left, and there is more to come. -/
theorem empty_of_talk (h : Answers s call s') (htalk : call.talk ≠ []) : s.buffer = [] ∧ s.lastFetched = false := by
  cases h with
  | fromBuffer _ => exact absurd rfl htalk
  | atEnd _ _ => exact absurd rfl htalk
  | failed hbuffer hmore => exact ⟨hbuffer, hmore⟩
  | fetched hbuffer hmore _ => exact ⟨hbuffer, hmore⟩

/-- All replies of a call but the last are pages that are empty and not the last. -/
theorem dropLast_heard (h : Answers s call s') :
    ∀ reply ∈ call.heard.dropLast, reply.items = [] ∧ reply.isLast = false := by
  induction h with
  | fromBuffer _ => exact List.forall_mem_nil _
  | atEnd _ _ => exact List.forall_mem_nil _
  | failed _ _ => exact List.forall_mem_nil _
  | @fetched s s' page call hbuffer _ hrest ih =>
    show ∀ reply ∈ (.ok page :: call.heard).dropLast, _
    by_cases hheard : call.heard = []
    · rw [hheard]
      exact List.forall_mem_nil _
    · -- that the call goes on says that the page brought nothing and was not the last
      obtain ⟨hempty, hmore⟩ := hrest.empty_of_talk fun htalk => hheard (by rw [StreamCall.heard, htalk, List.map_nil])
      rw [List.dropLast_cons_of_ne_nil hheard]
      refine List.forall_mem_cons.2 ⟨⟨(List.append_eq_nil_iff.1 hempty).2, ?_⟩, ih⟩
      show page.last.isNone = false
      rw [← hmore]
      exact (Option.isNone_map ..).symm

/-- A call is answered with none exactly if it serves nothing, and leaves a stream that holds nothing and has fetched
the last page. -/
theorem answer_eq_none_iff (h : Answers s call s') :
    call.answer = .ok none ↔ s'.lastFetched = true ∧ call.item?.toList ++ s'.buffer = [] := by
  induction h with
  | fromBuffer _ => exact iff_of_false nofun fun ⟨_, hitems⟩ => List.cons_ne_nil _ _ hitems
  | atEnd hbuffer hlast => exact iff_of_true rfl ⟨hlast, hbuffer⟩
  | failed _ hmore => exact iff_of_false nofun fun ⟨hlast, _⟩ => Bool.false_ne_true (hmore.symm.trans hlast)
  | fetched _ _ _ ih => exact ih

end Answers

/-! ## Accounts -/

/-- What has come of a stream in a conversation, in which it has served these items and met these errors. -/
structure Accounts (s : ItemStream) (talk : List Exchange) (items : List Item) (errors : List Error) (s' : ItemStream) :
    Prop where
  plan : s'.plan = s.plan
  cursor : s'.cursor = (talk.map Prod.snd).foldl (Reply.resume s.plan.shape) s.cursor
  last : s'.lastFetched = (s.lastFetched || (talk.map Prod.snd).any Reply.isLast)
  items : s.buffer ++ (talk.map Prod.snd).flatMap Reply.items = items ++ s'.buffer
  errors : (talk.map Prod.snd).filterMap Reply.error? = errors
  requests : ∀ (i : Nat) (e : Exchange), talk[i]? = some e → e.1 =
    PlanOf.request { s.plan with cursor := ((talk.map Prod.snd).take i).foldl (Reply.resume s.plan.shape) s.cursor }

namespace Accounts
variable {s s₁ s' : ItemStream} {talk talk' : List Exchange} {items items' : List Item} {errors errors' : List Error}

theorem refl (s : ItemStream) : Accounts s [] [] [] s :=
  ⟨rfl, rfl, (Bool.or_false _).symm, List.append_nil _, rfl, fun i e he => by cases he⟩

theorem served {item : Item} {buffer : List Item} (h : s.buffer = item :: buffer) :
    Accounts s [] [item] [] { s with buffer } :=
  ⟨rfl, rfl, (Bool.or_false _).symm, (List.append_nil _).trans h, rfl, fun i e he => by cases he⟩

theorem asked {reply : Reply} (hplan : s'.plan = s.plan) (hcursor : s'.cursor = reply.resume s.plan.shape s.cursor)
    (hlast : s'.lastFetched = (s.lastFetched || reply.isLast)) (hitems : s.buffer ++ reply.items = s'.buffer) :
    Accounts s [(s.request, reply)] [] reply.error?.toList s' where
  plan := hplan
  cursor := hcursor
  last := by rw [hlast, List.map_singleton, List.any_cons, List.any_nil, Bool.or_false]
  items := by rw [← hitems, List.map_singleton, List.flatMap_singleton, List.nil_append]
  errors := by
    rw [List.map_singleton, List.filterMap_cons, List.filterMap_nil]
    cases reply.error? <;> rfl
  requests := fun i e he => by
    cases i with
    | zero =>
      cases he
      rfl
    | succ i => cases he

theorem trans (h : Accounts s talk items errors s₁) (h' : Accounts s₁ talk' items' errors' s') :
    Accounts s (talk ++ talk') (items ++ items') (errors ++ errors') s' where
  plan := h'.plan.trans h.plan
  cursor := by rw [h'.cursor, h.cursor, h.plan, List.map_append, List.foldl_append]
  last := by rw [h'.last, h.last, List.map_append, List.any_append, Bool.or_assoc]
  items := by
    rw [List.map_append, List.flatMap_append, ← List.append_assoc, h.items, List.append_assoc, h'.items,
      List.append_assoc]
  errors := by rw [List.map_append, List.filterMap_append, h.errors, h'.errors]
  requests := fun i e he => by
    rcases Nat.lt_or_ge i talk.length with hlt | hge
    · rw [List.getElem?_append_left hlt] at he
      rw [List.map_append, List.take_append_of_le_length (by rw [List.length_map]; omega)]
      exact h.requests i e he
    · rw [List.getElem?_append_right hge] at he
      have hall : (talk.map Prod.snd).take i = talk.map Prod.snd :=
        List.take_of_length_le (by rw [List.length_map]; exact hge)
      rw [h'.requests _ e he, h.plan, h.cursor, List.map_append, List.take_append, hall, List.foldl_append,
        List.length_map]

end Accounts

theorem Answers.accounts {s s' : ItemStream} {call : StreamCall} (h : Answers s call s') :
    Accounts s call.talk call.item?.toList call.error?.toList s' := by
  induction h with
  | fromBuffer hbuffer => exact .served hbuffer
  | @atEnd s _ _ => exact .refl s
  | @failed s err _ _ => exact .asked rfl rfl (Bool.or_false _).symm (List.append_nil _)
  | @fetched s s' page call _ hmore _ ih =>
    have hlast : (s.extend page).lastFetched = (s.lastFetched || Reply.isLast (.ok page)) := by
      rw [hmore]
      exact Option.isNone_map ..
    have hpage : Accounts s [(s.request, .ok page)] [] [] (s.extend page) := .asked rfl rfl hlast rfl
    exact hpage.trans ih

theorem AnswersAll.accounts {s s' : ItemStream} {calls : List StreamCall} (h : AnswersAll s calls s') :
    Accounts s (calls.flatMap (·.talk)) (calls.filterMap (·.item?)) (calls.filterMap (·.error?)) s' := by
  induction h with
  | nil s => exact .refl s
  | @cons s s₁ s' call calls hcall _ ih =>
    rw [List.flatMap_cons, StreamCall.filterMap_cons, StreamCall.filterMap_cons]
    exact hcall.accounts.trans ih

/-! ## Between the calls -/

section Between
variable {p : Plan} {front back : List StreamCall} {call : StreamCall} {s : ItemStream}

/-- What the calls have fetched and not yet served is what the stream holds, and the stream knows of the last page. -/
theorem AnswersAll.balance {calls : List StreamCall} (h : AnswersAll (.ofPlan p) calls s) :
    calls.flatMap (·.fetched) = calls.filterMap (·.item?) ++ s.buffer ∧
      s.lastFetched = (calls.flatMap (·.heard)).any Reply.isLast := by
  have haccounts := h.accounts
  have hheard : (calls.flatMap (·.talk)).map Prod.snd = calls.flatMap (·.heard) := List.map_flatMap
  refine ⟨?_, ?_⟩
  · rw [← haccounts.items, hheard, List.flatMap_assoc]
    rfl
  · rw [haccounts.last, hheard]
    rfl

/-- Something is asked for only when all that was fetched before has been served, and no page before was the last. -/
theorem AnswersAll.of_talk (h : AnswersAll (.ofPlan p) (front ++ call :: back) s) (htalk : call.talk ≠ []) :
    front.flatMap (·.fetched) = front.filterMap (·.item?) ∧
      (∀ reply ∈ front.flatMap (·.heard) ++ call.heard.dropLast, reply.isLast = false) ∧
      ∀ reply ∈ call.heard.dropLast, reply.items = [] := by
  obtain ⟨s₁, hfront, hback⟩ := h.split
  obtain ⟨hitems, hlast⟩ := hfront.balance
  cases hback with
  | cons hcall _ =>
    obtain ⟨hempty, hmore⟩ := hcall.empty_of_talk htalk
    rw [hempty, List.append_nil] at hitems
    rw [hmore] at hlast
    refine ⟨hitems,
      List.forall_mem_append.2 ⟨fun reply hreply => ?_, fun reply hreply => ?_⟩, fun reply hreply => ?_⟩
    · exact Bool.eq_false_iff.2 (List.any_eq_false.1 hlast.symm reply hreply)
    · exact (hcall.dropLast_heard reply hreply).2
    · exact (hcall.dropLast_heard reply hreply).1

/-- A call is answered with none exactly if by then the last page has been fetched, and before all that was fetched has
been served. -/
theorem AnswersAll.answer_eq_none_iff (h : AnswersAll (.ofPlan p) (front ++ call :: back) s) :
    call.answer = .ok none ↔ (∃ reply ∈ (front ++ [call]).flatMap (·.heard), reply.isLast = true) ∧
      (front ++ [call]).flatMap (·.fetched) = front.filterMap (·.item?) := by
  rw [List.append_cons] at h
  obtain ⟨s₁, hthis, -⟩ := h.split
  obtain ⟨hitems, hlast⟩ := hthis.balance
  obtain ⟨s₀, -, hcall⟩ := hthis.split
  rw [hitems, List.filterMap_append, List.append_assoc, List.append_right_eq_self, ← List.any_eq_true, ← hlast,
    StreamCall.filterMap_cons, List.filterMap_nil, List.append_nil]
  cases hcall with
  | cons hcall hend =>
    cases hend
    exact hcall.answer_eq_none_iff

end Between

end ItemStream

/-! ## Calls on a script -/

namespace Script

theorem send_eq (s : Script) (r : Request) :
    Client.send s r = (s.replyTo 0, { replies := s.replies.tail, log := s.log ++ [r] }) := by
  rcases s with ⟨_ | ⟨reply, replies⟩, log⟩
  · rfl
  · rfl

theorem not_throttles_replyTo {s : Script} (h : ∀ reply ∈ s.replies, ¬Throttles reply) (n : Nat) :
    ¬Throttles (s.replyTo n) := by
  rw [replyTo]
  cases hreply : s.replies[n]? with
  | none =>
    rintro ⟨_, hservice⟩
    cases hservice
  | some reply => exact h reply (List.mem_of_getElem? hreply)

/-- What is said to a script are its replies in turn, and it logs the requests. -/
theorem of_talks {s s' : Script} {talk : List Exchange} (h : Talks s talk s') :
    s' = { replies := s.replies.drop talk.length, log := s.log ++ talk.map Prod.fst } ∧
      ∀ (i : Nat) (e : Exchange), talk[i]? = some e → e.2 = s.replyTo i := by
  induction h with
  | silence s => exact ⟨by rw [List.map_nil, List.append_nil]; rfl, fun i e he => by cases he⟩
  | @exchange s s₁ s' r reply talk hsend _ ih =>
    obtain ⟨rfl, hreplies⟩ := ih
    rw [send_eq] at hsend
    cases hsend
    refine ⟨?_, fun i e he => ?_⟩
    · rw [List.length_cons, List.drop_tail, List.append_assoc]
      rfl
    · cases i with
      | zero =>
        cases he
        rfl
      | succ i =>
        rw [hreplies i e he, replyTo, replyTo, List.getElem?_tail]

end Script

namespace Executor
variable {σ α : Type} [Client σ]

/-- The results of so many calls for the next item, with the stream and the world that they leave. -/
def calls (x : Executor) (read : Item → Except Error α) (pages : Nat) :
    Nat → ItemStream → World σ → List (Option (Except Error (Option α))) × ItemStream × World σ
  | 0, s, w => ([], s, w)
  | n + 1, s, w =>
    let (found, s, w) := x.next read pages s w
    let (rest, s, w) := x.calls read pages n s w
    (found :: rest, s, w)

theorem submit_of_not_throttles (x : Executor) {r : Request} {w w' : World σ} {result : Except Error Response}
    (h : x.submit r w = (result, w')) (hreply : ¬Throttles (Client.send w.client r).1) :
    result = (Client.send w.client r).1.mapError StoreError.error ∧ w'.client = (Client.send w.client r).2 := by
  have hretries := x.retries_succ
  exact x.submit_of_first h (by omega) (fun i hi => absurd hi (Nat.not_lt_zero i)) hreply

theorem fetch_of_script (x : Executor) {s : ItemStream} {w w' : World Script} {result : Except Error ItemStream}
    (hcalm : ∀ reply ∈ w.client.replies, ¬Throttles reply) (h : x.fetch s w = (result, w')) :
    Client.send w.client s.request = (w.client.replyTo 0, w'.client) ∧
      result = ((w.client.replyTo 0).mapError StoreError.error).map s.extend := by
  have hsend := w.client.send_eq s.request
  rcases hsubmit : x.submit s.request w with ⟨answer, w₁⟩
  obtain ⟨rfl, hclient⟩ := x.submit_of_not_throttles hsubmit (by
    rw [hsend]
    exact Script.not_throttles_replyTo hcalm 0)
  rw [x.fetch_of_submit hsubmit] at h
  cases h
  exact ⟨by rw [hclient, hsend], by rw [hsend]⟩

/-- **A call on a script that does not throttle is answered**, if there are more pages to be fetched in it than
replies. -/
theorem next_of_script (x : Executor) (read : Item → Except Error α) :
    ∀ {pages : Nat} {s : ItemStream} {w : World Script},
    (∀ reply ∈ w.client.replies, ¬Throttles reply) → w.client.replies.length < pages →
    ∃ call s' w', x.next read pages s w = (some (call.result read), s', w') ∧ s.Answers call s' ∧
      Talks w.client call.talk w'.client
  | pages, s, w, hcalm, hpages => by
    cases hbuffer : s.buffer with
    | cons item buffer =>
      exact ⟨⟨[], .ok (some item)⟩, _, w, x.next_of_buffer read hbuffer pages w, .fromBuffer hbuffer, .silence _⟩
    | nil =>
      cases hlast : s.lastFetched with
      | true => exact ⟨⟨[], .ok none⟩, s, w, x.next_of_end read hbuffer hlast pages w,
          .atEnd hbuffer hlast, .silence _⟩
      | false =>
        cases pages with
        | zero => exact absurd hpages (Nat.not_lt_zero _)
        | succ pages =>
          rcases hfetch : x.fetch s w with ⟨result, w₁⟩
          obtain ⟨hsend, rfl⟩ := x.fetch_of_script hcalm hfetch
          have hnext := x.next_of_empty read hbuffer hlast pages w
          rw [hfetch] at hnext
          have hclient : w₁.client.replies = w.client.replies.tail := by
            rw [Script.send_eq] at hsend
            exact (congrArg (fun sent => sent.2.replies) hsend).symm
          cases hreply : w.client.replyTo 0 with
          | error err =>
            rw [hreply] at hsend hnext
            exact ⟨⟨[(s.request, .error err)], .error err.error⟩, s, w₁, hnext, .failed hbuffer hlast,
              .of_send hsend⟩
          | ok page =>
            rw [hreply] at hsend hnext
            -- a script without replies does not answer with a page
            have hpos : 0 < w.client.replies.length := by
              rcases Nat.eq_zero_or_pos w.client.replies.length with hzero | hpos
              · rw [Script.replyTo, List.getElem?_eq_none (Nat.le_of_eq hzero)] at hreply
                cases hreply
              · exact hpos
            have hrest : ∀ reply ∈ w₁.client.replies, ¬Throttles reply := by
              rw [hclient]
              exact fun reply hmem => hcalm reply (List.mem_of_mem_tail hmem)
            have hshorter : w₁.client.replies.length < pages := by
              rw [hclient, List.length_tail]
              omega
            obtain ⟨call, s', w', hrec, hanswers, htalk⟩ := next_of_script x read (s := s.extend page) hrest hshorter
            exact ⟨⟨(s.request, .ok page) :: call.talk, call.answer⟩, s', w', hnext.trans hrec,
              .fetched hbuffer hlast hanswers, .exchange hsend htalk⟩

/-- So are calls one after the other. -/
theorem calls_of_script (x : Executor) (read : Item → Except Error α) {pages : Nat} : ∀ (n : Nat) {s : ItemStream}
    {w : World Script}, (∀ reply ∈ w.client.replies, ¬Throttles reply) → w.client.replies.length < pages →
    ∃ made s' w', x.calls read pages n s w = (made.map fun c => some (c.result read), s', w') ∧ made.length = n ∧
      s.AnswersAll made s' ∧ Talks w.client (made.flatMap (·.talk)) w'.client
  | 0, s, w, _, _ => ⟨[], s, w, rfl, rfl, .nil s, .silence _⟩
  | n + 1, s, w, hcalm, hpages => by
    obtain ⟨call, s₁, w₁, hnext, hanswers, htalk⟩ := x.next_of_script read (s := s) hcalm hpages
    have hdrop : w₁.client.replies = w.client.replies.drop call.talk.length :=
      congrArg Script.replies (Script.of_talks htalk).1
    have hrest : ∀ reply ∈ w₁.client.replies, ¬Throttles reply := by
      rw [hdrop]
      exact fun reply hmem => hcalm reply (List.mem_of_mem_drop hmem)
    have hshorter : w₁.client.replies.length < pages := by
      rw [hdrop, List.length_drop]
      omega
    obtain ⟨made, s', w', hcalls, hlength, hanswersAll, htalks⟩ := calls_of_script x read n (s := s₁) hrest hshorter
    refine ⟨call :: made, s', w', ?_, congrArg Nat.succ hlength, .cons hanswers hanswersAll, htalk.append htalks⟩
    rw [calls, hnext]
    show (_ :: (x.calls read pages n s₁ w₁).1, _) = _
    rw [hcalls]
    rfl

/-- **A stream reads page by page.**  Of any number of calls for the next item of a query or a scan, on a script of
pages and of errors that do not throttle: the items are served in order, each once, as they are read, and so is each
error of a page; a request begins where the latest page before it has ended, as the stream does that is left; there is a
request only when no item is left, and none after the last page; and none is the answer exactly when the last page is
used up. -/
theorem streams_read_page_by_page (x : Executor) {p : Plan} (hp : p.operation.isPaged = true) {replies : List Reply}
    (hcalm : ∀ reply ∈ replies, ¬Throttles reply) {pages : Nat} (hpages : replies.length < pages)
    (read : Item → Except Error α) (n time : Nat) :
    ∃ stream, x.streamAs p = .ok stream ∧
      (∀ shape opened, x.queryStream shape p = .ok opened ∨ x.scanStream shape p = .ok opened → opened = stream) ∧
      ∃ (made : List StreamCall) (left : ItemStream) (w : World Script) (heard : List Reply),
        x.calls read pages n stream ⟨{ replies }, time⟩ = (made.map fun c => some (c.result read), left, w) ∧
        made.length = n ∧ made.flatMap (·.heard) = heard ∧
        heard.flatMap Reply.items = made.filterMap (·.item?) ++ left.buffer ∧
        heard.filterMap Reply.error? = made.filterMap (·.error?) ∧
        w.client.log.length = heard.length ∧
        (∀ i < heard.length, heard[i]? = some (replies[i]?.getD (.error (.service "no scripted reply left"))) ∧
          w.client.log[i]? = some ((x.paged p).resumed (heard.take i)).request) ∧
        left.cursor = ((x.paged p).resumed heard).cursor ∧
        ∀ front call back, made = front ++ call :: back →
          (call.talk ≠ [] → front.flatMap (·.fetched) = front.filterMap (·.item?) ∧
            (∀ reply ∈ front.flatMap (·.heard) ++ call.heard.dropLast, reply.isLast = false) ∧
            ∀ reply ∈ call.heard.dropLast, reply.items = []) ∧
          (call.answer = .ok none ↔ (∃ reply ∈ (front ++ [call]).flatMap (·.heard), reply.isLast = true) ∧
            (front ++ [call]).flatMap (·.fetched) = front.filterMap (·.item?)) := by
  have hopen : x.streamAs p = .ok (.ofPlan (x.paged p)) := bind_eq_ok.2 ⟨(), if_pos hp, rfl⟩
  refine ⟨_, hopen, fun shape opened hopened => ?_, ?_⟩
  · rcases hopened with hquery | hscan
    · obtain ⟨_, -, hquery⟩ := bind_eq_ok.1 hquery
      obtain ⟨_, -, hquery⟩ := bind_eq_ok.1 hquery
      cases hquery
      rfl
    · obtain ⟨_, -, hscan⟩ := bind_eq_ok.1 hscan
      obtain ⟨_, -, hscan⟩ := bind_eq_ok.1 hscan
      cases hscan
      rfl
  · obtain ⟨made, left, w, hcalls, hlength, hanswers, htalks⟩ :=
      x.calls_of_script read n (s := .ofPlan (x.paged p)) (w := ⟨{ replies }, time⟩) hcalm hpages
    obtain ⟨hclient, hreplies⟩ := Script.of_talks htalks
    have haccounts := hanswers.accounts
    have hheard : (made.flatMap (·.talk)).map Prod.snd = made.flatMap (·.heard) := List.map_flatMap
    have hlog : w.client.log = (made.flatMap (·.talk)).map Prod.fst := by
      rw [hclient]
      exact List.nil_append _
    refine ⟨made, left, w, _, hcalls, hlength, hheard.symm, haccounts.items, haccounts.errors, ?_,
      fun i hi => ?_, haccounts.cursor, fun front call back hmade => ?_⟩
    · rw [hlog, List.length_map, List.length_map]
    · rw [List.length_map] at hi
      have he := List.getElem?_eq_getElem hi
      rw [hlog, List.getElem?_map, List.getElem?_map, he, Option.map_some, Option.map_some,
        hreplies i _ he, haccounts.requests i _ he]
      exact ⟨rfl, rfl⟩
    · subst hmade
      exact ⟨hanswers.of_talk, hanswers.answer_eq_none_iff⟩

end Executor

namespace Samples

def scanOrders : Plan := { shape := "Order", table := "orders", operation := .scan }

/-- A page with an item that has no id, an empty one, a failure and the last page. -/
def orderPages : List Reply :=
  [.ok { items := [[("id", .string "A")], []], last := some [("id", .string "A")] },
    .ok { last := some [("id", .string "B")] }, .error (.service "down"), .ok { items := [[("id", .string "C")]] }]

def readId (item : Item) : Except Error Value :=
  match item.get? "id" with
  | some id => .ok id
  | none => .error (.malformedAttribute "no id")

end Samples

open Samples in
theorem streams_read_page_by_page_of_orders : ∃ (stream : ItemStream) (made : List StreamCall) (left : ItemStream)
    (w : World Script) (heard : List Reply), twice.streamAs scanOrders = .ok stream ∧
    twice.calls readId 5 6 stream ⟨{ replies := orderPages }, 0⟩ =
      (made.map fun c => some (c.result readId), left, w) ∧
    (made.map fun c => some (c.result readId)) =
      [.ok (some (.string "A")), .error (.malformedAttribute "no id"), .error (.service "down"),
        .ok (some (.string "C")), .ok none, .ok none].map some ∧
    made.filterMap (·.item?) = heard.flatMap Reply.items ∧
    w.client.log.map (·.start) =
      [none, some [("id", .string "A")], some [("id", .string "B")], some [("id", .string "B")]] := by
  have hcalm : ∀ reply ∈ orderPages, ¬Throttles reply := by simp [orderPages, Throttles]
  have hpages : orderPages.length < 5 := by decide
  obtain ⟨stream, hstream, -, made, left, w, heard, hcalls, -, -, hitems, -⟩ :=
    Executor.streams_read_page_by_page twice (p := scanOrders) rfl hcalm hpages readId 6 0
  cases hstream
  have hleft : left.buffer = [] := (congrArg (fun result => result.2.1.buffer) hcalls).symm.trans rfl
  rw [hleft, List.append_nil] at hitems
  exact ⟨_, made, left, w, heard, rfl, hcalls, (congrArg Prod.fst hcalls).symm.trans rfl, hitems.symm,
    (congrArg (fun result => result.2.2.client.log.map (·.start)) hcalls).symm.trans rfl⟩

end ItemStore
