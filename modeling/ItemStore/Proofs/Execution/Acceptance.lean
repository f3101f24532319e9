import ItemStore.Proofs.Execution.BatchGets
import ItemStore.Proofs.Execution.BatchWrites
import ItemStore.Proofs.Request.Acceptance
import ItemStore.Proofs.Store.Refusals
/-!
# No request of the builders is refused

A store in which the table of a shape has been created accepts every request that the builders make for that shape,
whatever it has been through and whatever the table holds (`built_requests_are_accepted`).  What carries this over the
rounds of a batch is that the table is still there and no error waits (`Store.Ready`), and that what is left undone is a
part of what was sent (`BatchKind.AnsweredBy`).
-/
namespace ItemStore

open Outcome (forM_eq_ok)

/-! ## One request -/

/-- The table of the shape is there, with its key and its indexes, and no error waits. -/
structure Store.Ready (s : Store) (d : Descriptor) : Prop where
  table : ∃ t, s.tables.get? d.table = some t ∧ t.OfShape d
  calm : s.faults.next.1 = none

theorem Store.get?_request {s : Store} {t : Table} {p : Plan} {name : String} (hp : p.table = name)
    (ht : s.tables.get? name = some t) : s.tables.get? p.request.table = some t := by
  rw [← ht, ← hp]
  rfl

namespace Store.Ready
variable {s : Store} {d : Descriptor} {p : Plan}

theorem send_eq (h : s.Ready d) (r : Request) : s.send r = { s with log := s.log ++ [r] }.serve r :=
  send_of_no_fault (Prod.ext h.calm rfl) r

theorem exists_response (h : s.Ready d) {r : ReadRequest} (hd : d.Compiled) (hr : r.shape = d)
    (hbuild : r.build = .ok p) : ∃ response, (s.send p.request).1 = .ok response := by
  obtain ⟨t, ht, hshape⟩ := h.table
  subst hr
  have hpage : (p.operation.isPaged = true ∧ p.table = r.shape.table ∧
      ∃ response, t.read p.request = .ok response) →
      ∃ response, (s.send p.request).1 = .ok response := by
    rintro ⟨hpaged, htable, response, hresponse⟩
    have ht' := get?_request htable ht
    rw [send_read hpaged ht' (Prod.ext h.calm rfl), hresponse]
    exact ⟨response, rfl⟩
  cases r with
  | get g =>
    obtain ⟨key, hoperation, htable, response, hresponse⟩ := Get.exists_item hd hbuild hshape.key
    have ht' := get?_request htable ht
    have hop : p.request.operation = .get key := hoperation
    have hget : t.get p.request.expressions key = .ok response := hresponse
    rw [h.send_eq]
    simp only [serve, hop, ht', serveTable, hget]
    exact ⟨response, rfl⟩
  | query q => exact hpage (q.exists_page hbuild hshape)
  | scan q => exact hpage (q.exists_page hbuild hshape)

theorem answeredOn (h : s.Ready d) {w : SingleWrite} (hd : d.Compiled) (hw : w.shape = d) (hbuild : w.build = .ok p) :
    ∃ target, w.target = .ok target ∧
      w.AnsweredOn p target ((s.tables.get? d.table).bind (·.find? target)) (s.send p.request).1 := by
  obtain ⟨t, ht, hshape⟩ := h.table
  subst hw
  obtain ⟨hisWrite, htable⟩ := SingleWrite.plan_of_build hbuild
  obtain ⟨target, htarget, hanswered⟩ := SingleWrite.write_of_build hd hbuild hshape.key
  have ht' := get?_request htable ht
  refine ⟨target, htarget, ?_⟩
  rw [send_write (Prod.ext h.calm rfl) ht' hisWrite rfl, ht]
  exact hanswered

end Store.Ready

/-! ## Requests that are all answered -/

namespace Store

/-- From the first store to the second these requests were sent, and each of them was answered with a response. -/
def Answers (s : Store) (rs : List Request) (s' : Store) : Prop :=
  ∃ talk, Talks s talk s' ∧ talk.map Prod.fst = rs ∧ ∀ e ∈ talk, ∃ response, e.2 = .ok response

theorem answers_nil (s : Store) : s.Answers [] s := ⟨[], .silence s, rfl, List.forall_mem_nil _⟩

theorem answers_of_send {s s' : Store} {r : Request} {response : Response} (h : s.send r = (.ok response, s')) :
    s.Answers [r] s' := ⟨[(r, .ok response)], .of_send h, rfl, List.forall_mem_singleton.2 ⟨response, rfl⟩⟩

theorem Answers.append {s s₁ s' : Store} {rs rs' : List Request} (h : s.Answers rs s₁) (h' : s₁.Answers rs' s') :
    s.Answers (rs ++ rs') s' := by
  obtain ⟨talk, htalk, rfl, hall⟩ := h
  obtain ⟨talk', htalk', rfl, hall'⟩ := h'
  exact ⟨talk ++ talk', htalk.append htalk', List.map_append, List.forall_mem_append.2 ⟨hall, hall'⟩⟩

theorem log_batchGet (s : Store) (t : Table) (e : Expressions) (keys : List Item) :
    (s.batchGet t e keys).2.log = s.log := by
  unfold batchGet
  split
  · rfl
  · rfl

theorem log_batchWrite (s : Store) (name : String) (t : Table) (entries : List BatchEntry) :
    (s.batchWrite name t entries).2.log = s.log := by
  unfold batchWrite
  split
  · split
    · rfl
    · rfl
  · rfl

theorem log_serve (s : Store) (r : Request) : (s.serve r).2.log = s.log := by
  unfold serve
  split
  · rfl
  · split
    · unfold serveTable
      split
      case h_4 keys _ => exact s.log_batchGet _ _ keys
      case h_5 entries _ => exact s.log_batchWrite _ _ entries
      all_goals rfl
    · rfl

/-- A store logs every request, whatever comes of it. -/
theorem log_send (s : Store) (r : Request) : (s.send r).2.log = s.log ++ [r] := by
  rcases hnext : s.faults.next with ⟨_ | e, faults⟩
  · rw [send_of_no_fault hnext, log_serve]
  · rw [send_of_fault hnext]

theorem Answers.log_eq {s s' : Store} {rs : List Request} (h : s.Answers rs s') : s'.log = s.log ++ rs := by
  obtain ⟨talk, htalk, rfl, -⟩ := h
  induction htalk with
  | silence s => exact (List.append_nil _).symm
  | @exchange s s₁ s' r reply talk hsend _ ih =>
    have hlog := log_send s r
    rw [show s.send r = (reply, s₁) from hsend] at hlog
    rw [ih, hlog, List.append_assoc]
    rfl

end Store

/-! ## Rounds that are answered -/

section Batches
variable {ε : Type} {kind : BatchKind ε} {base : Request} {d : Descriptor} {size : Nat} {good : ε → Prop}

/-- A store that is ready answers a part of a batch, is ready then, and leaves at most a part of it undone. -/
def BatchKind.AnsweredBy (kind : BatchKind ε) (base : Request) (d : Descriptor) (size : Nat) (good : ε → Prop) : Prop :=
  ∀ {s : Store} {entries : List ε}, s.Ready d → FitFor size good entries → ∃ response s',
    s.send (kind.request base entries) = (.ok response, s') ∧ s'.Ready d ∧ (kind.undone response).Sublist entries

namespace Executor
variable (x : Executor)

/-- So an executor that submits such a part has its answer at once. -/
theorem submit_answered (h : kind.AnsweredBy base d size good) {entries : List ε} {w w' : World Store}
    {result : Except Error Response} (hready : w.client.Ready d) (hfit : FitFor size good entries)
    (hsubmit : x.submit { base with operation := kind.operation entries } w = (result, w')) : ∃ response,
      result = .ok response ∧ w.client.Answers [kind.request base entries] w'.client ∧ w'.client.Ready d ∧
      (kind.undone response).Sublist entries := by
  obtain ⟨response, s', hsend, hready', hpart⟩ := h hready hfit
  have hok : x.submit { base with operation := kind.operation entries } w = (.ok response, { w with client := s' }) :=
    x.submit_of_ok hsend
  cases hsubmit.symm.trans hok
  exact ⟨response, rfl, Store.answers_of_send hsend, hready', hpart⟩

/-- **Each round of a part is answered**, since what is left for it is a part of what the one before has sent. -/
theorem batchRounds_answered (h : kind.AnsweredBy base d size good) (made left : Nat) {entries : List ε}
    {w : World Store} (hready : w.client.Ready d) (hfit : FitFor size good entries) :
    ∃ rs, w.client.Answers (kind.request base entries :: rs) (x.batchRounds kind base made left entries w).2.client ∧
      (x.batchRounds kind base made left entries w).2.client.Ready d := by
  fun_induction batchRounds x kind base made left entries w with
  | case1 made left entries w e w' hsubmit =>
    obtain ⟨_, hok, -⟩ := x.submit_answered h hready hfit hsubmit
    cases hok
  | case2 made left entries w response w' hsubmit hnone =>
    obtain ⟨_, -, hanswers, hready', -⟩ := x.submit_answered h hready hfit hsubmit
    exact ⟨[], hanswers, hready'⟩
  | case3 made entries w response w' hsubmit _ =>
    obtain ⟨_, -, hanswers, hready', -⟩ := x.submit_answered h hready hfit hsubmit
    exact ⟨[], hanswers, hready'⟩
  | case4 made entries w response w' hsubmit left run w'' hundone hrun ih =>
    obtain ⟨_, hok, hanswers, hready', hpart⟩ := x.submit_answered h hready hfit hsubmit
    cases hok
    rw [hrun] at ih
    obtain ⟨rs, hrest, hready''⟩ := ih hready' (hfit.of_sublist hpart hundone)
    exact ⟨_ :: rs, hanswers.append hrest, hready''⟩

/-- So the parts are answered one after the other, in at least one round each. -/
theorem batchRuns_answered (h : kind.AnsweredBy base d size good) : ∀ {parts : List (List ε)} {w : World Store},
    w.client.Ready d → (∀ part ∈ parts, FitFor size good part) →
    ∃ rs, w.client.Answers rs (x.batchRuns kind base parts w).2.client ∧
      ∀ part ∈ parts, kind.request base part ∈ rs
  | [], w, _, _ => ⟨[], w.client.answers_nil, List.forall_mem_nil _⟩
  | part :: parts, w, hready, hfit => by
    obtain ⟨hpart, hparts⟩ := List.forall_mem_cons.1 hfit
    obtain ⟨rs, hrounds, hready'⟩ := x.batchRounds_answered h 0 x.retry.maxAttempts hready hpart
    obtain ⟨rs', hrest, hall⟩ := batchRuns_answered h hready' hparts
    refine ⟨(kind.request base part :: rs) ++ rs', hrounds.append hrest,
      List.forall_mem_cons.2 ⟨?_, fun part' hpart' => ?_⟩⟩
    · exact List.mem_append_left _ List.mem_cons_self
    · exact List.mem_append_right _ (hall part' hpart')

end Executor
end Batches

/-! ## The two kinds of batches -/

theorem Table.splitUnprocessed_sublists {ε : Type} (undone : Nat) (entries : List ε) :
    (splitUnprocessed undone entries).1.Sublist entries ∧ (splitUnprocessed undone entries).2.Sublist entries := by
  rw [splitUnprocessed, List.splitAt_eq]
  exact ⟨List.take_sublist _ _, List.drop_sublist _ _⟩

theorem Store.Ready.settled {s s' : Store} {d : Descriptor} (h : s.Ready d)
    (htable : ∃ t, s'.tables.get? d.table = some t ∧ t.OfShape d)
    (hfaults : s'.faults = { s.faults with unprocessed := 0 }) : s'.Ready d := by
  refine ⟨htable, ?_⟩
  rw [hfaults, Faults.next_settled]
  exact h.calm

section Kinds
variable {base : Request} {d : Descriptor}

theorem BatchKind.get_answered {shown : Item → Item} (hbase : base.table = d.table)
    (hshown : ∀ item, Table.project base.expressions item = .ok (shown item)) :
    BatchKind.get.AnsweredBy base d maxBatchGet fun key => ∀ t : Table, t.key = d.key → t.checkKey key = .ok () := by
  intro s keys hready hfit
  obtain ⟨t, ht, hshape⟩ := hready.table
  obtain ⟨hdone, hundone⟩ := Table.splitUnprocessed_sublists s.faults.unprocessed keys
  have hkeys : (Table.splitUnprocessed s.faults.unprocessed keys).1.forM t.checkKey = .ok () :=
    forM_eq_ok.2 fun key hkey => hfit.good key (hdone.subset hkey) t hshape.key
  have hsend : s.send (BatchKind.get.request base keys) =
      (.ok { items := ((Table.splitUnprocessed s.faults.unprocessed keys).1.filterMap t.find?).map shown
             unprocessedKeys := (Table.splitUnprocessed s.faults.unprocessed keys).2 },
        { s with log := s.log ++ [BatchKind.get.request base keys] }.settleBatch) := by
    rw [hready.send_eq]
    simp only [Store.serve, BatchKind.request, BatchKind.get, hbase, ht, Store.serveTable, Store.batchGet,
      Table.sizeFits_of_fitFor hfit, if_true, Table.getAll_of_shown hshown, hkeys]
    rfl
  exact ⟨_, _, hsend, hready.settled ⟨t, ht, hshape⟩ rfl, hundone⟩

theorem BatchKind.write_answered (hbase : base.table = d.table) :
    BatchKind.write.AnsweredBy base d maxBatchWrite fun e => ∀ t : Table, t.key = d.key → t.checkEntry e = .ok () := by
  intro s entries hready hfit
  obtain ⟨t, ht, hshape⟩ := hready.table
  obtain ⟨-, hundone⟩ := Table.splitUnprocessed_sublists s.faults.unprocessed entries
  have hentries : entries.forM t.checkEntry = .ok () := forM_eq_ok.2 fun e he => hfit.good e he t hshape.key
  have hsend : s.send (BatchKind.write.request base entries) =
      { s with log := s.log ++ [BatchKind.write.request base entries] }.settleBatch.withTable d.table
        (.ok { unprocessedWrites := (Table.splitUnprocessed s.faults.unprocessed entries).2 },
          (Table.splitUnprocessed s.faults.unprocessed entries).1.foldl Table.applyEntry t) := by
    rw [hready.send_eq]
    simp only [Store.serve, BatchKind.request, BatchKind.write, hbase, ht, Store.serveTable, Store.batchWrite,
      Table.sizeFits_of_fitFor hfit, if_true, hentries]
  have hafter := t.becomes_applyEntries (Table.splitUnprocessed s.faults.unprocessed entries).1 .same
  have htable := Entries.get?_put_self s.tables d.table
    ((Table.splitUnprocessed s.faults.unprocessed entries).1.foldl Table.applyEntry t)
  exact ⟨_, _, hsend, hready.settled ⟨_, htable, hshape.continues hafter.continues⟩ rfl, hundone⟩

end Kinds

/-! ## All requests of the builders -/

theorem BatchGet.shape_of_build {b : BatchGet} {p : Plan} (h : b.build = .ok p) : p.shape = b.shape.name := by
  obtain ⟨-, _, -, -, -, rfl⟩ := build_eq_ok_iff.1 h
  rfl

/-- From the first store to the second, all requests are for the batch of the plan and each is answered with a response;
among them is every part of the batch, of up to `size` entries. -/
def Store.AnswersBatch {ε : Type} (s : Store) (kind : BatchKind ε) (size : Nat) (p : Plan) (s' : Store) : Prop :=
  ∃ entries rs, p.operation = kind.operation entries ∧ s.Answers rs s' ∧ s'.log = s.log ++ rs ∧
    ∀ part ∈ chunks size entries, kind.request p.request part ∈ rs

/-- A ready store answers all of a batch of which it refuses no entry. -/
theorem Executor.batchRuns_answersBatch {ε : Type} (x : Executor) {kind : BatchKind ε} {p : Plan} {d : Descriptor}
    {greatest size : Nat} {good : ε → Prop} {entries : List ε} (hp : p.operation = kind.operation entries)
    (h : kind.AnsweredBy p.request d greatest good) (hgood : ∀ e ∈ entries, good e) (hsize : 0 < size)
    (hmost : size ≤ greatest) {w : World Store} (hready : w.client.Ready d) :
    w.client.AnswersBatch kind size p (x.batchRuns kind p.request (chunks size entries) w).2.client := by
  have hfit : ∀ part ∈ chunks size entries, FitFor greatest good part := fun part hpart =>
    .of_mem_chunks hsize hmost hgood hpart
  obtain ⟨rs, hanswers, hall⟩ := x.batchRuns_answered h hready hfit
  exact ⟨entries, rs, hp, hanswers, hanswers.log_eq, hall⟩

/-- **What the builders make for a shape, a store accepts in which the table of the shape has been created**, whatever
has happened to it before and since, if no error waits.  A read is answered with a response, and so is each request that
an executor sends for a batch.  A write may fail on its conditions; beyond that only an update may be refused, after its
key, its text and its placeholders have been accepted: with the fault of an action that the item blocks. -/
theorem built_requests_are_accepted {d : Descriptor} (hd : d.Compiled) {before : List Store.Event}
    (hnew : (Store.run {} before).tables.get? d.table = none) (after : List Store.Event)
    (hcalm : (Store.run {} (before ++ .create d :: after)).faults.next.1 = none) :
    let s := Store.run {} (before ++ .create d :: after)
    (∀ (r : ReadRequest) (p : Plan), r.shape = d → r.build = .ok p →
      ∃ response, (s.send p.request).1 = .ok response) ∧
    (∀ (w : SingleWrite) (p : Plan), w.shape = d → w.build = .ok p → ∃ target, w.target = .ok target ∧
      w.AnsweredOn p target ((s.tables.get? d.table).bind (·.find? target)) (s.send p.request).1) ∧
    ∀ (x : Executor) (time : Nat),
      (∀ (b : BatchGet) (p : Plan), b.shape = d → b.build = .ok p → ∀ {α : Type} (reader : RecordReader α),
        reader.shape = d.name → s.AnswersBatch .get x.batchGetSize p (x.batchGet reader p ⟨s, time⟩).2.client) ∧
      ∀ (b : BatchWrite) (p : Plan), b.shape = d → b.build = .ok p →
        s.AnswersBatch .write x.batchWriteSize p (x.batchWrite p ⟨s, time⟩).2.client := by
  intro s
  obtain ⟨t, ht, hshape, -⟩ := Store.exists_ofShape hnew after
  have hready : s.Ready d := ⟨⟨t, ht, hshape⟩, hcalm⟩
  refine ⟨fun r p hr hbuild => ?_, fun w p hw hbuild => ?_, fun x time => ⟨fun b p hb hbuild _ reader hreader => ?_,
    fun b p hb hbuild => ?_⟩⟩
  · exact hready.exists_response hd hr hbuild
  · exact hready.answeredOn hd hw hbuild
  · subst hb
    obtain ⟨keys, hoperation, htable, hkeys, hshown⟩ := b.checkKey_of_build hd hbuild
    obtain ⟨⟨hsize, hmost⟩, -⟩ := Settings.bounds_of_valid x.valid
    have hname : p.shape = reader.shape := (b.shape_of_build hbuild).trans hreader.symm
    rw [x.batchGet_eq hoperation hname rfl]
    exact x.batchRuns_answersBatch (w := ⟨s, time⟩) hoperation (BatchKind.get_answered htable hshown)
      (fun key hkey t ht => hkeys t ht key hkey) hsize hmost hready
  · subst hb
    obtain ⟨entries, hoperation, htable, hentries⟩ := b.checkEntry_of_build hd hbuild
    obtain ⟨-, ⟨hsize, hmost⟩, -⟩ := Settings.bounds_of_valid x.valid
    rw [x.batchWrite_eq hoperation]
    exact x.batchRuns_answersBatch (w := ⟨s, time⟩) hoperation (BatchKind.write_answered htable)
      (fun e he t ht => hentries t ht e he) hsize hmost hready

open Samples in
/-- Of the orders one is there: a query for others finds none, an order that is not there is not increased, and a batch
of three is sent in parts of two, the last entry of the first part twice. -/
theorem built_requests_are_accepted_of_orders :
    let events : List Store.Event := [.insert "orders" (mondayOrder "A" 3 []), .leaveUnprocessed 1]
    let s := Store.run {} ([] ++ .create dayOrders :: events)
    let u : Update :=
      { shape := dayOrders, key := { partition := .string "B" }, actions := [.increment "total" (.ofInt 1)] }
    let b : BatchWrite :=
      { shape := dayOrders, writes := [.put (mondayOrder "C" 1 []), .delete { partition := .string "B" },
      .put (mondayOrder "D" 2 [])] }
    dayOrders.Compiled ∧ (Store.run {} []).tables.get? "orders" = none ∧ s.faults.next.1 = none ∧
      (∃ plan response, notedOrders.build = .ok plan ∧ (s.send plan.request).1 = .ok response) ∧
      (∃ plan target, u.build = .ok plan ∧ (SingleWrite.update u).AnsweredOn plan target
        ((s.tables.get? "orders").bind (·.find? target)) (s.send plan.request).1) ∧
      ∃ plan, b.build = .ok plan ∧ s.AnswersBatch .write 2 plan (pairs.batchWrite plan ⟨s, 0⟩).2.client := by
  intro events s u b
  have hcompiled : dayOrders.Compiled :=
    ⟨⟨"Order", "orders", dayOrders.attributes, [⟨"byDay", .global, some "day", some "total"⟩]⟩, rfl⟩
  have hnew : (Store.run {} []).tables.get? "orders" = none := rfl
  have hcalm : s.faults.next.1 = none := rfl
  obtain ⟨hreads, hwrites, hbatches⟩ := built_requests_are_accepted hcompiled hnew events hcalm
  obtain ⟨response, hresponse⟩ := hreads (.query notedOrders) _ rfl rfl
  obtain ⟨target, -, hanswered⟩ := hwrites (.update u) _ rfl rfl
  exact ⟨hcompiled, hnew, hcalm, ⟨_, response, rfl, hresponse⟩, ⟨_, target, rfl, hanswered⟩, _, rfl,
    (hbatches pairs 0).2 b _ rfl rfl⟩

end ItemStore
