import ItemStore.Execution.Reading
import ItemStore.Proofs.Execution.Conversation
import ItemStore.Proofs.Store.Paging
/-!
# Following a stream

A stream that is followed on a store serves what its plan reads of the table, in the order of the view, whatever the
size of the pages.  Faults that wait in the store may come up between the items, each once; they take none away
(`Executor.drain_of_stands`).  Without any, all of it can be collected at once (`Executor.collect_of_stands`).

What carries this is the list of items that a stream has still to serve (`ItemStream.left`).  To fetch a page leaves
that list as it is, and each call for the next item takes off its first or meets a fault.
-/
namespace ItemStore

open Table (Before View)

/-! ## Faults that wait -/

/-- How many requests the faults are going to strike. -/
def Faults.pending (f : Faults) : Nat := f.throttled + f.errors.length

theorem Faults.next_cases (f : Faults) : f.next = (none, f) ∨
    ∃ e faults, f.next = (some e, faults) ∧ f.pending = faults.pending + 1 := by
  rcases f with ⟨_ | n, _ | ⟨e, errors⟩, unprocessed⟩
  · exact .inl rfl
  · exact .inr ⟨e, _, rfl, rfl⟩
  · exact .inr ⟨_, _, rfl, rfl⟩
  · exact .inr ⟨_, _, rfl, Nat.succ_add n _⟩

section Submit
variable {r : Request} {t : Table} {response : Response}

/-- A read that could be served fails for a fault that waited, and only so. -/
theorem Store.fault_of_failed_read {s s' : Store} {err : StoreError} (hr : r.operation.isPaged = true)
    (ht : s.tables.get? r.table = some t) (hread : t.read r = .ok response) (h : s.send r = (.error err, s')) :
    s'.tables = s.tables ∧ s.faults.pending = s'.faults.pending + 1 := by
  rcases s.faults.next_cases with hnext | ⟨e, faults, hnext, hpending⟩
  · rw [send_read hr ht hnext, hread] at h
    cases h
  · rw [send_of_fault hnext] at h
    cases h
    exact ⟨rfl, hpending⟩

/-- So a conversation of nothing but failures has met as many faults. -/
theorem Talks.faults_of_failed_reads {s s' : Store} {talk : List Exchange} (h : Talks s talk s')
    (hr : r.operation.isPaged = true) (ht : s.tables.get? r.table = some t) (hread : t.read r = .ok response)
    (hfail : ∀ e ∈ talk, ∃ err, e = (r, .error err)) :
    s'.tables = s.tables ∧ s.faults.pending = s'.faults.pending + talk.length := by
  induction h with
  | silence _ => exact ⟨rfl, rfl⟩
  | exchange hsend _ ih =>
    obtain ⟨⟨err, heq⟩, hrest⟩ := List.forall_mem_cons.1 hfail
    cases heq
    obtain ⟨htables, hpending⟩ := Store.fault_of_failed_read hr ht hread hsend
    obtain ⟨htables', hpending'⟩ := ih (htables ▸ ht) hrest
    rw [List.length_cons]
    exact ⟨htables'.trans htables, by omega⟩

/-- **A read that is submitted is answered with what it reads, unless more faults wait than it may meet**; and then
there are fewer of them. -/
theorem Executor.submit_read (x : Executor) {w w' : World Store} {result : Except Error Response}
    (hr : r.operation.isPaged = true) (ht : w.client.tables.get? r.table = some t) (hread : t.read r = .ok response)
    (h : x.submit r w = (result, w')) : w'.client.tables = w.client.tables ∧
    ((result = .ok response ∧ w'.client.faults.pending ≤ w.client.faults.pending) ∨
      ∃ e, result = .error e ∧ w'.client.faults.pending < w.client.faults.pending) := by
  obtain ⟨talk, htalk, hsubmission⟩ := x.submit_talks h
  cases result with
  | error e =>
    obtain ⟨htables, hpending⟩ := htalk.faults_of_failed_reads hr ht hread hsubmission.of_error
    have hlength := hsubmission.requests.2.1
    exact ⟨htables, .inr ⟨e, rfl, by omega⟩⟩
  | ok response' =>
    obtain ⟨failing, rfl, hfailing⟩ := hsubmission.of_ok
    obtain ⟨s, hfront, hlast⟩ := htalk.split
    obtain ⟨htables, hpending⟩ := hfront.faults_of_failed_reads hr ht hread hfailing
    cases hlast with
    | exchange hsend hend =>
      cases hend
      change s.send r = _ at hsend
      rcases s.faults.next_cases with hnext | ⟨e, faults, hnext, -⟩
      · rw [Store.send_read hr (htables ▸ ht) hnext, hread] at hsend
        obtain ⟨hreply, hstore⟩ := Prod.mk.inj hsend
        cases hreply
        rw [← hstore]
        exact ⟨htables, .inl ⟨rfl, by show s.faults.pending ≤ _; omega⟩⟩
      · rw [Store.send_of_fault hnext] at hsend
        cases hsend

end Submit

/-! ## What a plan reads -/

/-- What the plan reads of the table: a view that is in order, of which the filter admits some items, and a way in which
each of them is shown. -/
structure PlanOf.Reads (p : Plan) (t : Table) (v : View) (admits : Item → Bool) (shown : Item → Item) : Prop where
  isPaged : p.operation.isPaged = true
  view : t.view p.request = .ok v
  sorted : v.items.Pairwise (Before v.names v.forward)
  limit_ne : p.limit ≠ some 0
  served : ∀ items, Table.served p.expressions items = .ok ((items.filter admits).map shown)

variable {p : Plan} {t : Table} {v : View} {admits : Item → Bool} {shown : Item → Item}

theorem PlanOf.Reads.read (h : p.Reads t v admits shown) (start : Option Item) :
    t.read (p.request.startAt start) =
      .ok { items := ((v.evaluated p.limit start).filter admits).map shown, last := v.endKey p.limit start } :=
  Table.read_eq_ok.2 ⟨v, _, h.view, h.limit_ne, h.served _, rfl⟩

namespace ItemStream

/-- What of the view lies behind the pages that have been fetched. -/
def behind (s : ItemStream) (v : View) : List Item := v.rest (s.cursor.map (·.key))

/-- The items that the stream has still to serve. -/
def left (s : ItemStream) (v : View) (admits : Item → Bool) (shown : Item → Item) : List Item :=
  s.buffer ++ if s.lastFetched then [] else ((s.behind v).filter admits).map shown

/-- The stream with one page more. -/
def extend (s : ItemStream) (page : Response) : ItemStream :=
  let cursor := page.last.map fun key => ⟨s.plan.shape, key⟩
  { s with buffer := s.buffer ++ page.items, cursor, lastFetched := cursor.isNone, pages := s.pages + 1 }

/-- **A page that the plan reads leaves what the stream has still to serve**, and takes it nearer to the end of the
view. -/
theorem left_extend (h : p.Reads t v admits shown) {s : ItemStream} (hmore : s.lastFetched = false) {page : Response}
    (hpage : t.read (p.request.startAt (s.cursor.map (·.key))) = .ok page) :
    (s.extend page).left v admits shown = s.left v admits shown ∧
      ((s.extend page).lastFetched = true ∨ ((s.extend page).behind v).length < (s.behind v).length) := by
  rw [h.read] at hpage
  cases hpage
  have hleft : s.left v admits shown = s.buffer ++ ((s.behind v).filter admits).map shown := by
    rw [left, hmore]
    rfl
  rw [hleft]
  cases hend : v.endKey p.limit (s.cursor.map (·.key)) with
  | none =>
    rw [View.evaluated_of_endKey_none h.limit_ne hend]
    exact ⟨List.append_nil _, .inl rfl⟩
  | some key =>
    have happend := View.evaluated_append_rest h.sorted hend
    have hpos := List.length_pos_iff.2 (View.evaluated_ne_nil h.sorted hend)
    have hlength := congrArg List.length happend
    rw [List.length_append] at hlength
    refine ⟨?_, .inr (by show (v.rest (some key)).length < (v.rest _).length; omega)⟩
    show s.buffer ++ _ ++ ((v.rest (some key)).filter admits).map shown = s.buffer ++
        ((v.rest _).filter admits).map shown
    rw [← happend, List.filter_append, List.map_append, List.append_assoc]

end ItemStream

/-! ## One item more -/

namespace Executor
variable (x : Executor) {σ : Type} [Client σ]

theorem fetch_of_submit {s : ItemStream} {w w' : World σ} {answer : Except Error Response}
    (h : x.submit (s.plan.request.startAt (s.cursor.map (·.key))) w = (answer, w')) :
    x.fetch s w = (answer.map s.extend, w') := by
  have hfetched : x.fetchItems { s.plan with cursor := s.cursor } w =
      (answer.map fun page => (page.items, page.last.map fun key => ⟨s.plan.shape, key⟩), w') := by
    unfold fetchItems
    change x.submit { s.plan with cursor := s.cursor }.request w = (answer, w') at h
    rw [h]
  unfold fetch
  rw [hfetched]
  cases answer with
  | error e => rfl
  | ok page => rfl

/-- A stream on a store that holds what its plan reads, with as many pages as it may need to find the next item. -/
structure Stands (p : Plan) (t : Table) (v : View) (pages : Nat) (s : ItemStream) (w : World Store) : Prop where
  plan : s.plan = p
  table : w.client.tables.get? p.table = some t
  enough : s.lastFetched = true ∨ (s.behind v).length < pages

/-- A page is fetched, or a fault is met. -/
theorem fetch_cases (hp : p.Reads t v admits shown) {pages : Nat} {s : ItemStream} {w w' : World Store}
    (hs : Stands p t v (pages + 1) s w) (hmore : s.lastFetched = false) {result : Except Error ItemStream}
    (h : x.fetch s w = (result, w')) :
    (∃ s', result = .ok s' ∧ Stands p t v pages s' w' ∧ s'.left v admits shown = s.left v admits shown ∧
      w'.client.faults.pending ≤ w.client.faults.pending) ∨
    ∃ e, result = .error e ∧ Stands p t v (pages + 1) s w' ∧ w'.client.faults.pending < w.client.faults.pending := by
  obtain ⟨rfl, ht, henough⟩ := hs
  have hread := hp.read (s.cursor.map (·.key))
  rcases hsubmit : x.submit (s.plan.request.startAt (s.cursor.map (·.key))) w with ⟨answer, w₁⟩
  rw [x.fetch_of_submit hsubmit] at h
  cases h
  obtain ⟨htables, ⟨rfl, hpending⟩ | ⟨e, rfl, hpending⟩⟩ := x.submit_read hp.isPaged ht hread hsubmit
  · obtain ⟨hleft, hnear⟩ := ItemStream.left_extend hp hmore hread
    refine .inl ⟨_, rfl, ⟨rfl, htables ▸ ht, hnear.imp_right fun hlt => ?_⟩, hleft, hpending⟩
    rcases henough with hlast | hbehind
    · rw [hmore] at hlast
      cases hlast
    · omega
  · exact .inr ⟨e, rfl, ⟨rfl, htables ▸ ht, henough⟩, hpending⟩

section Next
variable {α : Type} (read : Item → Except Error α)

theorem next_of_buffer {s : ItemStream} {item : Item} {buffer : List Item} (h : s.buffer = item :: buffer) (pages : Nat)
    (w : World σ) : x.next read pages s w = (some ((read item).map some), { s with buffer }, w) := by
  unfold next
  rw [h]

theorem next_of_end {s : ItemStream} (h : s.buffer = []) (hlast : s.lastFetched = true) (pages : Nat) (w : World σ) :
    x.next read pages s w = (some (.ok none), s, w) := by
  unfold next
  rw [h, hlast]
  rfl

theorem next_of_empty {s : ItemStream} (h : s.buffer = []) (hmore : s.lastFetched = false) (pages : Nat) (w : World σ) :
    x.next read (pages + 1) s w =
      match x.fetch s w with
      | (.error e, w) => (some (.error e), s, w)
      | (.ok s, w) => x.next read pages s w := by
  rw [next, h, hmore]
  rcases x.fetch s w with ⟨e | s', w'⟩
  · rfl
  · rfl

/-- What a call for the next item can come to: the end, the first of the items that are left, or a fault. -/
theorem next_cases (hp : p.Reads t v admits shown) {pages : Nat} {s s' : ItemStream} {w w' : World Store}
    {found : Option (Except Error (Option α))} (hs : Stands p t v pages s w)
    (h : x.next read pages s w = (found, s', w')) : Stands p t v pages s' w' ∧
    ((found = some (.ok none) ∧ s.left v admits shown = []) ∨
      (∃ item, found = some ((read item).map some) ∧ s.left v admits shown = item :: s'.left v admits shown ∧
        w'.client.faults.pending ≤ w.client.faults.pending) ∨
      ∃ e, found = some (.error e) ∧ s'.left v admits shown = s.left v admits shown ∧
        w'.client.faults.pending < w.client.faults.pending) := by
  cases hbuffer : s.buffer with
  | cons item buffer =>
    rw [x.next_of_buffer read hbuffer] at h
    cases h
    refine ⟨⟨hs.plan, hs.table, hs.enough⟩, .inr (.inl ⟨item, rfl, ?_, Nat.le_refl _⟩)⟩
    rw [ItemStream.left, hbuffer]
    rfl
  | nil =>
    cases hlast : s.lastFetched with
    | true =>
      rw [x.next_of_end read hbuffer hlast] at h
      cases h
      refine ⟨hs, .inl ⟨rfl, ?_⟩⟩
      rw [ItemStream.left, hbuffer, hlast]
      rfl
    | false =>
      -- Each page that is fetched takes the stream nearer to the end, so the pages suffice.
      cases pages with
      | zero =>
        have hend := hs.enough.resolve_right (Nat.not_lt_zero _)
        rw [hlast] at hend
        cases hend
      | succ pages =>
        rcases hfetch : x.fetch s w with ⟨result, w₁⟩
        rw [x.next_of_empty read hbuffer hlast, hfetch] at h
        rcases x.fetch_cases hp hs hlast hfetch with ⟨s₁, rfl, hs₁, hleft, hpending⟩ | ⟨e, rfl, hs₁, hpending⟩
        · obtain ⟨hs', hcases⟩ := next_cases hp hs₁ h
          rw [hleft] at hcases
          refine ⟨⟨hs'.plan, hs'.table, hs'.enough.imp_right Nat.lt_succ_of_lt⟩, hcases.imp_right ?_⟩
          exact Or.imp (fun ⟨item, hfound, hitem, hle⟩ => ⟨item, hfound, hitem, Nat.le_trans hle hpending⟩)
            fun ⟨e, hfound, hsame, hlt⟩ => ⟨e, hfound, hsame, Nat.lt_of_lt_of_le hlt hpending⟩
        · cases h
          exact ⟨hs₁, .inr (.inr ⟨e, rfl, rfl, hpending⟩)⟩

/-- **A stream that is followed serves what is left to it, each item once and in order**; each fault that waits may come
up between them, and nothing else does. -/
theorem drain_of_stands (hp : p.Reads t v admits shown) {pages : Nat} : ∀ (n : Nat) {s : ItemStream} {w : World Store},
    Stands p t v pages s w → (s.left v admits shown).length + w.client.faults.pending ≤ n →
    ∃ fetched : List (Except Error Item), (x.drain read pages n s w).1 = fetched.map (·.bind read) ∧
      fetched.filterMap Except.toOption = s.left v admits shown ∧
      fetched.length ≤ (s.left v admits shown).length + w.client.faults.pending
  | 0, s, w, hs, hn => by
    have hleft : s.left v admits shown = [] := List.length_eq_zero_iff.1 (by omega)
    rw [hleft]
    exact ⟨[], rfl, rfl, Nat.zero_le _⟩
  | n + 1, s, w, hs, hn => by
    rcases hnext : x.next read pages s w with ⟨found, s', w'⟩
    rw [drain, hnext]
    obtain ⟨hs', ⟨rfl, hleft⟩ | ⟨item, rfl, hleft, hpending⟩ | ⟨e, rfl, hleft, hpending⟩⟩ :=
      x.next_cases read hp hs hnext
    · rw [hleft]
      exact ⟨[], rfl, rfl, Nat.zero_le _⟩
    · rw [hleft, List.length_cons] at hn ⊢
      obtain ⟨fetched, hresults, hitems, hlength⟩ := drain_of_stands hp n hs' (by omega)
      refine ⟨.ok item :: fetched, ?_, ?_, ?_⟩
      · rw [List.map_cons, ← hresults]
        show _ = read item :: _
        cases read item with
        | error e => rfl
        | ok record => rfl
      · rw [List.filterMap_cons, hitems]
        rfl
      · rw [List.length_cons]
        omega
    · rw [← hleft] at hn ⊢
      obtain ⟨fetched, hresults, hitems, hlength⟩ := drain_of_stands hp n hs' (by omega)
      refine ⟨.error e :: fetched, ?_, ?_, ?_⟩
      · rw [List.map_cons, ← hresults]
        rfl
      · rw [List.filterMap_cons, hitems]
        rfl
      · rw [List.length_cons]
        omega

/-- Without faults all that is left is collected, up to the first item that cannot be read. -/
theorem collect_of_stands (hp : p.Reads t v admits shown) {pages : Nat} {s : ItemStream} {w : World Store}
    (hs : Stands p t v pages s w) (hcalm : w.client.faults.pending = 0) :
    (x.collect read pages s w).1 = some ((s.left v admits shown).mapM read) := by
  rcases s with ⟨plan, buffer, cursor, lastFetched, fetched⟩
  rw [ItemStream.left, List.mapM_append]
  unfold collect
  dsimp only
  cases buffer.mapM read with
  | error e => rfl
  | ok records =>
    cases lastFetched with
    | true =>
      show some (Except.ok records) = some (.ok (records ++ []))
      rw [List.append_nil]
    | false =>
      cases pages with
      | zero => exact absurd (hs.enough.resolve_left Bool.false_ne_true) (Nat.not_lt_zero _)
      | succ pages =>
        rcases hfetch : x.fetch ⟨plan, [], cursor, false, fetched⟩ w with ⟨result, w'⟩
        have hempty : Stands p t v (pages + 1) ⟨plan, [], cursor, false, fetched⟩ w :=
          ⟨hs.plan, hs.table, hs.enough⟩
        rcases x.fetch_cases hp hempty rfl hfetch with ⟨s', rfl, hs', hleft, hpending⟩ | ⟨_, _, _, hpending⟩
        · have hrest := collect_of_stands hp hs' (by omega)
          rw [hleft] at hrest
          show (x.collect read pages s' w').1.map (fun r => r.map (records ++ ·)) = _
          rw [hrest]
          show some (((ItemStream.left _ v admits shown).mapM read).map (records ++ ·)) = some (do
            let rest ← (((ItemStream.behind _ v).filter admits).map shown).mapM read
            return records ++ rest)
          rfl
        · omega

end Next
end Executor
end ItemStore
