import ItemStore.Proofs.Execution.Rounds
import ItemStore.Proofs.Store.Steps
/-!
# Stores on which faults are laid

A batch that a store refuses, for a fault that strikes it or one of its own, changes no table; of a batch that is
answered a part in front is done, and the rest is left undone (`Store.send_batchWrite`, `Store.send_batchGet`).  So it
is with a store on which faults are laid anew before each request.
-/
namespace ItemStore

/-! ## Batches -/

namespace Table

theorem splitUnprocessed_append {α : Type} (undone : Nat) (entries : List α) :
    entries = (splitUnprocessed undone entries).1 ++ (splitUnprocessed undone entries).2 := by
  rw [splitUnprocessed, List.splitAt_eq]
  exact (List.take_append_drop _ entries).symm

end Table

/-- Errors that wait are others than the entries to be left undone. -/
theorem Faults.next_settled (f : Faults) : ({ f with unprocessed := 0 } : Faults).next.1 = f.next.1 := by
  rcases f with ⟨_ | n, _ | ⟨e, errors⟩, unprocessed⟩
  all_goals rfl

namespace Store
variable {s s' : Store} {base : Request} {reply : Reply}

/-- A request to one table is refused as it is, or the table serves it. -/
theorem send_cases (s : Store) {r : Request} (hr : ∀ writes token, r.operation ≠ .transaction writes token) :
    (∃ err s', s.send r = (.error err, s') ∧ s'.tables = s.tables) ∨
    ∃ (s₀ : Store) (t : Table), s₀.tables = s.tables ∧ s.tables.get? r.table = some t ∧
      s.send r = s₀.serveTable t r := by
  rcases hnext : s.faults.next with ⟨_ | err, faults⟩
  · rw [send_of_no_fault hnext]
    cases ht : s.tables.get? r.table with
    | none =>
      refine .inl ⟨(RequestFault.noTable r.table).error, { s with log := s.log ++ [r] }, ?_, rfl⟩
      simp only [serve, ht]
    | some t =>
      refine .inr ⟨{ s with log := s.log ++ [r] }, t, rfl, rfl, ?_⟩
      simp only [serve, ht]
  · exact .inl ⟨err, _, send_of_fault hnext r, rfl⟩

/-- A batch of writes is refused, or a part of it in front is done. -/
theorem send_batchWrite {entries : List BatchEntry} (h : s.send (BatchKind.write.request base entries) = (reply, s')) :
    (∃ err, reply = .error err ∧ s'.tables = s.tables) ∨
    ∃ t done response, s.tables.get? base.table = some t ∧ reply = .ok response ∧
      entries = done ++ response.unprocessedWrites ∧
      s'.tables = s.tables.put base.table (done.foldl Table.applyEntry t) := by
  rcases send_cases s (r := BatchKind.write.request base entries) nofun with ⟨err, s'', hsend, htables⟩ |
    ⟨s₀, t, htables, ht, hsend⟩
  · rw [hsend] at h
    cases h
    exact .inl ⟨err, rfl, htables⟩
  · rw [hsend] at h
    rw [← htables]
    change s₀.batchWrite base.table t entries = (reply, s') at h
    unfold batchWrite at h
    split at h
    · split at h
      · cases h
        exact .inl ⟨_, rfl, rfl⟩
      · cases h
        exact .inr ⟨t, _, _, htables ▸ ht, rfl, Table.splitUnprocessed_append _ entries, rfl⟩
    · cases h
      exact .inl ⟨_, rfl, rfl⟩

/-- A batch of gets changes no table; it is refused, or a part of it in front is read. -/
theorem send_batchGet {keys : List Item} (h : s.send (BatchKind.get.request base keys) = (reply, s')) :
    s'.tables = s.tables ∧ ∀ response, reply = .ok response → ∃ t done, s.tables.get? base.table = some t ∧
      keys = done ++ response.unprocessedKeys ∧ t.getAll base.expressions done = .ok response.items := by
  rcases send_cases s (r := BatchKind.get.request base keys) nofun with ⟨err, s'', hsend, htables⟩ |
    ⟨s₀, t, htables, ht, hsend⟩
  · rw [hsend] at h
    cases h
    exact ⟨htables, nofun⟩
  · rw [hsend] at h
    change s₀.batchGet t base.expressions keys = (reply, s') at h
    unfold batchGet at h
    split at h
    · cases h
      refine ⟨htables, fun response hresponse => ?_⟩
      obtain ⟨items, hitems, rfl⟩ := Outcome.map_eq_ok.1 (Outcome.mapError_eq_ok.1 hresponse)
      exact ⟨t, _, ht, Table.splitUnprocessed_append _ keys, hitems⟩
    · cases h
      exact ⟨htables, nofun⟩

end Store

/-! ## Disturbances -/

/-- A store on which others lay faults: the next request finds the first of them in the place of those that the store
has, the one after it the next, and so on.  Without any it is the store and nothing else. -/
structure DisturbedStore where
  store : Store
  disturbances : List Faults := []

namespace DisturbedStore

def send (s : DisturbedStore) (r : Request) : Reply × DisturbedStore :=
  let store := match s.disturbances with
    | faults :: _ => { s.store with faults }
    | [] => s.store
  let (reply, store) := store.send r
  (reply, ⟨store, s.disturbances.tail⟩)

end DisturbedStore

instance : Client DisturbedStore := ⟨DisturbedStore.send⟩

namespace DisturbedStore

/-- Whatever faults are laid on it, a request finds the tables as they are. -/
theorem exists_send {s s' : DisturbedStore} {r : Request} {reply : Reply} (h : Client.send s r = (reply, s')) :
    ∃ store : Store, store.tables = s.store.tables ∧ store.send r = (reply, s'.store) := by
  rcases s with ⟨store, _ | ⟨faults, disturbances⟩⟩
  · cases h
    exact ⟨store, rfl, rfl⟩
  · cases h
    exact ⟨{ store with faults }, rfl, rfl⟩

/-- Nothing waits for the next request: no fault strikes it, and of a batch nothing is left undone. -/
structure Calm (s : DisturbedStore) : Prop where
  undisturbed : s.disturbances = []
  unstruck : s.store.faults.next.1 = none
  complete : s.store.faults.unprocessed = 0

end DisturbedStore

/-- If errors leave the tables, then of the attempts of a submission only the one that is answered matters to them. -/
theorem Submission.store_cases {r : Request} {made left : Nat} {s s' : DisturbedStore} {talk : List Exchange}
    {result : Except Error Response} (h : Submission r made left talk result) (htalk : Talks s talk s')
    (hfail : ∀ {store store' : Store} {err}, store.send r = (.error err, store') → store'.tables = store.tables) :
    (∃ e, result = .error e ∧ s'.store.tables = s.store.tables) ∨
    ∃ (response : Response) (store : Store), result = .ok response ∧ store.tables = s.store.tables ∧
      store.send r = (.ok response, s'.store) := by
  have hkeep : ∀ {c c' : DisturbedStore} {err}, c.store.tables = s.store.tables →
      Client.send c r = (.error err, c') → c'.store.tables = s.store.tables := by
    intro c c' err hc hsend
    obtain ⟨store, htables, hstore⟩ := DisturbedStore.exists_send hsend
    exact (hfail hstore).trans (htables.trans hc)
  cases result with
  | error e => exact .inl ⟨e, rfl, htalk.keeps hkeep h.of_error rfl⟩
  | ok response =>
    obtain ⟨failing, rfl, hfailing⟩ := h.of_ok
    obtain ⟨c, hfront, hlast⟩ := htalk.split
    have hc := hfront.keeps hkeep hfailing rfl
    cases hlast with
    | exchange hsend hend =>
      cases hend
      obtain ⟨store, htables, hstore⟩ := DisturbedStore.exists_send hsend
      exact .inr ⟨response, store, rfl, htables.trans hc, hstore⟩

end ItemStore
