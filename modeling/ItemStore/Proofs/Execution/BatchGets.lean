import ItemStore.Proofs.Execution.Disturbances
import ItemStore.Proofs.Execution.Retries
/-!
# Batches of gets

A batch finds what a get of each of its keys would find, but for the keys that it reports as failed, whatever faults are
laid on the store (`batch_gets_are_as_single_gets`).  A key is reported only for what the store has answered
(`Rounds.missed`), and a store without faults gives no reason (`Rounds.unread_of_calm`).
-/
namespace ItemStore

open Outcome (bind_eq_ok map_eq_ok)

/-! ## Lookups -/

/-- What a get of the key finds. -/
def Table.lookup (t : Table) (e : Expressions) (key : Item) : Except RequestFault (Option Item) :=
  (t.get e key).map (·.item)

theorem Table.getAll_eq (t : Table) (e : Expressions) : ∀ keys : List Item,
    t.getAll e keys = (keys.mapM (t.lookup e)).map (·.filterMap id)
  | [] => rfl
  | key :: keys => by
    rw [getAll, List.mapM_cons, lookup, get, getAll_eq t e keys]
    cases t.checkKey key with
    | error fault => rfl
    | ok _ =>
      cases t.find? key with
      | none => cases keys.mapM (t.lookup e) <;> rfl
      | some item =>
        simp only [bind, Except.bind, Except.map]
        cases project e item with
        | error fault => rfl
        | ok shown => cases keys.mapM (t.lookup e) <;> rfl

/-- What a get of the key finds in the table that a request names. -/
def Tables.lookup (ts : Tables) (r : Request) (key : Item) : Except RequestFault (Option Item) :=
  match ts.get? r.table with
  | some t => t.lookup r.expressions key
  | none => .error (.noTable r.table)

theorem Tables.lookup_of_get? {ts : Tables} {r : Request} {t : Table} (ht : ts.get? r.table = some t) :
    ts.lookup r = t.lookup r.expressions := by
  funext key
  rw [lookup, ht]

theorem Tables.exists_of_lookup {ts : Tables} {r : Request} {key : Item} {found : Option Item}
    (h : ts.lookup r key = .ok found) : ∃ t, ts.get? r.table = some t ∧ t.lookup r.expressions key = .ok found := by
  unfold lookup at h
  split at h
  · next t ht => exact ⟨t, ht, h⟩
  · cases h

/-- A get of the key is answered. -/
def Tables.LooksUp (ts : Tables) (r : Request) (key : Item) : Prop := ∃ found, ts.lookup r key = .ok found

/-- What a lookup finds is what the projection shows of an item that is there. -/
theorem Tables.lookup_eq_some {ts : Tables} {r : Request} {key shown : Item} (h : ts.lookup r key = .ok (some shown)) :
    ∃ t item, ts.get? r.table = some t ∧ t.find? key = some item ∧ Table.project r.expressions item = .ok shown := by
  obtain ⟨t, ht, h⟩ := exists_of_lookup h
  obtain ⟨response, hget, hitem⟩ := map_eq_ok.1 h
  obtain ⟨_, -, hget⟩ := bind_eq_ok.1 hget
  split at hget
  · next item hfind =>
    obtain ⟨shown', hshown, hresponse⟩ := bind_eq_ok.1 hget
    cases hresponse
    cases hitem
    exact ⟨t, item, ht, hfind, hshown⟩
  · cases hget
    cases hitem

/-- A get that a store answers is one that can be looked up. -/
theorem Store.looksUp_of_send {s : Store} {r : Request} {key : Item} {response : Response}
    (h : (s.send { r with operation := .get key }).1 = .ok response) : s.tables.LooksUp r key := by
  rcases s.send_cases (r := { r with operation := .get key }) nofun with ⟨err, s', hsend, -⟩ |
    ⟨s₀, t, -, ht, hsend⟩
  · rw [hsend] at h
    cases h
  · rw [hsend] at h
    rw [Tables.LooksUp, Tables.lookup_of_get? (r := r) ht]
    exact ⟨response.item, map_eq_ok.2 ⟨response, Outcome.mapError_eq_ok.1 h, rfl⟩⟩

/-- What a lookup finds, a get on a store without faults reads. -/
theorem Executor.get_of_lookup {α : Type} (x : Executor) {d : RecordReader α} {p : Plan} (hshape : p.shape = d.shape)
    {key : Item} {w : World Store} (hnext : w.client.faults.next.1 = none) {found : Option Item}
    (h : w.client.tables.lookup p.request key = .ok found) :
    (x.get d { p with operation := .get key } w).1 = found.mapM d.read := by
  obtain ⟨t, ht, h⟩ := Tables.exists_of_lookup h
  obtain ⟨response, hget, rfl⟩ := map_eq_ok.1 h
  let r : Request := { p.request with operation := .get key }
  have hsend : w.client.send r = (.ok response, { w.client with log := w.client.log ++ [r] }) := by
    rw [Store.send_of_no_fault (Prod.ext hnext rfl)]
    simp only [Store.serve, r, ht, Store.serveTable, hget]
    rfl
  let p' : Plan := { p with operation := .get key }
  have hcheck : (do p'.checkShape d.shape; p'.checkOperation "get" Operation.isGet) = .ok () := by
    rw [show p'.checkShape d.shape = .ok () from if_pos hshape]
    rfl
  show (x.get d p' w).1 = _
  rw [get, hcheck]
  show ((x.submit r w).1.bind fun response => response.item.mapM d.read) = _
  rw [x.submit_of_ok hsend]
  rfl

/-! ## Rounds -/

section Rounds
variable {x : Executor} {base : Request} {made left : Nat} {s s' : DisturbedStore} {keys : List Item}

/-- A batch that is submitted is refused, or a part of it in front is looked up. -/
theorem Submission.looked_up {talk : List Exchange} {result : Except Error Response}
    (h : Submission (BatchKind.get.request base keys) made left talk result) (htalk : Talks s talk s') :
    s'.store.tables = s.store.tables ∧ ∀ response, result = .ok response →
      ∃ done found, keys = done ++ response.unprocessedKeys ∧ done.mapM (s.store.tables.lookup base) = .ok found ∧
        response.items = found.filterMap id := by
  rcases h.store_cases htalk fun hsend => (Store.send_batchGet hsend).1 with ⟨e, rfl, htables⟩ |
    ⟨response, store, rfl, htables, hsend⟩
  · exact ⟨htables, nofun⟩
  · obtain ⟨htables', hdone⟩ := Store.send_batchGet hsend
    refine ⟨htables'.trans htables, fun response' hresponse => ?_⟩
    cases hresponse
    obtain ⟨t, done, ht, hkeys, hitems⟩ := hdone response rfl
    rw [Table.getAll_eq] at hitems
    obtain ⟨found, hfound, heq⟩ := map_eq_ok.1 hitems
    rw [htables] at ht
    exact ⟨done, found, hkeys, Tables.lookup_of_get? ht ▸ hfound, heq.symm⟩

theorem map_fst_unread (x : Executor) (run : BatchRun Item) :
    (x.unread run).map Prod.fst = run.failed.map Prod.fst ++ run.undone := by
  rw [Executor.unread, List.map_append, List.map_map]
  exact congrArg (run.failed.map Prod.fst ++ ·) (List.map_id run.undone)

/-- What is looked up of a part is in front of what is not. -/
theorem Rounds.looked_up {talks : List (List Exchange)} {run : BatchRun Item}
    (h : Rounds x .get base left keys talks run) {s : DisturbedStore} (htalk : Talks s talks.flatten s') :
    s'.store.tables = s.store.tables ∧ ∃ done found, keys = done ++ (x.unread run).map Prod.fst ∧
      done.mapM (s.store.tables.lookup base) = .ok found ∧
        (run.answered.flatMap fun a => a.2.items) = found.filterMap id := by
  rw [map_fst_unread]
  induction h generalizing s with
  | @failed left keys talk e h =>
    rw [List.flatten_singleton] at htalk
    refine ⟨(h.looked_up htalk).1, [], [], ?_, rfl, rfl⟩
    rw [List.append_nil, List.map_map]
    exact (List.map_id keys).symm
  | answered h _ =>
    rw [List.flatten_singleton] at htalk
    obtain ⟨htables, hfound⟩ := h.looked_up htalk
    obtain ⟨done, found, hkeys, hlookup, hitems⟩ := hfound _ rfl
    refine ⟨htables, done, found, hkeys, hlookup, ?_⟩
    rw [List.flatMap_singleton, hitems]
  | again h _ _ ih =>
    obtain ⟨s₁, htalk, hrest⟩ := htalk.split
    obtain ⟨htables, hfound⟩ := h.looked_up htalk
    obtain ⟨done, found, hkeys, hlookup, hitems⟩ := hfound _ rfl
    obtain ⟨htables', later, found', hlater, hlookup', hitems'⟩ := ih hrest
    rw [htables] at hlookup' htables'
    refine ⟨htables', done ++ later, found ++ found', ?_, Outcome.mapM_append_eq_ok hlookup hlookup', ?_⟩
    · rw [hkeys, List.append_assoc]
      exact congrArg (done ++ ·) hlater
    · rw [List.flatMap_cons, hitems, hitems', List.filterMap_append]

end Rounds

/-! ## Keys that are not read -/

/-- Why a key has not been read, by what was said: a batch in which it was sent was refused, or was answered and left it
undone. -/
inductive Missed (x : Executor) (base : Request) (talk : List Exchange) (key : Item) : Error → Prop where
  | refused {sent : List Item} {fault : StoreError} {e : Error} : key ∈ sent →
      (BatchKind.get.request base sent, .error fault) ∈ talk →
      Executor.conclude x.retry.totalAttempts (.error fault) = .error e → Missed x base talk key e
  | undone {sent : List Item} {response : Response} : key ∈ sent →
      (BatchKind.get.request base sent, .ok response) ∈ talk → key ∈ response.unprocessedKeys →
      Missed x base talk key (.capacityExceeded (x.retry.maxAttempts + 1))

section Missed
variable {x : Executor} {base : Request} {left : Nat} {s s' : DisturbedStore} {keys : List Item}

theorem Missed.mono {talk talk' : List Exchange} {key : Item} {e : Error} (h : Missed x base talk key e)
    (hsub : talk ⊆ talk') : Missed x base talk' key e := by
  cases h with
  | refused hkey htalk hconclude => exact .refused hkey (hsub htalk) hconclude
  | undone hkey htalk hundone => exact .undone hkey (hsub htalk) hundone

/-- **A key that a part leaves unread was refused or left undone.** -/
theorem Rounds.missed {talks : List (List Exchange)} {run : BatchRun Item} (h : Rounds x .get base left keys talks run)
    (htalk : Talks s talks.flatten s') {m : Item × Error} (hm : m ∈ x.unread run) :
    Missed x base talks.flatten m.1 m.2 := by
  induction h generalizing s with
  | @failed left keys talk e h =>
    obtain ⟨fault, hfault, hconclude⟩ := h.exists_fault
    rw [Nat.zero_add, x.retries_succ] at hconclude
    simp only [Executor.unread, List.map_nil, List.append_nil, List.mem_map] at hm
    obtain ⟨key, hkey, rfl⟩ := hm
    exact .refused hkey (by simpa using hfault) hconclude
  | @answered left keys talk response h _ =>
    rw [List.flatten_singleton] at htalk ⊢
    obtain ⟨done, -, hkeys, -⟩ := (h.looked_up htalk).2 _ rfl
    obtain ⟨failing, rfl, -⟩ := h.of_ok
    simp only [Executor.unread, List.nil_append, List.mem_map] at hm
    obtain ⟨key, hkey, rfl⟩ := hm
    exact .undone (hkeys ▸ List.mem_append_right done hkey) (List.mem_append_right _ List.mem_cons_self) hkey
  | @again left keys talk response talks run _ _ _ ih =>
    obtain ⟨s₁, -, hrest⟩ := htalk.split
    exact (ih hrest hm).mono (List.subset_append_right talk _)

/-! ## Stores without faults -/

/-- A calm store answers a batch of keys that can be looked up, leaves none of them undone and stays calm. -/
theorem DisturbedStore.Calm.send_batchGet (h : s.Calm) (hfit : FitFor maxBatchGet (s.store.tables.LooksUp base) keys) :
    ∃ response s', Client.send s (BatchKind.get.request base keys) = (.ok response, s') ∧
      response.unprocessedKeys = [] ∧ s'.Calm := by
  obtain ⟨store, disturbances⟩ := s
  obtain ⟨rfl, hnext, hcomplete⟩ := h
  obtain ⟨found, hfound⟩ := Outcome.exists_mapM hfit.good
  obtain ⟨key, hkey⟩ := List.exists_mem_of_ne_nil keys hfit.ne_nil
  obtain ⟨_, hlookup⟩ := hfit.good key hkey
  obtain ⟨t, ht, -⟩ := Tables.exists_of_lookup hlookup
  rw [Tables.lookup_of_get? ht] at hfound
  have hall : Table.splitUnprocessed store.faults.unprocessed keys = (keys, []) := by
    simp [Table.splitUnprocessed, show store.faults.unprocessed = 0 from hcomplete]
  have hsend : store.send (BatchKind.get.request base keys) = (.ok { items := found.filterMap id },
      { store with log := store.log ++ [BatchKind.get.request base keys] }.settleBatch) := by
    rw [Store.send_of_no_fault (Prod.ext hnext rfl)]
    simp only [Store.serve, BatchKind.request, BatchKind.get, ht, Store.serveTable, Store.batchGet,
      Table.sizeFits_of_fitFor hfit, if_true, hall, Table.getAll_eq, hfound]
    rfl
  have hcalm : (store.settleBatch).faults.next.1 = none := (Faults.next_settled store.faults).trans hnext
  exact ⟨_, ⟨_, []⟩, congrArg (fun sent : Reply × Store => (sent.1, DisturbedStore.mk sent.2 [])) hsend, rfl,
    ⟨rfl, hcalm, rfl⟩⟩

/-- **Without faults a part is read in its first round.** -/
theorem Rounds.unread_of_calm {talks : List (List Exchange)} {run : BatchRun Item}
    (h : Rounds x .get base left keys talks run) (htalk : Talks s talks.flatten s') (hcalm : s.Calm)
    (hfit : FitFor maxBatchGet (s.store.tables.LooksUp base) keys) : x.unread run = [] ∧ s'.Calm := by
  obtain ⟨response, s₁, hsend, hnone, hcalm₁⟩ := hcalm.send_batchGet hfit
  cases h with
  | failed h =>
    rw [List.flatten_singleton] at htalk
    cases (h.of_send_ok hsend htalk).1
  | answered h _ =>
    rw [List.flatten_singleton] at htalk
    obtain ⟨hresponse, rfl⟩ := h.of_send_ok hsend htalk
    cases hresponse
    exact ⟨congrArg (List.map _) hnone, hcalm₁⟩
  | again h hundone _ =>
    obtain ⟨s₂, htalk, -⟩ := htalk.split
    cases (h.of_send_ok hsend htalk).1
    exact absurd hnone hundone

end Missed

/-! ## All parts -/

/-- Some of the keys are looked up and the others are not read, and both are in the order of the keys. -/
structure LookedUp (ts : Tables) (base : Request) (keys done unread : List Item) (found : List (Option Item)) :
    Prop where
  inOrder : done.Sublist keys
  restInOrder : unread.Sublist keys
  all : keys.Perm (done ++ unread)
  finds : done.mapM (ts.lookup base) = .ok found

namespace LookedUp
variable {ts : Tables} {base : Request} {keys keys' done done' unread unread' : List Item}
    {found found' : List (Option Item)}

theorem nil (ts : Tables) (base : Request) : LookedUp ts base [] [] [] [] := ⟨.slnil, .slnil, .refl [], rfl⟩

theorem front (h : done.mapM (ts.lookup base) = .ok found) : LookedUp ts base (done ++ unread) done unread found :=
  ⟨List.sublist_append_left done unread, List.sublist_append_right done unread, .refl _, h⟩

theorem append (h : LookedUp ts base keys done unread found) (h' : LookedUp ts base keys' done' unread' found') :
    LookedUp ts base (keys ++ keys') (done ++ done') (unread ++ unread') (found ++ found') := by
  refine ⟨h.inOrder.append h'.inOrder, h.restInOrder.append h'.restInOrder, ?_,
    Outcome.mapM_append_eq_ok h.finds h'.finds⟩
  have hmiddle : (unread ++ (done' ++ unread')).Perm (done' ++ (unread ++ unread')) := by
    rw [← List.append_assoc, ← List.append_assoc]
    exact List.perm_append_comm.append_right unread'
  rw [List.append_assoc]
  refine (h.all.append h'.all).trans ?_
  rw [List.append_assoc]
  exact hmiddle.append_left done

/-- If no key comes twice, those that are looked up are the ones that are not among the others. -/
theorem filter_eq (h : LookedUp ts base keys done unread found) (hkeys : keys.Nodup) :
    keys.filter (· ∉ unread) = done := by
  have hapart := (List.nodup_append.1 (h.all.nodup_iff.1 hkeys)).2.2
  have hdone : done.filter (· ∉ unread) = done := by
    refine List.filter_eq_self.2 fun key hkey => ?_
    exact decide_eq_true fun hmem => hapart key hkey key hmem rfl
  have hunread : unread.filter (· ∉ unread) = [] := by
    refine List.filter_eq_nil_iff.2 fun key hkey hnot => ?_
    exact of_decide_eq_true hnot hkey
  have hperm := h.all.filter (· ∉ unread)
  rw [List.filter_append, hdone, hunread, List.append_nil] at hperm
  have hsub := h.inOrder.filter (· ∉ unread)
  rw [hdone] at hsub
  exact (hsub.eq_of_length hperm.length_eq.symm).symm

end LookedUp

theorem looked_up_of_steps {x : Executor} {base : Request} {left : Nat} {s' : DisturbedStore} :
    ∀ {steps : List (PartTalk Item)} {s : DisturbedStore},
    (∀ step ∈ steps, Rounds x .get base left step.entries step.talks step.run) →
    Talks s (steps.flatMap (·.talks.flatten)) s' →
    ∃ done found, LookedUp s.store.tables base (steps.map (·.entries)).flatten done
        (((steps.map (·.run)).flatMap x.unread).map Prod.fst) found ∧
      ((steps.map (·.run)).flatMap fun run => run.answered.flatMap fun a => a.2.items) = found.filterMap id
  | [], s, _, _ => ⟨[], [], .nil _ _, rfl⟩
  | step :: steps, s, hsteps, htalk => by
    obtain ⟨hstep, hsteps⟩ := List.forall_mem_cons.1 hsteps
    obtain ⟨s₁, htalk, hrest⟩ := htalk.split
    obtain ⟨htables, done, found, hkeys, hlookup, hitems⟩ := hstep.looked_up htalk
    obtain ⟨later, found', hlater, hitems'⟩ := looked_up_of_steps hsteps hrest
    rw [htables] at hlater
    refine ⟨done ++ later, found ++ found', ?_, ?_⟩
    · rw [List.map_cons, List.flatten_cons, hkeys, List.map_cons, List.flatMap_cons, List.map_append]
      exact (LookedUp.front hlookup).append hlater
    · rw [List.map_cons, List.flatMap_cons, hitems, hitems', List.filterMap_append]

theorem missed_of_steps {x : Executor} {base : Request} {left : Nat} {s s' : DisturbedStore}
    {steps : List (PartTalk Item)} (hsteps : ∀ step ∈ steps, Rounds x .get base left step.entries step.talks step.run)
    (htalk : Talks s (steps.flatMap (·.talks.flatten)) s') {m : Item × Error}
    (hm : m ∈ (steps.map (·.run)).flatMap x.unread) : Missed x base (steps.flatMap (·.talks.flatten)) m.1 m.2 := by
  obtain ⟨run, hrun, hm⟩ := List.mem_flatMap.1 hm
  obtain ⟨step, hstep, rfl⟩ := List.mem_map.1 hrun
  obtain ⟨s₁, s₂, hpart⟩ := htalk.of_mem_flatMap hstep
  exact ((hsteps step hstep).missed hpart hm).mono fun e he => List.mem_flatMap.2 ⟨step, hstep, he⟩

theorem unread_of_steps {x : Executor} {base : Request} {left : Nat} {s' : DisturbedStore} :
    ∀ {steps : List (PartTalk Item)} {s : DisturbedStore},
    (∀ step ∈ steps, Rounds x .get base left step.entries step.talks step.run) →
    Talks s (steps.flatMap (·.talks.flatten)) s' → s.Calm →
    (∀ step ∈ steps, FitFor maxBatchGet (s.store.tables.LooksUp base) step.entries) →
    (steps.map (·.run)).flatMap x.unread = []
  | [], _, _, _, _, _ => rfl
  | step :: steps, s, hsteps, htalk, hcalm, hfit => by
    obtain ⟨hstep, hsteps⟩ := List.forall_mem_cons.1 hsteps
    obtain ⟨hpart, hfit⟩ := List.forall_mem_cons.1 hfit
    obtain ⟨s₁, htalk, hrest⟩ := htalk.split
    obtain ⟨hnone, hcalm₁⟩ := hstep.unread_of_calm htalk hcalm hpart
    rw [← (hstep.looked_up htalk).1] at hfit
    rw [List.map_cons, List.flatMap_cons, hnone, unread_of_steps hsteps hrest hcalm₁ hfit]
    rfl

/-! ## What is read -/

/-- If what is found can be read, then each key has its record or none, and together they give those that there are. -/
theorem exists_records {α : Type} {read : Item → Except Error α} : ∀ {found : List (Option Item)},
    (∀ item, some item ∈ found → ∃ record, read item = .ok record) →
    ∃ records : List (Option α), (found.map fun f => f.mapM read) = records.map .ok ∧
      (found.filterMap id).mapM read = .ok (records.filterMap id)
  | [], _ => ⟨[], rfl, rfl⟩
  | none :: found, h => by
    obtain ⟨records, hmap, hread⟩ := exists_records fun item hitem => h item (List.mem_cons_of_mem _ hitem)
    exact ⟨none :: records, congrArg (_ :: ·) hmap, hread⟩
  | some item :: found, h => by
    obtain ⟨record, hrecord⟩ := h item List.mem_cons_self
    obtain ⟨records, hmap, hread⟩ := exists_records fun item hitem => h item (List.mem_cons_of_mem _ hitem)
    refine ⟨some record :: records, ?_, Outcome.mapM_cons_eq_ok.2 ⟨record, _, hrecord, hread, rfl⟩⟩
    rw [List.map_cons, List.map_cons, hmap]
    exact congrArg (· :: records.map .ok) (map_eq_ok.2 ⟨record, hrecord, rfl⟩)

theorem Executor.batchGet_eq {σ α : Type} [Client σ] (x : Executor) {d : RecordReader α} {p : Plan} {keys : List Item}
    (hp : p.operation = .batchGet keys) (hshape : p.shape = d.shape) {w w' : World σ} {runs : List (BatchRun Item)}
    (hruns : x.batchRuns .get p.request (chunks x.batchGetSize keys) w = (runs, w')) :
    x.batchGet d p w = (((runs.flatMap fun run => run.answered.flatMap fun a => a.2.items).mapM d.read).map fun items =>
      { items, failed := runs.flatMap x.unread }, w') := by
  have hcheck : p.checkShape d.shape = .ok () := if_pos hshape
  have hbatch : p.operation.batchKeys? = some keys := by rw [hp]; rfl
  simp only [batchGet, hcheck, hbatch, hruns]

/-- **A batch of gets finds what single gets find of the keys that it does not report as failed**, in their order and
without those that are not there.  Each other key is reported once, with an error for which the store has given reason
when the key was sent.  So it is whatever faults are laid on the store, if no key comes twice and what is there of them
can be read; without faults none is reported of which a get would be answered. -/
theorem batch_gets_are_as_single_gets {α : Type} (x : Executor) (d : RecordReader α) {p : Plan} {keys : List Item}
    (hp : p.operation = .batchGet keys) (hshape : p.shape = d.shape) (hkeys : keys.Nodup) (s : DisturbedStore)
    (hread : ∀ t, s.store.tables.get? p.table = some t → ∀ key ∈ keys, ∀ item, t.find? key = some item →
      ∀ shown, Table.project p.expressions item = .ok shown → ∃ record, d.read shown = .ok record) (time : Nat) :
    ∃ (o : BatchGetOutcome α) (records : List (Option α)), (x.batchGet d p ⟨s, time⟩).1 = .ok o ∧
      (o.failed.map Prod.fst).Nodup ∧ (o.failed.map Prod.fst).Sublist keys ∧ o.items = records.filterMap id ∧
      (∀ w : World Store, w.client.tables = s.store.tables → w.client.faults.next.1 = none →
        ((keys.filter (· ∉ o.failed.map Prod.fst)).map fun key => (x.get d { p with operation := .get key } w).1) =
          records.map .ok) ∧
      (∃ talk, Talks s talk (x.batchGet d p ⟨s, time⟩).2.client ∧
        ∀ key e, (key, e) ∈ o.failed → Missed x p.request talk key e) ∧
      (s.Calm →
        (∀ key ∈ keys, ∃ response, (s.store.send { p.request with operation := .get key }).1 = .ok response) →
        o.failed = []) := by
  obtain ⟨steps, hentries, hsteprun, htalk, hsteps⟩ :=
    x.batchRuns_talks .get p.request (chunks x.batchGetSize keys) ⟨s, time⟩
  obtain ⟨done, found, hlooked, hitems⟩ := looked_up_of_steps hsteps htalk
  have hmissed (m) := missed_of_steps (m := m) hsteps htalk
  have hcalm := unread_of_steps hsteps htalk
  rcases hruns : x.batchRuns .get p.request (chunks x.batchGetSize keys) ⟨s, time⟩ with ⟨runs, w'⟩
  rw [hruns] at hsteprun htalk
  rw [hsteprun] at hlooked hitems hmissed hcalm
  rw [hentries, flatten_chunks] at hlooked
  have hfound : ∀ item, some item ∈ found → ∃ record, d.read item = .ok record := by
    intro shown hshown
    obtain ⟨key, hkey, hlookup⟩ := Outcome.exists_of_mem_mapM hlooked.finds _ hshown
    obtain ⟨t, item, ht, hitem, hproject⟩ := Tables.lookup_eq_some hlookup
    exact hread t ht key (hlooked.inOrder.subset hkey) item hitem shown hproject
  obtain ⟨records, hrecords, hmap⟩ := exists_records hfound
  refine ⟨⟨records.filterMap id, runs.flatMap x.unread⟩, records, ?_, hlooked.restInOrder.nodup hkeys,
    hlooked.restInOrder, rfl, fun w htables hnext => ?_, ⟨_, ?_, fun key e => hmissed (key, e)⟩, fun hs hsent => ?_⟩
  · rw [x.batchGet_eq hp hshape hruns, hitems, hmap]
    rfl
  · show ((keys.filter (· ∉ (runs.flatMap x.unread).map Prod.fst)).map _ : List (Except Error (Option α))) = _
    rw [hlooked.filter_eq hkeys, ← hrecords]
    refine Outcome.map_eq_of_mapM (fun key f hf => ?_) hlooked.finds
    exact x.get_of_lookup hshape hnext (htables ▸ hf)
  · rw [x.batchGet_eq hp hshape hruns]
    exact htalk
  · obtain ⟨⟨hpos, hmost⟩, -⟩ := Settings.bounds_of_valid x.valid
    refine hcalm hs fun step hstep => ?_
    have hpart : step.entries ∈ chunks x.batchGetSize keys := hentries ▸ List.mem_map_of_mem hstep
    refine .of_mem_chunks hpos hmost (fun key hkey => ?_) hpart
    obtain ⟨response, hresponse⟩ := hsent key hkey
    exact Store.looksUp_of_send hresponse

namespace Samples

/-- Three keys, of which the second is not there. -/
def threeKeys : List Item := [[("id", .string "A")], [("id", .string "B")], [("id", .string "C")]]

def threeGetsPlan : Plan := { shape := "Order", table := "orders", operation := .batchGet threeKeys }

/-- A store that leaves the last key of its first batch undone, throttles that once and then refuses a batch. -/
def unsteadyOrders : DisturbedStore :=
  ⟨{ tables := [("orders", { key := ⟨"id", none⟩, items := [[("id", .string "A")], [("id", .string "C")]] })] },
    [{ unprocessed := 1 }, { throttled := 1 }, {}, { errors := [.service "down"] }]⟩

/-- A reader that takes items as they are. -/
def asTheyAre : RecordReader Item := ⟨"Order", .ok⟩

end Samples

open Samples in
theorem batch_gets_are_as_single_gets_of_three :
    (∃ (o : BatchGetOutcome Item) (records : List (Option Item)),
      (pairs.batchGet asTheyAre threeGetsPlan ⟨unsteadyOrders, 0⟩).1 = .ok o ∧ o.items = records.filterMap id ∧
      ((threeKeys.filter (· ∉ o.failed.map Prod.fst)).map fun key =>
        (pairs.get asTheyAre { threeGetsPlan with operation := .get key } ⟨unsteadyOrders.store, 0⟩).1) =
        records.map .ok) ∧
    ∃ o : BatchGetOutcome Item,
      (pairs.batchGet asTheyAre threeGetsPlan ⟨(⟨unsteadyOrders.store, []⟩ : DisturbedStore), 0⟩).1 = .ok o ∧
        o.failed = [] := by
  obtain ⟨o, records, hok, -, -, hitems, hgets, -, -⟩ :=
    batch_gets_are_as_single_gets pairs asTheyAre (p := threeGetsPlan) rfl rfl (by decide) unsteadyOrders
      (fun _ _ _ _ _ _ shown _ => ⟨shown, rfl⟩) 0
  obtain ⟨o', -, hok', -, -, -, -, -, hcalm⟩ :=
    batch_gets_are_as_single_gets pairs asTheyAre (p := threeGetsPlan) rfl rfl (by decide) ⟨unsteadyOrders.store, []⟩
      (fun _ _ _ _ _ _ shown _ => ⟨shown, rfl⟩) 0
  have hsent : ∀ key ∈ threeKeys, ∃ response,
      (unsteadyOrders.store.send { threeGetsPlan.request with operation := .get key }).1 = .ok response := by
    simp only [threeKeys, List.forall_mem_cons]
    exact ⟨⟨_, rfl⟩, ⟨_, rfl⟩, ⟨_, rfl⟩, List.forall_mem_nil _⟩
  exact ⟨⟨o, records, hok, hitems, hgets ⟨unsteadyOrders.store, 0⟩ rfl rfl⟩, o', hok',
    hcalm ⟨rfl, rfl, rfl⟩ hsent⟩

end ItemStore
