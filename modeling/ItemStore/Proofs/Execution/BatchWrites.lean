import ItemStore.Proofs.Execution.Disturbances
/-!
# Batches of writes

Every entry of a batch ends up written, unprocessed or failed, in exactly one of the three, whatever the client answers,
and a store has then done exactly those that were written (`batch_writes_are_accounted_for`).
-/
namespace ItemStore

/-! ## Accounts -/

/-- Of the entries that a run was given, `done` were written; each other is unprocessed or has failed. -/
structure BatchRun.AccountsFor (run : BatchRun BatchEntry) (entries done : List BatchEntry) : Prop where
  entries : entries.Perm (done ++ (run.undone ++ run.failed.map Prod.fst))
  written : done.length = run.done

namespace BatchRun
variable {entries done : List BatchEntry} {response : Response}

theorem accountsFor_failed (entries : List BatchEntry) (e : Error) :
    ({ failed := entries.map fun entry => (entry, e) } : BatchRun BatchEntry).AccountsFor entries [] := by
  refine ⟨?_, rfl⟩
  rw [List.nil_append, List.nil_append, List.map_map]
  exact .of_eq (List.map_id entries).symm

theorem accountsFor_answered (h : entries.Perm (done ++ response.unprocessedWrites)) :
    ({ answered := [(entries, response)], undone := response.unprocessedWrites } : BatchRun BatchEntry).AccountsFor
      entries done := by
  refine ⟨?_, ?_⟩
  · rw [List.map_nil, List.append_nil]
    exact h
  · rw [BatchRun.done, List.foldr_cons, List.foldr_nil, h.length_eq, List.length_append, Nat.add_sub_cancel_right,
      Nat.add_zero]

theorem accountsFor_again {run : BatchRun BatchEntry} {later : List BatchEntry}
    (h : entries.Perm (done ++ response.unprocessedWrites)) (hrun : run.AccountsFor response.unprocessedWrites later) :
    ({ run with answered := (entries, response) :: run.answered } : BatchRun BatchEntry).AccountsFor
      entries (done ++ later) := by
  refine ⟨?_, ?_⟩
  · rw [List.append_assoc]
    exact h.trans (hrun.entries.append_left done)
  · rw [List.length_append, hrun.written]
    simp only [BatchRun.done, List.foldr_cons, h.length_eq, List.length_append, Nat.add_sub_cancel_right]

end BatchRun

/-- Of the entries of a batch, `done` were written; each other is unprocessed or has failed. -/
structure BatchWriteOutcome.AccountsFor (o : BatchWriteOutcome) (entries done : List BatchEntry) : Prop where
  entries : entries.Perm (done ++ (o.unprocessed ++ o.failed.map Prod.fst))
  written : done.length = o.written

namespace BatchWriteOutcome

/-- What comes of runs. -/
def ofRuns (runs : List (BatchRun BatchEntry)) : BatchWriteOutcome where
  written := runs.foldr (fun run n => run.done + n) 0
  unprocessed := runs.flatMap BatchRun.undone
  failed := runs.flatMap BatchRun.failed

theorem accountsFor_nil : (ofRuns []).AccountsFor [] [] := ⟨.refl [], rfl⟩

theorem perm_append_each {α : Type} {xs xs' ds ds' us us' fs fs' : List α} (h : xs.Perm (ds ++ (us ++ fs)))
    (h' : xs'.Perm (ds' ++ (us' ++ fs'))) : (xs ++ xs').Perm ((ds ++ ds') ++ ((us ++ us') ++ (fs ++ fs'))) := by
  classical
  rw [List.perm_iff_count] at *
  intro x
  have hx := h x
  have hx' := h' x
  simp only [List.count_append] at *
  omega

theorem accountsFor_cons {run : BatchRun BatchEntry} {runs : List (BatchRun BatchEntry)}
    {entries entries' done done' : List BatchEntry} (h : run.AccountsFor entries done)
    (h' : (ofRuns runs).AccountsFor entries' done') :
    (ofRuns (run :: runs)).AccountsFor (entries ++ entries') (done ++ done') := by
  constructor
  · have hperm := perm_append_each h.entries h'.entries
    rw [← List.map_append] at hperm
    exact hperm
  · rw [List.length_append, h.written, h'.written]
    rfl

end BatchWriteOutcome

theorem Executor.batchWrite_eq {σ : Type} [Client σ] (x : Executor) {p : Plan} {entries : List BatchEntry}
    (hp : p.operation = .batchWrite entries) (w : World σ) :
    x.batchWrite p w =
      (.ok (.ofRuns (x.batchRuns .write p.request (chunks x.batchWriteSize entries) w).1),
        (x.batchRuns .write p.request (chunks x.batchWriteSize entries) w).2) := by
  rw [batchWrite, hp]
  rfl

/-! ## Any client -/

section Rounds
variable {x : Executor} {base : Request} {left : Nat} {entries : List BatchEntry} {run : BatchRun BatchEntry}
  {talks : List (List Exchange)}

/-- If no round leaves more undone than it was to do, a part is accounted for. -/
theorem Rounds.exists_accountsFor (h : Rounds x .write base left entries talks run)
    (hparts : ∀ e ∈ talks.flatten, BatchKind.write.LeavesPart e) : ∃ done, run.AccountsFor entries done := by
  have hdiff : ∀ {entries : List BatchEntry} {response : Response}, response.unprocessedWrites.Subperm entries →
      entries.Perm (entries.diff response.unprocessedWrites ++ response.unprocessedWrites) := fun hpart =>
    (List.perm_append_comm.trans (List.subperm_append_diff_self_of_count_le fun entry _ => hpart.count_le entry)).symm
  induction h with
  | @failed left entries talk e _ => exact ⟨[], BatchRun.accountsFor_failed entries e⟩
  | answered h _ =>
    rw [List.flatten_singleton] at hparts
    exact ⟨_, BatchRun.accountsFor_answered (hdiff (h.leaves_part hparts))⟩
  | again h _ _ ih =>
    rw [List.flatten_cons, List.forall_mem_append] at hparts
    obtain ⟨later, hlater⟩ := ih hparts.2
    exact ⟨_, BatchRun.accountsFor_again (hdiff (h.leaves_part hparts.1)) hlater⟩

end Rounds

theorem exists_accountsFor_of_steps {x : Executor} {base : Request} {left : Nat} :
    ∀ {steps : List (PartTalk BatchEntry)}, (∀ s ∈ steps, Rounds x .write base left s.entries s.talks s.run) →
    (∀ e ∈ steps.flatMap (·.talks.flatten), BatchKind.write.LeavesPart e) →
    ∃ done, (BatchWriteOutcome.ofRuns (steps.map (·.run))).AccountsFor (steps.map (·.entries)).flatten done
  | [], _, _ => ⟨[], BatchWriteOutcome.accountsFor_nil⟩
  | s :: steps, hsteps, hparts => by
    rw [List.flatMap_cons, List.forall_mem_append] at hparts
    obtain ⟨hs, hsteps⟩ := List.forall_mem_cons.1 hsteps
    obtain ⟨done, hdone⟩ := hs.exists_accountsFor hparts.1
    obtain ⟨later, hlater⟩ := exists_accountsFor_of_steps hsteps hparts.2
    exact ⟨_, BatchWriteOutcome.accountsFor_cons hdone hlater⟩

/-! ## Stores -/

/-- The second tables are the first with the entries applied to one of them, which has to be there for any to be. -/
structure Tables.Applied (name : String) (done : List BatchEntry) (ts ts' : Tables) : Prop where
  table : ts'.get? name = (ts.get? name).map fun t => done.foldl Table.applyEntry t
  others : ∀ other, other ≠ name → ts'.get? other = ts.get? other
  missing : ts.get? name = none → done = []

namespace Tables.Applied
variable {name : String} {done later : List BatchEntry} {ts ts' ts'' : Tables}

theorem nothing (ts : Tables) (name : String) : Applied name [] ts ts := by
  refine ⟨?_, fun _ _ => rfl, fun _ => rfl⟩
  cases ts.get? name with
  | none => rfl
  | some t => rfl

theorem put {t : Table} (ht : ts.get? name = some t) :
    Applied name done ts (ts.put name (done.foldl Table.applyEntry t)) := by
  refine ⟨?_, fun other hother => Entries.get?_put_of_ne ts _ hother, fun hnone => ?_⟩
  · rw [Entries.get?_put_self, ht]
    rfl
  · rw [ht] at hnone
    cases hnone

theorem trans (h : Applied name done ts ts') (h' : Applied name later ts' ts'') :
    Applied name (done ++ later) ts ts'' := by
  refine ⟨?_, fun other hother => (h'.others other hother).trans (h.others other hother), fun hnone => ?_⟩
  · rw [h'.table, h.table, Option.map_map]
    congr 1
    funext t
    exact List.foldl_append.symm
  · have hnone' : ts'.get? name = none := by rw [h.table, hnone]; rfl
    rw [h.missing hnone, h'.missing hnone']
    rfl

end Tables.Applied

section Stores
variable {x : Executor} {base : Request} {made left : Nat} {s s' : DisturbedStore}

/-- A batch that is submitted is refused, or a part of it in front is done. -/
theorem Submission.applied {entries : List BatchEntry} {talk : List Exchange} {result : Except Error Response}
    (h : Submission (BatchKind.write.request base entries) made left talk result) (htalk : Talks s talk s') :
    (∃ e, result = .error e ∧ s'.store.tables = s.store.tables) ∨
    ∃ done response, result = .ok response ∧ entries = done ++ response.unprocessedWrites ∧
      Tables.Applied base.table done s.store.tables s'.store.tables := by
  have hfail : ∀ {store store' : Store} {err}, store.send (BatchKind.write.request base entries) =
      (.error err, store') → store'.tables = store.tables := by
    intro store store' err hsend
    rcases Store.send_batchWrite hsend with ⟨_, _, htables⟩ | ⟨_, _, _, _, hreply, _⟩
    · exact htables
    · cases hreply
  rcases h.store_cases htalk hfail with herror | ⟨response, store, rfl, htables, hsend⟩
  · exact .inl herror
  · rcases Store.send_batchWrite hsend with ⟨_, hreply, _⟩ | ⟨t, done, _, ht, hreply, hentries, htables'⟩
    · cases hreply
    · cases hreply
      rw [htables] at ht
      refine .inr ⟨done, response, rfl, hentries, ?_⟩
      rw [htables', htables]
      exact .put ht

/-- What is done of a part is done in its order. -/
theorem Rounds.applied {entries : List BatchEntry} {talks : List (List Exchange)} {run : BatchRun BatchEntry}
    (h : Rounds x .write base left entries talks run) {s : DisturbedStore} (htalk : Talks s talks.flatten s') :
    ∃ done, run.AccountsFor entries done ∧ done.Sublist entries ∧
      Tables.Applied base.table done s.store.tables s'.store.tables := by
  induction h generalizing s with
  | @failed left entries talk e h =>
    rw [List.flatten_singleton] at htalk
    rcases h.applied htalk with ⟨_, -, htables⟩ | ⟨_, _, hresult, -⟩
    · rw [htables]
      exact ⟨[], BatchRun.accountsFor_failed entries e, List.nil_sublist entries, .nothing _ _⟩
    · cases hresult
  | answered h _ =>
    rw [List.flatten_singleton] at htalk
    rcases h.applied htalk with ⟨_, hresult, -⟩ | ⟨done, response, hresult, rfl, happlied⟩
    · cases hresult
    · cases hresult
      exact ⟨done, BatchRun.accountsFor_answered (.refl _), List.sublist_append_left done _, happlied⟩
  | again h _ _ ih =>
    obtain ⟨s₁, htalk, hrest⟩ := htalk.split
    rcases h.applied htalk with ⟨_, hresult, -⟩ | ⟨done, response, hresult, rfl, happlied⟩
    · cases hresult
    · cases hresult
      obtain ⟨later, hlater, hsub, happlied'⟩ := ih hrest
      exact ⟨done ++ later, BatchRun.accountsFor_again (.refl _) hlater, hsub.append_left done,
        happlied.trans happlied'⟩

theorem applied_of_steps : ∀ {steps : List (PartTalk BatchEntry)} {s : DisturbedStore},
    (∀ step ∈ steps, Rounds x .write base left step.entries step.talks step.run) →
    Talks s (steps.flatMap (·.talks.flatten)) s' →
    ∃ done, (BatchWriteOutcome.ofRuns (steps.map (·.run))).AccountsFor (steps.map (·.entries)).flatten done ∧
      done.Sublist (steps.map (·.entries)).flatten ∧ Tables.Applied base.table done s.store.tables s'.store.tables
  | [], s, _, htalk => by
    cases htalk
    exact ⟨[], BatchWriteOutcome.accountsFor_nil, .slnil, .nothing _ _⟩
  | step :: steps, s, hsteps, htalk => by
    obtain ⟨hstep, hsteps⟩ := List.forall_mem_cons.1 hsteps
    obtain ⟨s₁, htalk, hrest⟩ := htalk.split
    obtain ⟨done, hdone, hsub, happlied⟩ := hstep.applied htalk
    obtain ⟨later, hlater, hsub', happlied'⟩ := applied_of_steps hsteps hrest
    exact ⟨done ++ later, BatchWriteOutcome.accountsFor_cons hdone hlater, hsub.append hsub', happlied.trans happlied'⟩

end Stores

/-! ## What becomes of a batch -/

/-- **Every entry of a batch is written, unprocessed or failed, in exactly one of the three.**  So it is for all replies
of which none leaves more undone than it was to do; then each part of the batch is sent, whatever becomes of the others,
in no more rounds than the retry policy allows, and no request has more entries than the settings say.  On a store,
whatever faults are laid on it, exactly the entries that are written have been done, in their order. -/
theorem batch_writes_are_accounted_for (x : Executor) {p : Plan} {entries : List BatchEntry}
    (hp : p.operation = .batchWrite entries) (time : Nat) :
    (∀ (replies : List Reply) (result : Except Error BatchWriteOutcome) (w : World Script),
      x.batchWrite p ⟨{ replies }, time⟩ = (result, w) →
      (∀ e ∈ w.client.log.zip replies, BatchKind.write.LeavesPart e) →
      (∃ o done, result = .ok o ∧ o.AccountsFor entries done) ∧
      ∃ rounds, List.Forall₂ (SentIn x x.retry.maxAttempts x.batchWriteSize) (chunks x.batchWriteSize entries)
        rounds ∧ w.client.log = rounds.flatten.flatMap (Round.requests .write p.request)) ∧
    ∀ (s : DisturbedStore) (result : Except Error BatchWriteOutcome) (w : World DisturbedStore),
      x.batchWrite p ⟨s, time⟩ = (result, w) →
      ∃ o done, result = .ok o ∧ o.AccountsFor entries done ∧ done.Sublist entries ∧
        Tables.Applied p.table done s.store.tables w.client.store.tables := by
  refine ⟨fun replies result w h hparts => ?_, fun s result w h => ?_⟩
  · rw [x.batchWrite_eq hp] at h
    obtain ⟨steps, hentries, hruns, htalk, hsteps⟩ :=
      x.batchRuns_talks .write p.request (chunks x.batchWriteSize entries) ⟨({ replies } : Script), time⟩
    obtain ⟨rfl, rfl⟩ := Prod.mk.inj h
    obtain ⟨hlog, hreplies⟩ := Script.log_of_talks htalk
    rw [List.nil_append] at hlog
    have htold : ∀ e ∈ steps.flatMap (·.talks.flatten), BatchKind.write.LeavesPart e := by
      intro e he
      rcases hreplies e he with hzip | ⟨err, herr⟩
      · exact hparts e (hlog ▸ hzip)
      · intro sent response _ hok
        rw [herr] at hok
        cases hok
    have hfit : ∀ step ∈ steps, step.entries ≠ [] ∧ step.entries.length ≤ x.batchWriteSize := by
      intro step hstep
      have hmem : step.entries ∈ chunks x.batchWriteSize entries := hentries ▸ List.mem_map_of_mem hstep
      exact ⟨ne_nil_of_mem_chunks _ hmem, length_le_of_mem_chunks (Settings.sizes_of_valid x.valid).2.1 hmem⟩
    obtain ⟨done, hdone⟩ := exists_accountsFor_of_steps hsteps htold
    obtain ⟨rounds, hrounds, hrequests⟩ := exists_sentIn_of_steps hsteps hfit htold
    rw [hentries, flatten_chunks, hruns] at hdone
    rw [hentries] at hrounds
    exact ⟨⟨_, done, rfl, hdone⟩, rounds, hrounds, hlog.trans hrequests⟩
  · rw [x.batchWrite_eq hp] at h
    obtain ⟨steps, hentries, hruns, htalk, hsteps⟩ :=
      x.batchRuns_talks .write p.request (chunks x.batchWriteSize entries) ⟨s, time⟩
    obtain ⟨rfl, rfl⟩ := Prod.mk.inj h
    obtain ⟨done, hdone, hsub, happlied⟩ := applied_of_steps hsteps htalk
    rw [hentries, flatten_chunks] at hdone hsub
    rw [hruns] at hdone
    exact ⟨_, done, rfl, hdone, hsub, happlied⟩

namespace Samples

/-- Two puts and a delete. -/
def threeWrites : List BatchEntry :=
  [.put [("id", .string "A")], .delete [("id", .string "B")], .put [("id", .string "C")]]

def threeWritesPlan : Plan := { shape := "Order", table := "orders", operation := .batchWrite threeWrites }

/-- The first part is throttled once and then leaves the delete, which is done in the next round; the second part
fails. -/
def threeWritesReplies : List Reply :=
  [.error (.throttling "wait"), .ok { unprocessedWrites := [.delete [("id", .string "B")]] }, .ok {},
    .error (.service "down")]

/-- A store that leaves the last entry of its first batch undone and refuses the third. -/
def disturbedOrders : DisturbedStore :=
  ⟨{ tables := [("orders", { key := ⟨"id", none⟩, items := [[("id", .string "B")]] })] },
    [{ unprocessed := 1 }, {}, { errors := [.service "down"] }]⟩

end Samples

open Samples in
theorem batch_writes_are_accounted_for_of_three :
    (∃ o done, (pairs.batchWrite threeWritesPlan ⟨({ replies := threeWritesReplies } : Script), 0⟩).1 = .ok o ∧
      o.AccountsFor threeWrites done) ∧
    ∃ o done, (pairs.batchWrite threeWritesPlan ⟨disturbedOrders, 0⟩).1 = .ok o ∧ o.AccountsFor threeWrites done ∧
      Tables.Applied "orders" done disturbedOrders.store.tables
        (pairs.batchWrite threeWritesPlan ⟨disturbedOrders, 0⟩).2.client.store.tables := by
  have hchunks : chunks pairs.batchWriteSize threeWrites = [threeWrites.take 2, threeWrites.drop 2] := by
    show chunks 2 threeWrites = _
    simp [threeWrites, chunks]
  have hlog : (pairs.batchWrite threeWritesPlan ⟨({ replies := threeWritesReplies } : Script), 0⟩).2.client.log =
      [threeWrites.take 2, threeWrites.take 2, [.delete [("id", .string "B")]], threeWrites.drop 2].map
        (BatchKind.write.request threeWritesPlan.request) := by
    rw [pairs.batchWrite_eq rfl, hchunks]
    rfl
  have hparts : ∀ e ∈ (pairs.batchWrite threeWritesPlan
      ⟨({ replies := threeWritesReplies } : Script), 0⟩).2.client.log.zip
      threeWritesReplies, BatchKind.write.LeavesPart e := by
    rw [hlog]
    intro e he sent response hsent hresponse
    simp only [threeWritesReplies, List.map_cons, List.map_nil, List.zip_cons_cons, List.zip_nil_right, List.mem_cons,
      List.not_mem_nil, or_false] at he
    rcases he with rfl | rfl | rfl | rfl
    · cases hresponse
    · cases hsent
      cases hresponse
      decide
    · cases hresponse
      exact List.nil_subperm
    · cases hresponse
  obtain ⟨hreplies, hstores⟩ := batch_writes_are_accounted_for pairs (p := threeWritesPlan) rfl 0
  obtain ⟨⟨o, done, hok, hdone⟩, -⟩ := hreplies threeWritesReplies _ _ rfl hparts
  obtain ⟨o', done', hok', hdone', -, happlied⟩ := hstores disturbedOrders _ _ rfl
  exact ⟨⟨o, done, hok, hdone⟩, o', done', hok', hdone', happlied⟩

end ItemStore
