import ItemStore.Proofs.Execution.Interleaving
import ItemStore.Proofs.Store.Deeds
import ItemStore.Proofs.Store.Transactions
/-!
# Writes of different items

Writes that are about different items get the outcomes that they get alone, and come to the same tables but for the
order of items, in whatever order the store processes them (`JointWrites.Proceeds.independent`).  A write whose table is
not there or whose key is none is about no item: it fails, and always in the same way (`Tables.IsVoid.writeOne`).
-/
namespace ItemStore

/-! ## Writes about no item -/

namespace Table
variable {t : Table} {key : Item}

/-- What is to be the key is none, and every table with that schema refuses it. -/
theorem write_of_not_keyedIn {op : Operation} (hop : op.target? = some key) (h : ¬t.key.KeyedIn key) (e : Expressions)
    (image : ReturnValues) : ∃ err, ∀ t' : Table, t'.key = t.key → t'.write op e image = (.error err, t') := by
  have hattributes : ∃ fault, t.checkKeyAttributes key = .error fault := by
    cases hcheck : t.checkKeyAttributes key with
    | ok _ => exact absurd (checkKeyAttributes_eq_ok.1 hcheck) h
    | error fault => exact ⟨fault, rfl⟩
  have hkey : ∃ fault, t.checkKey key = .error fault := by
    cases hcheck : t.checkKey key with
    | ok _ => exact absurd (checkKey_eq_ok.1 hcheck).2 h
    | error fault => exact ⟨fault, rfl⟩
  obtain ⟨fault, hattributes⟩ := hattributes
  obtain ⟨fault', hkey⟩ := hkey
  cases op with
  | put item =>
    cases hop
    refine ⟨fault.error, fun t' hsame => ?_⟩
    rw [write, checkWrite, checkKeyAttributes_congr hsame, hattributes]
    rfl
  | delete key =>
    cases hop
    refine ⟨fault'.error, fun t' hsame => ?_⟩
    rw [write, checkWrite, checkKey_congr hsame, hkey]
    rfl
  | update key update =>
    cases hop
    refine ⟨fault'.error, fun t' hsame => ?_⟩
    rw [write, updated, checkKey_congr hsame, hkey]
    rfl
  | _ => cases hop

theorem SameContents.symm {t' : Table} (h : t.SameContents t') : t'.SameContents t :=
  ⟨h.key.symm, h.indexes.symm, fun key => (h.items key).symm⟩

end Table

namespace Tables

variable {ts ts' ts'' : Tables} {p q : Plan}

/-- The table of the write is not there, or what is to be the key is none. -/
def IsVoid (ts : Tables) (p : Plan) : Prop :=
  ∀ t key, ts.get? p.table = some t → p.operation.target? = some key → ¬t.key.KeyedIn key

/-- Two writes are about one item, and have keys for it. -/
def SameItem (ts : Tables) (p q : Plan) : Prop :=
  p.table = q.table ∧ ∃ t a b, ts.get? p.table = some t ∧ p.operation.target? = some a ∧
    q.operation.target? = some b ∧ t.key.KeyedIn a ∧ t.key.KeyedIn b ∧ t.sameKey a b = true

theorem exists_of_not_isVoid (h : ¬ts.IsVoid p) :
    ∃ t key, ts.get? p.table = some t ∧ p.operation.target? = some key ∧ t.key.KeyedIn key := by
  unfold IsVoid at h
  push Not at h
  exact h

theorem serves_of_not_isVoid (h : ¬ts.IsVoid p) : ts.Serves p := by
  obtain ⟨t, key, ht, hkey, -⟩ := exists_of_not_isVoid h
  exact ⟨t, key, ht, hkey⟩

theorem SameTarget.sameItem (h : ts.SameTarget p q) (hp : ¬ts.IsVoid p) (hq : ¬ts.IsVoid q) : ts.SameItem p q := by
  obtain ⟨htable, t, a, b, ht, ha, hb, hab⟩ := h
  obtain ⟨u, a', hu, ha', hkeyed⟩ := exists_of_not_isVoid hp
  obtain ⟨v, b', hv, hb', hkeyed'⟩ := exists_of_not_isVoid hq
  obtain rfl : t = u := Option.some.inj (ht.symm.trans hu)
  obtain rfl : t = v := Option.some.inj (ht.symm.trans (htable ▸ hv))
  obtain rfl : a = a' := Option.some.inj (ha.symm.trans ha')
  obtain rfl : b = b' := Option.some.inj (hb.symm.trans hb')
  exact ⟨htable, t, a, b, ht, ha, hb, hkeyed, hkeyed', hab⟩

theorem SameItem.symm (h : ts.SameItem p q) : ts.SameItem q p := by
  obtain ⟨htable, t, a, b, ht, ha, hb, hkeyed, hkeyed', hab⟩ := h
  exact ⟨htable.symm, t, b, a, htable ▸ ht, hb, ha, hkeyed', hkeyed, t.sameKey_comm a b ▸ hab⟩

theorem SameItem.of_become (hts : ts.Become ts') (h : ts'.SameItem p q) : ts.SameItem p q := by
  obtain ⟨htable, t', a, b, ht', ha, hb, hkeyed, hkeyed', hab⟩ := h
  obtain ⟨t, ht, hbecomes⟩ := hts.exists_before ht'
  rw [hbecomes.key_eq] at hkeyed hkeyed'
  exact ⟨htable, t, a, b, ht, ha, hb, hkeyed, hkeyed', (Table.sameKey_congr hbecomes.key_eq a b).symm.trans hab⟩

/-- A write about no item fails, with the same error on all that the tables can become, and changes nothing. -/
theorem IsVoid.writeOne (hp : p.operation.isWrite = true) (h : ts.IsVoid p) :
    ∃ err, ∀ ts', ts.Become ts' → (ts'.writeOne p).1 = .error err ∧ ts'.SameContents (ts'.writeOne p).2 := by
  obtain ⟨key, hkey⟩ := Operation.exists_target hp
  cases ht : ts.get? p.table with
  | none =>
    refine ⟨(RequestFault.noTable p.table).error, fun ts' hts => ?_⟩
    have hnone : ts'.get? p.table = none := by
      cases ht' : ts'.get? p.table with
      | none => rfl
      | some t' =>
        obtain ⟨t, hsome, -⟩ := hts.exists_before ht'
        cases ht.symm.trans hsome
    rw [Tables.writeOne, hnone]
    exact ⟨rfl, .refl ts'⟩
  | some t =>
    obtain ⟨err, herr⟩ := t.write_of_not_keyedIn hkey (h t key ht hkey) p.expressions p.returnValues
    refine ⟨err, fun ts' hts => ?_⟩
    have hbecomes := hts p.table
    rw [ht] at hbecomes
    generalize hfound : ts'.get? p.table = found at hbecomes
    cases hbecomes with
    | some hbecomes =>
      rw [writeOne_eq hfound, herr _ hbecomes.key_eq]
      refine ⟨rfl, fun name => ?_⟩
      rw [get?_put_same hfound]
      exact SameContents.refl ts' name

/-! ## In any order -/

theorem SameContents.rel_symm : ∀ {a b : Option Table}, Option.Rel Table.SameContents a b →
    Option.Rel Table.SameContents b a
  | _, _, .none => .none
  | _, _, .some h => .some h.symm

theorem SameContents.symm (h : ts.SameContents ts') : ts'.SameContents ts := fun name => rel_symm (h name)

/-- What any write does to tables that hold the same. -/
theorem SameContents.writeOne_of_isWrite (h : ts.SameContents ts') (hp : p.operation.isWrite = true) :
    (ts.writeOne p).2.SameContents (ts'.writeOne p).2 := by
  cases ht : ts.get? p.table with
  | none =>
    have hnone : ts'.get? p.table = none := by
      cases ht' : ts'.get? p.table with
      | none => rfl
      | some t' =>
        obtain ⟨t, hsome, -⟩ := h.symm.exists_of_get? ht'
        cases ht.symm.trans hsome
    rw [Tables.writeOne, Tables.writeOne, ht, hnone]
    exact h
  | some t =>
    obtain ⟨key, hkey⟩ := Operation.exists_target hp
    exact h.writeOne ⟨t, key, ht, hkey⟩

theorem SameContents.writeAll_of_isWrite : ∀ {ps : List Plan} {ts ts' : Tables}, ts.SameContents ts' →
    (∀ p ∈ ps, p.operation.isWrite = true) → (ts.writeAll ps).SameContents (ts'.writeAll ps)
  | [], _, _, h, _ => h
  | p :: ps, ts, ts', h, hwrites => by
    obtain ⟨hp, hps⟩ := List.forall_mem_cons.1 hwrites
    have hnext := h.writeOne_of_isWrite hp
    exact hnext.writeAll_of_isWrite hps

/-- Two writes that are not about one item change places. -/
theorem writeOne_comm_of_not_sameItem (hp : p.operation.isWrite = true) (hq : q.operation.isWrite = true)
    (h : ¬ts.SameItem p q) : ((ts.writeOne q).2.writeOne p).2.SameContents ((ts.writeOne p).2.writeOne q).2 := by
  by_cases hvoid : ts.IsVoid p
  · obtain ⟨err, hsame⟩ := hvoid.writeOne hp
    have hafter := (hsame _ (writeOne_become ts q)).2
    have hbefore := (hsame ts (.refl ts)).2
    exact hafter.symm.trans (hbefore.writeOne_of_isWrite hq)
  · by_cases hvoid' : ts.IsVoid q
    · obtain ⟨err, hsame⟩ := hvoid'.writeOne hq
      have hafter := (hsame _ (writeOne_become ts p)).2
      have hbefore := (hsame ts (.refl ts)).2
      exact SameContents.trans (hbefore.writeOne_of_isWrite hp).symm hafter
    · exact writeOne_comm (serves_of_not_isVoid hvoid) (serves_of_not_isVoid hvoid') fun hsame =>
        h (hsame.sameItem hvoid hvoid')

/-- **Writes no two of which are about one item come to the same in any order.** -/
theorem writeAll_perm_of_not_sameItem {ps qs : List Plan} (h : ps.Perm qs) : ∀ {ts : Tables},
    (∀ p ∈ qs, p.operation.isWrite = true) → qs.Pairwise (fun p q => ¬ts.SameItem p q) →
    (ts.writeAll ps).SameContents (ts.writeAll qs) := by
  induction h with
  | nil => exact fun _ _ => .refl _
  | @cons p ps qs _ ih =>
    intro ts hwrites hne
    obtain ⟨-, hqs⟩ := List.forall_mem_cons.1 hwrites
    exact ih hqs ((List.pairwise_cons.1 hne).2.imp fun h h' => h (h'.of_become (writeOne_become ts p)))
  | swap p q qs =>
    intro ts hwrites hne
    obtain ⟨hp, hrest⟩ := List.forall_mem_cons.1 hwrites
    obtain ⟨hq, hqs⟩ := List.forall_mem_cons.1 hrest
    have hpq : ¬ts.SameItem p q := (List.pairwise_cons.1 hne).1 q List.mem_cons_self
    have hswap := writeOne_comm_of_not_sameItem hp hq hpq
    exact hswap.writeAll_of_isWrite hqs
  | @trans ps qs rs hpq hqr ihpq ihqr =>
    intro ts hwrites hne
    exact (ihpq (fun p hp => hwrites p (hqr.mem_iff.1 hp))
      (hqr.symm.pairwise hne fun h h' => h h'.symm)).trans (ihqr hwrites hne)

/-! ## Outcomes -/

theorem AsFor.of_sameContents (h : AsFor q ts ts') (hsame : ts'.SameContents ts'') : AsFor q ts ts'' := by
  obtain ⟨t, t', key, ht, ht', hkey, hschema, hfind⟩ := h
  obtain ⟨t'', ht'', hcontents⟩ := hsame.exists_of_get? ht'
  exact ⟨t, t'', key, ht, ht'', hkey, hcontents.key.trans hschema, (hcontents.find?_eq key).trans hfind⟩

theorem outcomeOf_congr (h : (ts'.writeOne p).1 = (ts.writeOne p).1) : ts'.outcomeOf p = ts.outcomeOf p := by
  rw [outcomeOf, outcomeOf, h]

namespace OneByOne
variable {history : List (Plan × Except Error WriteOutcome)}

theorem tables (h : ts.OneByOne history ts') : ts' = ts.writeAll (history.map Prod.fst) := by
  induction h with
  | nil ts => rfl
  | cons p _ ih => exact ih

/-- **Each of several writes, no two of which are about one item, gets the outcome that it gets alone.** -/
theorem outcomes (h : ts'.OneByOne history ts'') (hts : ts.Become ts')
    (hwrites : ∀ e ∈ history, e.1.operation.isWrite = true)
    (has : ∀ e ∈ history, ¬ts.IsVoid e.1 → AsFor e.1 ts ts')
    (hne : history.Pairwise fun e e' => ¬ts.SameItem e.1 e'.1) : ∀ e ∈ history, e.2 = ts.outcomeOf e.1 := by
  induction h with
  | nil ts => exact List.forall_mem_nil _
  | @cons ts' ts'' p rest _ ih =>
    obtain ⟨hp, hrest⟩ := List.forall_mem_cons.1 hwrites
    obtain ⟨hasp, has⟩ := List.forall_mem_cons.1 has
    obtain ⟨hnep, hne⟩ := List.pairwise_cons.1 hne
    have hnext : ts.Become (ts'.writeOne p).2 := hts.trans (writeOne_become ts' p)
    by_cases hvoid : ts.IsVoid p
    · obtain ⟨err, hsame⟩ := hvoid.writeOne hp
      refine List.forall_mem_cons.2 ⟨outcomeOf_congr ?_, ih hnext hrest (fun e he hnot => ?_) hne⟩
      · rw [(hsame ts' hts).1, (hsame ts (.refl ts)).1]
      · exact (has e he hnot).of_sameContents (hsame ts' hts).2
    · refine List.forall_mem_cons.2 ⟨outcomeOf_congr (hasp hvoid).reply_eq, ih hnext hrest (fun e he hnot => ?_) hne⟩
      exact (has e he hnot).writeOne (hasp hvoid) fun hsame => hnep e he (hsame.sameItem hvoid hnot)

end OneByOne
end Tables

/-! ## Joint runs -/

namespace JointWrites

theorem served_eq_map {done : List (WriteTask × Except Error WriteOutcome)} (h : ∀ e ∈ done, gaveUp e.2 = false) :
    served done = done.map fun e => (e.1.plan, e.2) := by
  rw [served, List.filter_eq_self.2 fun e he => by rw [h e he]; rfl]

/-- **Writes that are about different items do not notice each other.**  When all have been served, in whatever order,
each has got the outcome that it gets alone, and the tables are what the writes make of them in the order of the plans,
up to the order of items. -/
theorem Proceeds.independent {x : Nat → Executor} {s : Store} {plans : List Plan} {es : List Store.Event}
    {j : JointWrites} (h : Proceeds x (.start x s plans) es j) (hes : ∀ e ∈ es, e.Quiet)
    (herrors : s.faults.errors = []) (hwrites : ∀ p ∈ plans, p.operation.isWrite = true)
    (hne : plans.Pairwise fun p q => ¬s.tables.SameItem p q) (hdone : j.underWay = [])
    (hserved : ∀ e ∈ j.finished, gaveUp e.2 = false) :
      (j.finished.map fun e => (e.1.index, e.2)).Perm (plans.zipIdx.map fun e => (e.2, s.tables.outcomeOf e.1)) ∧
      (s.tables.writeAll plans).SameContents j.store.tables := by
  have hinventory : (j.finished.map fun e => (e.1.plan, e.1.index)).Perm plans.zipIdx := by
    rw [← inventory_start x s plans]
    refine .trans (.of_eq ?_) h.inventory
    rw [JointWrites.inventory, hdone, List.nil_append, List.map_map]
    rfl
  have hplans : (j.finished.map fun e => e.1.plan).Perm plans := by
    have hfst := hinventory.map Prod.fst
    rwa [List.map_map, List.zipIdx_map_fst] at hfst
  obtain ⟨done, hfinished, hhistory⟩ := h.oneByOne hes herrors (isWrite_inventory_start hwrites)
  obtain rfl : j.finished = done := hfinished
  rw [served_eq_map hserved] at hhistory
  have hdifferent : (j.finished.map fun e => (e.1.plan, e.2)).Pairwise fun e e' => ¬s.tables.SameItem e.1 e'.1 := by
    have hpairwise := hplans.symm.pairwise hne fun h h' => h h'.symm
    rw [List.pairwise_map] at hpairwise ⊢
    exact hpairwise
  have hwritten : ∀ e ∈ j.finished.map fun e => (e.1.plan, e.2), e.1.operation.isWrite = true := by
    rw [List.forall_mem_map]
    exact fun e he => hwrites _ (hplans.mem_iff.1 (List.mem_map_of_mem he))
  have houtcomes := hhistory.outcomes (.refl s.tables) hwritten
    (fun e _ hnot => .refl (Tables.serves_of_not_isVoid hnot)) hdifferent
  rw [List.forall_mem_map] at houtcomes
  refine ⟨?_, ?_⟩
  · have halone : (j.finished.map fun e => (e.1.index, e.2)) =
        (j.finished.map fun e => (e.1.plan, e.1.index)).map fun e => (e.2, s.tables.outcomeOf e.1) := by
      rw [List.map_map]
      exact List.map_congr_left fun e he => Prod.ext rfl (houtcomes e he)
    rw [halone]
    exact hinventory.map _
  · rw [hhistory.tables, List.map_map]
    exact Tables.writeAll_perm_of_not_sameItem hplans.symm (fun p hp => hwrites p (hplans.mem_iff.1 hp))
      (hplans.symm.pairwise hne fun h h' => h h'.symm)

end JointWrites
end ItemStore
