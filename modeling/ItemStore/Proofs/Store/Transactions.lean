import ItemStore.Proofs.Expression.ConditionText
import ItemStore.Proofs.Store.Locality
import ItemStore.Proofs.Store.Refusals
/-!
# Transactions

Writes about different items answer what they would alone (`Tables.stage_eq`) and can be applied in any order
(`Tables.writeAll_perm`).  Hence a transaction of such writes is applied as a whole, or refused with the reasons that
the tables give before it (`Store.transaction_applies_all_or_tells_why_not`).
-/
namespace ItemStore

namespace Tables

variable {ts ts' : Tables} {p q : Plan}

/-! ## One write among tables -/

/-- Two writes are about one stored item. -/
def SameTarget (ts : Tables) (p q : Plan) : Prop :=
  p.table = q.table ∧ ∃ t a b, ts.get? p.table = some t ∧ p.operation.target? = some a ∧
    q.operation.target? = some b ∧ t.sameKey a b = true

/-- What the condition of a write comes to on these tables. -/
def conditionOf (ts : Tables) (p : Plan) : Except RequestFault Bool :=
  match ts.get? p.table with
  | some t => t.conditionOf p.operation p.expressions
  | none => .error (.noTable p.table)

/-- Applies writes one after the other. -/
def writeAll (ts : Tables) (ps : List Plan) : Tables := ps.foldl (fun ts p => (ts.writeOne p).2) ts

theorem writeOne_eq {t : Table} (ht : ts.get? p.table = some t) :
    ts.writeOne p = ((t.write p.operation p.expressions p.returnValues).1,
      ts.put p.table (t.write p.operation p.expressions p.returnValues).2) := by
  rw [writeOne, ht]

/-- The tables hold the same, but for the order of items. -/
def SameContents (ts ts' : Tables) : Prop := ∀ name, Option.Rel Table.SameContents (ts.get? name) (ts'.get? name)

namespace SameContents

theorem refl (ts : Tables) : ts.SameContents ts := by
  intro name
  cases ts.get? name with
  | none => exact .none
  | some t => exact .some (.refl t)

theorem rel_trans : ∀ {a b c : Option Table}, Option.Rel Table.SameContents a b → Option.Rel Table.SameContents b c →
    Option.Rel Table.SameContents a c
  | _, _, _, .none, .none => .none
  | _, _, _, .some h, .some h' => .some (h.trans h')

theorem trans {ts'' : Tables} (h : ts.SameContents ts') (h' : ts'.SameContents ts'') : ts.SameContents ts'' :=
  fun name => rel_trans (h name) (h' name)

theorem exists_of_get? {name : String} {t : Table} (h : ts.SameContents ts') (ht : ts.get? name = some t) :
    ∃ t', ts'.get? name = some t' ∧ t.SameContents t' := by
  have hname := h name
  rw [ht] at hname
  generalize ts'.get? name = found at hname ⊢
  cases hname with
  | some h => exact ⟨_, rfl, h⟩

theorem put {t t' : Table} (h : ts.SameContents ts') (ht : t.SameContents t') (name : String) :
    Tables.SameContents (ts.put name t) (ts'.put name t') := by
  intro other
  by_cases hname : other = name
  · rw [hname, Entries.get?_put_self, Entries.get?_put_self]
    exact .some ht
  · rw [Entries.get?_put_of_ne ts t hname, Entries.get?_put_of_ne ts' t' hname]
    exact h other

end SameContents

/-- The tables are the same up to the order in which their items came. -/
def SameUpToOrder (ts ts' : Tables) : Prop := ∀ name, Option.Rel
  (fun t t' : Table => t'.key = t.key ∧ t'.indexes = t.indexes ∧ t'.items.Perm t.items) (ts.get? name) (ts'.get? name)

theorem SameContents.sameUpToOrder (h : ts.SameContents ts') : ts.SameUpToOrder ts' := by
  intro name
  have hname := h name
  generalize ts.get? name = found, ts'.get? name = found' at hname ⊢
  cases hname with
  | none => exact .none
  | some h => exact .some ⟨h.key, h.indexes, h.perm⟩

/-! ## A write knows only its item -/

/-- The write is about an item of a table that is there. -/
def Serves (ts : Tables) (p : Plan) : Prop := ∃ t key, ts.get? p.table = some t ∧ p.operation.target? = some key

/-- For the write, the tables are as they were. -/
def AsFor (p : Plan) (ts ts' : Tables) : Prop :=
  ∃ t t' key, ts.get? p.table = some t ∧ ts'.get? p.table = some t' ∧ p.operation.target? = some key ∧
    t'.key = t.key ∧ t'.find? key = t.find? key

theorem AsFor.refl (h : ts.Serves p) : AsFor p ts ts := by
  obtain ⟨t, key, ht, hkey⟩ := h
  exact ⟨t, t, key, ht, ht, hkey, rfl, rfl⟩

theorem AsFor.reply_eq (h : AsFor p ts ts') : (ts'.writeOne p).1 = (ts.writeOne p).1 := by
  obtain ⟨t, t', key, ht, ht', hkey, hsame, hfind⟩ := h
  obtain ⟨reply, fate, -, hwrite⟩ := t.write_local hkey p.expressions p.returnValues
  rw [writeOne_eq ht, writeOne_eq ht', hwrite t rfl rfl, hwrite t' hsame hfind]

/-- A write about another item goes unnoticed. -/
theorem AsFor.writeOne (hq : AsFor q ts ts') (hp : AsFor p ts ts') (h : ¬ts.SameTarget p q) :
    AsFor q ts (ts'.writeOne p).2 := by
  obtain ⟨t, t', a, ht, ht', ha, hsame, -⟩ := hp
  obtain ⟨u, u', b, hu, hu', hb, hsameu, hfind⟩ := hq
  obtain ⟨reply, fate, hfits, hwrite⟩ := t'.write_local ha p.expressions p.returnValues
  rw [writeOne_eq ht', hwrite t' rfl rfl]
  by_cases htable : q.table = p.table
  · rw [htable] at hu hu'
    obtain rfl : t = u := Option.some.inj (ht.symm.trans hu)
    obtain rfl : t' = u' := Option.some.inj (ht'.symm.trans hu')
    have hab : t.sameKey a b = false :=
      Bool.eq_false_iff.2 fun hab => h ⟨htable.symm, t, a, b, ht, ha, hb, hab⟩
    refine ⟨t, fate.on a t', b, htable ▸ ht, by rw [htable, Entries.get?_put_self], hb, ?_, ?_⟩
    · rw [Fate.key_on, hsame]
    · rw [Fate.find?_on_other hfits (by rw [Table.sameKey_congr hsame, hab]), hfind]
  · exact ⟨u, u', b, hu, by rw [Entries.get?_put_of_ne _ _ htable, hu'], hb, hsameu, hfind⟩

/-! ## Writes one after the other -/

/-- Why a transaction that finds the tables like this refuses the write, if it does. -/
def reasonFor (ts : Tables) (p : Plan) : Option String :=
  match ts.conditionOf p with
  | .ok false => some "ConditionalCheckFailed"
  | _ => none

/-- The write, sent alone, is answered with success or refused for its condition. -/
def Passes (ts : Tables) (p : Plan) : Prop :=
  (∃ resp, (ts.writeOne p).1 = .ok resp) ∨ ∃ detail, (ts.writeOne p).1 = .error (.conditionFailed detail)

theorem conditionOf_eq {t : Table} (ht : ts.get? p.table = some t) :
    ts.conditionOf p = t.conditionOf p.operation p.expressions := by
  rw [conditionOf, ht]

theorem Passes.condition (h : ts.Passes p) (hp : ts.Serves p) :
    ts.conditionOf p = .ok true ∨ ts.conditionOf p = .ok false := by
  obtain ⟨t, -, ht, -⟩ := hp
  rw [Passes, writeOne_eq ht] at h
  rw [conditionOf_eq ht]
  exact h.imp (fun ⟨_, hresp⟩ => Table.condition_of_write_ok hresp)
    fun ⟨_, hfailed⟩ => Table.condition_of_write_failed hfailed

theorem isSome_reasonFor (ts : Tables) (p : Plan) : (ts.reasonFor p).isSome = true ↔ ts.conditionOf p = .ok false := by
  rw [reasonFor]
  split
  · next h => simp [h]
  · next h =>
    constructor
    · nofun
    · exact fun hfalse => absurd hfalse h

/-- **On a copy that is as the tables were for each of them, writes about different items are answered by the
conditions on the tables.** -/
theorem stage_eq : ∀ {ps : List Plan} {ts' : Tables}, (∀ p ∈ ps, AsFor p ts ts') → (∀ p ∈ ps, ts.Passes p) →
    ps.Pairwise (fun p q => ¬ts.SameTarget p q) → ts'.stage ps = .ok (ps.map ts.reasonFor, ts'.writeAll ps)
  | [], _, _, _, _ => rfl
  | p :: ps, ts', has, hpass, hne => by
    obtain ⟨hasp, hasps⟩ := List.forall_mem_cons.1 has
    obtain ⟨hpassp, hpassps⟩ := List.forall_mem_cons.1 hpass
    obtain ⟨hnep, hneps⟩ := List.pairwise_cons.1 hne
    have ih := stage_eq (fun q hq => (hasps q hq).writeOne hasp (hnep q hq)) hpassps hneps
    have hreply := hasp.reply_eq
    obtain ⟨t, -, -, ht, -⟩ := hasp
    rw [writeOne_eq ht] at hreply
    rw [Passes, writeOne_eq ht] at hpassp
    have hwrite : ts'.writeOne p = ((t.write p.operation p.expressions p.returnValues).1, (ts'.writeOne p).2) :=
      Prod.ext hreply rfl
    rcases hpassp with ⟨resp, hresp⟩ | ⟨detail, hfailed⟩
    · have hreason : ts.reasonFor p = none := by
        rw [reasonFor, conditionOf_eq ht, Table.condition_of_write_ok hresp]
      rw [stage, hwrite, hresp]
      simp only [ih, List.map_cons, hreason]
      rfl
    · have hreason : ts.reasonFor p = some "ConditionalCheckFailed" := by
        rw [reasonFor, conditionOf_eq ht, Table.condition_of_write_failed hfailed]
      rw [stage, hwrite, hfailed]
      simp only [ih, List.map_cons, hreason]
      rfl

theorem any_reasonFor {ps : List Plan} (hserves : ∀ p ∈ ps, ts.Serves p) (hpass : ∀ p ∈ ps, ts.Passes p) :
    (ps.map ts.reasonFor).any Option.isSome = true ↔ ¬∀ p ∈ ps, ts.conditionOf p = .ok true := by
  rw [List.any_map, List.any_eq_true]
  constructor
  · rintro ⟨p, hp, hreason⟩ hall
    have hfalse := (isSome_reasonFor ts p).1 hreason
    rw [hall p hp] at hfalse
    cases hfalse
  · intro hnot
    obtain ⟨p, hp, hne⟩ : ∃ p ∈ ps, ts.conditionOf p ≠ .ok true := by simpa using hnot
    exact ⟨p, hp, (isSome_reasonFor ts p).2 (((hpass p hp).condition (hserves p hp)).resolve_left hne)⟩

/-- A transaction of writes about different items is decided by the conditions on the tables as they are. -/
theorem transact_eq {ps : List Plan} (hsome : 1 ≤ ps.length) (hmany : ps.length ≤ 100)
    (hserves : ∀ p ∈ ps, ts.Serves p) (hpass : ∀ p ∈ ps, ts.Passes p)
    (hne : ps.Pairwise fun p q => ¬ts.SameTarget p q) :
    ts.transact ps = if (ps.map ts.reasonFor).any Option.isSome then (.error (.canceled (ps.map ts.reasonFor)), ts)
      else (.ok {}, ts.writeAll ps) := by
  have hfits : Table.sizeFits maxTransaction ps = true := by
    rw [Table.sizeFits, Bool.and_eq_true, Bool.not_eq_true', List.isEmpty_eq_false_iff, decide_eq_true_iff]
    exact ⟨List.ne_nil_of_length_pos hsome, hmany⟩
  rw [transact, if_pos hfits, stage_eq (fun p hp => .refl (hserves p hp)) hpass hne]

/-! ## In any order -/

theorem SameTarget.symm (h : ts.SameTarget p q) : ts.SameTarget q p := by
  obtain ⟨htable, t, a, b, ht, ha, hb, hab⟩ := h
  exact ⟨htable.symm, t, b, a, htable ▸ ht, hb, ha, t.sameKey_comm a b ▸ hab⟩

/-- A table keeps its key, so what was about two items stays so. -/
theorem SameTarget.of_become (hts : ts.Become ts') (h : ts'.SameTarget p q) : ts.SameTarget p q := by
  obtain ⟨htable, t', a, b, ht', ha, hb, hab⟩ := h
  obtain ⟨t, ht, hbecomes⟩ := hts.exists_before ht'
  exact ⟨htable, t, a, b, ht, ha, hb, (Table.sameKey_congr hbecomes.key_eq a b).symm.trans hab⟩

theorem not_sameTarget {t : Table} {a b : Item} (ht : ts.get? p.table = some t) (ha : p.operation.target? = some a)
    (hb : q.operation.target? = some b) (hab : t.sameKey a b = false) : ¬ts.SameTarget p q := by
  rintro ⟨-, u, a', b', hu, ha', hb', hsame⟩
  simp_all

theorem SameTarget.of_writeOne {r : Plan} (h : (ts.writeOne r).2.SameTarget p q) : ts.SameTarget p q :=
  h.of_become (writeOne_become ts r)

theorem Serves.writeOne (h : ts.Serves q) (p : Plan) : (ts.writeOne p).2.Serves q := by
  obtain ⟨t, key, ht, hkey⟩ := h
  have hbecome := writeOne_become ts p q.table
  rw [ht] at hbecome
  cases ht' : (ts.writeOne p).2.get? q.table with
  | none =>
    rw [ht'] at hbecome
    cases hbecome
  | some t' => exact ⟨t', key, ht', hkey⟩

/-- What a write does to any tables that are the same for it. -/
theorem exists_fate {name : String} {key : Item} (p : Plan) (hname : p.table = name) (t : Table)
    (hkey : p.operation.target? = some key) : ∃ fate, Fate.Fits t key fate ∧ ∀ {ts : Tables} {t' : Table},
      ts.get? name = some t' → t'.key = t.key → t'.find? key = t.find? key →
      (ts.writeOne p).2 = ts.put name (fate.on key t') := by
  obtain ⟨reply, fate, hfits, hwrite⟩ := t.write_local hkey p.expressions p.returnValues
  refine ⟨fate, hfits, fun {ts t'} ht' hsame hfind => ?_⟩
  subst hname
  rw [writeOne_eq ht', hwrite t' hsame hfind]

theorem SameContents.writeOne (h : ts.SameContents ts') (hp : ts.Serves p) :
    (ts.writeOne p).2.SameContents (ts'.writeOne p).2 := by
  obtain ⟨t, key, ht, hkey⟩ := hp
  obtain ⟨t', ht', htt'⟩ := h.exists_of_get? ht
  obtain ⟨fate, hfits, hfate⟩ := exists_fate p rfl t hkey
  rw [hfate ht rfl rfl, hfate ht' htt'.key (htt'.find?_eq key)]
  exact h.put (Fate.on_sameContents hfits htt') p.table

theorem SameContents.writeAll :
    ∀ {ps : List Plan} {ts ts' : Tables}, ts.SameContents ts' → (∀ p ∈ ps, ts.Serves p) →
    (ts.writeAll ps).SameContents (ts'.writeAll ps)
  | [], _, _, h, _ => h
  | p :: ps, ts, ts', h, hserves => by
    obtain ⟨hp, hps⟩ := List.forall_mem_cons.1 hserves
    have hnext : (ts.writeOne p).2.SameContents (ts'.writeOne p).2 := h.writeOne hp
    exact hnext.writeAll fun q hq => (hps q hq).writeOne p

/-- Two writes about different items change places. -/
theorem writeOne_comm (hp : ts.Serves p) (hq : ts.Serves q) (h : ¬ts.SameTarget p q) :
    ((ts.writeOne q).2.writeOne p).2.SameContents ((ts.writeOne p).2.writeOne q).2 := by
  obtain ⟨t, a, ht, ha⟩ := hp
  obtain ⟨u, b, hu, hb⟩ := hq
  by_cases htable : q.table = p.table
  · rw [htable] at hu
    obtain rfl : t = u := Option.some.inj (ht.symm.trans hu)
    have hab : t.sameKey a b = false :=
      Bool.eq_false_iff.2 fun hab => h ⟨htable.symm, t, a, b, ht, ha, hb, hab⟩
    have hba : t.sameKey b a = false := t.sameKey_comm a b ▸ hab
    obtain ⟨fate, hfits, hfate⟩ := exists_fate p rfl t ha
    obtain ⟨fate', hfits', hfate'⟩ := exists_fate q htable t hb
    rw [hfate ht rfl rfl, hfate' ht rfl rfl,
      hfate (Entries.get?_put_self ts p.table _) (Fate.key_on fate' b t) (Fate.find?_on_other hfits' hba),
      hfate' (Entries.get?_put_self ts p.table _) (Fate.key_on fate a t) (Fate.find?_on_other hfits hab)]
    intro name
    by_cases hname : name = p.table
    · rw [hname, Entries.get?_put_self, Entries.get?_put_self]
      exact .some (Fate.on_comm hfits hfits' hab)
    · rw [Entries.get?_put_of_ne _ _ hname, Entries.get?_put_of_ne _ _ hname, Entries.get?_put_of_ne _ _ hname,
        Entries.get?_put_of_ne _ _ hname]
      exact SameContents.refl ts name
  · obtain ⟨fate, -, hfate⟩ := exists_fate p rfl t ha
    obtain ⟨fate', -, hfate'⟩ := exists_fate q rfl u hb
    have ht' : Entries.get? (ts.put q.table (fate'.on b u)) p.table = some t := by
      rw [Entries.get?_put_of_ne _ _ (Ne.symm htable), ht]
    have hu' : Entries.get? (ts.put p.table (fate.on a t)) q.table = some u := by
      rw [Entries.get?_put_of_ne _ _ htable, hu]
    rw [hfate ht rfl rfl, hfate' hu rfl rfl, hfate ht' rfl rfl, hfate' hu' rfl rfl]
    intro name
    rw [Entries.get?_put_comm ts (Ne.symm htable)]
    exact SameContents.refl _ name

/-- **Writes about different items come to the same in any order.** -/
theorem writeAll_perm {ps qs : List Plan} (h : ps.Perm qs) : ∀ {ts : Tables}, (∀ p ∈ qs, ts.Serves p) →
    qs.Pairwise (fun p q => ¬ts.SameTarget p q) → (ts.writeAll ps).SameContents (ts.writeAll qs) := by
  induction h with
  | nil => exact fun _ _ => .refl _
  | @cons p ps qs _ ih =>
    intro ts hserves hne
    obtain ⟨hp, hqs⟩ := List.forall_mem_cons.1 hserves
    exact ih (fun q hq => (hqs q hq).writeOne p) ((List.pairwise_cons.1 hne).2.imp fun h h' => h h'.of_writeOne)
  | swap p q qs =>
    intro ts hserves hne
    obtain ⟨hp, hrest⟩ := List.forall_mem_cons.1 hserves
    obtain ⟨hq, hqs⟩ := List.forall_mem_cons.1 hrest
    have hpq : ¬ts.SameTarget p q := (List.pairwise_cons.1 hne).1 q List.mem_cons_self
    have hswap : ((ts.writeOne q).2.writeOne p).2.SameContents ((ts.writeOne p).2.writeOne q).2 :=
      writeOne_comm hp hq hpq
    exact hswap.writeAll fun r hr => ((hqs r hr).writeOne q).writeOne p
  | @trans ps qs rs hpq hqr ihpq ihqr =>
    intro ts hserves hne
    exact (ihpq (fun p hp => hserves p (hqr.mem_iff.1 hp))
      (hqr.symm.pairwise hne fun h h' => h h'.symm)).trans (ihqr hserves hne)

end Tables

namespace Store

variable {s : Store}

/-- Writes sent one by one make the tables that they make on their own. -/
theorem run_sends : ∀ {ps : List Plan} {s : Store}, s.faults.next.1 = none →
    (∀ p ∈ ps, p.operation.isWrite = true) → (∀ p ∈ ps, s.tables.Serves p) →
    (s.run (ps.map fun p => .send p.request)).tables = s.tables.writeAll ps
  | [], _, _, _, _ => rfl
  | p :: ps, s, hfaults, hwrites, hserves => by
    obtain ⟨hwrite, hwrites⟩ := List.forall_mem_cons.1 hwrites
    obtain ⟨⟨t, key, ht, hkey⟩, hserves⟩ := List.forall_mem_cons.1 hserves
    have hsend := send_write (r := p.request) (Prod.ext hfaults rfl) ht hwrite rfl
    have htables : (s.send p.request).2.tables = (s.tables.writeOne p).2 := by
      rw [hsend, Tables.writeOne_eq ht]
      rfl
    have hfaults' : (s.send p.request).2.faults.next.1 = none := by rw [hsend]; exact hfaults
    have hserves' : ∀ q ∈ ps, (s.send p.request).2.tables.Serves q := fun q hq => by
      rw [htables]
      exact (hserves q hq).writeOne p
    have ih := run_sends hfaults' hwrites hserves'
    rw [htables] at ih
    exact ih

theorem send_transaction {r : Request} {writes : List Plan} {token : Option String} {reply : Reply} {ts : Tables}
    (hr : r.operation = .transaction writes token) (hfaults : s.faults.next.1 = none)
    (h : s.tables.transact writes = (reply, ts)) :
    s.send r = (reply, { s with log := s.log ++ [r], tables := ts }) := by
  rw [send_of_no_fault (Prod.ext hfaults rfl), serve, hr]
  simp only [h]

/-- A store that answers with success or with a refusal of its own has no fault for the request. -/
theorem faults_of_answers {s : Store} {r : Request} (hown : ∀ detail, s.faults.next.1 ≠ some (.conditionFailed detail))
    (h : (∃ resp, (s.send r).1 = .ok resp) ∨ ∃ detail, (s.send r).1 = .error (.conditionFailed detail)) :
    s.faults.next.1 = none := by
  cases hnext : s.faults.next with
  | mk fault faults =>
    cases fault with
    | none => rfl
    | some e =>
      rw [send_of_fault hnext] at h
      rcases h with ⟨resp, h⟩ | ⟨detail, h⟩
      · cases h
      · cases h
        exact absurd (congrArg Prod.fst hnext) (hown detail)

/-- **A transaction is applied as a whole, or tells for every write why not.**  Up to a hundred writes about different
items, each of which alone would be answered with success or be refused for its condition: if on the tables as they are
all conditions hold, then the tables become what the writes make of them one by one, in any order but for the order of
items; otherwise they stay, and the reply has a reason for those writes, and only those, whose condition is false.  A
refusal for a condition is to be the store's own, not one that was set up to strike the next request. -/
theorem transaction_applies_all_or_tells_why_not (s : Store) (r : Request) (writes : List Plan) (token : Option String)
    (hr : r.operation = .transaction writes token) (hown : ∀ detail, s.faults.next.1 ≠ some (.conditionFailed detail))
    (hsome : 1 ≤ writes.length) (hmany : writes.length ≤ 100) (hwrites : ∀ p ∈ writes, p.operation.isWrite = true)
    (htables : ∀ p ∈ writes, ∃ t, s.tables.get? p.table = some t)
    (hitems : writes.Pairwise fun p q => ¬s.tables.SameTarget p q)
    (halone : ∀ p ∈ writes, (∃ resp, (s.send p.request).1 = .ok resp) ∨
      ∃ detail, (s.send p.request).1 = .error (.conditionFailed detail)) :
    ((∀ p ∈ writes, s.tables.conditionOf p = .ok true) →
      (s.send r).1 = .ok {} ∧
      (s.send r).2.tables = (s.run (writes.map fun p => .send p.request)).tables ∧
      ∀ order : List Plan, order.Perm writes →
        (s.run (order.map fun p => .send p.request)).tables.SameUpToOrder (s.send r).2.tables) ∧
    (¬(∀ p ∈ writes, s.tables.conditionOf p = .ok true) →
      ∃ reasons : List (Option String), (s.send r).1 = .error (.canceled reasons) ∧
        reasons.length = writes.length ∧
        (∀ (i : Nat) (p : Plan) (reason : Option String), writes[i]? = some p → reasons[i]? = some reason →
          (reason.isSome = true ↔ s.tables.conditionOf p = .ok false)) ∧
        (s.send r).2.tables = s.tables) := by
  have hfaults : s.faults.next.1 = none := faults_of_answers hown (halone _ (List.getElem_mem hsome))
  have hserves : ∀ p ∈ writes, s.tables.Serves p := fun p hp => by
    obtain ⟨t, ht⟩ := htables p hp
    obtain ⟨key, hkey⟩ := Operation.exists_target (hwrites p hp)
    exact ⟨t, key, ht, hkey⟩
  have hpass : ∀ p ∈ writes, s.tables.Passes p := fun p hp => by
    obtain ⟨t, ht⟩ := htables p hp
    have hsend := send_write (r := p.request) (Prod.ext hfaults rfl) ht (hwrites p hp) rfl
    have halone := halone p hp
    rw [hsend] at halone
    rw [Tables.Passes, Tables.writeOne_eq ht]
    exact halone
  have htransact := Tables.transact_eq hsome hmany hserves hpass hitems
  constructor
  · intro hall
    rw [if_neg fun hany => (Tables.any_reasonFor hserves hpass).1 hany hall] at htransact
    rw [send_transaction hr hfaults htransact]
    refine ⟨rfl, (run_sends hfaults hwrites hserves).symm, fun order horder => ?_⟩
    rw [run_sends hfaults (fun p hp => hwrites p (horder.mem_iff.1 hp)) fun p hp => hserves p (horder.mem_iff.1 hp)]
    exact (Tables.writeAll_perm horder hserves hitems).sameUpToOrder
  · intro hnot
    rw [if_pos ((Tables.any_reasonFor hserves hpass).2 hnot)] at htransact
    rw [send_transaction hr hfaults htransact]
    refine ⟨_, rfl, List.length_map .., fun i p reason hp hreason => ?_, rfl⟩
    rw [List.getElem?_map, hp] at hreason
    cases hreason
    exact Tables.isSome_reasonFor s.tables p

/-- An order `a` is there.  It goes while an order `b` comes; but `b` does not come along with an `a` that is to be
new. -/
theorem transaction_applies_all_or_tells_why_not_of_orders :
    let shape : Descriptor := ⟨"Order", "orders", [⟨"id", .string, false, false, .partition⟩], ⟨"id", none⟩, []⟩
    let a : Item := [("id", .string "a")]
    let b : Item := [("id", .string "b")]
    let s := Store.run {} [.create shape, .insert "orders" a]
    let write (operation : Operation) (cs : List Condition) : Plan :=
      ItemWrite.plan ⟨shape, cs, .nothing⟩ operation .empty
    let request (writes : List Plan) : Request :=
      PlanOf.request { shape := "", table := "", operation := .transaction writes none }
    let exchange := [write (.put b) [], write (.delete a) []]
    let newcomers := [write (.put b) [], write (.put a) [.absent "id"]]
    (s.faults.next.1 = none ∧ exchange.Pairwise (fun p q => ¬s.tables.SameTarget p q) ∧
      (s.send (request exchange)).1 = .ok {} ∧
      (s.send (request exchange)).2.tables = (s.run (exchange.map fun p => .send p.request)).tables ∧
      (s.run (exchange.reverse.map fun p => .send p.request)).tables.SameUpToOrder
        (s.send (request exchange)).2.tables) ∧
    (newcomers.Pairwise (fun p q => ¬s.tables.SameTarget p q) ∧
      ∃ reasons : List (Option String), (s.send (request newcomers)).1 = .error (.canceled reasons) ∧
        reasons.length = 2 ∧
        (∀ (i : Nat) (p : Plan) (reason : Option String), newcomers[i]? = some p → reasons[i]? = some reason →
          (reason.isSome = true ↔ s.tables.conditionOf p = .ok false)) ∧
        (s.send (request newcomers)).2.tables = s.tables) := by
  intro shape a b s write request exchange newcomers
  let t : Table := { key := ⟨"id", none⟩, items := [a] }
  let late := write (.put a) [.absent "id"]
  let refusal : StoreError := .conditionFailed "The conditional request failed"
  have hown : ∀ detail, s.faults.next.1 ≠ some (.conditionFailed detail) := fun _ h => Option.some_ne_none _ h.symm
  have both {P : Plan → Prop} {p q : Plan} (hp : P p) (hq : P q) : ∀ r ∈ [p, q], P r :=
    List.forall_mem_cons.2 ⟨hp, List.forall_mem_singleton.2 hq⟩
  have hexchange : exchange.Pairwise fun p q => ¬s.tables.SameTarget p q :=
    List.pairwise_pair.2 (Tables.not_sameTarget (t := t) rfl rfl rfl rfl)
  have hnewcomers : newcomers.Pairwise fun p q => ¬s.tables.SameTarget p q :=
    List.pairwise_pair.2 (Tables.not_sameTarget (t := t) rfl rfl rfl rfl)
  -- the text of the condition is not read here: what it says is known from how it was written
  have hholds : Table.conditionHolds late.expressions.bindings a late.expressions.condition = .ok false := by
    obtain ⟨f, hparse, hholds⟩ := Writer.expresses_condition Writer.empty (c := .absent "id") rfl
    show expressionFault (do
      let f ← Formula.parse (Writer.empty.condition (.absent "id")).1
      f.holds (Writer.empty.condition (.absent "id")).2.bindings a) = _
    rw [hparse]
    exact congrArg expressionFault (hholds [] a)
  have hrefused : (s.send late.request).1 = .error refusal := by
    have hcheck : t.checkWrite late.expressions (t.checkKeyAttributes a) a = .error refusal := by
      show Table.checkCondition late.expressions (some a) = _
      rw [Table.checkCondition, Option.getD_some, hholds]
      rfl
    have hwrite : t.write late.operation late.expressions late.returnValues = (.error refusal, t) := by
      show t.write (.put a) late.expressions late.returnValues = _
      rw [Table.write, hcheck]
    rw [send_write (s := s) (r := late.request) rfl rfl rfl hwrite]
  have hnot : ¬∀ p ∈ newcomers, s.tables.conditionOf p = .ok true := fun hall => by
    have hlate : s.tables.conditionOf late = .ok true := (List.forall_mem_cons.1 hall).2 late List.mem_cons_self
    rw [show s.tables.conditionOf late = .ok false from hholds] at hlate
    cases hlate
  obtain ⟨hok, htables, horder⟩ := (transaction_applies_all_or_tells_why_not s (request exchange) exchange none rfl hown
    (by decide) (by decide) (both rfl rfl) (both ⟨t, rfl⟩ ⟨t, rfl⟩) hexchange
      (both (.inl ⟨_, rfl⟩) (.inl ⟨_, rfl⟩))).1
    (both rfl rfl)
  exact ⟨⟨rfl, hexchange, hok, htables, horder _ (List.reverse_perm exchange)⟩, hnewcomers,
    (transaction_applies_all_or_tells_why_not s (request newcomers) newcomers none rfl hown (by decide) (by decide)
      (both rfl rfl) (both ⟨t, rfl⟩ ⟨t, rfl⟩) hnewcomers (both (.inl ⟨_, rfl⟩) (.inr ⟨_, hrefused⟩))).2 hnot⟩

/-- A refusal that is set up is taken for the store's own when the writes are sent alone, and then it strikes the
transaction: nothing speaks against two new orders, but the reply is neither success nor does it give reasons. -/
theorem pending_refusal_strikes_transaction :
    let shape : Descriptor := ⟨"Order", "orders", [⟨"id", .string, false, false, .partition⟩], ⟨"id", none⟩, []⟩
    let refusal : StoreError := .conditionFailed "set up"
    let s := Store.run {} [.create shape, .failNext refusal]
    let put (id : String) : Plan := ItemWrite.plan ⟨shape, [], .nothing⟩ (.put [("id", .string id)]) .empty
    let writes := [put "a", put "b"]
    let r : Request := PlanOf.request { shape := "", table := "", operation := .transaction writes none }
    (∀ p ∈ writes, p.operation.isWrite = true ∧ (∃ t, s.tables.get? p.table = some t) ∧
      (s.send p.request).1 = .error refusal ∧ s.tables.conditionOf p = .ok true) ∧
    writes.Pairwise (fun p q => ¬s.tables.SameTarget p q) ∧
    (s.send r).1 = .error refusal ∧ (s.send r).2.tables = s.tables := by
  intro shape refusal s put writes r
  let t : Table := { key := ⟨"id", none⟩ }
  have hput (id : String) : (put id).operation.isWrite = true ∧ (∃ t, s.tables.get? (put id).table = some t) ∧
      (s.send (put id).request).1 = .error refusal ∧ s.tables.conditionOf (put id) = .ok true :=
    ⟨rfl, ⟨t, rfl⟩, rfl, rfl⟩
  have hapart : writes.Pairwise fun p q => ¬s.tables.SameTarget p q :=
    List.pairwise_pair.2 (Tables.not_sameTarget (t := t) rfl rfl rfl rfl)
  refine ⟨?_, hapart, rfl, rfl⟩
  simp only [writes, List.forall_mem_cons]
  exact ⟨hput "a", hput "b", List.forall_mem_nil _⟩

end Store
end ItemStore
