import ItemStore.Proofs.Execution.Acceptance
import ItemStore.Proofs.Execution.Interleaving
import ItemStore.Proofs.Request.Existence
/-!
# The first put of a key

Clients that put an item only if there is none of its key can be as many as they like: once an item of the key is there,
it stays until it is deleted, whatever else happens to the store (`Tables.HasItem.handle`), and every such put from then
on is refused and changes nothing.  So at most one of them is written, and that is the first that the store serves
(`first_put_of_a_key_wins`).
-/
namespace ItemStore

open Outcome (bind_eq_ok)

/-! ## Items that stay -/

namespace Table

/-- The table has an item of the key. -/
def Has (t : Table) (key : Item) : Prop := (t.find? key).isSome = true

variable {t : Table} {key : Item}

theorem has_iff {k : KeySchema} (hkey : t.key = k) : t.Has key ↔ ∃ item ∈ t.items, k.sameKey item key = true := by
  subst hkey
  exact List.find?_isSome

theorem not_has_iff {k : KeySchema} (hkey : t.key = k) :
    ¬t.Has key ↔ ∀ item ∈ t.items, k.sameKey item key = false := by
  rw [has_iff hkey]
  push Not
  simp only [Bool.not_eq_true]

theorem has_put_self {item : Item} (h : t.sameKey item key = true) : (t.put item).Has key := by
  rw [Has, find?_put, if_pos h]
  rfl

namespace Has

theorem put (h : t.Has key) (item : Item) : (t.put item).Has key := by
  rw [Has, find?_put]
  split
  · rfl
  · exact h

theorem remove (h : t.Has key) {target : Item} (hne : t.sameKey target key = false) : (t.remove target).Has key := by
  rwa [Has, find?_eq_head?, itemsOf_remove_other hne, ← find?_eq_head?]

theorem applyEntries : ∀ {entries : List BatchEntry} {t : Table}, t.Has key →
    (∀ target, .delete target ∈ entries → t.sameKey target key = false) → (entries.foldl applyEntry t).Has key
  | [], _, h, _ => h
  | .put item :: entries, t, h, hne =>
    show (entries.foldl applyEntry (t.put item)).Has key from
      applyEntries (h.put item) fun target htarget => hne target (List.mem_cons_of_mem _ htarget)
  | .delete target :: entries, t, h, hne =>
    show (entries.foldl applyEntry (t.remove target)).Has key from
      applyEntries (h.remove (hne target List.mem_cons_self)) fun other hother =>
        hne other (List.mem_cons_of_mem _ hother)

theorem write (h : t.Has key) {op : Operation} (hne : ∀ target, op = .delete target → t.sameKey target key = false)
    (e : Expressions) (image : ReturnValues) : (t.write op e image).2.Has key := by
  rcases write_cases t op e image with ⟨err, hw⟩ | ⟨item, -, -, hw⟩ | ⟨target, hop, -, hw⟩ |
    ⟨_, _, item, _, -, -, hw⟩
  · rwa [hw]
  · rw [hw]
    exact h.put item
  · rw [hw]
    exact h.remove (hne target hop)
  · rw [hw]
    exact h.put item

end Has
end Table

/-- The write deletes the item of this key. -/
def PlanOf.Deletes (p : Plan) (name : String) (k : KeySchema) (key : Item) : Prop :=
  p.table = name ∧ ∃ target, p.operation = .delete target ∧ k.sameKey target key = true

/-- The event is a request that deletes the item of this key, alone, in a batch or in a transaction. -/
inductive Store.Event.Deletes (name : String) (k : KeySchema) (key : Item) : Store.Event → Prop where
  | one {r : Request} {target : Item} : r.operation = .delete target → r.table = name →
      k.sameKey target key = true → Deletes name k key (.send r)
  | entry {r : Request} {entries : List BatchEntry} {target : Item} : r.operation = .batchWrite entries →
      .delete target ∈ entries → r.table = name → k.sameKey target key = true → Deletes name k key (.send r)
  | member {r : Request} {writes : List Plan} {token : Option String} {p : Plan} :
      r.operation = .transaction writes token → p ∈ writes → p.Deletes name k key → Deletes name k key (.send r)

/-- The table of this name has the key schema and an item of the key. -/
def Tables.HasItem (ts : Tables) (name : String) (k : KeySchema) (key : Item) : Prop :=
  ∃ t, ts.get? name = some t ∧ t.key = k ∧ t.Has key

namespace Tables.HasItem
variable {ts : Tables} {name : String} {k : KeySchema} {key : Item}

theorem put (h : ts.HasItem name k key) {other : String} {t' : Table}
    (ht' : other = name → ∀ t, ts.get? name = some t → t.key = k → t.Has key → t'.key = k ∧ t'.Has key) :
    Tables.HasItem (ts.put other t') name k key := by
  obtain ⟨t, ht, hkey, hhas⟩ := h
  by_cases hname : other = name
  · obtain ⟨hkey', hhas'⟩ := ht' hname t ht hkey hhas
    exact ⟨t', hname ▸ Entries.get?_put_self _ _ _, hkey', hhas'⟩
  · exact ⟨t, (Entries.get?_put_of_ne _ _ (Ne.symm hname)).trans ht, hkey, hhas⟩

/-- A table that becomes another keeps the item if it does so in its place. -/
theorem put_becomes (h : ts.HasItem name k key) {other : String} {t t' : Table} (ht : ts.get? other = some t)
    (hbecomes : t.Becomes t') (hhas : other = name → t.key = k → t.Has key → t'.Has key) :
    Tables.HasItem (ts.put other t') name k key := by
  refine h.put fun hname t₀ ht₀ hkey hhas₀ => ?_
  obtain rfl : t = t₀ := Option.some.inj (ht.symm.trans (hname ▸ ht₀))
  exact ⟨hbecomes.key_eq.trans hkey, hhas hname hkey hhas₀⟩

theorem writeOne (h : ts.HasItem name k key) {p : Plan} (hp : ¬p.Deletes name k key) :
    (ts.writeOne p).2.HasItem name k key := by
  unfold Tables.writeOne
  split
  · exact h
  · next t ht =>
    refine h.put_becomes ht (t.becomes_write _ _ _) fun hname hkey hhas => hhas.write (fun target hop => ?_) _ _
    exact Bool.eq_false_iff.2 fun hsame => hp ⟨hname, target, hop, hkey ▸ hsame⟩

theorem stage : ∀ {ps : List Plan} {ts staged : Tables} {reasons : List (Option String)}, ts.HasItem name k key →
    ts.stage ps = .ok (reasons, staged) → (∀ p ∈ ps, ¬p.Deletes name k key) → staged.HasItem name k key
  | [], _, _, _, h, hstage, _ => by
    cases hstage
    exact h
  | p :: ps, ts, _, _, h, hstage, hps => by
    obtain ⟨hp, hps⟩ := List.forall_mem_cons.1 hps
    have hnext := h.writeOne hp
    unfold Tables.stage at hstage
    split at hstage
    · next hwrite =>
      obtain ⟨_, hrest, hok⟩ := bind_eq_ok.1 hstage
      cases hok
      rw [hwrite] at hnext
      exact hnext.stage hrest hps
    · next hwrite =>
      obtain ⟨_, hrest, hok⟩ := bind_eq_ok.1 hstage
      cases hok
      rw [hwrite] at hnext
      exact hnext.stage hrest hps
    · cases hstage

theorem serveTable {s : Store} {r : Request} {t : Table} (h : s.tables.HasItem name k key)
    (ht : s.tables.get? r.table = some t) (hr : ¬Store.Event.Deletes name k key (.send r)) :
    (s.serveTable t r).2.tables.HasItem name k key := by
  unfold Store.serveTable
  split
  · exact h
  · exact h
  · exact h
  · unfold Store.batchGet
    split <;> exact h
  · next entries hop =>
    unfold Store.batchWrite
    split
    · split
      · exact h
      · refine h.put_becomes ht (t.becomes_applyEntries _ .same) fun hname hkey hhas => ?_
        refine hhas.applyEntries fun target htarget => ?_
        -- what is left undone is not done, so what is done is among the entries
        have hmem := (Table.splitUnprocessed_sublists s.faults.unprocessed entries).1.subset htarget
        exact Bool.eq_false_iff.2 fun hsame => hr (.entry hop hmem hname (hkey ▸ hsame))
    · exact h
  · refine h.put_becomes ht (t.becomes_write _ _ _) fun hname hkey hhas => hhas.write (fun target hop => ?_) _ _
    exact Bool.eq_false_iff.2 fun hsame => hr (.one hop hname (hkey ▸ hsame))

theorem serve {s : Store} {r : Request} (h : s.tables.HasItem name k key)
    (hr : ¬Store.Event.Deletes name k key (.send r)) : (s.serve r).2.tables.HasItem name k key := by
  unfold Store.serve
  split
  · next writes token hop =>
    rcases Tables.transact_cases s.tables writes with ⟨_, htransact⟩ | ⟨_, _, hstage, htransact⟩
    · rw [htransact]
      exact h
    · rw [htransact]
      exact h.stage hstage fun p hp hdeletes => hr (.member hop hp hdeletes)
  · split
    · next t ht => exact h.serveTable ht hr
    · exact h

/-- **An item stays as long as nothing deletes it.** -/
theorem handle {s : Store} {e : Store.Event} (h : s.tables.HasItem name k key) (he : ¬e.Deletes name k key) :
    (s.handle e).tables.HasItem name k key := by
  cases e with
  | create d =>
    refine h.put fun hname t ht hkey hhas => ?_
    rw [hname, ht]
    exact ⟨hkey, hhas⟩
  | insert table item =>
    show (s.insert table item).tables.HasItem name k key
    unfold Store.insert
    split
    · next t ht => exact h.put_becomes ht (.put item .same) fun _ _ hhas => hhas.put item
    · exact h
  | send r =>
    show (s.send r).2.tables.HasItem name k key
    rcases hnext : s.faults.next with ⟨_ | e, faults⟩
    · rw [Store.send_of_no_fault hnext]
      exact serve (s := { s with log := s.log ++ [r] }) h he
    · rw [Store.send_of_fault hnext]
      exact h
  | _ => exact h

end Tables.HasItem

/-! ## Errors that wait -/

namespace Store

theorem errors_serve (s : Store) (r : Request) : (s.serve r).2.faults.errors = s.faults.errors := by
  unfold serve
  split
  · rfl
  · split
    · unfold serveTable
      split
      · rfl
      · rfl
      · rfl
      · unfold batchGet
        split <;> rfl
      · unfold batchWrite
        split
        · split <;> rfl
        · rfl
      · rfl
    · rfl

/-- Only who asks for an error makes one wait. -/
theorem errors_handle {s : Store} {e : Event} (h : s.faults.errors = []) (he : ∀ err, e ≠ .failNext err) :
    (s.handle e).faults.errors = [] := by
  cases e with
  | insert table item =>
    show (s.insert table item).faults.errors = []
    unfold insert
    split <;> exact h
  | send r =>
    show (s.send r).2.faults.errors = []
    rcases hnext : s.faults.next with ⟨_ | e, faults⟩
    · rw [send_of_no_fault hnext]
      exact (errors_serve _ r).trans h
    · rw [send_of_fault hnext]
      unfold Faults.next at hnext
      split at hnext
      · cases hnext
        exact h
      · next herrors =>
        rw [h] at herrors
        cases herrors
      · cases hnext
  | failNext err => exact absurd rfl (he err)
  | _ => exact h

end Store

/-! ## One put -/

/-- The outcome of a write whose condition was false. -/
def wasRefused : Except Error WriteOutcome → Bool
  | .ok (.conditionFailed _) => true
  | _ => false

theorem Tables.wasRefused_outcomeOf {ts : Tables} {p : Plan} :
    wasRefused (ts.outcomeOf p) = true ↔ ∃ detail, (ts.writeOne p).1 = .error (.conditionFailed detail) := by
  unfold outcomeOf
  cases (ts.writeOne p).1 with
  | ok response => exact iff_of_false Bool.false_ne_true nofun
  | error err =>
    cases err with
    | conditionFailed detail => exact iff_of_true rfl ⟨detail, rfl⟩
    | _ => exact iff_of_false Bool.false_ne_true nofun

theorem not_wasWritten_of_wasRefused {outcome : Except Error WriteOutcome} (h : wasRefused outcome = true) :
    ¬wasWritten outcome = true := by
  unfold wasRefused at h
  split at h
  · exact Bool.false_ne_true
  · cases h

/-- The plan has been built from a put of an item of this key that is only for a new one. -/
def PlanOf.PutsIfNew (p : Plan) (d : Descriptor) (key : Item) : Prop :=
  ∃ w : Put, w.build = .ok p ∧ w.shape = d ∧ w.conditions = (ItemWrite.ifNotExists { shape := d }).conditions ∧
    d.key.sameKey w.item key = true

theorem PlanOf.PutsIfNew.isWrite {p : Plan} {d : Descriptor} {key : Item} (h : p.PutsIfNew d key) :
    p.operation.isWrite = true := by
  obtain ⟨w, hbuild, -⟩ := h
  exact (SingleWrite.plan_of_build (w := .put w) hbuild).1

theorem Table.write_of_refused {t : Table} {op : Operation} {e : Expressions} {image : ReturnValues} {detail : String}
    (h : (t.write op e image).1 = .error (.conditionFailed detail)) : (t.write op e image).2 = t := by
  rcases write_cases t op e image with ⟨err, hw⟩ | ⟨item, -, -, hw⟩ | ⟨target, -, -, hw⟩ |
    ⟨_, _, item, _, -, -, hw⟩
  · rw [hw]
  · rw [hw] at h
    exact absurd h (oldImage_ne_conditionFailed _ _ _ _)
  · rw [hw] at h
    exact absurd h (oldImage_ne_conditionFailed _ _ _ _)
  · rw [hw] at h
    cases h

theorem Table.write_of_done {t : Table} {item : Item} {e : Expressions} {image : ReturnValues} {response : Response}
    (h : (t.write (.put item) e image).1 = .ok response) : (t.write (.put item) e image).2 = t.put item := by
  rw [write] at h ⊢
  cases hcheck : t.checkWrite e (t.checkKeyAttributes item) item with
  | error err =>
    rw [hcheck] at h
    cases h
  | ok _ => rfl

/-- **A put that is only for a new item is written if there is none of its key, or it is refused and changes
nothing.** -/
theorem PlanOf.PutsIfNew.writeOne {p : Plan} {d : Descriptor} {key : Item} {ts : Tables} {t : Table} (hd : d.Compiled)
    (hp : p.PutsIfNew d key) (ht : ts.get? d.table = some t) (hkey : t.key = d.key) :
    (t.Has key ∧ wasRefused (ts.outcomeOf p) = true ∧ ∀ name, (ts.writeOne p).2.get? name = ts.get? name) ∨
    (¬t.Has key ∧ wasWritten (ts.outcomeOf p) = true ∧ (ts.writeOne p).2.HasItem d.table d.key key) := by
  obtain ⟨w, hbuild, rfl, honly, hsame⟩ := hp
  have htable : p.table = w.shape.table := (SingleWrite.plan_of_build (w := .put w) hbuild).2
  have hwrite := Tables.writeOne_eq (htable ▸ ht)
  have hcondition := SingleWrite.conditionOf_ifNotExists (w := .put w) hd hbuild honly rfl hkey
  rw [← hkey] at hsame
  have hfind : t.find? w.item = t.find? key := Table.find?_congr_key hsame
  by_cases hhas : t.Has key
  · rw [hfind, show (t.find? key).isSome = true from hhas] at hcondition
    obtain ⟨detail, hrefused⟩ := (SingleWrite.refused_iff (w := .put w) hd hbuild hkey).2 hcondition
    refine .inl ⟨hhas, Tables.wasRefused_outcomeOf.2 ⟨detail, hwrite ▸ hrefused⟩, ?_⟩
    rw [hwrite, Table.write_of_refused hrefused]
    exact Tables.get?_put_same (htable ▸ ht)
  · rw [hfind, Bool.eq_false_iff.2 hhas] at hcondition
    obtain ⟨response, hdone⟩ := (SingleWrite.put_done_iff hd hbuild hkey).2 hcondition
    refine .inr ⟨hhas, Tables.wasWritten_outcomeOf.2 ⟨response, hwrite ▸ hdone⟩, ?_⟩
    rw [Put.operation_of_build hbuild] at hwrite hdone
    rw [hwrite, Table.write_of_done hdone, htable]
    exact ⟨_, Entries.get?_put_self _ _ _, hkey, Table.has_put_self hsame⟩

/-! ## Many puts -/

/-- The event deletes no item of this key and makes no error wait. -/
def Store.Event.Spares (e : Store.Event) (d : Descriptor) (key : Item) : Prop :=
  ¬e.Deletes d.table d.key key ∧ ∀ err, e ≠ .failNext err

theorem Store.Event.spares_throttleNext (n : Nat) (d : Descriptor) (key : Item) : Spares (.throttleNext n) d key := by
  constructor
  · intro h
    cases h
  · intro err h
    cases h

namespace JointWrites

/-- All writes put an item of this key only if there is none, and of those that the store has served all but the first
have been refused. -/
structure OneWins (d : Descriptor) (key : Item) (j : JointWrites) : Prop where
  errors : j.store.faults.errors = []
  table : ∃ t, j.store.tables.get? d.table = some t ∧ t.key = d.key
  puts : ∀ e ∈ j.inventory, e.1.PutsIfNew d key
  /-- After the first there is an item of the key. -/
  held : served j.finished ≠ [] → j.store.tables.HasItem d.table d.key key
  decided : ∀ e ∈ served j.finished, wasWritten e.2 = true ∨ wasRefused e.2 = true
  losers : ∀ e ∈ (served j.finished).tail, wasRefused e.2 = true

namespace OneWins
variable {x : Nat → Executor} {d : Descriptor} {key : Item} {j j' : JointWrites} {t : WriteTask}
    {others : List WriteTask}

/-- A turn that the store has not served changes nothing. -/
theorem of_same (h : j.OneWins d key) (htables : j'.store.tables = j.store.tables)
    (herrors : j'.store.faults.errors = []) (hputs : ∀ e ∈ j'.inventory, e.1.PutsIfNew d key)
    (hserved : served j'.finished = served j.finished) : j'.OneWins d key where
  errors := herrors
  table := htables ▸ h.table
  puts := hputs
  held := by
    rw [htables, hserved]
    exact h.held
  decided := hserved ▸ h.decided
  losers := hserved ▸ h.losers

/-- What a turn does: if it changes the tables, no write has been served before, there is no item of the key, and the
write is written. -/
theorem turn (h : j.OneWins d key) (hd : d.Compiled) (hperm : j.underWay.Perm (t :: others)) :
    (j.turn x t others).OneWins d key ∧
    ((∀ name, (j.turn x t others).store.tables.get? name = j.store.tables.get? name) ∨
      served j.finished = [] ∧ (∀ item ∈ j.store.items d.table, d.key.sameKey item key = false) ∧
      ∃ image, (j.turn x t others).finished = j.finished ++ [(t, .ok (.written image))]) := by
  have hput := h.puts _ (mem_inventory hperm)
  have hturned := turn_cases x others hput.isWrite h.errors
  have hinventory := inventory_turn x hperm
  generalize j.turn x t others = next at hturned hinventory ⊢
  have hputs : ∀ e ∈ next.inventory, e.1.PutsIfNew d key := fun e he => h.puts e (hinventory.mem_iff.1 he)
  cases hturned with
  | again _ htables herrors _ => exact ⟨h.of_same htables herrors hputs rfl, .inl fun _ => by rw [htables]⟩
  | givenUp _ htables herrors _ =>
    exact ⟨h.of_same htables herrors hputs (served_append_gaveUp _ _ _), .inl fun _ => by rw [htables]⟩
  | @served s htables herrors _ =>
    obtain ⟨tb, htb, hkey⟩ := h.table
    rcases hput.writeOne hd htb hkey with ⟨hhas, hrefused, hsame⟩ | ⟨hnot, hwritten, hitem⟩
    · have hget : ∀ name, s.tables.get? name = j.store.tables.get? name := fun name => htables ▸ hsame name
      have htb' := (hget d.table).trans htb
      refine ⟨⟨herrors, ⟨tb, htb', hkey⟩, hputs, fun _ => ⟨tb, htb', hkey, hhas⟩, ?_, ?_⟩, .inl hget⟩
      · rw [served_append_outcomeOf]
        exact List.forall_mem_append.2 ⟨h.decided, List.forall_mem_singleton.2 (.inr hrefused)⟩
      · rw [served_append_outcomeOf]
        have hlosers := h.losers
        generalize served j.finished = before at hlosers
        cases before with
        | nil => exact List.forall_mem_nil _
        | cons first rest => exact List.forall_mem_append.2 ⟨hlosers, List.forall_mem_singleton.2 hrefused⟩
    · -- had a write been served before, there would be an item of the key
      have hnone : served j.finished = [] := by
        by_contra hne
        obtain ⟨tb', htb', -, hhas⟩ := h.held hne
        obtain rfl : tb = tb' := Option.some.inj (htb.symm.trans htb')
        exact hnot hhas
      obtain ⟨tb', htb', hkey', hhas'⟩ := hitem
      refine ⟨⟨herrors, ⟨tb', htables ▸ htb', hkey'⟩, hputs, fun _ => ⟨tb', htables ▸ htb', hkey', hhas'⟩,
        ?_, ?_⟩, .inr ⟨hnone, ?_, ?_⟩⟩
      · rw [served_append_outcomeOf, hnone]
        exact List.forall_mem_singleton.2 (.inl hwritten)
      · rw [served_append_outcomeOf, hnone]
        exact List.forall_mem_nil _
      · rw [Store.items_of_get? htb]
        exact (Table.not_has_iff hkey).1 hnot
      · obtain ⟨response, hdone⟩ := Tables.wasWritten_outcomeOf.1 hwritten
        refine ⟨response.attributes, ?_⟩
        rw [Tables.outcomeOf, hdone]
        rfl

theorem event (h : j.OneWins d key) {e : Store.Event} (he : e.Spares d key) :
    OneWins d key { j with store := j.store.handle e } where
  errors := Store.errors_handle h.errors he.2
  table := by
    obtain ⟨tb, htb, hkey⟩ := h.table
    obtain ⟨tb', htb', hcontinues, -⟩ := Store.handle_continues j.store e htb
    exact ⟨tb', htb', hcontinues.key.trans hkey⟩
  puts := h.puts
  held hne := (h.held hne).handle he.1
  decided := h.decided
  losers := h.losers

end OneWins

/-- **However the writes proceed, one of them wins at most.** -/
theorem Proceeds.oneWins {x : Nat → Executor} {d : Descriptor} {key : Item} {j j' : JointWrites} {es : List Store.Event}
    (h : Proceeds x j es j') (hd : d.Compiled) (hes : ∀ e ∈ es, e.Spares d key) (hj : j.OneWins d key) :
    j'.OneWins d key := by
  induction h with
  | rest _ => exact hj
  | turn hperm _ ih => exact ih hes (hj.turn hd hperm).1
  | event _ ih =>
    obtain ⟨he, hes⟩ := List.forall_mem_cons.1 hes
    exact ih hes (hj.event he)

end JointWrites

/-- **The first put of a key wins.**  Take the table of a shape, whatever has happened to it since it was created.  A
put that is only for a new item is written exactly if no item has its key, and else refused; a write that is only for an
item that is there passes its condition exactly if one has its key.  So let clients put items of one key, each only if
it is new, in whatever order their requests come, however often they are throttled and sent again, and whatever else
happens to the store, if only nothing deletes an item of this key and no other error waits.  Then of the puts that the
store has served all but the first have been refused; and when it is the turn of any of them, nothing changes in the
tables, unless none has been served before, no item has the key, and this put is written. -/
theorem first_put_of_a_key_wins {d : Descriptor} (hd : d.Compiled) (before : List Store.Event)
    (hnew : (Store.run {} before).tables.get? d.table = none) (after : List Store.Event) :
    let s := Store.run {} (before ++ .create d :: after)
    (∀ (w : Put) (p : Plan) (x : Executor) (time : Nat), w.shape = d →
      w.conditions = (ItemWrite.ifNotExists { shape := d }).conditions → w.build = .ok p → s.faults.next.1 = none →
      (wasWritten (x.write p ⟨s, time⟩).1 = true ↔
        ∀ item ∈ s.items d.table, d.key.sameKey item w.item = false) ∧
      (wasRefused (x.write p ⟨s, time⟩).1 = true ↔
        ∃ item ∈ s.items d.table, d.key.sameKey item w.item = true)) ∧
    (∀ (w : SingleWrite) (p : Plan) (x : Executor) (time : Nat), w.shape = d →
      w.conditions = (ItemWrite.ifExists { shape := d }).conditions → w.build = .ok p → s.faults.next.1 = none →
      ∃ key, w.target = .ok key ∧
        (s.tables.conditionOf p = .ok true ↔ ∃ item ∈ s.items d.table, d.key.sameKey item key = true) ∧
        (wasRefused (x.write p ⟨s, time⟩).1 = true ↔
          ∀ item ∈ s.items d.table, d.key.sameKey item key = false)) ∧
    ∀ (key : Item) (x : Nat → Executor) (plans : List Plan) (es : List Store.Event) (j : JointWrites),
      s.faults.errors = [] → (∀ p ∈ plans, p.PutsIfNew d key) → (∀ e ∈ es, e.Spares d key) →
      JointWrites.Proceeds x (.start x s plans) es j →
      (∀ first rest, JointWrites.served j.finished = first :: rest →
        (wasWritten first.2 = true ∨ wasRefused first.2 = true) ∧ ∀ e ∈ rest, wasRefused e.2 = true) ∧
      ∀ (t : WriteTask) (others : List WriteTask), j.underWay.Perm (t :: others) →
        (∀ name, (j.turn x t others).store.tables.get? name = j.store.tables.get? name) ∨
        JointWrites.served j.finished = [] ∧ (∀ item ∈ j.store.items d.table, d.key.sameKey item key = false) ∧
          ∃ image, (j.turn x t others).finished = j.finished ++ [(t, .ok (.written image))] := by
  intro s
  obtain ⟨t, ht, hshape, -⟩ := Store.exists_ofShape hnew after
  have hitems : s.items d.table = t.items := Store.items_of_get? ht
  refine ⟨fun w p x time hw honly hbuild hcalm => ?_, fun w p x time hw honly hbuild hcalm => ?_,
    fun key x plans es j herrors hputs hes hproceeds => ?_⟩
  · have hput : p.PutsIfNew d w.item := ⟨w, hbuild, hw, honly, hshape.key ▸ t.sameKey_self w.item⟩
    rw [x.write_of_no_fault hcalm hput.isWrite, hitems, ← Table.not_has_iff hshape.key, ← Table.has_iff hshape.key]
    rcases hput.writeOne hd ht hshape.key with ⟨hhas, hrefused, -⟩ | ⟨hnot, hwritten, -⟩
    · exact ⟨iff_of_false (not_wasWritten_of_wasRefused hrefused) (not_not.2 hhas), iff_of_true hrefused hhas⟩
    · exact ⟨iff_of_true hwritten hnot, iff_of_false (fun h => not_wasWritten_of_wasRefused h hwritten) hnot⟩
  · subst hw
    obtain ⟨hwrite, htable⟩ := SingleWrite.plan_of_build hbuild
    have ht' : s.tables.get? p.table = some t := htable ▸ ht
    obtain ⟨key, hkey, -⟩ := SingleWrite.write_of_build hd hbuild hshape.key
    have hcondition := SingleWrite.conditionOf_ifExists hd hbuild honly hkey hshape.key
    refine ⟨key, hkey, ?_⟩
    rw [hitems, ← Table.not_has_iff hshape.key, ← Table.has_iff hshape.key]
    constructor
    · rw [Tables.conditionOf_eq ht', hcondition, Except.ok.injEq]
      rfl
    · rw [x.write_of_no_fault hcalm hwrite, Tables.wasRefused_outcomeOf, Tables.writeOne_eq ht',
        SingleWrite.refused_iff hd hbuild hshape.key, hcondition, Table.Has, Except.ok.injEq, Bool.not_eq_true]
  · have hstart : (JointWrites.start x s plans).OneWins d key := by
      refine ⟨herrors, ⟨t, ht, hshape.key⟩, ?_, fun hne => absurd rfl hne, List.forall_mem_nil _,
        List.forall_mem_nil _⟩
      rw [JointWrites.inventory_start]
      exact fun e he => hputs e.1 (List.fst_mem_of_mem_zipIdx he)
    have hwins := hproceeds.oneWins hd hes hstart
    refine ⟨fun first rest hserved => ⟨hwins.decided first (hserved ▸ .head _), ?_⟩, fun task others hperm =>
      (hwins.turn hd hperm).2⟩
    have hlosers := hwins.losers
    rwa [hserved] at hlosers

namespace Samples

/-- An order that is put only if it is new. -/
def newOrder (returnValues : ReturnValues) : Put :=
  { bareOrder with conditions := (ItemWrite.ifNotExists { shape := bareOrder.shape }).conditions, returnValues }

end Samples

open Samples in
/-- Two clients put one order, and the first request is throttled. -/
theorem first_put_of_a_key_wins_of_two_clients :
    let x : Nat → Executor := fun _ => twice
    ∃ p q j first second, (newOrder .nothing).build = .ok p ∧ (newOrder .allOld).build = .ok q ∧
      JointWrites.Proceeds x (.start x (Store.run {} [.create bareOrder.shape]) [p, q]) [.throttleNext 1] j ∧
      j.underWay = [] ∧ j.finished.map Prod.snd = [first, second] ∧ wasWritten first = true ∧
        wasRefused second = true := by
  intro x
  obtain ⟨p, hp⟩ : ∃ p, (newOrder .nothing).build = .ok p := ⟨_, rfl⟩
  obtain ⟨q, hq⟩ : ∃ q, (newOrder .allOld).build = .ok q := ⟨_, rfl⟩
  have hcompiled : bareOrder.shape.Compiled :=
    ⟨⟨"Order", "orders", [⟨"id", .string, false, false, .partition⟩], []⟩, rfl⟩
  have hputs : ∀ p' ∈ [p, q], p'.PutsIfNew bareOrder.shape bareOrder.item :=
    List.forall_mem_cons.2 ⟨⟨newOrder .nothing, hp, rfl, rfl, rfl⟩,
      List.forall_mem_singleton.2 ⟨newOrder .allOld, hq, rfl, rfl, rfl⟩⟩
  obtain ⟨hsingle, -, hmany⟩ := first_put_of_a_key_wins hcompiled [] rfl []
  obtain ⟨j, t, t', hproceeds, hdone, hfinished, ⟨rfl, -⟩, ⟨rfl, -⟩⟩ := JointWrites.exists_both_served x
    (s := (Store.run {} [.create bareOrder.shape]).throttleNext 1) rfl (hputs p (.head _)).isWrite
    (hputs q (.tail _ (.head _))).isWrite fun _ => Nat.le_refl 1
  have hserved := congrArg JointWrites.served hfinished
  rw [JointWrites.served_append_outcomeOf, ← List.nil_append [(t, _)], JointWrites.served_append_outcomeOf] at hserved
  obtain ⟨hwins, -⟩ := hmany bareOrder.item x [t.plan, t'.plan] [.throttleNext 1] j rfl hputs
    (List.forall_mem_singleton.2 (Store.Event.spares_throttleNext 1 _ _)) (.event hproceeds)
  obtain ⟨-, hlosers⟩ := hwins _ _ hserved
  have hwritten := (hsingle (newOrder .nothing) _ twice 0 rfl rfl hp rfl).1.2 (List.forall_mem_nil _)
  rw [twice.write_of_no_fault rfl (hputs _ (.head _)).isWrite] at hwritten
  exact ⟨_, _, j, _, _, hp, hq, .event hproceeds, hdone, by rw [hfinished]; rfl, hwritten, hlosers _ (.head _)⟩

end ItemStore
