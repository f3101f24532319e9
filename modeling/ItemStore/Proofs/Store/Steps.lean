import ItemStore.Proofs.Outcome
import ItemStore.Proofs.Store.Keys
import ItemStore.Store.Serving
/-!
# What can happen to a store

A request can do no more to a table than put items into it and take items out (`Store.send_become`), and a table that is
created again gains indexes and loses nothing.  So over any run of events a table keeps its key and the indexes it has,
and no two of its items are ever of one key (`Store.run_continues`, `Store.run_distinct`).
-/
namespace ItemStore

namespace Table

/-- Puts and removes make the second table of the first. -/
inductive Becomes (t : Table) : Table → Prop where
  | same : Becomes t t
  | put {t'} (item : Item) : Becomes t t' → Becomes t (t'.put item)
  | remove {t'} (key : Item) : Becomes t t' → Becomes t (t'.remove key)

namespace Becomes

theorem trans {t t' t'' : Table} (h : Becomes t t') (h' : Becomes t' t'') : Becomes t t'' := by
  induction h' with
  | same => exact h
  | put item _ ih => exact .put item ih
  | remove key _ ih => exact .remove key ih

theorem key_eq {t t' : Table} (h : Becomes t t') : t'.key = t.key := by
  induction h with
  | same => rfl
  | put item _ ih => exact ih
  | remove key _ ih => exact ih

theorem indexes_eq {t t' : Table} (h : Becomes t t') : t'.indexes = t.indexes := by
  induction h with
  | same => rfl
  | put item _ ih => exact ih
  | remove key _ ih => exact ih

theorem distinct {t t' : Table} (h : Becomes t t') (hd : t.Distinct) : t'.Distinct := by
  induction h with
  | same => exact hd
  | put item _ ih => exact distinct_put ih item
  | remove key _ ih => exact distinct_remove ih key

end Becomes

/-! ## One table -/

/-- All that a write can do.  A put or a delete that has passed its checks is done, whatever image it asks for. -/
theorem write_cases (t : Table) (operation : Operation) (e : Expressions) (image : ReturnValues) :
    (∃ err, t.write operation e image = (.error err, t)) ∨
    (∃ item, operation = .put item ∧ t.checkWrite e (t.checkKeyAttributes item) item = .ok () ∧
      t.write operation e image = (oldImage "PutItem" (t.find? item) image, t.put item)) ∨
    (∃ key, operation = .delete key ∧ t.checkWrite e (t.checkKey key) key = .ok () ∧
      t.write operation e image = (oldImage "DeleteItem" (t.find? key) image, t.remove key)) ∨
    ∃ key update item touched, operation = .update key update ∧ t.updated e key update = .ok (item, touched) ∧
      t.write operation e image = (.ok { attributes := updateImage (t.find? key) item touched image }, t.put item) := by
  unfold write
  split
  · next item =>
    cases hcheck : t.checkWrite e (t.checkKeyAttributes item) item with
    | error err => exact .inl ⟨err, rfl⟩
    | ok _ => exact .inr (.inl ⟨item, rfl, hcheck, rfl⟩)
  · next key =>
    cases hcheck : t.checkWrite e (t.checkKey key) key with
    | error err => exact .inl ⟨err, rfl⟩
    | ok _ => exact .inr (.inr (.inl ⟨key, rfl, hcheck, rfl⟩))
  · next key update =>
    cases hupdated : t.updated e key update with
    | error err => exact .inl ⟨err, rfl⟩
    | ok made => exact .inr (.inr (.inr ⟨key, update, made.1, made.2, rfl, hupdated, rfl⟩))
  · exact .inl ⟨_, rfl⟩

theorem becomes_write (t : Table) (operation : Operation) (e : Expressions) (image : ReturnValues) :
    t.Becomes (t.write operation e image).2 := by
  rcases write_cases t operation e image with ⟨err, h⟩ | ⟨item, -, -, h⟩ | ⟨key, -, -, h⟩ |
    ⟨_, _, item, _, -, -, h⟩
  · rw [h]
    exact .same
  · rw [h]
    exact .put item .same
  · rw [h]
    exact .remove key .same
  · rw [h]
    exact .put item .same

theorem becomes_applyEntries (t : Table) : ∀ {t' : Table} (entries : List BatchEntry), t.Becomes t' →
    t.Becomes (entries.foldl applyEntry t')
  | _, [], h => h
  | _, .put item :: entries, h => becomes_applyEntries t entries (.put item h)
  | _, .delete key :: entries, h => becomes_applyEntries t entries (.remove key h)

end Table

/-! ## All tables -/

namespace Tables

/-- Each table becomes one of the same name, and there are no others. -/
def Become (ts ts' : Tables) : Prop := ∀ name, Option.Rel Table.Becomes (ts.get? name) (ts'.get? name)

theorem Become.refl (ts : Tables) : Become ts ts := by
  intro name
  cases ts.get? name with
  | none => exact .none
  | some t => exact .some .same

theorem rel_becomes_trans : ∀ {a b c : Option Table}, Option.Rel Table.Becomes a b → Option.Rel Table.Becomes b c →
    Option.Rel Table.Becomes a c
  | _, _, _, .none, .none => .none
  | _, _, _, .some h, .some h' => .some (h.trans h')

theorem Become.trans {ts ts' ts'' : Tables} (h : Become ts ts') (h' : Become ts' ts'') : Become ts ts'' :=
  fun name => rel_becomes_trans (h name) (h' name)

theorem Become.exists_before {ts ts' : Tables} {name : String} {t' : Table} (h : ts.Become ts')
    (ht' : ts'.get? name = some t') : ∃ t, ts.get? name = some t ∧ t.Becomes t' := by
  have hname := h name
  rw [ht'] at hname
  generalize ts.get? name = found at hname ⊢
  cases hname with
  | some hbecomes => exact ⟨_, rfl, hbecomes⟩

theorem become_put {ts : Tables} {name : String} {t t' : Table} (ht : ts.get? name = some t) (h : t.Becomes t') :
    Become ts (ts.put name t') := by
  intro other
  by_cases hname : other = name
  · rw [hname, ht, Entries.get?_put_self]
    exact .some h
  · rw [Entries.get?_put_of_ne ts t' hname]
    exact Become.refl ts other

theorem writeOne_become (ts : Tables) (p : Plan) : Become ts (ts.writeOne p).2 := by
  unfold writeOne
  split
  · exact Become.refl ts
  · next t ht => exact become_put ht (t.becomes_write p.operation p.expressions p.returnValues)

theorem stage_become : ∀ {ps : List Plan} {ts : Tables} {reasons : List (Option String)} {staged : Tables},
    ts.stage ps = .ok (reasons, staged) → Become ts staged
  | [], ts, _, _, h => by
    cases h
    exact Become.refl ts
  | p :: ps, ts, _, _, h => by
    have hone := writeOne_become ts p
    unfold stage at h
    split at h
    · next hwrite =>
      obtain ⟨⟨reasons, staged⟩, hstage, hok⟩ := Outcome.bind_eq_ok.1 h
      cases hok
      rw [hwrite] at hone
      exact hone.trans (stage_become hstage)
    · next hwrite =>
      obtain ⟨⟨reasons, staged⟩, hstage, hok⟩ := Outcome.bind_eq_ok.1 h
      cases hok
      rw [hwrite] at hone
      exact hone.trans (stage_become hstage)
    · cases h

/-- A transaction that is answered with an error leaves the tables; else they are the copies it has staged. -/
theorem transact_cases (ts : Tables) (writes : List Plan) :
    (∃ err, ts.transact writes = (.error err, ts)) ∨
    ∃ reasons staged, ts.stage writes = .ok (reasons, staged) ∧ ts.transact writes = (.ok {}, staged) := by
  unfold transact
  split
  · cases hstage : ts.stage writes with
    | error err => exact .inl ⟨err, rfl⟩
    | ok result =>
      obtain ⟨reasons, staged⟩ := result
      by_cases hany : reasons.any Option.isSome = true
      · refine .inl ⟨.canceled reasons, ?_⟩
        simp only [hany, if_true]
      · refine .inr ⟨reasons, staged, rfl, ?_⟩
        simp only [hany, if_false, Bool.false_eq_true]
  · exact .inl ⟨_, rfl⟩

end Tables

/-! ## Requests -/

namespace Store

/-- All that a request can do to the tables, if it names one that is there. -/
theorem serveTable_cases (s : Store) (t : Table) (r : Request) :
    (s.serveTable t r).2.tables = s.tables ∨
    (∃ resp, ∃ entries : List BatchEntry, (s.serveTable t r).1 = .ok resp ∧
      (s.serveTable t r).2.tables = s.tables.put r.table (entries.foldl Table.applyEntry t)) ∨
    s.serveTable t r = s.withTable r.table (t.write r.operation r.expressions r.returnValues) := by
  unfold serveTable
  split
  · exact .inl rfl
  · exact .inl rfl
  · exact .inl rfl
  · unfold batchGet
    split <;> exact .inl rfl
  · unfold batchWrite
    split
    · split
      · exact .inl rfl
      · exact .inr (.inl ⟨_, _, rfl, rfl⟩)
    · exact .inl rfl
  · exact .inr (.inr rfl)

theorem serveTable_tables (s : Store) (t : Table) (r : Request) : (s.serveTable t r).2.tables = s.tables ∨
    ∃ t', t.Becomes t' ∧ (s.serveTable t r).2.tables = s.tables.put r.table t' := by
  rcases serveTable_cases s t r with h | ⟨_, entries, _, h⟩ | h
  · exact .inl h
  · exact .inr ⟨_, t.becomes_applyEntries entries .same, h⟩
  · rw [h]
    exact .inr ⟨_, t.becomes_write r.operation r.expressions r.returnValues, rfl⟩

theorem send_of_fault {s : Store} {e : StoreError} {faults : Faults} (h : s.faults.next = (some e, faults))
    (r : Request) : s.send r = (.error e, { s with log := s.log ++ [r], faults }) := by
  simp only [send, h]

theorem send_of_no_fault {s : Store} {faults : Faults} (h : s.faults.next = (none, faults)) (r : Request) :
    s.send r = { s with log := s.log ++ [r] }.serve r := by
  simp only [send, h]

/-- **A request does no more to the tables than puts and removes.** -/
theorem send_become (s : Store) (r : Request) : s.tables.Become (s.send r).2.tables := by
  rcases hnext : s.faults.next with ⟨_ | e, faults⟩
  · rw [send_of_no_fault hnext]
    unfold serve
    split
    · next writes token _ =>
      rcases Tables.transact_cases s.tables writes with ⟨err, h⟩ | ⟨reasons, staged, hstage, h⟩
      · rw [h]
        exact Tables.Become.refl s.tables
      · rw [h]
        exact Tables.stage_become hstage
    · split
      · next t ht =>
        rcases serveTable_tables _ t r with h | ⟨t', hb, h⟩
        · rw [h]
          exact Tables.Become.refl s.tables
        · rw [h]
          exact Tables.become_put ht hb
      · exact Tables.Become.refl s.tables
  · rw [send_of_fault hnext]
    exact Tables.Become.refl s.tables

/-! ## Runs of events -/

/-- What can happen to a store. -/
inductive Event where
  | create (d : Descriptor)
  | insert (table : String) (item : Item)
  | send (r : Request)
  | throttleNext (n : Nat)
  | failNext (e : StoreError)
  | leaveUnprocessed (n : Nat)
  | clearLog

/-- The store that an event leaves. -/
def handle (s : Store) : Event → Store
  | .create d => s.create d
  | .insert table item => s.insert table item
  | .send r => (s.send r).2
  | .throttleNext n => s.throttleNext n
  | .failNext e => s.failNext e
  | .leaveUnprocessed n => s.leaveUnprocessed n
  | .clearLog => s.clearLog

/-- The store that events leave, one after the other. -/
def run (s : Store) (es : List Event) : Store := es.foldl handle s

end Store

namespace Table

/-- The second table has the key of the first and all of its indexes. -/
structure Continues (t t' : Table) : Prop where
  key : t'.key = t.key
  indexes : ∀ {name i}, t.indexes.get? name = some i → t'.indexes.get? name = some i

theorem Continues.refl (t : Table) : Continues t t := ⟨rfl, id⟩

theorem Continues.trans {t t' t'' : Table} (h : Continues t t') (h' : Continues t' t'') : Continues t t'' :=
  ⟨h'.key.trans h.key, fun hi => h'.indexes (h.indexes hi)⟩

theorem Becomes.continues {t t' : Table} (h : Becomes t t') : Continues t t' :=
  ⟨h.key_eq, fun hi => by rw [h.indexes_eq, hi]⟩

theorem get?_gainedIndexes : ∀ {is : List Index} {acc : Entries TableIndex} {name : String} {x : TableIndex},
    acc.get? name = some x →
    Entries.get? (is.foldl (fun acc i => if acc.has i.name then acc else acc.put i.name ⟨i.kind, i.key⟩) acc) name =
      some x
  | [], _, _, _, h => h
  | i :: is, acc, name, x, h => by
    rw [List.foldl_cons]
    refine get?_gainedIndexes ?_
    split
    · exact h
    · next hhas =>
      -- An index that is there already is not put again, so what is put has another name.
      have hne : name ≠ i.name := by
        rintro rfl
        rw [Entries.has, h] at hhas
        exact hhas rfl
      rw [Entries.get?_put_of_ne acc _ hne, h]

/-- An index that is not there yet is gained as it is declared first. -/
theorem get?_gainedIndexes_of_find? : ∀ {is : List Index} {acc : Entries TableIndex} {name : String} {i : Index},
    acc.get? name = none → is.find? (fun i => i.name == name) = some i →
    Entries.get? (is.foldl (fun acc i => if acc.has i.name then acc else acc.put i.name ⟨i.kind, i.key⟩) acc) name =
      some ⟨i.kind, i.key⟩
  | [], _, _, _, _, h => by cases h
  | first :: is, acc, name, i, hnone, h => by
    rw [List.foldl_cons]
    by_cases hname : first.name = name
    · rw [List.find?_cons, beq_iff_eq.2 hname] at h
      cases h
      subst hname
      rw [Entries.has, hnone]
      exact get?_gainedIndexes (Entries.get?_put_self _ _ _)
    · rw [List.find?_cons, beq_eq_false_iff_ne.2 hname] at h
      refine get?_gainedIndexes_of_find? ?_ h
      split
      · exact hnone
      · rw [Entries.get?_put_of_ne _ _ (Ne.symm hname), hnone]

/-- The table has the key and the indexes of the shape. -/
structure OfShape (t : Table) (d : Descriptor) : Prop where
  key : t.key = d.key
  indexes : ∀ {name i}, d.index? name = some i → t.indexes.get? name = some ⟨i.kind, i.key⟩

theorem OfShape.continues {t t' : Table} {d : Descriptor} (h : t.OfShape d) (hc : t.Continues t') : t'.OfShape d :=
  ⟨hc.key.trans h.key, fun hi => hc.indexes (h.indexes hi)⟩

end Table

namespace Store

/-- A table that is not there yet is created as the shape has it. -/
theorem exists_of_create {s : Store} {d : Descriptor} (h : s.tables.get? d.table = none) :
    ∃ t, (s.create d).tables.get? d.table = some t ∧ t.OfShape d := by
  refine ⟨_, Entries.get?_put_self _ _ _, ?_⟩
  rw [h]
  exact ⟨rfl, Table.get?_gainedIndexes_of_find? (Entries.get?_nil _)⟩

/-- What an event does to a table that is there. -/
theorem handle_continues (s : Store) (e : Event) {name : String} {t : Table} (ht : s.tables.get? name = some t) :
    ∃ t', (s.handle e).tables.get? name = some t' ∧ t.Continues t' ∧ (t.Distinct → t'.Distinct) := by
  cases e with
  | create d =>
    by_cases hname : name = d.table
    · subst hname
      refine ⟨_, Entries.get?_put_self _ _ _, ?_⟩
      rw [ht]
      exact ⟨⟨rfl, Table.get?_gainedIndexes⟩, id⟩
    · refine ⟨t, ?_, .refl t, id⟩
      rw [← ht]
      exact Entries.get?_put_of_ne _ _ hname
  | insert table item =>
    show ∃ t', (s.insert table item).tables.get? name = some t' ∧ _
    unfold insert
    split
    · next t₀ ht₀ =>
      by_cases hname : name = table
      · subst hname
        rw [ht₀] at ht
        cases ht
        exact ⟨_, Entries.get?_put_self _ _ _, (Table.Becomes.put item .same).continues, fun h =>
          Table.distinct_put h item⟩
      · exact ⟨t, (Entries.get?_put_of_ne _ _ hname).trans ht, .refl t, id⟩
    · exact ⟨t, ht, .refl t, id⟩
  | send r =>
    have hrel := send_become s r name
    rw [ht] at hrel
    show ∃ t', (s.send r).2.tables.get? name = some t' ∧ _
    generalize (s.send r).2.tables.get? name = found at hrel
    cases hrel with
    | some hb => exact ⟨_, rfl, hb.continues, hb.distinct⟩
  | throttleNext n => exact ⟨t, ht, .refl t, id⟩
  | failNext e => exact ⟨t, ht, .refl t, id⟩
  | leaveUnprocessed n => exact ⟨t, ht, .refl t, id⟩
  | clearLog => exact ⟨t, ht, .refl t, id⟩

/-- **Over any run of events a table keeps its key and its indexes.** -/
theorem run_continues : ∀ (es : List Event) (s : Store) {name : String} {t : Table}, s.tables.get? name = some t →
    ∃ t', (s.run es).tables.get? name = some t' ∧ t.Continues t'
  | [], _, _, t, ht => ⟨t, ht, .refl t⟩
  | e :: es, s, _, _, ht => by
    obtain ⟨t', ht', hc, -⟩ := handle_continues s e ht
    obtain ⟨t'', ht'', hc'⟩ := run_continues es (s.handle e) ht'
    exact ⟨t'', ht'', hc.trans hc'⟩

/-- No table of the store has two items of one key. -/
def Distinct (s : Store) : Prop := ∀ {name t}, s.tables.get? name = some t → t.Distinct

/-- A table that an event has brought about is empty. -/
theorem handle_new {s : Store} {e : Event} {name : String} {t : Table} (h : s.tables.get? name = none)
    (ht : (s.handle e).tables.get? name = some t) : t.items = [] := by
  cases e with
  | create d =>
    by_cases hname : name = d.table
    · subst hname
      have hself := ht.symm.trans (Entries.get?_put_self _ _ _)
      rw [h] at hself
      cases hself
      rfl
    · have hother := (Entries.get?_put_of_ne s.tables _ hname).symm.trans ht
      rw [h] at hother
      cases hother
  | insert table item =>
    have ht : (s.insert table item).tables.get? name = some t := ht
    unfold insert at ht
    split at ht
    · next t₀ ht₀ =>
      by_cases hname : name = table
      · subst hname
        rw [h] at ht₀
        cases ht₀
      · have hother := (Entries.get?_put_of_ne s.tables (t₀.put item) hname).symm.trans ht
        rw [h] at hother
        cases hother
    · rw [h] at ht
      cases ht
  | send r =>
    have hrel := send_become s r name
    have hsome : (s.send r).2.tables.get? name = some t := ht
    rw [h, hsome] at hrel
    cases hrel
  | _ =>
    have hsame : s.tables.get? name = some t := ht
    rw [h] at hsame
    cases hsame

theorem handle_distinct {s : Store} (h : s.Distinct) (e : Event) : (s.handle e).Distinct := by
  intro name t ht
  cases hbefore : s.tables.get? name with
  | none =>
    have hempty := handle_new hbefore ht
    rw [Table.Distinct, hempty]
    exact List.Pairwise.nil
  | some t₀ =>
    obtain ⟨t', ht', -, hd⟩ := handle_continues s e hbefore
    rw [ht] at ht'
    cases ht'
    exact hd (h hbefore)

/-- **Whatever happens, no table comes to hold two items of one key.** -/
theorem run_distinct : ∀ (es : List Event) {s : Store}, s.Distinct → (s.run es).Distinct
  | [], _, h => h
  | e :: es, _, h => run_distinct es (handle_distinct h e)

theorem distinct_empty : Distinct {} := fun h => by cases h

end Store
end ItemStore
