import ItemStore.Proofs.Store.Steps
/-!
# What a refused request leaves behind

A request that is answered with an error leaves every table as it was, with one exception: a put or a delete that has
passed its checks, and then asks for an image it cannot have, is refused only after it has been done
(`refused_request_changes_tables_iff`).  In a transaction the same refusal leaves nothing behind, for it ends the run on
the copies.
-/
namespace ItemStore

namespace Table

/-! ## Writes that change nothing -/

theorem replaceFirst_eq_self_iff {same : Item → Bool} {item : Item} : ∀ {xs : List Item},
    replaceFirst same item xs = xs ↔ xs.find? same = some item
  | [] => by simp [replaceFirst]
  | x :: xs => by
    cases hsame : same x with
    | true =>
      rw [replaceFirst, if_pos hsame, List.find?_cons_of_pos hsame, Option.some_inj]
      constructor
      · intro h
        exact (List.cons.inj h).1.symm
      · intro h
        rw [h]
    | false =>
      have hnot : ¬same x = true := Bool.eq_false_iff.1 hsame
      rw [replaceFirst, if_neg hnot, List.find?_cons_of_neg hnot, ← replaceFirst_eq_self_iff]
      constructor
      · intro h
        exact (List.cons.inj h).2
      · intro h
        rw [h]

theorem eraseP_eq_self_iff {same : Item → Bool} : ∀ {xs : List Item}, xs.eraseP same = xs ↔ xs.find? same = none
  | [] => by simp
  | x :: xs => by
    cases hsame : same x with
    | true =>
      rw [List.eraseP_cons_of_pos hsame, List.find?_cons_of_pos hsame]
      constructor
      · intro h
        have hlength := congrArg List.length h
        rw [List.length_cons] at hlength
        omega
      · intro h
        cases h
    | false =>
      have hnot : ¬same x = true := Bool.eq_false_iff.1 hsame
      rw [List.eraseP_cons_of_neg hnot, List.find?_cons_of_neg hnot, ← eraseP_eq_self_iff]
      constructor
      · intro h
        exact (List.cons.inj h).2
      · intro h
        rw [h]

theorem put_eq_self_iff {t : Table} {item : Item} : t.put item = t ↔ t.find? item = some item := by
  rw [find?, ← replaceFirst_eq_self_iff]
  constructor
  · intro h
    exact congrArg Table.items h
  · intro h
    rw [put, h]

theorem remove_eq_self_iff {t : Table} {key : Item} : t.remove key = t ↔ t.find? key = none := by
  rw [find?, ← eraseP_eq_self_iff]
  constructor
  · intro h
    exact congrArg Table.items h
  · intro h
    rw [remove, h]

/-! ## Refusals that come too late -/

theorem oldImage_eq_error (action : String) (existing : Option Item) {image : ReturnValues} :
    (∃ err, oldImage action existing image = .error err) ↔ image ≠ .nothing ∧ image ≠ .allOld := by
  constructor
  · rintro ⟨err, h⟩
    cases image with
    | nothing => cases h
    | allOld => cases h
    | _ => exact ⟨nofun, nofun⟩
  · rintro ⟨hnothing, hold⟩
    cases image with
    | nothing => exact absurd rfl hnothing
    | allOld => exact absurd rfl hold
    | _ => exact ⟨_, rfl⟩

/-- A put or a delete passes its checks and has something to change, but asks for an image that it cannot have. -/
def RefusesLate (t : Table) (r : Request) : Prop :=
  r.returnValues ≠ .nothing ∧ r.returnValues ≠ .allOld ∧
  match r.operation with
  | .put item => t.checkWrite r.expressions (t.checkKeyAttributes item) item = .ok () ∧ t.find? item ≠ some item
  | .delete key => t.checkWrite r.expressions (t.checkKey key) key = .ok () ∧ t.find? key ≠ none
  | _ => False

/-- A write that is refused changes its table just if it is refused too late. -/
theorem write_error_changes_iff (t : Table) (r : Request) :
    (∃ err t', t.write r.operation r.expressions r.returnValues = (.error err, t') ∧ t' ≠ t) ↔ t.RefusesLate r := by
  constructor
  · rintro ⟨err, t', hwrite, hne⟩
    rcases write_cases t r.operation r.expressions r.returnValues with
      ⟨_, h⟩ | ⟨item, hop, hcheck, h⟩ | ⟨key, hop, hcheck, h⟩ | ⟨_, _, _, _, _, _, h⟩
    · rw [h] at hwrite
      cases hwrite
      exact absurd rfl hne
    · rw [h] at hwrite
      obtain ⟨himage, rfl⟩ := Prod.mk.inj hwrite
      obtain ⟨hnothing, hold⟩ := (oldImage_eq_error _ _).1 ⟨err, himage⟩
      rw [RefusesLate, hop]
      exact ⟨hnothing, hold, hcheck, fun hfind => hne (put_eq_self_iff.2 hfind)⟩
    · rw [h] at hwrite
      obtain ⟨himage, rfl⟩ := Prod.mk.inj hwrite
      obtain ⟨hnothing, hold⟩ := (oldImage_eq_error _ _).1 ⟨err, himage⟩
      rw [RefusesLate, hop]
      exact ⟨hnothing, hold, hcheck, fun hfind => hne (remove_eq_self_iff.2 hfind)⟩
    · rw [h] at hwrite
      cases hwrite
  · rintro ⟨hnothing, hold, h⟩
    split at h
    · next item hop =>
      obtain ⟨err, himage⟩ := (oldImage_eq_error "PutItem" (t.find? item)).2 ⟨hnothing, hold⟩
      refine ⟨err, t.put item, ?_, fun hput => h.2 (put_eq_self_iff.1 hput)⟩
      rw [hop, write, h.1]
      exact Prod.ext himage rfl
    · next key hop =>
      obtain ⟨err, himage⟩ := (oldImage_eq_error "DeleteItem" (t.find? key)).2 ⟨hnothing, hold⟩
      refine ⟨err, t.remove key, ?_, fun hremove => h.2 (remove_eq_self_iff.1 hremove)⟩
      rw [hop, write, h.1]
      exact Prod.ext himage rfl
    · exact h.elim

end Table

namespace Tables

theorem get?_put_same {ts : Tables} {name : String} {t : Table} (ht : ts.get? name = some t) (other : String) :
    (ts.put name t).get? other = ts.get? other := by
  by_cases hname : other = name
  · rw [hname, Entries.get?_put_self, ht]
  · exact Entries.get?_put_of_ne ts t hname

end Tables

namespace Store

/-- A request on one table that is refused leaves the tables, or it is a write, which leaves what it has made. -/
theorem serveTable_error {s s' : Store} {t : Table} {r : Request} {err : StoreError}
    (h : s.serveTable t r = (.error err, s')) : s'.tables = s.tables ∨
    ∃ t', t.write r.operation r.expressions r.returnValues = (.error err, t') ∧
      s'.tables = s.tables.put r.table t' := by
  rcases serveTable_cases s t r with hsame | ⟨_, _, hok, _⟩ | hwrite
  · rw [h] at hsame
    exact .inl hsame
  · rw [h] at hok
    cases hok
  · rw [hwrite] at h
    obtain ⟨hreply, hstore⟩ := Prod.mk.inj h
    exact .inr ⟨_, Prod.ext hreply rfl, (congrArg Store.tables hstore).symm⟩

/-- A write is the only way in which a refused request can change a table. -/
theorem send_error {s s' : Store} {r : Request} {err : StoreError} (h : s.send r = (.error err, s')) :
    s'.tables = s.tables ∨ ∃ t t', s.faults.next.1 = none ∧ s.tables.get? r.table = some t ∧
      t.write r.operation r.expressions r.returnValues = (.error err, t') ∧ s'.tables = s.tables.put r.table t' := by
  rcases hnext : s.faults.next with ⟨_ | e, faults⟩
  · rw [send_of_no_fault hnext] at h
    unfold serve at h
    split at h
    · next writes token _ =>
      rcases Tables.transact_cases s.tables writes with ⟨_, htransact⟩ | ⟨_, _, _, htransact⟩
      · rw [htransact] at h
        cases h
        exact .inl rfl
      · rw [htransact] at h
        cases h
    · split at h
      · next t ht =>
        rcases serveTable_error h with hsame | ⟨t', hwrite, htables⟩
        · exact .inl hsame
        · exact .inr ⟨t, t', rfl, ht, hwrite, htables⟩
      · cases h
        exact .inl rfl
  · rw [send_of_fault hnext] at h
    cases h
    exact .inl rfl

theorem send_write {s : Store} {r : Request} {t t' : Table} {reply : Reply} {faults : Faults}
    (hnext : s.faults.next = (none, faults)) (ht : s.tables.get? r.table = some t) (hr : r.operation.isWrite = true)
    (hwrite : t.write r.operation r.expressions r.returnValues = (reply, t')) :
    s.send r = (reply, { s with log := s.log ++ [r], tables := s.tables.put r.table t' }) := by
  rw [send_of_no_fault hnext]
  cases hop : r.operation with
  | put item =>
    rw [hop] at hwrite
    simp only [serve, hop, ht, serveTable, withTable, hwrite]
  | update key update =>
    rw [hop] at hwrite
    simp only [serve, hop, ht, serveTable, withTable, hwrite]
  | delete key =>
    rw [hop] at hwrite
    simp only [serve, hop, ht, serveTable, withTable, hwrite]
  | _ =>
    rw [hop] at hr
    cases hr

/-- **A refused request changes the tables exactly if it is a put or a delete that is refused too late.**  Every other
request that is answered with an error, whatever it asks for and whatever the error, leaves all tables as they were. -/
theorem refused_request_changes_tables_iff (s : Store) (r : Request) :
    (∃ err s', s.send r = (.error err, s') ∧ ∃ name, s'.tables.get? name ≠ s.tables.get? name) ↔
      ∃ t, s.faults.next.1 = none ∧ s.tables.get? r.table = some t ∧ t.RefusesLate r := by
  constructor
  · rintro ⟨err, s', hsend, name, hname⟩
    rcases send_error hsend with hsame | ⟨t, t', hnext, ht, hwrite, htables⟩
    · rw [hsame] at hname
      exact absurd rfl hname
    · refine ⟨t, hnext, ht, (t.write_error_changes_iff r).1 ⟨err, t', hwrite, ?_⟩⟩
      rintro rfl
      rw [htables] at hname
      exact hname (Tables.get?_put_same ht name)
  · rintro ⟨t, hnext, ht, hlate⟩
    obtain ⟨err, t', hwrite, hne⟩ := (t.write_error_changes_iff r).2 hlate
    have hr : r.operation.isWrite = true := by
      obtain ⟨-, -, hmatch⟩ := hlate
      split at hmatch
      · next hop => rw [hop]; rfl
      · next hop => rw [hop]; rfl
      · exact hmatch.elim
    refine ⟨err, _, send_write (Prod.ext hnext rfl) ht hr hwrite, r.table, ?_⟩
    show (s.tables.put r.table t').get? r.table ≠ _
    rw [Entries.get?_put_self, ht]
    exact fun h => hne (Option.some.inj h)

/-- An order is put with its new image asked for: the answer is an error, and the order is there. -/
theorem refused_put_leaves_the_order :
    let shape : Descriptor := ⟨"Order", "orders", [⟨"id", .string, false, false, .partition⟩], ⟨"id", none⟩, []⟩
    let s := Store.run {} [.create shape]
    let r : Request :=
      { table := "orders", operation := .put [("id", .string "a")], expressions := {}, index := none
        consistentRead := false, limit := none, start := none, forward := true, segment := none
        returnValues := .allNew }
    (s.send r).1 = .error (.service "ValidationException: PutItem does not support ALL_NEW") ∧
      s.items "orders" = [] ∧ (s.send r).2.items "orders" = [[("id", .string "a")]] := ⟨rfl, rfl, rfl⟩

end Store
end ItemStore
