import ItemStore.Proofs.Request.Acceptance
import ItemStore.Proofs.Store.Transactions
/-!
# Writes that depend on whether the item is there

The shorthands of the builders look for the partition attribute on the item that a write finds, or on an empty one.
What is found under a key that has the attribute has it too, so they ask whether there is an item of this key
(`SingleWrite.conditionOf_ifExists`, `SingleWrite.conditionOf_ifNotExists`).
-/
namespace ItemStore

/-! ## What is found has the key -/

namespace Table
variable {t : Table} {item key : Item} {name : String}

theorem has_of_sameKey (h : t.sameKey item key = true) (hname : name ∈ t.key.names) (hkey : key.has name = true) :
    item.has name = true := by
  have hlevel := itemOrder_eq_iff.1 (sameKey_iff.1 h) name hname
  rw [Entries.has] at hkey ⊢
  cases hitem : item.get? name with
  | some v => rfl
  | none =>
    cases hv : key.get? name with
    | some v =>
      rw [hitem, hv] at hlevel
      cases hlevel
    | none =>
      rw [hv] at hkey
      cases hkey

/-- Of what a table finds under a key, or of an empty item, the attributes of the key tell whether it has found
anything. -/
theorem has_found (t : Table) (hname : name ∈ t.key.names) (hkey : key.has name = true) :
    ((t.find? key).getD []).has name = (t.find? key).isSome := by
  cases hfind : t.find? key with
  | none => rfl
  | some item => exact has_of_sameKey (sameKey_of_find? hfind) hname hkey

end Table

/-! ## The shorthands -/

namespace SingleWrite

variable {w : SingleWrite} {p : Plan} {key : Item} {t : Table}

/-- The condition of a built write comes to what its conditions mean, on what the table finds or on an empty item. -/
theorem conditionOf_of_build (h : w.build = .ok p) (hkey : w.target = .ok key) (t : Table) :
    t.conditionOf p.operation p.expressions = .ok (Condition.allHold ((t.find? key).getD []) w.conditions) := by
  cases w with
  | put w =>
    cases hkey
    obtain ⟨_, -, hconditions, -, rfl⟩ := Put.build_eq_ok_iff.1 h
    exact ItemWrite.conditionHolds hconditions Writer.empty _
  | update w =>
    obtain ⟨key', hkey', -, hconditions, rfl⟩ := Update.build_eq_ok_iff.1 h
    obtain rfl : key' = key := Except.ok.inj (hkey'.symm.trans hkey)
    exact ItemWrite.conditionHolds hconditions (Writer.empty.update w.actions).2 _
  | delete w =>
    obtain ⟨key', hkey', hconditions, -, rfl⟩ := Delete.build_eq_ok_iff.1 h
    obtain rfl : key' = key := Except.ok.inj (hkey'.symm.trans hkey)
    exact ItemWrite.conditionHolds hconditions Writer.empty _

/-- What a built write is about has the attributes of the key. -/
theorem has_of_build (hd : w.shape.Compiled) (h : w.build = .ok p) (hkey : w.target = .ok key) {name : String}
    (hname : name ∈ w.shape.key.names) : key.has name = true := by
  have hkeyOf : ∃ k, w.shape.KeyOf key k := by
    cases w with
    | put w =>
      cases hkey
      obtain ⟨k, hk, -⟩ := Put.build_eq_ok_iff.1 h
      exact ⟨k, Descriptor.keyOf_of_keyOfItem hk⟩
    | update w => exact ⟨key, Descriptor.keyOf_of_keyItem hkey⟩
    | delete w =>
      obtain ⟨_, hitem⟩ := Delete.keyOf_of_key hkey
      exact ⟨key, hitem.self⟩
  obtain ⟨k, hk⟩ := hkeyOf
  obtain ⟨v, -, hv, -⟩ := hk.scalar hd hname
  rw [Entries.has, hv]
  rfl

/-- **A write that is only for an item that is there passes its condition exactly if there is one of its key.** -/
theorem conditionOf_ifExists (hd : w.shape.Compiled) (h : w.build = .ok p)
    (honly : w.conditions = (ItemWrite.ifExists { shape := w.shape }).conditions) (hkey : w.target = .ok key)
    (ht : t.key = w.shape.key) : t.conditionOf p.operation p.expressions = .ok (t.find? key).isSome := by
  rw [conditionOf_of_build h hkey, honly, ← t.has_found (ht ▸ .head _) (has_of_build hd h hkey (.head _))]
  exact congrArg Except.ok (Bool.and_true _)

/-- **A write that is only for a new item passes its condition exactly if there is none of its key.** -/
theorem conditionOf_ifNotExists (hd : w.shape.Compiled) (h : w.build = .ok p)
    (honly : w.conditions = (ItemWrite.ifNotExists { shape := w.shape }).conditions) (hkey : w.target = .ok key)
    (ht : t.key = w.shape.key) : t.conditionOf p.operation p.expressions = .ok (!(t.find? key).isSome) := by
  rw [conditionOf_of_build h hkey, honly, ← t.has_found (ht ▸ .head _) (has_of_build hd h hkey (.head _))]
  exact congrArg Except.ok (Bool.and_true _)

/-! ## How they are answered -/

/-- A built write is refused for its condition exactly if this is false. -/
theorem refused_iff (hd : w.shape.Compiled) (h : w.build = .ok p) (ht : t.key = w.shape.key) :
    (∃ detail, (t.write p.operation p.expressions p.returnValues).1 = .error (.conditionFailed detail)) ↔
      t.conditionOf p.operation p.expressions = .ok false := by
  constructor
  · rintro ⟨detail, hfailed⟩
    exact Table.condition_of_write_failed hfailed
  · intro hfalse
    obtain ⟨key, hkey, hanswered⟩ := write_of_build hd h ht
    rw [conditionOf_of_build h hkey] at hfalse
    have hfails := Except.ok.inj hfalse
    generalize (t.write p.operation p.expressions p.returnValues).1 = reply at hanswered
    cases hanswered with
    | done hholds => cases hholds.symm.trans hfails
    | failed _ => exact ⟨_, rfl⟩
    | blocked _ hholds => cases hholds.symm.trans hfails

/-- A built put is done exactly if its condition is true. -/
theorem put_done_iff {w : Put} (hd : w.shape.Compiled) (h : w.build = .ok p) (ht : t.key = w.shape.key) :
    (∃ response, (t.write p.operation p.expressions p.returnValues).1 = .ok response) ↔
      t.conditionOf p.operation p.expressions = .ok true := by
  constructor
  · rintro ⟨response, hdone⟩
    exact Table.condition_of_write_ok hdone
  · intro htrue
    have hanswered := Put.answered hd h ht
    rw [conditionOf_of_build (w := .put w) h rfl] at htrue
    have hholds := Except.ok.inj htrue
    generalize (t.write p.operation p.expressions p.returnValues).1 = reply at hanswered
    cases hanswered with
    | done _ => exact ⟨_, rfl⟩
    | failed hfails => cases hfails.symm.trans hholds
    | blocked hw => cases hw

end SingleWrite
end ItemStore
