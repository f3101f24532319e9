import ItemStore.Expression.Change
import ItemStore.Expression.Meaning
import ItemStore.Proofs.Outcome
import ItemStore.Proofs.Value.Entries
/-!
# What update actions do to an item

An action reads and writes only the attribute it names (`newValue_congr`, `get?_apply_of_ne`).  So actions on different
attributes can be taken in any order: all of them fail alike, or all of them give the same item (`applyAll_perm`).  They
fail only where one of them is blocked by what the item has for its attribute (`exists_blocked_of_applyAll`).
-/
namespace ItemStore

open Outcome (bind_eq_error map_eq_error mapError_eq_error)

namespace Entries

theorem sorted_write {item : Item} (h : item.Sorted) (name : String) (v : Option Value) :
    (write item name v).Sorted := by
  cases v with
  | some v => exact sorted_put h name v
  | none => exact sorted_remove h name

theorem get?_write_self (item : Item) (name : String) (v : Option Value) : (write item name v).get? name = v := by
  cases v with
  | some v => exact get?_put_self item name v
  | none => exact get?_remove_self item name

theorem get?_write_of_ne (item : Item) {name other : String} (v : Option Value) (h : other ≠ name) :
    (write item name v).get? other = item.get? other := by
  cases v with
  | some v => exact get?_put_of_ne item v h
  | none => exact get?_remove_of_ne item h

theorem write_comm {item : Item} (hs : item.Sorted) {m n : String} (hne : m ≠ n) (a b : Option Value) :
    write (write item m a) n b = write (write item n b) m a := by
  refine eq_of_get?_eq (sorted_write (sorted_write hs m a) n b) (sorted_write (sorted_write hs n b) m a) ?_
  intro name
  by_cases hm : name = m
  · rw [hm, get?_write_of_ne _ b hne, get?_write_self, get?_write_self]
  · by_cases hn : name = n
    · rw [hn, get?_write_self, get?_write_of_ne _ a hne.symm, get?_write_self]
    · rw [get?_write_of_ne _ b hn, get?_write_of_ne _ a hm, get?_write_of_ne _ a hm, get?_write_of_ne _ b hn]

end Entries

namespace UpdateAction

variable {item other : Item} {u v : UpdateAction}

theorem apply_eq_map (item : Item) (u : UpdateAction) :
    u.apply item = (u.newValue item).map (Entries.write item u.name) := by
  unfold apply
  cases u.newValue item with
  | error fault => rfl
  | ok v => cases v <;> rfl

theorem newValue_congr (h : item.get? u.name = other.get? u.name) : u.newValue item = u.newValue other := by
  cases u <;> dsimp only [name] at h <;> simp only [newValue, oldValue, h]

theorem apply_eq_ok (h : u.apply item = .ok other) :
    ∃ v, u.newValue item = .ok v ∧ other = Entries.write item u.name v := by
  rw [apply_eq_map] at h
  cases hv : u.newValue item with
  | error fault => rw [hv] at h; cases h
  | ok v =>
    rw [hv] at h
    cases h
    exact ⟨v, rfl, rfl⟩

theorem get?_apply_of_ne (h : u.apply item = .ok other) {name : String} (hne : name ≠ u.name) :
    other.get? name = item.get? name := by
  obtain ⟨v, -, rfl⟩ := apply_eq_ok h
  exact Entries.get?_write_of_ne item v hne

theorem sorted_apply (hs : item.Sorted) (h : u.apply item = .ok other) : other.Sorted := by
  obtain ⟨v, -, rfl⟩ := apply_eq_ok h
  exact Entries.sorted_write hs u.name v

theorem applyAll_cons (item : Item) (u : UpdateAction) (us : List UpdateAction) :
    applyAll item (u :: us) = u.apply item >>= fun item => applyAll item us := List.foldlM_cons

theorem applyAll_cons_cons (item : Item) (u v : UpdateAction) (us : List UpdateAction) :
    applyAll item (u :: v :: us) = (u.apply item >>= v.apply) >>= fun item => applyAll item us := by
  rw [applyAll_cons, bind_assoc]
  simp only [applyAll_cons]

/-- Two actions on different attributes, one after the other: they compute what they would alone. -/
theorem apply_bind_apply (hne : u.name ≠ v.name) :
    (u.apply item >>= v.apply) = u.newValue item >>= fun a => v.newValue item >>= fun b =>
      .ok (Entries.write (Entries.write item u.name a) v.name b) := by
  rw [apply_eq_map]
  cases u.newValue item with
  | error fault => rfl
  | ok a =>
    show v.apply (Entries.write item u.name a) = _
    rw [apply_eq_map, newValue_congr (Entries.get?_write_of_ne item a hne.symm)]
    cases v.newValue item <;> rfl

theorem toOption_apply_comm (hs : item.Sorted) (hne : u.name ≠ v.name) :
    (u.apply item >>= v.apply).toOption = (v.apply item >>= u.apply).toOption := by
  rw [apply_bind_apply hne, apply_bind_apply hne.symm]
  cases u.newValue item with
  | error fault => cases v.newValue item <;> rfl
  | ok a =>
    cases v.newValue item with
    | error fault => rfl
    | ok b =>
      show some _ = some _
      rw [Entries.write_comm hs hne]

theorem toOption_bind {α β ε : Type} (x : Except ε α) (f : α → Except ε β) :
    (x >>= f).toOption = x.toOption.bind fun a => (f a).toOption := by
  cases x <;> rfl

/-- **Actions on different attributes can be taken in any order.** -/
theorem applyAll_perm {us vs : List UpdateAction} (h : vs.Perm us) : (us.map name).Nodup →
    ∀ {item : Item}, item.Sorted → (applyAll item vs).toOption = (applyAll item us).toOption := by
  induction h with
  | nil => exact fun _ _ _ => rfl
  | @cons u vs us _ ih =>
    intro hd item hs
    rw [applyAll_cons, applyAll_cons]
    cases hu : u.apply item with
    | error fault => rfl
    | ok next => exact ih (List.nodup_cons.1 hd).2 (sorted_apply hs hu)
  -- Only here do two actions change places; which of two faults comes first is lost, and so only outcomes agree.
  | swap u v us =>
    intro hd item hs
    have hne : v.name ≠ u.name := by
      intro he
      rw [List.map_cons, List.map_cons, he] at hd
      exact (List.nodup_cons.1 hd).1 List.mem_cons_self
    rw [applyAll_cons_cons, applyAll_cons_cons, toOption_bind (apply item v >>= _), toOption_apply_comm hs hne,
      ← toOption_bind]
  | @trans ws vs us hwv hvu ihwv ihvu =>
    intro hd item hs
    have hdv : (vs.map name).Nodup := (hvu.map name).nodup_iff.2 hd
    rw [ihwv hdv hs, ihvu hd hs]

end UpdateAction

/-! ## Actions that are blocked -/

/-- Why an action has no result on an item. -/
inductive UpdateAction.BlockedOn (u : UpdateAction) (item : Item) : ExpressionFault → Prop where
  /-- The attribute that it reads is not there. -/
  | missing : item.get? u.name = none → BlockedOn u item (.missingAttribute u.name)
  /-- What is there cannot be combined with its operand. -/
  | unlike {old : Value} {fault : ExpressionFault} : item.get? u.name = some old →
      fault ∈ [.arithmetic, .listAppend, .addition, .deletion] → BlockedOn u item fault
  /-- No numeral can be written for the sum or the difference. -/
  | unwritten {x y : Numeral} {subtract : Bool} {text : String} : item.get? u.name = some (.number x) →
      x.sum y subtract = .error (.sum text) → BlockedOn u item (.sum text)

namespace UpdateAction
variable {item other : Item} {u : UpdateAction} {old v : Value} {fault : ExpressionFault}

theorem BlockedOn.congr (h : u.BlockedOn item fault) (hsame : item.get? u.name = other.get? u.name) :
    u.BlockedOn other fault := by
  cases h with
  | missing hmissing => exact .missing (hsame ▸ hmissing)
  | unlike hold hfault => exact .unlike (hsame ▸ hold) hfault
  | unwritten hold hsum => exact .unwritten (hsame ▸ hold) hsum

theorem oldValue_eq_ok {name : String} (h : oldValue item name = .ok old) : item.get? name = some old := by
  unfold oldValue at h
  split at h
  · next hold =>
    cases h
    exact hold
  · cases h

theorem BlockedOn.of_oldValue (h : oldValue item u.name = .error fault) : u.BlockedOn item fault := by
  unfold oldValue at h
  split at h
  · cases h
  · next hmissing =>
    cases h
    exact .missing hmissing

theorem BlockedOn.of_sum {x y : Numeral} {subtract : Bool} (hold : item.get? u.name = some (.number x))
    (h : (x.sum y subtract).map Value.number = .error fault) : u.BlockedOn item fault := by
  have hsum := map_eq_error.1 h
  have htext : ∃ text, fault = .sum text := by
    unfold Numeral.sum at hsum
    split at hsum
    · cases hsum
    · obtain ⟨_, -, rfl⟩ := mapError_eq_error.1 hsum
      exact ⟨_, rfl⟩
  obtain ⟨text, rfl⟩ := htext
  exact .unwritten hold hsum

theorem BlockedOn.of_arithmetic {x : Numeral} {subtract : Bool} (hold : item.get? u.name = some old)
    (h : Value.arithmetic subtract old (.number x) = .error fault) : u.BlockedOn item fault := by
  unfold Value.arithmetic at h
  split at h
  · next hx =>
    cases hx
    exact .of_sum hold h
  · cases h
    exact .unlike hold (by decide)

theorem BlockedOn.of_add (h : Value.add (item.get? u.name) v = .error fault) : u.BlockedOn item fault := by
  cases hold : item.get? u.name with
  | none =>
    rw [hold] at h
    cases h
  | some old =>
    rw [hold] at h
    unfold Value.add at h
    split at h
    · cases h
    · next heq =>
      cases heq
      exact .of_sum hold h
    · cases h
    · cases h
    · cases h
    · cases h
      exact .unlike hold (by decide)

theorem BlockedOn.of_delete (hold : item.get? u.name = some old) (h : Value.delete old v = .error fault) :
    u.BlockedOn item fault := by
  unfold Value.delete at h
  split at h
  · cases h
  · cases h
  · cases h
  · cases h
    exact .unlike hold (by decide)

theorem BlockedOn.of_append (hold : item.get? u.name = some old) (h : Value.append old v = .error fault) :
    u.BlockedOn item fault := by
  unfold Value.append at h
  split at h
  · cases h
  · cases h
    exact .unlike hold (by decide)

/-- **An action that has no result on an item is blocked by what the item has for its attribute.** -/
theorem blockedOn_of_newValue (h : u.newValue item = .error fault) : u.BlockedOn item fault := by
  cases u with
  | set name v => cases h
  | remove name => cases h
  | increment name x | decrement name x =>
    rcases bind_eq_error.1 h with h | ⟨old, hold, h⟩
    · exact .of_oldValue h
    · rcases bind_eq_error.1 h with h | ⟨_, -, h⟩
      · exact .of_arithmetic (oldValue_eq_ok hold) h
      · cases h
  | add name v =>
    rcases bind_eq_error.1 h with h | ⟨_, -, h⟩
    · exact .of_add h
    · cases h
  | delete name v =>
    rw [newValue] at h
    split at h
    · next hold => exact .of_delete hold h
    · cases h
  | append name vs =>
    rcases bind_eq_error.1 h with h | ⟨old, hold, h⟩
    · exact .of_oldValue h
    · rcases bind_eq_error.1 h with h | ⟨_, -, h⟩
      · exact .of_append (oldValue_eq_ok hold) h
      · cases h

/-- If actions on different attributes do not go through, then one of them is blocked by the item as it was. -/
theorem exists_blocked_of_applyAll : ∀ {us : List UpdateAction} {item : Item}, (us.map name).Nodup →
    applyAll item us = .error fault → ∃ u ∈ us, u.BlockedOn item fault
  | [], _, _, h => by cases h
  | u :: us, item, hd, h => by
    obtain ⟨hnot, hd⟩ := List.nodup_cons.1 hd
    rw [applyAll_cons] at h
    rcases bind_eq_error.1 h with h | ⟨next, hnext, h⟩
    · rw [apply_eq_map] at h
      exact ⟨u, List.mem_cons_self, blockedOn_of_newValue (map_eq_error.1 h)⟩
    · obtain ⟨v, hv, hblocked⟩ := exists_blocked_of_applyAll hd h
      have hne : v.name ≠ u.name := fun heq => hnot (heq ▸ List.mem_map_of_mem hv)
      exact ⟨v, List.mem_cons_of_mem u hv, hblocked.congr (get?_apply_of_ne hnext hne)⟩

end UpdateAction
end ItemStore
