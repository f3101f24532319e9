import ItemStore.Proofs.Expression.UpdateEffect
import ItemStore.Proofs.Store.Contents
import ItemStore.Proofs.Store.Steps
/-!
# Writes are local

A put, an update or a delete asks about the item of its key and changes no other: what it answers, and what becomes of
that item, hang on nothing else in the table (`Table.write_local`).  Its answer tells what its condition came to
(`Table.condition_of_write_ok`, `Table.condition_of_write_failed`).
-/
namespace ItemStore

open Outcome (bind_eq_ok mapError_eq_ok bind_eq_error mapError_eq_error ok_of_mem_mapM)

/-! ## Changes leave what they do not name -/

namespace Change

variable {b : Bindings} {before item other : Item}

/-- A change writes the attribute it names, or does nothing. -/
theorem apply_eq_ok {c : Change} (h : c.apply b before item = .ok other) :
    ∃ name, b.name c.path = .ok name ∧ (other = item ∨ ∃ v, other = Entries.write item name v) := by
  unfold apply at h
  obtain ⟨name, hname, h⟩ := bind_eq_ok.1 h
  refine ⟨name, hname, ?_⟩
  cases c with
  | set path term =>
    obtain ⟨v, -, h⟩ := bind_eq_ok.1 h
    cases h
    exact .inr ⟨some v, rfl⟩
  | remove path =>
    cases h
    exact .inr ⟨none, rfl⟩
  | add path term =>
    obtain ⟨v, -, h⟩ := bind_eq_ok.1 h
    obtain ⟨sum, -, h⟩ := bind_eq_ok.1 h
    cases h
    exact .inr ⟨some sum, rfl⟩
  | delete path term =>
    obtain ⟨v, -, h⟩ := bind_eq_ok.1 h
    split at h
    · cases h
      exact .inl rfl
    · obtain ⟨rest, -, h⟩ := bind_eq_ok.1 h
      cases h
      exact .inr ⟨rest, rfl⟩

/-- An attribute that no change names stays as it is. -/
theorem get?_foldlM_of_untouched {name : String} : ∀ {cs : List Change} {item other : Item},
    (∀ c ∈ cs, b.name c.path ≠ .ok name) → cs.foldlM (apply b before) item = .ok other →
    other.get? name = item.get? name
  | [], _, _, _, h => by
    cases h
    rfl
  | c :: cs, item, other, hc, h => by
    obtain ⟨next, happly, hrest⟩ := bind_eq_ok.1 h
    obtain ⟨hfirst, hlater⟩ := List.forall_mem_cons.1 hc
    rw [get?_foldlM_of_untouched hlater hrest]
    obtain ⟨touched, htouched, rfl | ⟨v, rfl⟩⟩ := apply_eq_ok happly
    · rfl
    · have hne : name ≠ touched := fun he => hfirst (he ▸ htouched)
      exact Entries.get?_write_of_ne item v hne

end Change

/-! ## Writes are local -/

/-- The item or the key that says which stored item a write is about. -/
def Operation.target? : Operation → Option Item
  | .put item => some item
  | .update key _ | .delete key => some key
  | _ => none

theorem Operation.exists_target {op : Operation} (h : op.isWrite = true) : ∃ key, op.target? = some key := by
  cases op with
  | put item => exact ⟨item, rfl⟩
  | update key update => exact ⟨key, rfl⟩
  | delete key => exact ⟨key, rfl⟩
  | _ => cases h

namespace Table

variable {t t' : Table} {key item : Item} {e : Expressions}

theorem sameKey_of_find? (h : t.find? key = some item) : t.sameKey item key = true :=
  List.find?_some (p := fun x => t.sameKey x key) h

/-- What an update may touch is no part of the key. -/
theorem not_mem_key_of_touched {b : Bindings} {cs : List Change} {names : List String}
    (h : t.touchedNames b cs = .ok names) {name : String} (hname : name ∈ t.key.names) :
    ∀ c ∈ cs, b.name c.path ≠ .ok name := by
  intro c hc hresolved
  obtain ⟨touched, -, htouched⟩ := ok_of_mem_mapM h c hc
  rw [hresolved] at htouched
  obtain ⟨_, hcases, htouched⟩ := bind_eq_ok.1 htouched
  cases hcases
  rw [if_pos (List.contains_iff_mem.2 hname)] at htouched
  cases htouched

/-- What an update has passed: its key, its condition and its changes, which name what it has touched. -/
theorem updated_eq_ok {update : String} {names : List String} (h : t.updated e key update = .ok (item, names)) :
    t.checkKey key = .ok () ∧ ∃ cs, Change.parse update = .ok cs ∧ t.touchedNames e.bindings cs = .ok names ∧
      Change.applyAll e.bindings ((t.find? key).getD key) cs = .ok item := by
  unfold updated at h
  obtain ⟨⟨cs, touched⟩, hread, h⟩ := bind_eq_ok.1 h
  obtain ⟨_, hcheck, hread⟩ := bind_eq_ok.1 (mapError_eq_ok.1 hread)
  obtain ⟨_, hparse, hread⟩ := bind_eq_ok.1 hread
  obtain ⟨_, htouched, hread⟩ := bind_eq_ok.1 hread
  cases hread
  obtain ⟨-, -, h⟩ := bind_eq_ok.1 h
  obtain ⟨made, hmade, h⟩ := bind_eq_ok.1 h
  cases h
  exact ⟨hcheck, cs, mapError_eq_ok.1 hparse, htouched, mapError_eq_ok.1 (mapError_eq_ok.1 hmade)⟩

/-- Changes that touch a key are refused, so an update leaves the key as it has found it, or as it was given. -/
theorem get?_updated {update : String} {names : List String} (h : t.updated e key update = .ok (item, names))
    {name : String} (hname : name ∈ t.key.names) : item.get? name = ((t.find? key).getD key).get? name := by
  obtain ⟨-, cs, -, htouched, hmade⟩ := updated_eq_ok h
  exact Change.get?_foldlM_of_untouched (not_mem_key_of_touched htouched hname) hmade

/-- An update makes an item of the key it is about. -/
theorem sameKey_of_updated {update : String} {names : List String} (h : t.updated e key update = .ok (item, names)) :
    t.sameKey item key = true := by
  rw [sameKey_comm, sameKey_iff, itemOrder_congr fun name hname => get?_updated h hname, ← sameKey_iff]
  cases hfind : t.find? key with
  | none => exact t.sameKey_self key
  | some old => exact sameKey_comm t old key ▸ sameKey_of_find? hfind

theorem checkWrite_congr (hfind : t'.find? key = t.find? key) (e : Expressions)
    {check check' : Except RequestFault Unit} (hcheck : check' = check) :
    t'.checkWrite e check' key = t.checkWrite e check key := by
  rw [checkWrite, checkWrite, hcheck, hfind]

section Congruence

variable (hkey : t'.key = t.key) (hfind : t'.find? key = t.find? key)
include hkey

theorem checkKeyAttributes_congr (item : Item) : t'.checkKeyAttributes item = t.checkKeyAttributes item := by
  rw [checkKeyAttributes, checkKeyAttributes, hkey]

theorem checkKey_congr (key : Item) : t'.checkKey key = t.checkKey key := by
  rw [checkKey, checkKey, hkey, checkKeyAttributes_congr hkey]

include hfind

theorem updated_congr (e : Expressions) (update : String) : t'.updated e key update = t.updated e key update := by
  have htouched : t'.touchedNames e.bindings = t.touchedNames e.bindings := by
    funext cs
    rw [touchedNames, touchedNames, hkey]
  rw [updated, updated, checkKey_congr hkey, htouched, hfind]

end Congruence

/-- **A write answers by the key of the table and the item it is about, and does no more than to give that item a
fate.** -/
theorem write_local (t : Table) {op : Operation} (hop : op.target? = some key) (e : Expressions)
    (image : ReturnValues) :
    ∃ reply fate, Fate.Fits t key fate ∧
      ∀ t' : Table, t'.key = t.key → t'.find? key = t.find? key → t'.write op e image = (reply, fate.on key t') := by
  cases op with
  | put item =>
    cases hop
    cases hcheck : t.checkWrite e (t.checkKeyAttributes key) key with
    | error err =>
      refine ⟨.error err, .stays, trivial, fun t' hkey hfind => ?_⟩
      simp only [write, checkWrite_congr hfind e (checkKeyAttributes_congr hkey key), hcheck, Fate.on]
    | ok _ =>
      refine ⟨oldImage "PutItem" (t.find? key) image, .becomes key, t.sameKey_self key, fun t' hkey hfind => ?_⟩
      simp only [write, checkWrite_congr hfind e (checkKeyAttributes_congr hkey key), hcheck, hfind, Fate.on]
  | delete key =>
    cases hop
    cases hcheck : t.checkWrite e (t.checkKey key) key with
    | error err =>
      refine ⟨.error err, .stays, trivial, fun t' hkey hfind => ?_⟩
      simp only [write, checkWrite_congr hfind e (checkKey_congr hkey key), hcheck, Fate.on]
    | ok _ =>
      refine ⟨oldImage "DeleteItem" (t.find? key) image, .goes, trivial, fun t' hkey hfind => ?_⟩
      simp only [write, checkWrite_congr hfind e (checkKey_congr hkey key), hcheck, hfind, Fate.on]
  | update key update =>
    cases hop
    cases hupdated : t.updated e key update with
    | error err =>
      refine ⟨.error err, .stays, trivial, fun t' hkey hfind => ?_⟩
      simp only [write, updated_congr hkey hfind, hupdated, Fate.on]
    | ok made =>
      refine ⟨.ok { attributes := updateImage (t.find? key) made.1 made.2 image }, .becomes made.1,
        sameKey_of_updated hupdated, fun t' hkey hfind => ?_⟩
      simp only [write, updated_congr hkey hfind, hupdated, hfind, Fate.on]
  | _ => cases hop

/-! ## Conditions -/

/-- What the condition of a write comes to on the item it is about, or on an empty one. -/
def conditionOf (t : Table) (op : Operation) (e : Expressions) : Except RequestFault Bool :=
  conditionHolds e.bindings ((op.target?.bind t.find?).getD []) e.condition

theorem error_ne_conditionFailed (fault : RequestFault) (detail : String) : fault.error ≠ .conditionFailed detail := by
  cases fault <;> exact nofun

/-- Only a condition is refused as one. -/
theorem mapError_ne_conditionFailed {α : Type} (x : Except RequestFault α) (detail : String) :
    x.mapError RequestFault.error ≠ .error (.conditionFailed detail) := by
  intro h
  obtain ⟨fault, -, hfault⟩ := mapError_eq_error.1 h
  exact error_ne_conditionFailed fault detail hfault

theorem checkCondition_eq_ok {existing : Option Item} :
    checkCondition e existing = .ok () ↔ conditionHolds e.bindings (existing.getD []) e.condition = .ok true := by
  unfold checkCondition
  rw [bind_eq_ok]
  constructor
  · rintro ⟨b, hb, h⟩
    cases b with
    | true => exact mapError_eq_ok.1 hb
    | false => cases h
  · intro h
    exact ⟨true, mapError_eq_ok.2 h, rfl⟩

theorem condition_of_checkCondition_failed {existing : Option Item} {detail : String}
    (h : checkCondition e existing = .error (.conditionFailed detail)) :
    conditionHolds e.bindings (existing.getD []) e.condition = .ok false := by
  unfold checkCondition at h
  rcases bind_eq_error.1 h with h | ⟨b, hb, h⟩
  · exact absurd h (mapError_ne_conditionFailed _ detail)
  · cases b with
    | true => cases h
    | false => exact mapError_eq_ok.1 hb

theorem condition_of_checkWrite_failed {keyCheck : Except RequestFault Unit} {detail : String}
    (h : t.checkWrite e keyCheck key = .error (.conditionFailed detail)) :
    conditionHolds e.bindings ((t.find? key).getD []) e.condition = .ok false := by
  rcases bind_eq_error.1 h with h | ⟨_, -, h⟩
  · exact absurd h (mapError_ne_conditionFailed _ detail)
  · exact condition_of_checkCondition_failed h

theorem condition_of_updated_failed {update detail : String}
    (h : t.updated e key update = .error (.conditionFailed detail)) :
    conditionHolds e.bindings ((t.find? key).getD []) e.condition = .ok false := by
  unfold updated at h
  rcases bind_eq_error.1 h with h | ⟨_, -, h⟩
  · exact absurd h (mapError_ne_conditionFailed _ detail)
  · rcases bind_eq_error.1 h with h | ⟨_, -, h⟩
    · exact condition_of_checkCondition_failed h
    · rcases bind_eq_error.1 h with h | ⟨_, -, h⟩
      · exact absurd h (mapError_ne_conditionFailed _ detail)
      · cases h

theorem oldImage_ne_conditionFailed (action : String) (existing : Option Item) (image : ReturnValues)
    (detail : String) : oldImage action existing image ≠ .error (.conditionFailed detail) := by
  cases image <;> exact nofun

/-- A write that is answered with success has found its condition true. -/
theorem condition_of_write_ok {op : Operation} {image : ReturnValues} {resp : Response}
    (h : (t.write op e image).1 = .ok resp) : t.conditionOf op e = .ok true := by
  rcases write_cases t op e image with ⟨err, hw⟩ | ⟨item, rfl, hcheck, -⟩ | ⟨key, rfl, hcheck, -⟩ |
    ⟨key, update, item, touched, rfl, hupdated, -⟩
  · rw [hw] at h
    cases h
  · obtain ⟨_, -, hcheck⟩ := bind_eq_ok.1 hcheck
    exact checkCondition_eq_ok.1 hcheck
  · obtain ⟨_, -, hcheck⟩ := bind_eq_ok.1 hcheck
    exact checkCondition_eq_ok.1 hcheck
  · obtain ⟨_, -, hupdated⟩ := bind_eq_ok.1 hupdated
    obtain ⟨_, hcheck, -⟩ := bind_eq_ok.1 hupdated
    exact checkCondition_eq_ok.1 hcheck

/-- A write that is refused for its condition has found it false. -/
theorem condition_of_write_failed {op : Operation} {image : ReturnValues} {detail : String}
    (h : (t.write op e image).1 = .error (.conditionFailed detail)) : t.conditionOf op e = .ok false := by
  unfold write at h
  split at h
  · split at h
    · next err hcheck =>
      cases h
      exact condition_of_checkWrite_failed hcheck
    · exact absurd h (oldImage_ne_conditionFailed _ _ image detail)
  · split at h
    · next err hcheck =>
      cases h
      exact condition_of_checkWrite_failed hcheck
    · exact absurd h (oldImage_ne_conditionFailed _ _ image detail)
  · split at h
    · next err hupdated =>
      cases h
      exact condition_of_updated_failed hupdated
    · cases h
  · exact absurd (Except.error.inj h) (error_ne_conditionFailed _ detail)

end Table
end ItemStore
