import ItemStore.Proofs.Expression.ProjectionText
import ItemStore.Proofs.Expression.UpdateText
import ItemStore.Proofs.Request.Several
import ItemStore.Proofs.Store.Deeds
import ItemStore.Request.Reading
/-!
# Requests for items by their keys

What a get shows, what a write leaves under its key and which image it answers with, as far as the builders know it; and
that a table which is asked by a plan of theirs does just that (`SingleWrite.write_cases`, `Get.answer`).
-/
namespace ItemStore

open Outcome (bind_eq_ok mapError_eq_ok)

/-! ## What is meant -/

namespace SingleWrite

/-- The item or the key that says which stored item the write is about. -/
def target : SingleWrite → Except Error Item
  | put p => .ok p.item
  | update u => u.keyItem
  | delete d => d.key

/-- What the write leaves under its key, where it finds an item or none. -/
def leaves (w : SingleWrite) (key : Item) (found : Option Item) : Except ExpressionFault (Option Item) :=
  match w with
  | put p => .ok (some p.item)
  | update u => (UpdateAction.applyAll (found.getD key) u.actions).map some
  | delete _ => .ok none

def returnValues : SingleWrite → ReturnValues
  | put p => p.returnValues
  | update u => u.returnValues
  | delete d => d.returnValues

/-- The attributes that the write is about. -/
def touched : SingleWrite → List String
  | update u => u.actions.map (·.name)
  | _ => []

/-- The image that was asked for, of what the write has found and left. -/
def image (w : SingleWrite) (found left : Option Item) : Option Item :=
  match w.returnValues with
  | .nothing => none
  | .allOld => found
  | .updatedOld => found.map (·.restrict w.touched)
  | .allNew => left
  | .updatedNew => left.map (·.restrict w.touched)

def puts : SingleWrite → List Item
  | put p => [p.item]
  | _ => []

end SingleWrite

/-! ## Gets -/

namespace Table
variable {t : Table} {e : Expressions} {shown : Item → Item}

theorem get_of_shown (h : ∀ item, project e item = .ok (shown item)) (key : Item) :
    t.get e key = (t.checkKey key).map fun _ => { item := (t.find? key).map shown } := by
  unfold get
  cases t.checkKey key with
  | error fault => rfl
  | ok _ =>
    cases t.find? key with
    | none => rfl
    | some item =>
      simp only [h item, bind, Except.bind]
      rfl

theorem getAll_of_shown (h : ∀ item, project e item = .ok (shown item)) : ∀ keys : List Item,
    t.getAll e keys = (keys.forM t.checkKey).map fun _ => (keys.filterMap t.find?).map shown
  | [] => rfl
  | key :: keys => by
    rw [getAll, getAll_of_shown h keys, List.forM, List.filterMap_cons]
    cases t.checkKey key with
    | error fault => rfl
    | ok _ =>
      cases t.find? key with
      | none => rfl
      | some item =>
        simp only [h item, bind, Except.bind]
        cases keys.forM t.checkKey <;> rfl

end Table

theorem Get.plan_of_build {g : Get} {p : Plan} (h : g.build = .ok p) : ∃ key, g.shape.keyItem g.key = .ok key ∧
    p.operation = .get key ∧ p.table = g.shape.table ∧
    ∀ item, Table.project p.expressions item = .ok (shownIn g.projection item) := by
  obtain ⟨key, hkey, -, rfl⟩ := build_eq_ok_iff.1 h
  exact ⟨key, hkey, rfl, rfl, Writer.empty.project_projection? g.projection none none⟩

theorem BatchGet.plan_of_build {b : BatchGet} {p : Plan} (h : b.build = .ok p) : ∃ keys,
    b.keys.mapM b.shape.keyItem = .ok keys ∧ p.operation = .batchGet keys ∧ p.table = b.shape.table ∧
    ∀ item, Table.project p.expressions item = .ok (shownIn b.projection item) := by
  obtain ⟨-, keys, hkeys, -, -, rfl⟩ := build_eq_ok_iff.1 h
  exact ⟨keys, hkeys, rfl, rfl, Writer.empty.project_projection? b.projection none none⟩

theorem BatchWrite.plan_of_build {b : BatchWrite} {p : Plan} (h : b.build = .ok p) : ∃ entries,
    b.writes.mapM (PendingWrite.entry b.shape) = .ok entries ∧ p.operation = .batchWrite (entries.map Prod.fst) ∧
    p.table = b.shape.table := by
  obtain ⟨-, entries, hentries, -, rfl⟩ := build_eq_ok_iff.1 h
  exact ⟨entries, hentries, rfl, rfl⟩

theorem SingleWrite.plan_of_build {w : SingleWrite} {p : Plan} (h : w.build = .ok p) :
    p.operation.isWrite = true ∧ p.table = w.shape.table := by
  cases w with
  | put w =>
    obtain ⟨_, -, -, -, rfl⟩ := Put.build_eq_ok_iff.1 h
    exact ⟨rfl, rfl⟩
  | update u =>
    obtain ⟨_, -, -, -, rfl⟩ := Update.build_eq_ok_iff.1 h
    exact ⟨rfl, rfl⟩
  | delete d =>
    obtain ⟨_, -, -, -, rfl⟩ := Delete.build_eq_ok_iff.1 h
    exact ⟨rfl, rfl⟩

theorem SingleWrite.build_of_member {w : SingleWrite} {m : Plan × Item} (h : w.member = .ok m) :
    w.build = .ok m.1 ∧ m.1.returnValues = .nothing := by
  obtain ⟨hbuild, -, hnothing⟩ := member_eq_ok_iff.1 h
  exact ⟨hbuild, hnothing⟩

theorem Put.operation_of_build {w : Put} {p : Plan} (h : w.build = .ok p) : p.operation = .put w.item := by
  obtain ⟨_, -, -, -, rfl⟩ := build_eq_ok_iff.1 h
  rfl

theorem Delete.operation_of_build {d : Delete} {p : Plan} (h : d.build = .ok p) : ∃ key,
    d.key = .ok key ∧ p.operation = .delete key := by
  obtain ⟨key, hkey, -, -, rfl⟩ := build_eq_ok_iff.1 h
  exact ⟨key, hkey, rfl⟩

theorem Transaction.plan_of_build {tx : Transaction} {p : Plan} (h : tx.build = .ok p) : ∃ members,
    tx.writes.mapM SingleWrite.member = .ok members ∧ p.operation = .transaction (members.map Prod.fst) tx.token := by
  obtain ⟨-, -, -, members, hmembers, -, rfl⟩ := build_eq_ok_iff.1 h
  exact ⟨members, hmembers, rfl⟩

namespace Descriptor
variable {d : Descriptor} {item key : Item} {t : Table}

theorem KeyOf.keyedIn (h : d.KeyOf item key) (hd : d.Compiled) (ht : t.key = d.key) : t.key.KeyedIn item :=
  fun name hname => by
    obtain ⟨v, -, hv, hscalar⟩ := h.scalar hd (ht ▸ hname)
    exact ⟨v, hv, hscalar⟩

/-- A key has the key attributes of its shape, each once, and no others. -/
theorem KeyOf.length_eq (h : d.KeyOf item key) (hd : d.Compiled) : key.length = d.key.names.length := by
  obtain ⟨decl, hdecl⟩ := hd
  have hnames : (key.map Prod.fst).Nodup := List.pairwise_map.2 h.sorted.names_ne
  have hsame : ∀ name, name ∈ key.map Prod.fst ↔ name ∈ d.key.names := by
    intro name
    constructor
    · intro hname
      obtain ⟨⟨_, v⟩, hmem, rfl⟩ := List.mem_map.1 hname
      by_contra hnot
      cases ((Entries.mem_iff_get? h.sorted).1 hmem).symm.trans (h.bare _ hnot)
    · intro hname
      obtain ⟨v, -, hv, -⟩ := h.typed name hname
      exact List.mem_map.2 ⟨(name, v), (Entries.mem_iff_get? h.sorted).2 hv, rfl⟩
  have hperm := (List.perm_ext_iff_of_nodup hnames (Declaration.compile_eq_ok_iff.1 hdecl).nodup_names).2 hsame
  rw [← hperm.length_eq, List.length_map]

theorem KeyOf.checkKeyAttributes (h : d.KeyOf item key) (hd : d.Compiled) (ht : t.key = d.key) :
    t.checkKeyAttributes item = .ok () := Table.checkKeyAttributes_eq_ok.2 (h.keyedIn hd ht)

theorem KeyOf.checkKey (h : d.KeyOf item key) (hd : d.Compiled) (ht : t.key = d.key) : t.checkKey key = .ok () :=
  Table.checkKey_eq_ok.2 ⟨ht ▸ h.length_eq hd, h.self.keyedIn hd ht⟩

theorem checkKey_of_keyItem {k : PrimaryKey} (hd : d.Compiled) (ht : t.key = d.key) (h : d.keyItem k = .ok key) :
    t.checkKey key = .ok () := (keyOf_of_keyItem h).checkKey hd ht

end Descriptor

/-! ## Updates -/

theorem Entries.restrict_congr {names names' : List String} (h : ∀ name, name ∈ names ↔ name ∈ names')
    (item : Item) : item.restrict names = item.restrict names' := by
  simp only [restrict, h]

theorem UpdateAction.sorted_applyAll {us : List UpdateAction} {item other : Item} (hs : item.Sorted)
    (h : applyAll item us = .ok other) : other.Sorted :=
  Outcome.foldlM_invariant (P := Entries.Sorted) (fun _ _ _ hb hstep => sorted_apply hb hstep) hs h

theorem Table.names_of_touchedNames {t : Table} {b : Bindings} : ∀ {cs : List Change} {names : List String},
    t.touchedNames b cs = .ok names → cs.mapM (fun c => b.name c.path) = .ok names
  | [], _, h => by
    cases h
    rfl
  | c :: cs, _, h => by
    obtain ⟨touched, rest, htouched, hrest, rfl⟩ := Outcome.mapM_cons_eq_ok.1 h
    obtain ⟨name, hname, htouched⟩ := bind_eq_ok.1 htouched
    split at htouched
    · cases htouched
    · cases htouched
      exact Outcome.mapM_cons_eq_ok.2 ⟨_, rest, mapError_eq_ok.1 hname, names_of_touchedNames hrest, rfl⟩

section Update
variable {u : Update} {p : Plan} {t : Table}

/-- What a table makes of the text of an update is what its actions make, and it touches the attributes that they
name. -/
theorem Update.updated_of_build (h : u.build = .ok p) : ∃ key text, u.keyItem = .ok key ∧
    p.operation = .update key text ∧ p.returnValues = u.returnValues ∧
    ∀ {item : Item} {touched : List String}, t.updated p.expressions key text = .ok (item, touched) →
      (∀ old, t.find? key = some old → Entries.Sorted old) →
      UpdateAction.applyAll ((t.find? key).getD key) u.actions = .ok item ∧ Entries.Sorted item ∧
        ∀ name, name ∈ touched ↔ name ∈ u.actions.map (·.name) := by
  obtain ⟨key, hkey, hvalid, -, rfl⟩ := build_eq_ok_iff.1 h
  obtain ⟨hne, hd⟩ := UpdateAction.distinct_of_validateAll hvalid
  refine ⟨key, _, hkey, rfl, rfl, fun {item touched} hupdated hsorted => ?_⟩
  obtain ⟨-, cs, hparse, htouched, hmade⟩ := Table.updated_eq_ok hupdated
  -- the condition is written after the update, and takes nothing back
  have he := Writer.extends_conjunction (Writer.empty.update u.actions).2 u.conditions
  obtain ⟨cs', hparse', hdo⟩ := Writer.update_spec Writer.empty hne hd
  obtain rfl : cs = cs' := Except.ok.inj (hparse.symm.trans hparse')
  have hbase : Entries.Sorted ((t.find? key).getD key) := by
    cases hfind : t.find? key with
    | none => exact (Descriptor.keyOf_of_keyItem hkey).sorted
    | some old => exact hsorted old hfind
  have hsame : some item = (UpdateAction.applyAll ((t.find? key).getD key) u.actions).toOption :=
    (congrArg Except.toOption hmade).symm.trans (hdo he hbase)
  have hactions : UpdateAction.applyAll ((t.find? key).getD key) u.actions = .ok item := by
    cases happ : UpdateAction.applyAll ((t.find? key).getD key) u.actions with
    | error fault => simp [happ, Except.toOption] at hsame
    | ok made => simpa [happ, Except.toOption, eq_comm] using hsame
  obtain ⟨names, hnames, hperm⟩ := Writer.update_names Writer.empty hne he hparse
  obtain rfl : touched = names := Except.ok.inj ((Table.names_of_touchedNames htouched).symm.trans hnames)
  exact ⟨hactions, UpdateAction.sorted_applyAll hbase hactions, fun name => hperm.mem_iff⟩

end Update

/-! ## Writes -/

theorem checkOldImage_eq_ok {what : String} {image : ReturnValues} :
    checkOldImage what image = .ok () ↔ image = .nothing ∨ image = .allOld := by
  unfold checkOldImage
  split <;> simp_all

namespace SingleWrite
variable {w : SingleWrite} {p : Plan}

/-- The image that a put or a delete can have is the one that was asked for. -/
theorem oldImage_eq {what action : String} (h : checkOldImage what w.returnValues = .ok ()) (found left : Option Item) :
    Table.oldImage action found w.returnValues = .ok { attributes := w.image found left } := by
  rw [image]
  rcases checkOldImage_eq_ok.1 h with himage | himage <;> rw [himage] <;> rfl

theorem updateImage_eq {item : Item} {touched : List String} (h : ∀ name, name ∈ touched ↔ name ∈ w.touched)
    (found : Option Item) : Table.updateImage found item touched w.returnValues = w.image found (some item) := by
  rw [image]
  cases w.returnValues <;> simp [Table.updateImage, Entries.restrict_congr h]

end SingleWrite

/-- **A plan of one write is refused, or leaves under its key what it is meant to leave.** -/
theorem Table.Holds.write {t t' : Table} {deeds : List Deed} {w : SingleWrite} {p : Plan} {reply : Reply}
    (h : t.Holds deeds) (hbuild : w.build = .ok p) (hputs : ∀ item ∈ w.puts, Entries.Sorted item)
    (hwrite : t.write p.operation p.expressions p.returnValues = (reply, t')) :
    ((∃ err, reply = .error err) ∧ t' = t) ∨ ∃ key left, w.target = .ok key ∧
      w.leaves key (Deed.latest t.key deeds key) = .ok left ∧
      reply = .ok { attributes := w.image (Deed.latest t.key deeds key) left } ∧ t'.key = t.key ∧
      t'.Holds (deeds ++ [⟨key, left⟩]) := by
  simp only [← h.found]
  cases w with
  | put put =>
    obtain ⟨_, -, -, himage, rfl⟩ := Put.build_eq_ok_iff.1 hbuild
    rcases write_cases t _ _ _ with ⟨err, hcase⟩ | ⟨item, hop, hcheck, hcase⟩ | ⟨_, hop, -⟩ |
      ⟨_, _, _, _, hop, -⟩
    · exact .inl (by cases hcase.symm.trans hwrite; exact ⟨⟨err, rfl⟩, rfl⟩)
    · cases hop
      cases hcase.symm.trans hwrite
      obtain ⟨_, hkeyed, -⟩ := bind_eq_ok.1 hcheck
      have hkeyed := checkKeyAttributes_eq_ok.1 (mapError_eq_ok.1 hkeyed)
      exact .inr ⟨_, _, rfl, rfl, SingleWrite.oldImage_eq (w := .put put) himage _ _, rfl,
        h.put hkeyed (hputs _ List.mem_cons_self) (t.sameKey_self _)⟩
    · cases hop
    · cases hop
  | update u =>
    obtain ⟨key, text, hkey, hoperation, hreturns, hupdate⟩ := u.updated_of_build (t := t) hbuild
    rw [hoperation, hreturns] at hwrite
    rcases write_cases t _ _ _ with ⟨err, hcase⟩ | ⟨_, hop, -⟩ | ⟨_, hop, -⟩ |
      ⟨_, _, item, touched, hop, hupdated, hcase⟩
    · exact .inl (by cases hcase.symm.trans hwrite; exact ⟨⟨err, rfl⟩, rfl⟩)
    · cases hop
    · cases hop
    · cases hop
      cases hcase.symm.trans hwrite
      have hfound : ∀ old, t.find? key = some old → old ∈ t.items := fun old hold => List.mem_of_find?_eq_some hold
      obtain ⟨hactions, hsorted, hnames⟩ := hupdate hupdated fun old hold => h.sorted old (hfound old hold)
      -- a key that is neither found nor given anew is the one that the update is about
      have hkeyed : t.key.KeyedIn item := fun name hname => by
        rw [get?_updated hupdated hname]
        cases hfind : t.find? key with
        | none => exact (checkKey_eq_ok.1 (updated_eq_ok hupdated).1).2 name hname
        | some old => exact h.keyed old (hfound old hfind) name hname
      refine .inr ⟨key, some item, hkey, by rw [SingleWrite.leaves, hactions]; rfl, ?_, rfl,
        h.put hkeyed hsorted (sameKey_comm t item key ▸ sameKey_of_updated hupdated)⟩
      rw [← SingleWrite.updateImage_eq (w := .update u) hnames]
      rfl
  | delete d =>
    obtain ⟨key, hkey, -, himage, rfl⟩ := Delete.build_eq_ok_iff.1 hbuild
    rcases write_cases t _ _ _ with ⟨err, hcase⟩ | ⟨_, hop, -⟩ | ⟨_, hop, hcheck, hcase⟩ |
      ⟨_, _, _, _, hop, -⟩
    · exact .inl (by cases hcase.symm.trans hwrite; exact ⟨⟨err, rfl⟩, rfl⟩)
    · cases hop
    · cases hop
      cases hcase.symm.trans hwrite
      exact .inr ⟨key, none, hkey, rfl, SingleWrite.oldImage_eq (w := .delete d) himage _ _, rfl, h.remove key⟩
    · cases hop

end ItemStore
