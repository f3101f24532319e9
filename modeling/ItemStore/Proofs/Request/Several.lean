import ItemStore.Proofs.Request.Builders
import ItemStore.Proofs.Request.Keys
import ItemStore.Proofs.Store.Locality
/-!
# Which items a batch or a transaction is about

A batch and a transaction are built only for keys that differ.  To the store, numbers are what they denote, so `1` and
`1.0` are one key to it and two to the builders: the items of an accepted request meet exactly where a number of the key
is written in two ways (`items_meet_iff_respelled`).
-/
namespace ItemStore

open Outcome (bind_eq_ok length_of_mapM exists_of_mem_mapM)

/-! ## What a plan is about -/

/-- The item or the key that says which stored item an entry is about. -/
def BatchEntry.target : BatchEntry → Item
  | .put item => item
  | .delete key => key

/-- The stored items that a batch or a transaction is about: the table of each, and an item or a key that tells it. -/
def PlanOf.addressed (p : Plan) : List (String × Item) :=
  match p.operation with
  | .batchGet keys => keys.map fun key => (p.table, key)
  | .batchWrite entries => entries.map fun e => (p.table, e.target)
  | .transaction writes _ => writes.filterMap fun w => w.operation.target?.map fun target => (w.table, target)
  | _ => []

/-- A request that is about several items. -/
inductive SeveralItems where
  | reads (b : BatchGet)
  | writes (b : BatchWrite)
  | transaction (t : Transaction)

def SingleWrite.shape : SingleWrite → Descriptor
  | put p => p.shape
  | update u => u.shape
  | delete d => d.shape

namespace SeveralItems

def build : SeveralItems → Except Error Plan
  | reads b => b.build
  | writes b => b.build
  | transaction t => t.build

def shapes : SeveralItems → List Descriptor
  | reads b => [b.shape]
  | writes b => [b.shape]
  | transaction t => t.writes.map (·.shape)

/-- How many keys or writes the request has. -/
def size : SeveralItems → Nat
  | reads b => b.keys.length
  | writes b => b.writes.length
  | transaction t => t.writes.length

end SeveralItems

/-! ## The builders tell keys apart -/

theorem PendingWrite.keyOf_of_entry {shape : Descriptor} {w : PendingWrite} {e : BatchEntry} {key : Item}
    (h : w.entry shape = .ok (e, key)) : shape.KeyOf e.target key := by
  cases w with
  | put item =>
    obtain ⟨_, hkey, h⟩ := bind_eq_ok.1 h
    cases h
    exact Descriptor.keyOf_of_keyOfItem hkey
  | delete k =>
    obtain ⟨_, hkey, h⟩ := bind_eq_ok.1 h
    cases h
    exact Descriptor.keyOf_of_keyItem hkey

theorem SingleWrite.target_of_build {s : SingleWrite} {plan : Plan} {key : Item} (hbuild : s.build = .ok plan)
    (hkey : s.key = .ok key) : plan.table = s.shape.table ∧
      ∃ target, plan.operation.target? = some target ∧ s.shape.KeyOf target key := by
  cases s with
  | put p =>
    obtain ⟨_, -, -, -, rfl⟩ := Put.build_eq_ok_iff.1 hbuild
    exact ⟨rfl, p.item, rfl, Descriptor.keyOf_of_keyOfItem hkey⟩
  | update u =>
    obtain ⟨built, hbuilt, -, -, rfl⟩ := Update.build_eq_ok_iff.1 hbuild
    obtain rfl : built = key := Except.ok.inj (hbuilt.symm.trans hkey)
    exact ⟨rfl, built, rfl, Descriptor.keyOf_of_keyItem hkey⟩
  | delete d =>
    obtain ⟨built, hbuilt, -, -, rfl⟩ := Delete.build_eq_ok_iff.1 hbuild
    obtain rfl : built = key := Except.ok.inj (hbuilt.symm.trans hkey)
    refine ⟨rfl, built, rfl, ?_⟩
    obtain ⟨w, target⟩ := d
    cases target with
    | key k => exact Descriptor.keyOf_of_keyItem hkey
    | item item => exact (Descriptor.keyOf_of_keyOfItem hkey).self

theorem SingleWrite.target_of_member {s : SingleWrite} {m : Plan × Item} (h : s.member = .ok m) :
    m.1.table = s.shape.table ∧ ∃ target, m.1.operation.target? = some target ∧ s.shape.KeyOf target m.2 := by
  obtain ⟨hplan, hkey, -⟩ := member_eq_ok_iff.1 h
  exact target_of_build hplan hkey

/-! ## Where the items meet -/

namespace SeveralItems

/-- In every table with the key that the shapes of the request give it, the two are one item exactly if they are
respelled. -/
def MeetIffRespelled (r : SeveralItems) (x y : String × Item) : Prop :=
  x.1 = y.1 → ∀ t : Table, (∀ shape ∈ r.shapes, shape.table = x.1 → shape.key = t.key) →
    (t.sameKey x.2 y.2 = true ↔ t.key.Respells x.2 y.2)

/-- Members of a request that differ in table or key meet where they are respelled. -/
theorem pairwise_meet {α : Type} {r : SeveralItems} (hcompiled : ∀ shape ∈ r.shapes, shape.Compiled) {ms : List α}
    (address : α → String × Item) (key : α → Item) (hdistinct : (ms.map fun m => ((address m).1, key m)).Nodup)
    (hkey : ∀ m ∈ ms, ∃ shape ∈ r.shapes, (address m).1 = shape.table ∧ shape.KeyOf (address m).2 (key m)) :
    (ms.map address).Pairwise r.MeetIffRespelled := by
  refine List.pairwise_map.2 ((List.pairwise_map.1 hdistinct).imp_of_mem fun {m n} hm hn hne htable t hshapes => ?_)
  obtain ⟨shape, hshape, hmtable, hmkey⟩ := hkey m hm
  obtain ⟨shape', hshape', hntable, hnkey⟩ := hkey n hn
  have hsame : shape.key = t.key := hshapes shape hshape hmtable.symm
  have hsame' : shape'.key = t.key := hshapes shape' hshape' (hntable.symm.trans htable.symm)
  have hkeys : key m ≠ key n := fun h => hne (Prod.ext htable h)
  exact Descriptor.sameKey_iff_respells (hcompiled shape hshape) (hcompiled shape' hshape') hsame hsame'
    hmkey hnkey hkeys

theorem reads_meet {b : BatchGet} {plan : Plan} (hshape : b.shape.Compiled) (h : b.build = .ok plan) :
    plan.addressed.Pairwise (reads b).MeetIffRespelled ∧ plan.addressed.length = b.keys.length := by
  obtain ⟨-, keys, hkeys, hnodup, -, rfl⟩ := BatchGet.build_eq_ok_iff.1 h
  have hcompiled : ∀ shape ∈ (reads b).shapes, shape.Compiled := List.forall_mem_singleton.2 hshape
  refine ⟨pairwise_meet hcompiled (fun key => (b.shape.table, key)) id ?_ fun key hkey => ?_, ?_⟩
  · exact hnodup.map fun _ _ h => (Prod.mk.inj h).2
  · obtain ⟨k, -, hk⟩ := exists_of_mem_mapM hkeys key hkey
    exact ⟨b.shape, List.mem_singleton_self _, rfl, Descriptor.keyOf_of_keyItem hk⟩
  · exact (List.length_map _).trans (length_of_mapM hkeys)

theorem writes_meet {b : BatchWrite} {plan : Plan} (hshape : b.shape.Compiled) (h : b.build = .ok plan) :
    plan.addressed.Pairwise (writes b).MeetIffRespelled ∧ plan.addressed.length = b.writes.length := by
  obtain ⟨-, entries, hentries, hnodup, rfl⟩ := BatchWrite.build_eq_ok_iff.1 h
  have haddressed : (entries.map Prod.fst).map (fun e => (b.shape.table, e.target)) =
      entries.map fun e => (b.shape.table, e.1.target) := List.map_map
  have hcompiled : ∀ shape ∈ (writes b).shapes, shape.Compiled := List.forall_mem_singleton.2 hshape
  simp only [PlanOf.addressed, haddressed, List.length_map]
  refine ⟨pairwise_meet hcompiled _ Prod.snd ?_ fun e he => ?_, ?_⟩
  · exact List.pairwise_map.2 ((List.pairwise_map.1 hnodup).imp fun hne h => hne (Prod.mk.inj h).2)
  · obtain ⟨w, -, hw⟩ := exists_of_mem_mapM hentries e he
    exact ⟨b.shape, List.mem_singleton_self _, rfl, PendingWrite.keyOf_of_entry hw⟩
  · exact length_of_mapM hentries

theorem transaction_meets {tx : Transaction} {plan : Plan} (hshapes : ∀ w ∈ tx.writes, w.shape.Compiled)
    (h : tx.build = .ok plan) :
    plan.addressed.Pairwise (transaction tx).MeetIffRespelled ∧ plan.addressed.length = tx.writes.length := by
  obtain ⟨-, -, -, members, hmembers, hnodup, rfl⟩ := Transaction.build_eq_ok_iff.1 h
  have htarget : ∀ m ∈ members, ∃ w ∈ tx.writes, m.1.table = w.shape.table ∧
      ∃ target, m.1.operation.target? = some target ∧ w.shape.KeyOf target m.2 := fun m hm => by
    obtain ⟨w, hw, hmember⟩ := exists_of_mem_mapM hmembers m hm
    exact ⟨w, hw, SingleWrite.target_of_member hmember⟩
  -- every member is a write, so none of them falls out of what is addressed
  have haddressed : (members.map Prod.fst).filterMap (fun w => w.operation.target?.map fun x => (w.table, x)) =
      members.map fun m => (m.1.table, m.1.operation.target?.getD []) := by
    rw [List.filterMap_map]
    refine List.filterMap_eq_map_iff_forall_eq_some.2 fun m hm => ?_
    obtain ⟨w, -, -, target, htarget, -⟩ := htarget m hm
    rw [Function.comp_apply, htarget]
    rfl
  have hcompiled : ∀ shape ∈ (transaction tx).shapes, shape.Compiled := List.forall_mem_map.2 hshapes
  simp only [PlanOf.addressed, haddressed, List.length_map]
  refine ⟨pairwise_meet hcompiled _ Prod.snd hnodup fun m hm => ?_, ?_⟩
  · obtain ⟨w, hw, htable, target, htarget, hkey⟩ := htarget m hm
    refine ⟨w.shape, List.mem_map_of_mem hw, htable, ?_⟩
    rw [htarget]
    exact hkey
  · exact length_of_mapM hmembers

/-- **The items of an accepted batch or transaction meet exactly where their keys are respelled**: two of its keys or
writes are about one stored item if and only if their keys have the same texts, bytes and numbers, and one of the
numbers is written in two ways. -/
theorem items_meet_iff_respelled (r : SeveralItems) (plan : Plan) (hshapes : ∀ shape ∈ r.shapes, shape.Compiled)
    (h : r.build = .ok plan) :
    plan.addressed.Pairwise r.MeetIffRespelled ∧ plan.addressed.length = r.size := by
  cases r with
  | reads b => exact reads_meet (List.forall_mem_singleton.1 hshapes) h
  | writes b => exact writes_meet (List.forall_mem_singleton.1 hshapes) h
  | transaction tx => exact transaction_meets (List.forall_mem_map.1 hshapes) h

/-- Readings are kept by a number. -/
def readings : Declaration where
  name := "Reading"
  table := "readings"
  attributes := [⟨"at", .number, false, false, .partition⟩]
  indexes := []

def onePointZero : Numeral := ⟨String.ofList ['1', '.', '0'], by rw [String.toList_ofList]; rfl⟩

/-- Two readings that are one to the store: `1` and `1.0`. -/
def oneReadingTwice : BatchGet where
  shape := ⟨"Reading", "readings", readings.attributes, ⟨"at", none⟩, []⟩
  keys := [{ partition := .number (.ofInt 1) }, { partition := .number onePointZero }]

theorem items_meet_iff_respelled_of_readings :
    ∃ plan, (∀ shape ∈ (reads oneReadingTwice).shapes, shape.Compiled) ∧
      (reads oneReadingTwice).build = .ok plan ∧ plan.addressed.Pairwise (reads oneReadingTwice).MeetIffRespelled ∧
      plan.addressed.length = (reads oneReadingTwice).size := by
  have hshapes : ∀ shape ∈ (reads oneReadingTwice).shapes, shape.Compiled :=
    List.forall_mem_singleton.2 ⟨readings, rfl⟩
  have hbuild : ∃ plan, (reads oneReadingTwice).build = .ok plan := ⟨_, rfl⟩
  obtain ⟨plan, hplan⟩ := hbuild
  exact ⟨plan, hshapes, hplan, items_meet_iff_respelled _ plan hshapes hplan⟩

/-- The two readings pass for different ones, though every table of readings takes them for one. -/
theorem one_reading_is_asked_for_twice :
    readings.compile = .ok oneReadingTwice.shape ∧ ∃ plan, oneReadingTwice.build = .ok plan ∧
      plan.addressed = [("readings", [("at", .number (.ofInt 1))]), ("readings", [("at", .number onePointZero)])] ∧
      ∀ t : Table, t.key = oneReadingTwice.shape.key →
        t.sameKey [("at", .number (.ofInt 1))] [("at", .number onePointZero)] = true := by
  refine ⟨rfl, _, rfl, rfl, fun t ht => ?_⟩
  rw [Table.sameKey, ht]
  rfl

end SeveralItems
end ItemStore
