import ItemStore.Proofs.Request.Existence
/-!
# Transactions that are sent again

The store serves a transaction without a look at its token.  So a transaction that is sent again is carried out again,
and it leaves everything as it is only if each of its writes, done once more on what it has left, passes its conditions
and changes nothing (`Store.resubmission_has_no_effect_iff`): puts and deletes whose conditions still hold, and updates
that make of the item the item that it is.
-/
namespace ItemStore

open Outcome (bind_eq_ok mapError_eq_ok)

/-! ## Writes that change nothing -/

/-- Where a fate leaves the items of its key it leaves the table. -/
theorem Fate.on_eq_self {t : Table} {key : Item} {fate : Fate} (hfits : fate.Fits t key)
    (h : (fate.on key t).itemsOf key = t.itemsOf key) : fate.on key t = t := by
  have hfind := t.find?_eq_head? key
  rw [itemsOf_on_same hfits (t.sameKey_self key)] at h
  cases fate with
  | stays => rfl
  | becomes item =>
    rw [← h] at hfind
    exact Table.put_eq_self_iff.2 ((Table.find?_congr_key hfits).trans hfind)
  | goes =>
    cases hitems : t.itemsOf key with
    | nil =>
      rw [hitems] at hfind
      exact Table.remove_eq_self_iff.2 hfind
    | cons x xs =>
      have hlength := congrArg List.length h
      simp [items, hitems] at hlength

namespace Table
variable {t t' : Table} {op : Operation} {e : Expressions} {image : ReturnValues} {key item : Item}

theorem write_eq_self (hop : op.target? = some key) (h : (t.write op e image).2.itemsOf key = t.itemsOf key) :
    (t.write op e image).2 = t := by
  obtain ⟨_, fate, hfits, hwrite⟩ := t.write_local hop e image
  rw [hwrite t rfl rfl] at h ⊢
  exact Fate.on_eq_self hfits h

theorem checkWrite_eq_ok {keyCheck : Except RequestFault Unit} : t.checkWrite e keyCheck key = .ok () ↔
    keyCheck = .ok () ∧ conditionHolds e.bindings ((t.find? key).getD []) e.condition = .ok true := by
  rw [checkWrite, bind_eq_ok, ← checkCondition_eq_ok]
  constructor
  · rintro ⟨_, hkey, hcondition⟩
    exact ⟨mapError_eq_ok.1 hkey, hcondition⟩
  · rintro ⟨hkey, hcondition⟩
    exact ⟨(), mapError_eq_ok.2 hkey, hcondition⟩

/-! ### Writes that are answered with success -/

theorem write_put_eq_ok : (∃ response, t.write (.put item) e .nothing = (.ok response, t')) ↔
    t.checkWrite e (t.checkKeyAttributes item) item = .ok () ∧ t.put item = t' := by
  cases hcheck : t.checkWrite e (t.checkKeyAttributes item) item <;> simp [write, hcheck, oldImage]

theorem write_delete_eq_ok : (∃ response, t.write (.delete key) e .nothing = (.ok response, t')) ↔
    t.checkWrite e (t.checkKey key) key = .ok () ∧ t.remove key = t' := by
  cases hcheck : t.checkWrite e (t.checkKey key) key <;> simp [write, hcheck, oldImage]

theorem write_update_eq_ok {text : String} : (∃ response, t.write (.update key text) e .nothing = (.ok response, t')) ↔
    ∃ item touched, t.updated e key text = .ok (item, touched) ∧ t.put item = t' := by
  cases hupdated : t.updated e key text <;> simp [write, hupdated, Prod.ext_iff]

/-- The write has been done on the first table, and under its key the second holds what it has left. -/
structure After (t : Table) (op : Operation) (e : Expressions) (t' : Table) : Prop where
  done : ∃ response, (t.write op e .nothing).1 = .ok response
  key : t'.key = t.key
  items : ∀ key, op.target? = some key → t'.itemsOf key = (t.write op e .nothing).2.itemsOf key

namespace After

/-- What the write has left is found. -/
theorem exists_write (h : t.After op e t') (hop : op.target? = some key) : ∃ made,
    (∃ response, t.write op e .nothing = (.ok response, made)) ∧ t'.find? key = made.find? key := by
  obtain ⟨response, hdone⟩ := h.done
  refine ⟨_, ⟨response, Prod.ext hdone rfl⟩, ?_⟩
  rw [find?_eq_head?, find?_eq_head?, h.items key hop]

/-- The item of a put is there, and the put is done again if its condition holds. -/
theorem put (h : t.After (.put item) e t') : t'.find? item = some item ∧
    ((∃ response, t'.write (.put item) e .nothing = (.ok response, t')) ↔ t'.conditionOf (.put item) e = .ok true) := by
  obtain ⟨_, hdone, hfind⟩ := h.exists_write rfl
  obtain ⟨hcheck, rfl⟩ := write_put_eq_ok.1 hdone
  rw [find?_put, if_pos (t.sameKey_self item)] at hfind
  have hkey : t'.checkKeyAttributes item = .ok () :=
    (checkKeyAttributes_congr h.key item).trans (checkWrite_eq_ok.1 hcheck).1
  refine ⟨hfind, ?_⟩
  rw [write_put_eq_ok, checkWrite_eq_ok, put_eq_self_iff, and_iff_left hfind, and_iff_right hkey]
  rfl

/-- Nothing is there under the key of a delete, and the delete is done again if its condition holds. -/
theorem delete (hdistinct : t.Distinct) (h : t.After (.delete key) e t') : t'.find? key = none ∧
    ((∃ response, t'.write (.delete key) e .nothing = (.ok response, t')) ↔
      t'.conditionOf (.delete key) e = .ok true) := by
  obtain ⟨_, hdone, hfind⟩ := h.exists_write rfl
  obtain ⟨hcheck, rfl⟩ := write_delete_eq_ok.1 hdone
  rw [find?_remove hdistinct, if_pos (t.sameKey_self key)] at hfind
  have hkey : t'.checkKey key = .ok () := (checkKey_congr h.key key).trans (checkWrite_eq_ok.1 hcheck).1
  refine ⟨hfind, ?_⟩
  rw [write_delete_eq_ok, checkWrite_eq_ok, remove_eq_self_iff, and_iff_left hfind, and_iff_right hkey]
  rfl

/-- What an update has made is there, and the update is done again if it makes the same of it. -/
theorem update {text : String} (h : t.After (.update key text) e t') : ∃ item touched,
    t.updated e key text = .ok (item, touched) ∧ t'.find? key = some item ∧
    ((∃ response, t'.write (.update key text) e .nothing = (.ok response, t')) ↔
      ∃ names, t'.updated e key text = .ok (item, names)) := by
  obtain ⟨_, hdone, hfind⟩ := h.exists_write rfl
  obtain ⟨item, touched, hmade, rfl⟩ := write_update_eq_ok.1 hdone
  rw [find?_put, if_pos (sameKey_of_updated hmade)] at hfind
  refine ⟨item, touched, hmade, hfind, ?_⟩
  have hput {item' : Item} {names : List String} (hagain : t'.updated e key text = .ok (item', names)) :
      t'.put item' = t' ↔ item = item' := by
    rw [put_eq_self_iff, find?_congr_key (sameKey_of_updated hagain), hfind, Option.some_inj]
  rw [write_update_eq_ok]
  constructor
  · rintro ⟨item', names, hagain, hsame⟩
    exact ⟨names, (hput hagain).1 hsame ▸ hagain⟩
  · rintro ⟨names, hagain⟩
    exact ⟨item, names, hagain, (hput hagain).2 rfl⟩

end After
end Table

/-! ## What is built, done once more -/

namespace SingleWrite

/-- Done once more on what it has left in these tables, the write passes its conditions and changes nothing. -/
def Repeats (ts : Tables) : SingleWrite → Prop
  | put w => Condition.allHold w.item w.conditions = true
  | delete w => Condition.allHold [] w.conditions = true
  | update w => ∃ t key item, ts.get? w.shape.table = some t ∧ w.keyItem = .ok key ∧ t.find? key = some item ∧
      Condition.allHold item w.conditions = true ∧ UpdateAction.applyAll item w.actions = .ok item

variable {w : SingleWrite} {p : Plan} {t t' : Table}

/-- What a table makes of a built update hangs on its conditions and its actions, once its key has been accepted. -/
theorem updated_iff_of_build {u : Update} {key item found made : Item} {text : String} {touched : List String}
    (h : u.build = .ok p) (hop : p.operation = .update key text)
    (hdone : t.updated p.expressions key text = .ok (made, touched)) (ht : t'.key = t.key)
    (hfind : t'.find? key = some found) (hsorted : Entries.Sorted found) :
    (∃ names, t'.updated p.expressions key text = .ok (item, names)) ↔
      Condition.allHold found u.conditions = true ∧ UpdateAction.applyAll found u.actions = .ok item := by
  obtain ⟨hcheck, cs, hparse, htouched, -⟩ := Table.updated_eq_ok hdone
  obtain ⟨_, -, hvalid, hconditions, hplan⟩ := Update.build_eq_ok_iff.1 h
  have htext : (Writer.empty.update u.actions).1 = text := by
    rw [← hplan] at hop
    exact (Operation.update.inj hop).2
  have hholds (x : Item) : Table.conditionHolds p.expressions.bindings x p.expressions.condition =
      .ok (Condition.allHold x u.conditions) := by
    rw [← hplan]
    exact ItemWrite.conditionHolds hconditions (Writer.empty.update u.actions).2 x
  have hextends : Writer.Extends (Writer.empty.update u.actions).2
      ((Writer.empty.update u.actions).2.conjunction u.conditions).2 := Writer.extends_conjunction _ _
  obtain ⟨hne, hd⟩ := UpdateAction.distinct_of_validateAll hvalid
  obtain ⟨cs', hparse', hdo⟩ := Writer.update_spec Writer.empty hne hd
  rw [htext] at hparse'
  obtain rfl : cs = cs' := Except.ok.inj (hparse.symm.trans hparse')
  have hsame : (Change.applyAll p.expressions.bindings found cs).toOption =
      (UpdateAction.applyAll found u.actions).toOption := by
    rw [← hplan]
    exact hdo hextends hsorted
  have hcheck' : t'.checkKey key = .ok () := (Table.checkKey_congr ht key).trans hcheck
  have htouched' : t'.touchedNames p.expressions.bindings cs = .ok touched := by
    rw [← htouched, Table.touchedNames, Table.touchedNames, ht]
  rw [Table.updated_of_total hholds hcheck' hparse htouched', hfind, Option.getD_some, Option.getD_some]
  by_cases hmeets : Condition.allHold found u.conditions = true
  · cases hchanged : Change.applyAll p.expressions.bindings found cs <;>
      cases hacted : UpdateAction.applyAll found u.actions <;>
      simp_all [Except.toOption, Except.mapError, Except.map, expressionFault]
  · simp [hmeets]

/-- After a write that has been done, it repeats exactly if the table answers it with success again and stays as it
is. -/
theorem repeats_iff_of_build {ts : Tables} (h : w.build = .ok p) (hnothing : p.returnValues = .nothing)
    (ht' : ts.get? p.table = some t') (hafter : t.After p.operation p.expressions t') (hdistinct : t.Distinct)
    (hsorted : ∀ item ∈ t.items, Entries.Sorted item) : w.Repeats ts ↔
      ∃ response, t'.write p.operation p.expressions p.returnValues = (.ok response, t') := by
  have htable := (plan_of_build h).2
  rw [hnothing]
  cases w with
  | put put =>
    have hcondition := conditionOf_of_build h rfl t'
    rw [put.operation_of_build h] at hafter hcondition ⊢
    obtain ⟨hfind, hagain⟩ := hafter.put
    rw [hagain, hcondition, hfind, Except.ok.injEq]
    rfl
  | delete d =>
    obtain ⟨key, hkey, hoperation⟩ := d.operation_of_build h
    have hcondition := conditionOf_of_build h hkey t'
    rw [hoperation] at hafter hcondition ⊢
    obtain ⟨hfind, hagain⟩ := hafter.delete hdistinct
    rw [hagain, hcondition, hfind, Except.ok.injEq]
    rfl
  | update u =>
    obtain ⟨key, text, hkey, hoperation, -, hupdate⟩ := u.updated_of_build (t := t) h
    rw [hoperation] at hafter ⊢
    obtain ⟨item, touched, hmade, hfind, hagain⟩ := hafter.update
    obtain ⟨-, hitem, -⟩ := hupdate hmade fun old hold => hsorted old (List.mem_of_find?_eq_some hold)
    rw [htable] at ht'
    rw [hagain, updated_iff_of_build h hoperation hmade hafter.key hfind hitem]
    constructor
    · rintro ⟨u', key', item', hu', hkey', hfind', hrepeats⟩
      cases ht'.symm.trans hu'
      cases hkey.symm.trans hkey'
      cases hfind.symm.trans hfind'
      exact hrepeats
    · exact fun hrepeats => ⟨t', key, item, ht', hkey, hfind, hrepeats⟩

end SingleWrite

/-! ## Runs of writes about different items -/

namespace Tables
variable {ts ts' staged : Tables} {p q : Plan} {ps : List Plan} {reasons : List (Option String)}

/-- Under the key of the write the tables hold the same items. -/
def SameUnder (p : Plan) (ts ts' : Tables) : Prop :=
  ∃ t t' key, ts.get? p.table = some t ∧ ts'.get? p.table = some t' ∧ p.operation.target? = some key ∧
    t'.key = t.key ∧ t'.itemsOf key = t.itemsOf key

namespace SameUnder

theorem refl (h : ts.Serves p) : SameUnder p ts ts := by
  obtain ⟨t, key, ht, hkey⟩ := h
  exact ⟨t, t, key, ht, ht, hkey, rfl, rfl⟩

theorem asFor (h : SameUnder p ts ts') : AsFor p ts ts' := by
  obtain ⟨t, t', key, ht, ht', hkey, hsame, hitems⟩ := h
  exact ⟨t, t', key, ht, ht', hkey, hsame, by rw [Table.find?_eq_head?, Table.find?_eq_head?, hitems]⟩

/-- The write makes the same of the same items. -/
theorem writeOne (h : SameUnder p ts ts') : SameUnder p (ts.writeOne p).2 (ts'.writeOne p).2 := by
  obtain ⟨t, t', key, ht, ht', hkey, hsame, hitems⟩ := h
  obtain ⟨fate, hfits, hfate⟩ := exists_fate p rfl t hkey
  have hfind : t'.find? key = t.find? key := by rw [Table.find?_eq_head?, Table.find?_eq_head?, hitems]
  rw [hfate ht rfl rfl, hfate ht' hsame hfind]
  refine ⟨fate.on key t, fate.on key t', key, by simp, by simp, hkey, by simp [hsame], ?_⟩
  rw [Fate.itemsOf_on_same (hfits.congr hsame) (t'.sameKey_self key), Fate.itemsOf_on_same hfits (t.sameKey_self key),
    hitems]

/-- A write about another item goes unnoticed. -/
theorem writeOne_other (hq : SameUnder q ts ts') (hp : p.operation.isWrite = true) (h : ¬ts'.SameTarget p q) :
    SameUnder q ts (ts'.writeOne p).2 := by
  obtain ⟨u, u', b, hu, hu', hb, hsame, hitems⟩ := hq
  obtain ⟨a, ha⟩ := Operation.exists_target hp
  cases ht' : ts'.get? p.table with
  | none =>
    rw [Tables.writeOne, ht']
    exact ⟨u, u', b, hu, hu', hb, hsame, hitems⟩
  | some t' =>
    obtain ⟨fate, hfits, hfate⟩ := exists_fate p rfl t' ha
    rw [hfate ht' rfl rfl]
    by_cases htable : q.table = p.table
    · rw [htable] at hu'
      obtain rfl : t' = u' := Option.some.inj (ht'.symm.trans hu')
      have hab : t'.sameKey a b = false :=
        Bool.eq_false_iff.2 fun hab => h ⟨htable.symm, t', a, b, ht', ha, hb, hab⟩
      exact ⟨u, fate.on a t', b, hu, by rw [htable, Entries.get?_put_self], hb, by simp [hsame],
        (Fate.itemsOf_on_other hfits hab).trans hitems⟩
    · exact ⟨u, u', b, hu, by rw [Entries.get?_put_of_ne _ _ htable, hu'], hb, hsame, hitems⟩

end SameUnder

/-- A run that has ended well began with a write of a table that is there, and went on. -/
theorem stage_cons (h : ts.stage (p :: ps) = .ok (reasons, staged)) : ∃ reason rest t, reasons = reason :: rest ∧
    ts.get? p.table = some t ∧ (ts.writeOne p).2.stage ps = .ok (rest, staged) ∧
    (reason = none → ∃ response, (ts.writeOne p).1 = .ok response) := by
  have htable : ∃ t, ts.get? p.table = some t := by
    cases ht : ts.get? p.table with
    | some t => exact ⟨t, rfl⟩
    | none => simp [stage, writeOne, ht, RequestFault.error] at h
  obtain ⟨t, ht⟩ := htable
  unfold stage at h
  split at h
  · next response ts' hwrite =>
    obtain ⟨⟨rest, staged'⟩, hrest, hok⟩ := bind_eq_ok.1 h
    cases hok
    rw [hwrite]
    exact ⟨none, rest, t, rfl, ht, hrest, fun _ => ⟨response, rfl⟩⟩
  · next detail ts' hwrite =>
    obtain ⟨⟨rest, staged'⟩, hrest, hok⟩ := bind_eq_ok.1 h
    cases hok
    rw [hwrite]
    refine ⟨_, rest, t, rfl, ht, hrest, fun hnone => ?_⟩
    cases hnone
  · cases h

theorem SameUnder.stage : ∀ {ps : List Plan} {ts' : Tables} {reasons : List (Option String)}, SameUnder q ts ts' →
    (∀ p ∈ ps, p.operation.isWrite = true) → (∀ p ∈ ps, ¬ts'.SameTarget p q) →
    ts'.stage ps = .ok (reasons, staged) → SameUnder q ts staged
  | [], _, _, hq, _, _, h => by
    cases h
    exact hq
  | p :: ps, ts', _, hq, hwrites, hne, h => by
    obtain ⟨hp, hps⟩ := List.forall_mem_cons.1 hwrites
    obtain ⟨hnep, hneps⟩ := List.forall_mem_cons.1 hne
    obtain ⟨_, _, _, -, -, hrest, -⟩ := stage_cons h
    exact (hq.writeOne_other hp hnep).stage hps (fun r hr hsame => hneps r hr hsame.of_writeOne) hrest

/-- A run of writes is of tables that are there. -/
theorem serves_of_stage : ∀ {ps : List Plan} {ts : Tables} {reasons : List (Option String)},
    (∀ p ∈ ps, p.operation.isWrite = true) → ts.stage ps = .ok (reasons, staged) → ∀ p ∈ ps, ts.Serves p
  | [], _, _, _, _ => List.forall_mem_nil _
  | p :: ps, ts, _, hwrites, h => by
    obtain ⟨hp, hps⟩ := List.forall_mem_cons.1 hwrites
    obtain ⟨key, hkey⟩ := Operation.exists_target hp
    obtain ⟨_, _, t, -, ht, hrest, -⟩ := stage_cons h
    refine List.forall_mem_cons.2 ⟨⟨t, key, ht, hkey⟩, fun q hq => ?_⟩
    obtain ⟨u', b, hu', hb⟩ := serves_of_stage hps hrest q hq
    obtain ⟨u, hu, -⟩ := (writeOne_become ts p).exists_before hu'
    exact ⟨u, b, hu, hb⟩

/-- **Each of several writes about different items is done as it is alone, and what it has left stays.** -/
theorem done_of_stage : ∀ {ps : List Plan} {ts' : Tables} {reasons : List (Option String)},
    (∀ p ∈ ps, p.operation.isWrite = true) → (∀ p ∈ ps, SameUnder p ts ts') →
    ps.Pairwise (fun p q => ¬ts'.SameTarget p q) → ts'.stage ps = .ok (reasons, staged) →
    reasons.any Option.isSome = false →
    ∀ p ∈ ps, (∃ response, (ts.writeOne p).1 = .ok response) ∧ SameUnder p (ts.writeOne p).2 staged
  | [], _, _, _, _, _, _, _ => List.forall_mem_nil _
  | p :: ps, ts', _, hwrites, hsame, hne, h, hnone => by
    obtain ⟨hp, hps⟩ := List.forall_mem_cons.1 hwrites
    obtain ⟨hsamep, hsameps⟩ := List.forall_mem_cons.1 hsame
    obtain ⟨hnep, hneps⟩ := List.pairwise_cons.1 hne
    obtain ⟨reason, rest, _, rfl, -, hrest, hreason⟩ := stage_cons h
    obtain ⟨hfirst, hlater⟩ : reason.isSome = false ∧ rest.any Option.isSome = false := by simpa using hnone
    refine List.forall_mem_cons.2 ⟨⟨?_, ?_⟩, ?_⟩
    · rw [← hsamep.asFor.reply_eq]
      exact hreason (Option.not_isSome_iff_eq_none.1 (by simp [hfirst]))
    · exact hsamep.writeOne.stage hps (fun q hq hmeet => hnep q hq hmeet.of_writeOne.symm) hrest
    · exact done_of_stage hps (fun q hq => (hsameps q hq).writeOne_other hp (hnep q hq))
        (hneps.imp fun hnot hmeet => hnot hmeet.of_writeOne) hrest hlater

theorem after_of_stage (hwrites : ∀ p ∈ ps, p.operation.isWrite = true)
    (hne : ps.Pairwise fun p q => ¬ts.SameTarget p q) (h : ts.stage ps = .ok (reasons, staged))
    (hnone : reasons.any Option.isSome = false) (hp : p ∈ ps) (hnothing : p.returnValues = .nothing) :
    ∃ t t', ts.get? p.table = some t ∧ staged.get? p.table = some t' ∧ t.After p.operation p.expressions t' := by
  have hserves := serves_of_stage hwrites h
  obtain ⟨hdone, w, t', key, hw, ht', hkey, hsame, hitems⟩ :=
    done_of_stage hwrites (fun p hp => .refl (hserves p hp)) hne h hnone p hp
  obtain ⟨t, -, ht, -⟩ := hserves p hp
  rw [writeOne_eq ht, hnothing] at hdone hw
  rw [Entries.get?_put_self] at hw
  cases hw
  refine ⟨t, t', ht, ht', hdone, hsame.trans (t.becomes_write _ _ _).key_eq, fun key' hkey' => ?_⟩
  cases hkey.symm.trans hkey'
  exact hitems

/-- The write is answered with success and its table stays as it is. -/
def Stands (ts : Tables) (p : Plan) : Prop :=
  ∃ t response, ts.get? p.table = some t ∧ t.write p.operation p.expressions p.returnValues = (.ok response, t)

theorem stage_of_stands : ∀ {ps : List Plan} {ts' : Tables}, (∀ name, ts'.get? name = ts.get? name) →
    (∀ p ∈ ps, ts.Stands p) → ∃ reasons staged, ts'.stage ps = .ok (reasons, staged) ∧
      reasons.any Option.isSome = false ∧ ∀ name, staged.get? name = ts.get? name
  | [], ts', hsame, _ => ⟨[], ts', rfl, rfl, hsame⟩
  | p :: ps, ts', hsame, hstands => by
    obtain ⟨⟨t, response, ht, hwrite⟩, hps⟩ := List.forall_mem_cons.1 hstands
    have ht' : ts'.get? p.table = some t := (hsame p.table).trans ht
    have hone : ts'.writeOne p = (.ok response, ts'.put p.table t) := by rw [writeOne_eq ht', hwrite]
    have hsame' : ∀ name, (ts'.put p.table t).get? name = ts.get? name := fun name => by
      rw [get?_put_same ht', hsame]
    obtain ⟨reasons, staged, hrest, hnone, hstaged⟩ := stage_of_stands hsame' hps
    refine ⟨none :: reasons, staged, ?_, by simpa using hnone, hstaged⟩
    rw [stage, hone]
    simp only [hrest]
    rfl

/-- **A run of writes about different items leaves the tables exactly if each of the writes does.** -/
theorem stands_of_stage (hwrites : ∀ p ∈ ps, p.operation.isWrite = true)
    (hne : ps.Pairwise fun p q => ¬ts.SameTarget p q) (h : ts.stage ps = .ok (reasons, staged))
    (hnone : reasons.any Option.isSome = false) (hsame : ∀ name, staged.get? name = ts.get? name) :
    ∀ p ∈ ps, ts.Stands p := by
  intro p hp
  have hserves := serves_of_stage hwrites h
  obtain ⟨⟨response, hdone⟩, w, t', key, hw, ht', hkey, -, hitems⟩ :=
    done_of_stage hwrites (fun p hp => .refl (hserves p hp)) hne h hnone p hp
  obtain ⟨t, -, ht, -⟩ := hserves p hp
  rw [writeOne_eq ht] at hdone hw
  rw [Entries.get?_put_self] at hw
  cases hw
  obtain rfl : t = t' := Option.some.inj (ht.symm.trans ((hsame p.table).symm.trans ht'))
  exact ⟨t, response, ht, Prod.ext hdone (Table.write_eq_self hkey hitems.symm)⟩

theorem transact_eq_ok {response : Response} : ts.transact ps = (.ok response, staged) ↔
    Table.sizeFits maxTransaction ps = true ∧ response = {} ∧
      ∃ reasons, ts.stage ps = .ok (reasons, staged) ∧ reasons.any Option.isSome = false := by
  unfold transact
  split
  · next hsize =>
    cases hstage : ts.stage ps with
    | error e => simp
    | ok result =>
      obtain ⟨reasons, made⟩ := result
      dsimp only
      by_cases hany : reasons.any Option.isSome = true
      · rw [if_pos hany]
        constructor
        · nofun
        · rintro ⟨-, -, _, heq, hnone⟩
          cases heq
          rw [hnone] at hany
          cases hany
      · rw [if_neg hany]
        constructor
        · intro h
          cases h
          exact ⟨hsize, rfl, reasons, rfl, Bool.eq_false_iff.2 hany⟩
        · rintro ⟨-, rfl, _, heq, -⟩
          cases heq
          rfl
  · next hsize => simp [hsize]

end Tables

/-! ## Sending again -/

namespace Store
variable {s : Store} {r : Request} {writes : List Plan} {token : Option String} {response : Response}

/-- However often the request is sent, it is answered with success and leaves the tables as they are. -/
def KeepsOnResending (s : Store) (r : Request) : Prop :=
  ∀ n, ((s.run (List.replicate n (.send r))).send r).1 = .ok {} ∧
    ∀ name, ((s.run (List.replicate n (.send r))).send r).2.tables.get? name = s.tables.get? name

/-- A transaction is served by its writes; nobody looks at its token. -/
theorem send_transaction_eq (hr : r.operation = .transaction writes token) (hfaults : s.faults.next.1 = none) :
    s.send r = ((s.tables.transact writes).1, { s with log := s.log ++ [r], tables := (s.tables.transact writes).2 }) :=
  send_transaction hr hfaults rfl

theorem faults_of_send_ok (h : (s.send r).1 = .ok response) : s.faults.next.1 = none := by
  cases hnext : s.faults.next with
  | mk fault faults =>
    cases fault with
    | none => rfl
    | some e =>
      rw [send_of_fault hnext] at h
      cases h

theorem exists_staged_of_send_ok (hr : r.operation = .transaction writes token) (h : (s.send r).1 = .ok response) :
    s.faults.next.1 = none ∧ (s.send r).2.faults = s.faults ∧ Table.sizeFits maxTransaction writes = true ∧
      ∃ reasons, s.tables.stage writes = .ok (reasons, (s.send r).2.tables) ∧ reasons.any Option.isSome = false := by
  have hfaults := faults_of_send_ok h
  have hsend := send_transaction_eq hr hfaults
  have htransact : s.tables.transact writes = (.ok response, (s.send r).2.tables) := by
    rw [hsend] at h ⊢
    exact Prod.ext h rfl
  obtain ⟨hsize, -, hstage⟩ := Tables.transact_eq_ok.1 htransact
  exact ⟨hfaults, by rw [hsend], hsize, hstage⟩

/-- **Sending a transaction again leaves everything as it is exactly if each of its writes does.** -/
theorem keepsOnResending_iff (hr : r.operation = .transaction writes token) (hfaults : s.faults.next.1 = none)
    (hsize : Table.sizeFits maxTransaction writes = true) (hwrites : ∀ p ∈ writes, p.operation.isWrite = true)
    (hne : writes.Pairwise fun p q => ¬s.tables.SameTarget p q) :
    s.KeepsOnResending r ↔ ∀ p ∈ writes, s.tables.Stands p := by
  constructor
  · intro h
    obtain ⟨hdone, hsame⟩ := h 0
    obtain ⟨-, -, -, reasons, hstage, hnone⟩ := exists_staged_of_send_ok hr hdone
    exact Tables.stands_of_stage hwrites hne hstage hnone hsame
  · intro hstands
    -- what every further request finds: no fault, and the tables as they are now
    have hstep : ∀ s' : Store, s'.faults.next.1 = none → (∀ name, s'.tables.get? name = s.tables.get? name) →
        (s'.send r).1 = .ok {} ∧ (s'.send r).2.faults.next.1 = none ∧
          ∀ name, (s'.send r).2.tables.get? name = s.tables.get? name := by
      intro s' hfaults' hsame
      obtain ⟨reasons, staged, hstage, hnone, hstaged⟩ := Tables.stage_of_stands hsame hstands
      have htransact := Tables.transact_eq_ok.2 ⟨hsize, rfl, reasons, hstage, hnone⟩
      rw [send_transaction hr hfaults' htransact]
      exact ⟨rfl, hfaults', hstaged⟩
    have hrun : ∀ n, (s.run (List.replicate n (.send r))).faults.next.1 = none ∧
        ∀ name, (s.run (List.replicate n (.send r))).tables.get? name = s.tables.get? name := by
      intro n
      induction n with
      | zero => exact ⟨hfaults, fun _ => rfl⟩
      | succ n ih =>
        rw [List.replicate_succ', run, List.foldl_append]
        exact (hstep _ ih.1 ih.2).2
    intro n
    obtain ⟨hdone, -, hsame⟩ := hstep _ (hrun n).1 (hrun n).2
    exact ⟨hdone, hsame⟩

/-- The token of a transaction makes no difference. -/
theorem send_token (s : Store) (r : Request) (writes : List Plan) (token token' : Option String) :
    (s.send { r with operation := .transaction writes token }).1 =
        (s.send { r with operation := .transaction writes token' }).1 ∧
      (s.send { r with operation := .transaction writes token }).2.tables =
        (s.send { r with operation := .transaction writes token' }).2.tables := by
  rcases hnext : s.faults.next with ⟨_ | e, faults⟩
  · have hfaults : s.faults.next.1 = none := congrArg Prod.fst hnext
    rw [send_transaction_eq rfl hfaults, send_transaction_eq rfl hfaults]
    exact ⟨rfl, rfl⟩
  · rw [send_of_fault hnext, send_of_fault hnext]
    exact ⟨rfl, rfl⟩

/-- **A committed transaction that is sent again has no effect exactly if its writes repeat.**  Its writes are to be
about different items, and the tables maps of items.  The token makes no difference, neither to this nor to anything
else: whatever it is, and in whatever state the store is, the answer is the same and so are the tables. -/
theorem resubmission_has_no_effect_iff {s : Store} (hdistinct : s.Distinct)
    (hsorted : ∀ name t, s.tables.get? name = some t → ∀ item ∈ t.items, Entries.Sorted item)
    {tx : Transaction} {p : Plan} (hbuild : tx.build = .ok p)
    {writes : List Plan} (hop : p.operation = .transaction writes tx.token)
    (hitems : writes.Pairwise fun p q => ¬s.tables.SameTarget p q) {response : Response}
    (hfirst : (s.send p.request).1 = .ok response) :
    ((s.send p.request).2.KeepsOnResending p.request ↔ ∀ w ∈ tx.writes, w.Repeats (s.send p.request).2.tables) ∧
    ∀ (s' : Store) (token' : Option String),
      (s'.send { p.request with operation := .transaction writes token' }).1 = (s'.send p.request).1 ∧
      (s'.send { p.request with operation := .transaction writes token' }).2.tables = (s'.send p.request).2.tables := by
  have hop' : p.request.operation = .transaction writes tx.token := hop
  refine ⟨?_, fun s' token' => ?_⟩
  · obtain ⟨members, hmembers, hoperation⟩ := Transaction.plan_of_build hbuild
    obtain ⟨rfl, -⟩ := Operation.transaction.inj (hop.symm.trans hoperation)
    obtain ⟨hfaults, hkept, hsize, reasons, hstage, hnone⟩ := exists_staged_of_send_ok hop' hfirst
    have hbecome := s.send_become p.request
    have hwrites : ∀ q ∈ members.map Prod.fst, q.operation.isWrite = true := fun q hq => by
      obtain ⟨m, hm, rfl⟩ := List.mem_map.1 hq
      obtain ⟨w, -, hw⟩ := Outcome.exists_of_mem_mapM hmembers m hm
      exact (SingleWrite.plan_of_build (SingleWrite.build_of_member hw).1).1
    -- of a write and its plan the one repeats where the other stands
    have hrepeats : ∀ (w : SingleWrite) (m : Plan × Item), m ∈ members → w.member = .ok m →
        (w.Repeats (s.send p.request).2.tables ↔ (s.send p.request).2.tables.Stands m.1) := by
      intro w m hm hw
      obtain ⟨hwbuild, hnothing⟩ := SingleWrite.build_of_member hw
      obtain ⟨t, t', ht, ht', hafter⟩ :=
        Tables.after_of_stage hwrites hitems hstage hnone (List.mem_map_of_mem hm) hnothing
      rw [SingleWrite.repeats_iff_of_build hwbuild hnothing ht' hafter (hdistinct ht) (hsorted _ _ ht)]
      constructor
      · rintro ⟨resp, hagain⟩
        exact ⟨t', resp, ht', hagain⟩
      · rintro ⟨u, resp, hu, hagain⟩
        obtain rfl : t' = u := Option.some.inj (ht'.symm.trans hu)
        exact ⟨resp, hagain⟩
    rw [keepsOnResending_iff hop' (by rw [hkept, hfaults]) hsize hwrites
      (hitems.imp fun hnot hmeet => hnot (hmeet.of_become hbecome))]
    constructor
    · intro hstands w hw
      obtain ⟨m, hm, hmember⟩ := Outcome.ok_of_mem_mapM hmembers w hw
      exact (hrepeats w m hm hmember).2 (hstands m.1 (List.mem_map_of_mem hm))
    · intro h q hq
      obtain ⟨m, hm, rfl⟩ := List.mem_map.1 hq
      obtain ⟨w, hw, hmember⟩ := Outcome.exists_of_mem_mapM hmembers m hm
      exact (hrepeats w m hm hmember).1 (h w hw)
  · have hrequest : p.request = { p.request with operation := .transaction writes tx.token } := by rw [← hop']
    rw [hrequest]
    exact send_token s' _ writes token' tx.token

/-- A counter that is put and another that is set to a number are what they are, however often both are sent again. -/
theorem resubmission_has_no_effect_iff_of_two_counters :
    let attributes : List Attribute :=
      [⟨"id", .string, false, false, .partition⟩, ⟨"n", .number, false, false, .none⟩]
    let shape : Descriptor := ⟨"Counter", "counters", attributes, ⟨"id", none⟩, []⟩
    let counter (id : String) (n : Int) : Item := [("id", .string id), ("n", .number (.ofInt n))]
    let s := Store.run {} [.create shape, .insert "counters" (counter "a" 1), .insert "counters" (counter "b" 2)]
    let tx : Transaction :=
      { writes := [.put { shape, item := counter "a" 7 },
          .update { shape, key := ⟨.string "b", none⟩, actions := [.set "n" (.number (.ofInt 8))] }],
        token := some "t" }
    ∃ p, tx.build = .ok p ∧ (s.send p.request).1 = .ok {} ∧ (s.send p.request).2.KeepsOnResending p.request ∧
      (s.send p.request).2.items "counters" = [counter "a" 7, counter "b" 8] := by
  intro attributes shape counter s tx
  let key : Item := [("id", .string "b")]
  obtain ⟨p, q, r, hp, hop, hq, htable, hr⟩ : ∃ p q r, tx.build = .ok p ∧
      p.operation = .transaction [q, r] tx.token ∧ q.operation.target? = some (counter "a" 7) ∧ q.table = "counters" ∧
      r.operation.target? = some key :=
    ⟨_, _, _, rfl, rfl, rfl, rfl, rfl⟩
  have hsent : (tx.build.toOption.any fun p => decide ((s.send p.request).1 = .ok {}) &&
      decide ((s.send p.request).2.items "counters" = [counter "a" 7, counter "b" 8]) &&
      ((s.send p.request).2.tables.get? "counters").any fun t => decide (t.find? key = some (counter "b" 8))) =
        true := by
    decide +kernel
  rw [hp] at hsent
  obtain ⟨hboth, hfound⟩ := Bool.and_eq_true_iff.1 hsent
  obtain ⟨hfirst, hitems⟩ := Bool.and_eq_true_iff.1 hboth
  obtain ⟨t, ht, hfind⟩ := (Option.any_eq_true _ _).1 hfound
  have hne : [q, r].Pairwise fun p q => ¬s.tables.SameTarget p q := by
    refine List.pairwise_pair.2 ?_
    rintro ⟨-, u, a, b, hu, ha, hb, hab⟩
    rw [htable] at hu
    cases hu
    cases hq.symm.trans ha
    cases hr.symm.trans hb
    exact absurd hab (by decide +kernel)
  have hrepeats : ∀ w ∈ tx.writes, w.Repeats (s.send p.request).2.tables := by
    refine List.forall_mem_cons.2 ⟨rfl, List.forall_mem_singleton.2 ?_⟩
    exact ⟨t, key, counter "b" 8, ht, rfl, of_decide_eq_true hfind, rfl, rfl⟩
  have hdistinct : s.Distinct := run_distinct _ distinct_empty
  have hsorted : ∀ name t, s.tables.get? name = some t → ∀ item ∈ t.items, Entries.Sorted item := by
    intro name t ht
    rw [show s.tables = [("counters", ⟨⟨"id", none⟩, [], [counter "a" 1, counter "b" 2]⟩)] from rfl,
      Entries.get?] at ht
    split at ht
    · cases ht
      have hsorted (id : String) (n : Int) : Entries.Sorted (counter id n) :=
        List.pairwise_pair.2 (show "id" < "n" by decide)
      exact List.forall_mem_cons.2 ⟨hsorted "a" 1, List.forall_mem_singleton.2 (hsorted "b" 2)⟩
    · cases ht
  exact ⟨p, hp, of_decide_eq_true hfirst,
    (resubmission_has_no_effect_iff hdistinct hsorted hp hop hne (of_decide_eq_true hfirst)).1.2 hrepeats,
    of_decide_eq_true hitems⟩

/-- **Counting on is done again each time that it is sent.**  The token is the same, both answers are of success, and
the counter has gone up by two. -/
theorem resubmitted_increment_counts_again :
    let attributes : List Attribute :=
      [⟨"id", .string, false, false, .partition⟩, ⟨"n", .number, false, false, .none⟩]
    let shape : Descriptor := ⟨"Counter", "counters", attributes, ⟨"id", none⟩, []⟩
    let counter (n : Int) : Item := [("id", .string "a"), ("n", .number (.ofInt n))]
    let s := Store.run {} [.create shape, .insert "counters" (counter 1)]
    let tx : Transaction :=
      { writes := [.update { shape, key := ⟨.string "a", none⟩, actions := [.increment "n" (.ofInt 1)] }],
        token := some "t" }
    ∃ p, tx.build = .ok p ∧ (s.send p.request).1 = .ok {} ∧ (s.send p.request).2.items "counters" = [counter 2] ∧
      ((s.send p.request).2.send p.request).1 = .ok {} ∧
      ((s.send p.request).2.send p.request).2.items "counters" = [counter 3] := by
  refine ⟨_, rfl, ?_⟩
  decide +kernel

end Store
end ItemStore
