import ItemStore.Proofs.Execution.QueryStreams
import ItemStore.Proofs.Expression.Operands
import ItemStore.Proofs.Request.Items
/-!
# Plans that the table of their shape accepts

The checks of a builder are at least as strict as those of a table that has the key and the indexes of its shape.  So a
read that has been built is served (`Get.exists_item`, `Query.exists_page`, `Scan.exists_page`), and so is a write, if
its conditions hold of the item that is there; only an update may still be blocked by that item
(`SingleWrite.write_of_build`).
-/
namespace ItemStore

open Outcome (bind_eq_ok map_eq_ok mapError_eq_ok guard_eq_ok forM_eq_ok)

/-! ## Reads -/

/-- A read of one item, or of a page of them. -/
inductive ReadRequest where
  | get (g : Get)
  | query (q : Query)
  | scan (s : Scan)

namespace ReadRequest

def shape : ReadRequest → Descriptor
  | get g => g.shape
  | query q => q.shape
  | scan s => s.shape

def build : ReadRequest → Except Error Plan
  | get g => g.build
  | query q => q.build
  | scan s => s.build

end ReadRequest

namespace Table
variable {t : Table} {r : Request}

theorem exists_view_of_scan {key : KeySchema} (hop : r.operation = .scan) (hkey : t.readSource r = .ok key)
    (hsegment : checkSegment r.segment = .ok ()) : ∃ v, t.view r = .ok v := by
  have hfits : ¬(r.segment.any fun s => s.total ≤ s.number) = true := by
    unfold checkSegment at hsegment
    cases hs : r.segment with
    | none => exact Bool.false_ne_true
    | some s =>
      rw [hs] at hsegment
      have hless : s.number < s.total := (guard_eq_ok.1 hsegment).1
      rw [Option.any_some, decide_eq_true_eq]
      omega
  rw [view, hop]
  exact ⟨_, bind_eq_ok.2 ⟨key, hkey, if_neg hfits⟩⟩

/-- A page can be cut out of a view if its filter and its projection always have an answer. -/
theorem exists_page {v : View} {admits : Item → Bool} {shown : Item → Item} (hv : t.view r = .ok v)
    (hlimit : r.limit ≠ some 0)
    (hadmits : ∀ item, conditionHolds r.expressions.bindings item r.expressions.filter = .ok (admits item))
    (hshown : ∀ item, project r.expressions item = .ok (shown item)) : ∃ response, t.read r = .ok response :=
  ⟨_, read_eq_ok.2 ⟨v, _, hv, hlimit, served_of_total hadmits hshown _, rfl⟩⟩

end Table

theorem Query.exists_page {q : Query} {p : Plan} (h : q.build = .ok p) {t : Table} (ht : t.OfShape q.shape) :
    p.operation.isPaged = true ∧ p.table = q.shape.table ∧ ∃ response, t.read p.request = .ok response := by
  obtain ⟨key, _, _, hsource, -, htexts, hlimit, _, _, hplan⟩ := says_of_build h
  obtain ⟨text, hoperation, hmeets⟩ := htexts.meets
  have hkey : t.readSource p.request = .ok key := ht.readSource_of_source hsource (hplan ▸ rfl) (hplan ▸ rfl)
  obtain ⟨v, hv⟩ := Table.exists_view hoperation hkey hmeets
  refine ⟨by rw [hoperation]; rfl, hplan ▸ rfl, Table.exists_page hv ?_ htexts.admits htexts.shown⟩
  rw [hplan]
  exact hlimit

theorem Scan.exists_page {q : Scan} {p : Plan} (h : q.build = .ok p) {t : Table} (ht : t.OfShape q.shape) :
    p.operation.isPaged = true ∧ p.table = q.shape.table ∧ ∃ response, t.read p.request = .ok response := by
  obtain ⟨key, hsource, hfilters, -, hlimit, hsegment, -, hplan⟩ := build_eq_ok_iff.1 h
  have hkey : t.readSource p.request = .ok key := ht.readSource_of_source hsource (hplan ▸ rfl) (hplan ▸ rfl)
  have hfilled : ∀ c ∈ q.filters, c.listsFilled = true := fun c hc =>
    Condition.listsFilled_of_validate (forM_eq_ok.1 hfilters c hc)
  subst hplan
  obtain ⟨v, hv⟩ := Table.exists_view_of_scan rfl hkey hsegment
  exact ⟨rfl, rfl, Table.exists_page hv (checkLimit_eq_ok.1 hlimit) (q.admits_plan .scan Writer.empty hfilled)
    (q.shown_plan .scan Writer.empty)⟩

theorem Get.exists_item {g : Get} {p : Plan} (hd : g.shape.Compiled) (h : g.build = .ok p) {t : Table}
    (ht : t.key = g.shape.key) : ∃ key, p.operation = .get key ∧ p.table = g.shape.table ∧
      ∃ response, t.get p.expressions key = .ok response := by
  obtain ⟨key, hkey, hoperation, htable, hshown⟩ := plan_of_build h
  refine ⟨key, hoperation, htable, { item := (t.find? key).map (shownIn g.projection) }, ?_⟩
  rw [Table.get_of_shown hshown, Descriptor.checkKey_of_keyItem hd ht hkey]
  rfl

/-! ## Conditions of writes -/

namespace Table
variable {t : Table} {e : Expressions} {key : Item} {holds : Item → Bool}

/-- A condition that always has an answer holds of what is there, or fails. -/
theorem checkCondition_of_total (h : ∀ item, conditionHolds e.bindings item e.condition = .ok (holds item))
    (existing : Option Item) : checkCondition e existing =
      if holds (existing.getD []) then .ok () else .error (.conditionFailed "The conditional request failed") := by
  rw [checkCondition, h]
  rfl

theorem checkWrite_of_total (t : Table) (key : Item)
    (h : ∀ item, conditionHolds e.bindings item e.condition = .ok (holds item)) {keyCheck : Except RequestFault Unit}
    (hkey : keyCheck = .ok ()) : t.checkWrite e keyCheck key =
      if holds ((t.find? key).getD []) then .ok () else .error (.conditionFailed "The conditional request failed") := by
  rw [checkWrite, hkey]
  exact checkCondition_of_total h _

theorem updated_of_total (h : ∀ item, conditionHolds e.bindings item e.condition = .ok (holds item))
    (hkey : t.checkKey key = .ok ()) {update : String} {cs : List Change} (hparse : Change.parse update = .ok cs)
    {touched : List String} (htouched : t.touchedNames e.bindings cs = .ok touched) : t.updated e key update =
      if holds ((t.find? key).getD []) then
        ((expressionFault (Change.applyAll e.bindings ((t.find? key).getD key) cs)).mapError RequestFault.error).map
          (·, touched)
      else .error (.conditionFailed "The conditional request failed") := by
  have hread : (do
      t.checkKey key
      let cs ← expressionFault (Change.parse update)
      return (cs, ← t.touchedNames e.bindings cs) : Except RequestFault _) = .ok (cs, touched) :=
    bind_eq_ok.2 ⟨(), hkey, bind_eq_ok.2 ⟨cs, mapError_eq_ok.2 hparse, bind_eq_ok.2 ⟨touched, htouched, rfl⟩⟩⟩
  rw [updated, hread]
  show (checkCondition e (t.find? key) >>= fun _ => _) = _
  rw [checkCondition_of_total h]
  split
  · rfl
  · rfl

end Table

/-- The conditions of a write hold as they are meant, whatever its writer has written before. -/
theorem ItemWrite.conditionHolds {w : ItemWrite} (h : w.shape.checkConditions w.conditions = .ok ()) (writer : Writer)
    (item : Item) : Table.conditionHolds (writer.conditionExpressions w.conditions).bindings item
      (writer.conditionExpressions w.conditions).condition = .ok (Condition.allHold item w.conditions) :=
  writer.conditionHolds_conjunction (fun c hc => Condition.listsFilled_of_validate (forM_eq_ok.1 h c hc))
    (show (writer.conjunction w.conditions).2 = Writer.run _ [] from rfl) item

/-! ## Writes -/

namespace SingleWrite

def conditions : SingleWrite → List Condition
  | put p => p.conditions
  | update u => u.conditions
  | delete d => d.conditions

/-- How a write is answered that finds an item or none: with a response if its conditions hold of what is there, with
their failure if not, and else only, if it is an update, with the fault of an action that this item blocks. -/
inductive AnsweredOn (w : SingleWrite) (p : Plan) (target : Item) (found : Option Item) : Reply → Prop where
  | done {response : Response} : Condition.allHold (found.getD []) w.conditions = true →
      AnsweredOn w p target found (.ok response)
  | failed {detail : String} : Condition.allHold (found.getD []) w.conditions = false →
      AnsweredOn w p target found (.error (.conditionFailed detail))
  | blocked {u : Update} {text : String} {cs : List Change} {fault : ExpressionFault} : w = .update u →
      Condition.allHold (found.getD []) w.conditions = true → p.operation = .update target text →
      Change.parse text = .ok cs → Change.applyAll p.expressions.bindings (found.getD target) cs = .error fault →
      (∃ a ∈ u.actions, a.BlockedOn (found.getD target) fault) →
      AnsweredOn w p target found (.error (RequestFault.expression fault).error)

end SingleWrite

section Writes
variable {t t' : Table} {p : Plan}

/-- So it is with puts and deletes: they fail where their check does, and else they have the image that was asked
for. -/
theorem SingleWrite.answeredOn_of_check {w : SingleWrite} {target : Item} {found : Option Item} {reply : Reply}
    {check : Except StoreError Unit} {detail what : String} (action : String)
    (himage : checkOldImage what w.returnValues = .ok ())
    (hcheck : check =
      if Condition.allHold (found.getD []) w.conditions then .ok () else .error (.conditionFailed detail))
    (hfail : ∀ err, check = .error err → reply = .error err)
    (hdone : check = .ok () → reply = Table.oldImage action found w.returnValues) :
    w.AnsweredOn p target found reply := by
  cases hholds : Condition.allHold (found.getD []) w.conditions with
  | false =>
    rw [hholds] at hcheck
    rw [hfail _ hcheck]
    exact .failed hholds
  | true =>
    rw [hholds] at hcheck
    rw [hdone hcheck, oldImage_eq himage found none]
    exact .done hholds

theorem Put.answered {w : Put} (hd : w.shape.Compiled) (h : w.build = .ok p) (ht : t.key = w.shape.key) :
    (SingleWrite.put w).AnsweredOn p w.item (t.find? w.item) (t.write p.operation p.expressions p.returnValues).1 := by
  obtain ⟨key, hkey, hconditions, himage, rfl⟩ := build_eq_ok_iff.1 h
  have hkeyed : t.checkKeyAttributes w.item = .ok () := (Descriptor.keyOf_of_keyOfItem hkey).checkKeyAttributes hd ht
  have hcheck := t.checkWrite_of_total w.item (ItemWrite.conditionHolds hconditions Writer.empty) hkeyed
  show SingleWrite.AnsweredOn _ _ _ _
    (t.write (.put w.item) (Writer.empty.conditionExpressions w.conditions) w.returnValues).1
  refine SingleWrite.answeredOn_of_check "PutItem" himage hcheck (fun err herr => ?_) fun hok => ?_
  · rw [Table.write, herr]
  · rw [Table.write, hok]
    rfl

/-- The key of a delete is that of an item, or one of its own. -/
theorem Delete.keyOf_of_key {w : Delete} {key : Item} (h : w.key = .ok key) : ∃ item, w.shape.KeyOf item key := by
  unfold Delete.key at h
  split at h
  · exact ⟨key, Descriptor.keyOf_of_keyItem h⟩
  · exact ⟨_, Descriptor.keyOf_of_keyOfItem h⟩

theorem Delete.answered {w : Delete} (hd : w.shape.Compiled) (h : w.build = .ok p) (ht : t.key = w.shape.key) :
    ∃ key, w.key = .ok key ∧
      (SingleWrite.delete w).AnsweredOn p key (t.find? key) (t.write p.operation p.expressions p.returnValues).1 := by
  obtain ⟨key, hkey, hconditions, himage, rfl⟩ := build_eq_ok_iff.1 h
  obtain ⟨item, hitem⟩ := keyOf_of_key hkey
  have hcheck := t.checkWrite_of_total key (ItemWrite.conditionHolds hconditions Writer.empty) (hitem.checkKey hd ht)
  refine ⟨key, hkey, ?_⟩
  show SingleWrite.AnsweredOn _ _ _ _
    (t.write (.delete key) (Writer.empty.conditionExpressions w.conditions) w.returnValues).1
  refine SingleWrite.answeredOn_of_check "DeleteItem" himage hcheck (fun err herr => ?_) fun hok => ?_
  · rw [Table.write, herr]
  · rw [Table.write, hok]
    rfl

/-- The converse of `Table.names_of_touchedNames`, for names that are no part of the key. -/
theorem Table.touchedNames_of_names {b : Bindings} : ∀ {cs : List Change} {names : List String},
    cs.mapM (fun c => b.name c.path) = .ok names → (∀ name ∈ names, name ∉ t.key.names) →
    t.touchedNames b cs = .ok names
  | [], _, h, _ => by
    cases h
    rfl
  | c :: cs, _, h, hfree => by
    obtain ⟨name, rest, hname, hrest, rfl⟩ := Outcome.mapM_cons_eq_ok.1 h
    obtain ⟨hfirst, hlater⟩ := List.forall_mem_cons.1 hfree
    refine Outcome.mapM_cons_eq_ok.2 ⟨name, rest, ?_, touchedNames_of_names hrest hlater, rfl⟩
    exact bind_eq_ok.2 ⟨name, mapError_eq_ok.2 hname, if_neg fun hmem => hfirst (List.contains_iff_mem.1 hmem)⟩

/-- The text of an update is read as changes that touch nothing of the key. -/
theorem Update.exists_touched {w : Update} (hvalid : UpdateAction.validateAll w.shape w.actions = .ok ())
    (ht : t.key = w.shape.key) {w' : Writer} (he : Writer.Extends (Writer.empty.update w.actions).2 w') :
    ∃ cs names, Change.parse (Writer.empty.update w.actions).1 = .ok cs ∧
      t.touchedNames w'.bindings cs = .ok names := by
  obtain ⟨hne, hdistinct⟩ := UpdateAction.distinct_of_validateAll hvalid
  obtain ⟨cs, hparse, -⟩ := Writer.update_spec Writer.empty hne hdistinct
  obtain ⟨names, hnames, hperm⟩ := Writer.update_names Writer.empty hne he hparse
  refine ⟨cs, names, hparse, Table.touchedNames_of_names hnames fun name hname hmem => ?_⟩
  obtain ⟨a, ha, rfl⟩ := List.mem_map.1 (hperm.mem_iff.1 hname)
  obtain ⟨_, -, hnot, -⟩ := UpdateAction.validate_eq_ok.1 (UpdateAction.validate_of_validateAll hvalid a ha)
  exact hnot (ht ▸ hmem)

theorem Update.answered {w : Update} (hd : w.shape.Compiled) (h : w.build = .ok p) (ht : t.key = w.shape.key) :
    ∃ key, w.keyItem = .ok key ∧
      (SingleWrite.update w).AnsweredOn p key (t.find? key) (t.write p.operation p.expressions p.returnValues).1 := by
  obtain ⟨key, hkey, hvalid, hconditions, rfl⟩ := build_eq_ok_iff.1 h
  have he := Writer.extends_conjunction (Writer.empty.update w.actions).2 w.conditions
  obtain ⟨cs, names, hparse, htouched⟩ := w.exists_touched hvalid ht he
  have hupdated := Table.updated_of_total (ItemWrite.conditionHolds hconditions (Writer.empty.update w.actions).2)
    (Descriptor.checkKey_of_keyItem hd ht hkey) hparse htouched
  refine ⟨key, hkey, ?_⟩
  show SingleWrite.AnsweredOn _ _ _ _ (t.write (.update key (Writer.empty.update w.actions).1)
    ((Writer.empty.update w.actions).2.conditionExpressions w.conditions) w.returnValues).1
  rw [Table.write, hupdated]
  cases hholds : Condition.allHold ((t.find? key).getD []) w.conditions with
  | false => exact .failed hholds
  | true =>
    cases hmade : Change.applyAll ((Writer.empty.update w.actions).2.conditionExpressions w.conditions).bindings
      ((t.find? key).getD key) cs with
    | ok item =>
      show SingleWrite.AnsweredOn (.update w) _ key (t.find? key) (.ok _)
      exact .done hholds
    | error fault =>
      obtain ⟨hne, hdistinct⟩ := UpdateAction.distinct_of_validateAll hvalid
      have hblocked := Writer.exists_blocked Writer.empty hne hdistinct he hparse hmade
      show SingleWrite.AnsweredOn (.update w) _ key (t.find? key) (.error (RequestFault.expression fault).error)
      exact .blocked rfl hholds rfl hparse hmade hblocked

end Writes

/-- **A built write is accepted by the table of its shape**: what it may meet with is that its conditions do not hold of
what is there, or, if it is an update, that an action is blocked by it. -/
theorem SingleWrite.write_of_build {w : SingleWrite} {p : Plan} (hd : w.shape.Compiled)
    (h : w.build = .ok p) {t : Table} (ht : t.key = w.shape.key) : ∃ target, w.target = .ok target ∧
      w.AnsweredOn p target (t.find? target) (t.write p.operation p.expressions p.returnValues).1 := by
  cases w with
  | put w => exact ⟨w.item, rfl, Put.answered hd h ht⟩
  | update w => exact Update.answered hd h ht
  | delete w => exact Delete.answered hd h ht

/-! ## Batches -/

theorem PendingWrite.checkEntry_of_entry {d : Descriptor} {w : PendingWrite} {e : BatchEntry} {key : Item} {t : Table}
    (hd : d.Compiled) (h : w.entry d = .ok (e, key)) (ht : t.key = d.key) : t.checkEntry e = .ok () := by
  cases w with
  | put item =>
    obtain ⟨_, hkey, h⟩ := bind_eq_ok.1 h
    cases h
    exact (Descriptor.keyOf_of_keyOfItem hkey).checkKeyAttributes hd ht
  | delete k =>
    obtain ⟨_, hkey, h⟩ := bind_eq_ok.1 h
    cases h
    exact Descriptor.checkKey_of_keyItem hd ht hkey

theorem BatchWrite.checkEntry_of_build {b : BatchWrite} {p : Plan} (hd : b.shape.Compiled) (h : b.build = .ok p) :
    ∃ entries, p.operation = .batchWrite entries ∧ p.table = b.shape.table ∧
      ∀ t : Table, t.key = b.shape.key → ∀ e ∈ entries, t.checkEntry e = .ok () := by
  obtain ⟨entries, hentries, hoperation, htable⟩ := plan_of_build h
  refine ⟨_, hoperation, htable, fun t ht e he => ?_⟩
  obtain ⟨⟨e, key⟩, hmem, rfl⟩ := List.mem_map.1 he
  obtain ⟨w, -, hw⟩ := Outcome.exists_of_mem_mapM hentries _ hmem
  exact PendingWrite.checkEntry_of_entry hd hw ht

theorem BatchGet.checkKey_of_build {b : BatchGet} {p : Plan} (hd : b.shape.Compiled) (h : b.build = .ok p) :
    ∃ keys, p.operation = .batchGet keys ∧ p.table = b.shape.table ∧
      (∀ t : Table, t.key = b.shape.key → ∀ key ∈ keys, t.checkKey key = .ok ()) ∧
      ∀ item, Table.project p.expressions item = .ok (shownIn b.projection item) := by
  obtain ⟨keys, hkeys, hoperation, htable, hshown⟩ := plan_of_build h
  refine ⟨keys, hoperation, htable, fun t ht key hkey => ?_, hshown⟩
  obtain ⟨k, -, hk⟩ := Outcome.exists_of_mem_mapM hkeys key hkey
  exact Descriptor.checkKey_of_keyItem hd ht hk

end ItemStore
