import ItemStore.Proofs.Execution.Disturbances
import ItemStore.Proofs.Request.Items
/-!
# Tables are maps from keys to items

Requests for items by their keys do no more to a table than deeds, and they are answered by what the latest deeds have
left (`Answered`).  So the table of a shape, whatever requests of the builders a store has been sent and however they
came out, is a finite map from keys to items (`tables_are_maps`).
-/
namespace ItemStore

open Outcome (bind_eq_ok bind_eq_error mapError_eq_ok map_eq_ok mapM_cons_eq_ok forM_eq_ok)

/-! ## Requests and what they are answered -/

/-- A request for items by their keys. -/
inductive ItemRequest where
  | get (g : Get)
  | write (w : SingleWrite)
  | several (r : SeveralItems)

def PendingWrite.puts : PendingWrite → List Item
  | put item => [item]
  | delete _ => []

namespace ItemRequest

def build : ItemRequest → Except Error Plan
  | get g => g.build
  | write w => w.build
  | several r => r.build

def shapes : ItemRequest → List Descriptor
  | get g => [g.shape]
  | write w => [w.shape]
  | several r => r.shapes

def puts : ItemRequest → List Item
  | get _ | several (.reads _) => []
  | write w => w.puts
  | several (.writes b) => b.writes.flatMap (·.puts)
  | several (.transaction tx) => tx.writes.flatMap (·.puts)

end ItemRequest

def BatchEntry.deed : BatchEntry → Deed
  | .put item => ⟨item, some item⟩
  | .delete key => ⟨key, none⟩

/-- The deeds that writes do in the table of that name, one after the other. -/
inductive WritesDo (name : String) (k : KeySchema) : List Deed → List SingleWrite → List Deed → Prop where
  | nil {before : List Deed} : WritesDo name k before [] []
  | here {before deeds : List Deed} {w : SingleWrite} {ws : List SingleWrite} {deed : Deed} : w.shape.table = name →
      w.target = .ok deed.key → w.leaves deed.key (Deed.latest k before deed.key) = .ok deed.left →
      WritesDo name k (before ++ [deed]) ws deeds → WritesDo name k before (w :: ws) (deed :: deeds)
  | elsewhere {before deeds : List Deed} {w : SingleWrite} {ws : List SingleWrite} : w.shape.table ≠ name →
      WritesDo name k before ws deeds → WritesDo name k before (w :: ws) deeds

/-- How a request may be answered by a store in whose table of that name those deeds have been done, and what deeds it
does there. -/
inductive Answered (name : String) (k : KeySchema) (before : List Deed) : ItemRequest → Reply → List Deed → Prop where
  | refused {r : ItemRequest} {err : StoreError} : Answered name k before r (.error err) []
  | elsewhere {r : ItemRequest} {reply : Reply} : (∀ shape ∈ r.shapes, shape.table ≠ name) →
      Answered name k before r reply []
  | got {g : Get} {key : Item} : g.shape.table = name → g.shape.keyItem g.key = .ok key →
      Answered name k before (.get g) (.ok { item := (Deed.latest k before key).map (shownIn g.projection) }) []
  | wrote {w : SingleWrite} {deed : Deed} : w.shape.table = name → w.target = .ok deed.key →
      w.leaves deed.key (Deed.latest k before deed.key) = .ok deed.left →
      Answered name k before (.write w) (.ok { attributes := w.image (Deed.latest k before deed.key) deed.left }) [deed]
  | gotAll {b : BatchGet} {done undone : List Item} : b.shape.table = name →
      b.keys.mapM b.shape.keyItem = .ok (done ++ undone) →
      Answered name k before (.several (.reads b))
        (.ok { items := (done.filterMap (Deed.latest k before)).map (shownIn b.projection),
               unprocessedKeys := undone }) []
  | wroteAll {b : BatchWrite} {entries : List (BatchEntry × Item)} {done undone : List BatchEntry} :
      b.shape.table = name → b.writes.mapM (PendingWrite.entry b.shape) = .ok entries →
      entries.map Prod.fst = done ++ undone →
      Answered name k before (.several (.writes b)) (.ok { unprocessedWrites := undone }) (done.map BatchEntry.deed)
  | transacted {tx : Transaction} {deeds : List Deed} : WritesDo name k before tx.writes deeds →
      Answered name k before (.several (.transaction tx)) (.ok {}) deeds

/-- Requests with their replies, one after the other, by which the deeds that have been done become more. -/
inductive Chronicle (name : String) (k : KeySchema) : List Deed → List (ItemRequest × Reply) → List Deed → Prop where
  | nil {deeds : List Deed} : Chronicle name k deeds [] deeds
  | cons {before deeds after : List Deed} {r : ItemRequest} {reply : Reply} {rest : List (ItemRequest × Reply)} :
      Answered name k before r reply deeds → Chronicle name k (before ++ deeds) rest after →
      Chronicle name k before ((r, reply) :: rest) after

/-! ## Tables that go on holding what is left -/

/-- There is a table of that name and key, and it holds what the deeds have left. -/
def Tables.Hold (ts : Tables) (name : String) (k : KeySchema) (deeds : List Deed) : Prop :=
  ∃ t, ts.get? name = some t ∧ t.key = k ∧ t.Holds deeds

namespace Tables.Hold
variable {ts : Tables} {name : String} {k : KeySchema} {deeds : List Deed}

theorem put {t : Table} (hkey : t.key = k) (h : t.Holds deeds) : Hold (ts.put name t) name k deeds :=
  ⟨t, Entries.get?_put_self ts name t, hkey, h⟩

theorem put_elsewhere (h : ts.Hold name k deeds) {other : String} (hne : other ≠ name) (t : Table) :
    Hold (ts.put other t) name k deeds := by
  obtain ⟨t₀, ht₀, hrest⟩ := h
  exact ⟨t₀, by rw [Entries.get?_put_of_ne ts t (Ne.symm hne), ht₀], hrest⟩

end Tables.Hold

/-! ## One request -/

section Request
variable (p : Plan)

@[simp] theorem PlanOf.request_table : p.request.table = p.table := rfl

@[simp] theorem PlanOf.request_operation : p.request.operation = p.operation := rfl

@[simp] theorem PlanOf.request_expressions : p.request.expressions = p.expressions := rfl

@[simp] theorem PlanOf.request_returnValues : p.request.returnValues = p.returnValues := rfl

end Request

theorem Store.serveTable_write {s : Store} {t : Table} {r : Request} (h : r.operation.isWrite = true) :
    s.serveTable t r = s.withTable r.table (t.write r.operation r.expressions r.returnValues) := by
  unfold serveTable
  split <;> simp_all [Operation.isWrite]

section Steps
variable {name : String} {k : KeySchema} {before : List Deed} {s s' : Store} {reply : Reply}

/-- The request has been answered by what the deeds have left, and what it does itself is among them now. -/
def Told (name : String) (k : KeySchema) (before : List Deed) (r : ItemRequest) (reply : Reply) (ts : Tables) : Prop :=
  ∃ deeds, Answered name k before r reply deeds ∧ ts.Hold name k (before ++ deeds)

theorem Told.quietly {ts : Tables} {r : ItemRequest} (h : Answered name k before r reply [])
    (hts : ts.Hold name k before) : Told name k before r reply ts := ⟨[], h, by rwa [List.append_nil]⟩

/-- A request that is no transaction is refused, or served elsewhere, or else by the table. -/
theorem told_of_send {r : ItemRequest} {req : Request} (h : s.tables.Hold name k before)
    (hr : ∀ writes token, req.operation ≠ .transaction writes token)
    (hshapes : ∀ shape ∈ r.shapes, shape.table = req.table) (hsend : s.send req = (reply, s'))
    (hhere : ∀ {s₀ : Store} {t : Table}, req.table = name → s₀.tables.Hold name k before → t.key = k →
      t.Holds before → s₀.serveTable t req = (reply, s') → Told name k before r reply s'.tables) :
    Told name k before r reply s'.tables := by
  rcases s.send_cases hr with ⟨err, s'', hrefused, htables⟩ | ⟨s₀, t, htables, ht, hserved⟩
  · rw [hrefused] at hsend
    cases hsend
    exact .quietly .refused (htables ▸ h)
  · rw [hserved] at hsend
    rw [← htables] at h
    -- what is served elsewhere leaves this table as it is
    by_cases hname : req.table = name
    · obtain ⟨t₀, ht₀, hkey, hholds⟩ := id h
      rw [← htables, hname, ht₀] at ht
      cases ht
      exact hhere hname h hkey hholds hsend
    · refine .quietly (.elsewhere fun shape hshape => hshapes shape hshape ▸ hname) ?_
      rcases Store.serveTable_tables s₀ t req with hsame | ⟨t', -, hput⟩
      · rw [hsend] at hsame
        exact hsame ▸ h
      · rw [hsend] at hput
        exact hput ▸ h.put_elsewhere hname t'

theorem told_get {g : Get} {p : Plan} (hbuild : g.build = .ok p) (h : s.tables.Hold name k before)
    (hsend : s.send p.request = (reply, s')) : Told name k before (.get g) reply s'.tables := by
  obtain ⟨key, hkey, hop, htable, hshown⟩ := Get.plan_of_build hbuild
  refine told_of_send h (by simp [hop]) (List.forall_mem_singleton.2 htable.symm) hsend
    fun {s₀ t} hname hs₀ hkeys hholds hserved => ?_
  simp only [Store.serveTable, PlanOf.request_operation, hop, PlanOf.request_expressions, Prod.mk.injEq] at hserved
  obtain ⟨rfl, rfl⟩ := hserved
  rw [Table.get_of_shown hshown]
  cases t.checkKey key with
  | error fault => exact .quietly .refused hs₀
  | ok _ =>
    rw [hholds.found, hkeys]
    exact .quietly (.got (htable.symm.trans hname) hkey) hs₀

theorem told_write {w : SingleWrite} {p : Plan} (hbuild : w.build = .ok p)
    (hputs : ∀ item ∈ w.puts, Entries.Sorted item) (h : s.tables.Hold name k before)
    (hsend : s.send p.request = (reply, s')) : Told name k before (.write w) reply s'.tables := by
  obtain ⟨hop, htable⟩ := SingleWrite.plan_of_build hbuild
  refine told_of_send h (fun writes token hr => ?_) (List.forall_mem_singleton.2 htable.symm) hsend
    fun {s₀ t} hname hs₀ hkeys hholds hserved => ?_
  · rw [← PlanOf.request_operation, hr] at hop
    cases hop
  rcases hresult : t.write p.operation p.expressions p.returnValues with ⟨reply', t'⟩
  simp only [Store.serveTable_write (r := p.request) hop, Store.withTable, PlanOf.request_operation,
    PlanOf.request_expressions, PlanOf.request_returnValues, hresult, Prod.mk.injEq] at hserved
  obtain ⟨rfl, rfl⟩ := hserved
  show Told name k before _ _ (Entries.put s₀.tables p.table t')
  rw [show p.table = name from hname]
  rcases hholds.write hbuild hputs hresult with ⟨⟨err, rfl⟩, rfl⟩ |
    ⟨key, left, htarget, hleaves, rfl, hkey, hholds'⟩
  · exact .quietly .refused (.put hkeys hholds)
  · rw [hkeys] at hleaves ⊢
    exact ⟨[⟨key, left⟩], @Answered.wrote _ _ _ _ ⟨key, left⟩ (htable.symm.trans hname) htarget hleaves,
      .put (hkey.trans hkeys) hholds'⟩

theorem told_batchGet {b : BatchGet} {p : Plan} (hbuild : b.build = .ok p) (h : s.tables.Hold name k before)
    (hsend : s.send p.request = (reply, s')) : Told name k before (.several (.reads b)) reply s'.tables := by
  obtain ⟨keys, hkeys, hop, htable, hshown⟩ := BatchGet.plan_of_build hbuild
  refine told_of_send h (by simp [hop]) (List.forall_mem_singleton.2 htable.symm) hsend
    fun {s₀ t} hname hs₀ hkey hholds hserved => ?_
  simp only [Store.serveTable, PlanOf.request_operation, hop, Store.batchGet, PlanOf.request_expressions] at hserved
  split at hserved
  · obtain ⟨rfl, rfl⟩ := Prod.mk.inj hserved
    have hsplit := Table.splitUnprocessed_append s₀.faults.unprocessed keys
    rw [Table.getAll_of_shown hshown]
    cases (Table.splitUnprocessed s₀.faults.unprocessed keys).1.forM t.checkKey with
    | error fault => exact .quietly .refused hs₀
    | ok _ =>
      have hfound : t.find? = Deed.latest k before := funext fun key => hkey ▸ hholds.found key
      rw [hfound]
      exact .quietly (.gotAll (htable.symm.trans hname) (hsplit ▸ hkeys)) hs₀
  · obtain ⟨rfl, rfl⟩ := Prod.mk.inj hserved
    exact .quietly .refused hs₀

theorem Table.Holds.applyEntries : ∀ {entries : List BatchEntry} {t : Table} {deeds : List Deed}, t.Holds deeds →
    (∀ e ∈ entries, t.checkEntry e = .ok () ∧ ∀ item, e = .put item → Entries.Sorted item) →
    (entries.foldl applyEntry t).key = t.key ∧ (entries.foldl applyEntry t).Holds (deeds ++ entries.map BatchEntry.deed)
  | [], t, deeds, h, _ => ⟨rfl, by simpa using h⟩
  | e :: entries, t, deeds, h, hentries => by
    obtain ⟨⟨hcheck, hsorted⟩, hrest⟩ := List.forall_mem_cons.1 hentries
    have hnext : (t.applyEntry e).key = t.key ∧ (t.applyEntry e).Holds (deeds ++ [e.deed]) := by
      cases e with
      | put item => exact ⟨rfl, h.put (checkKeyAttributes_eq_ok.1 hcheck) (hsorted item rfl) (t.sameKey_self item)⟩
      | delete key => exact ⟨rfl, h.remove key⟩
    -- the checks look at nothing but the key of the table, which stays
    have hrest' : ∀ e' ∈ entries, (t.applyEntry e).checkEntry e' = .ok () ∧ ∀ item, e' = .put item →
        Entries.Sorted item :=
      fun e' he' => by
        have hsame : (t.applyEntry e).checkEntry e' = t.checkEntry e' := by
          cases e' with
          | put item => exact checkKeyAttributes_congr hnext.1 item
          | delete key => exact checkKey_congr hnext.1 key
        rw [hsame]
        exact hrest e' he'
    obtain ⟨hkey, hholds⟩ := applyEntries hnext.2 hrest'
    rw [List.append_assoc, List.singleton_append, ← List.map_cons] at hholds
    exact ⟨hkey.trans hnext.1, hholds⟩

theorem PendingWrite.mem_puts_of_entry {shape : Descriptor} {w : PendingWrite} {pair : BatchEntry × Item} {item : Item}
    (h : w.entry shape = .ok pair) (hitem : pair.1 = .put item) : item ∈ w.puts := by
  cases w with
  | put item' =>
    obtain ⟨_, -, h⟩ := bind_eq_ok.1 h
    cases h
    cases hitem
    exact List.mem_singleton_self _
  | delete key =>
    obtain ⟨_, -, h⟩ := bind_eq_ok.1 h
    cases h
    cases hitem

theorem told_batchWrite {b : BatchWrite} {p : Plan} (hbuild : b.build = .ok p)
    (hputs : ∀ item ∈ b.writes.flatMap (·.puts), Entries.Sorted item) (h : s.tables.Hold name k before)
    (hsend : s.send p.request = (reply, s')) : Told name k before (.several (.writes b)) reply s'.tables := by
  obtain ⟨entries, hentries, hop, htable⟩ := BatchWrite.plan_of_build hbuild
  refine told_of_send h (by simp [hop]) (List.forall_mem_singleton.2 htable.symm) hsend
    fun {s₀ t} hname hs₀ hkeys hholds hserved => ?_
  simp only [Store.serveTable, PlanOf.request_operation, hop, Store.batchWrite] at hserved
  split at hserved
  · split at hserved
    · obtain ⟨rfl, rfl⟩ := Prod.mk.inj hserved
      exact .quietly .refused hs₀
    · next hcheck =>
      obtain ⟨rfl, rfl⟩ := Prod.mk.inj hserved
      have hsplit := Table.splitUnprocessed_append s₀.faults.unprocessed (entries.map Prod.fst)
      generalize Table.splitUnprocessed s₀.faults.unprocessed (entries.map Prod.fst) = parts at hsplit ⊢
      have hdone : ∀ e ∈ parts.1, t.checkEntry e = .ok () ∧ ∀ item, e = .put item → Entries.Sorted item := by
        intro e he
        have hmem : e ∈ entries.map Prod.fst := hsplit ▸ List.mem_append_left _ he
        refine ⟨forM_eq_ok.1 hcheck e hmem, fun item hitem => ?_⟩
        obtain ⟨pair, hpair, rfl⟩ := List.mem_map.1 hmem
        obtain ⟨w, hw, hentry⟩ := Outcome.exists_of_mem_mapM hentries pair hpair
        exact hputs item (List.mem_flatMap.2 ⟨w, hw, w.mem_puts_of_entry hentry hitem⟩)
      obtain ⟨hkey, hholds'⟩ := hholds.applyEntries hdone
      refine ⟨_, .wroteAll (htable.symm.trans hname) hentries hsplit, ?_⟩
      show Tables.Hold (Entries.put s₀.tables p.table _) name k _
      rw [show p.table = name from hname]
      exact .put (hkey.trans hkeys) hholds'
  · obtain ⟨rfl, rfl⟩ := Prod.mk.inj hserved
    exact .quietly .refused hs₀

/-! ## Transactions -/

theorem Tables.Hold.writeOne {ts : Tables} {w : SingleWrite} {p : Plan} {resp : Response} {ts' : Tables}
    (h : ts.Hold name k before) (hbuild : w.build = .ok p) (hputs : ∀ item ∈ w.puts, Entries.Sorted item)
    (hwrite : ts.writeOne p = (.ok resp, ts')) :
    (w.shape.table ≠ name ∧ ts'.Hold name k before) ∨
      ∃ deed : Deed, w.shape.table = name ∧ w.target = .ok deed.key ∧
        w.leaves deed.key (Deed.latest k before deed.key) = .ok deed.left ∧ ts'.Hold name k (before ++ [deed]) := by
  obtain ⟨-, htable⟩ := SingleWrite.plan_of_build hbuild
  unfold Tables.writeOne at hwrite
  split at hwrite
  · cases hwrite
  · next t ht =>
    rcases hresult : t.write p.operation p.expressions p.returnValues with ⟨reply', t'⟩
    rw [hresult] at hwrite
    cases hwrite
    by_cases hname : p.table = name
    · obtain ⟨t₀, ht₀, hkeys, hholds⟩ := h
      rw [hname, ht₀] at ht
      cases ht
      rcases hholds.write hbuild hputs hresult with ⟨⟨err, herr⟩, -⟩ |
        ⟨key, left, htarget, hleaves, -, hkey, hholds'⟩
      · cases herr
      · rw [hkeys] at hleaves
        rw [hname]
        exact .inr ⟨⟨key, left⟩, htable.symm.trans hname, htarget, hleaves, .put (hkey.trans hkeys) hholds'⟩
    · exact .inl ⟨htable ▸ hname, h.put_elsewhere hname t'⟩

theorem Tables.Hold.stage : ∀ {ws : List SingleWrite} {members : List (Plan × Item)} {ts staged : Tables}
    {reasons : List (Option String)} {before : List Deed}, ts.Hold name k before →
    ws.mapM SingleWrite.member = .ok members → (∀ item ∈ ws.flatMap (·.puts), Entries.Sorted item) →
    ts.stage (members.map Prod.fst) = .ok (reasons, staged) → reasons.any Option.isSome = false →
    ∃ deeds, WritesDo name k before ws deeds ∧ staged.Hold name k (before ++ deeds)
  | [], _, ts, _, _, before, h, hmembers, _, hstage, _ => by
    cases hmembers
    cases hstage
    exact ⟨[], .nil, by rwa [List.append_nil]⟩
  | w :: ws, _, ts, staged, reasons, before, h, hmembers, hputs, hstage, hnone => by
    obtain ⟨⟨p, key⟩, members, hmember, hws, rfl⟩ := mapM_cons_eq_ok.1 hmembers
    obtain ⟨plan, hbuild, hmember⟩ := bind_eq_ok.1 hmember
    obtain ⟨_, -, hmember⟩ := bind_eq_ok.1 hmember
    obtain rfl : plan = p := by
      split at hmember
      · cases hmember
        rfl
      · cases hmember
    rw [List.flatMap_cons, List.forall_mem_append] at hputs
    rw [List.map_cons, Tables.stage] at hstage
    split at hstage
    · next resp ts₁ hwrite =>
      obtain ⟨⟨rest, staged'⟩, hrest, hstage⟩ := bind_eq_ok.1 hstage
      cases hstage
      have hnone' : rest.any Option.isSome = false := by simpa using hnone
      -- each write finds what those before it have left
      rcases h.writeOne hbuild hputs.1 hwrite with ⟨hname, h₁⟩ | ⟨deed, hname, htarget, hleaves, h₁⟩
      · obtain ⟨deeds, hdo, hhold⟩ := stage h₁ hws hputs.2 hrest hnone'
        exact ⟨deeds, .elsewhere hname hdo, hhold⟩
      · obtain ⟨deeds, hdo, hhold⟩ := stage h₁ hws hputs.2 hrest hnone'
        rw [List.append_assoc, List.singleton_append] at hhold
        exact ⟨deed :: deeds, .here hname htarget hleaves hdo, hhold⟩
    · obtain ⟨_, -, hstage⟩ := bind_eq_ok.1 hstage
      cases hstage
      cases hnone
    · cases hstage

theorem told_transaction {tx : Transaction} {p : Plan} (hbuild : tx.build = .ok p)
    (hputs : ∀ item ∈ tx.writes.flatMap (·.puts), Entries.Sorted item) (h : s.tables.Hold name k before)
    (hsend : s.send p.request = (reply, s')) : Told name k before (.several (.transaction tx)) reply s'.tables := by
  obtain ⟨members, hmembers, hop⟩ := Transaction.plan_of_build hbuild
  rcases hnext : s.faults.next with ⟨_ | err, faults⟩
  · rw [Store.send_of_no_fault hnext] at hsend
    simp only [Store.serve, PlanOf.request_operation, hop] at hsend
    obtain ⟨rfl, rfl⟩ := Prod.mk.inj hsend
    show Told name k before _ (s.tables.transact _).1 (s.tables.transact _).2
    unfold Tables.transact
    split
    · cases hstage : s.tables.stage (members.map Prod.fst) with
      | error err => exact .quietly .refused h
      | ok result =>
        obtain ⟨reasons, staged⟩ := result
        cases hany : reasons.any Option.isSome with
        | true =>
          simp only [hany, if_true]
          exact .quietly .refused h
        | false =>
          simp only [hany, if_false, Bool.false_eq_true]
          obtain ⟨deeds, hdo, hhold⟩ := h.stage hmembers hputs hstage hany
          exact ⟨deeds, .transacted hdo, hhold⟩
    · exact .quietly .refused h
  · rw [Store.send_of_fault hnext] at hsend
    cases hsend
    exact .quietly .refused h

/-- **A request of the builders is answered by what the latest deeds have left, and does no more than deeds.** -/
theorem told_of_build {r : ItemRequest} {p : Plan} (hbuild : r.build = .ok p)
    (hputs : ∀ item ∈ r.puts, Entries.Sorted item) (h : s.tables.Hold name k before)
    (hsend : s.send p.request = (reply, s')) : Told name k before r reply s'.tables := by
  match r with
  | .get g => exact told_get hbuild h hsend
  | .write w => exact told_write hbuild hputs h hsend
  | .several (.reads b) => exact told_batchGet hbuild h hsend
  | .several (.writes b) => exact told_batchWrite hbuild hputs h hsend
  | .several (.transaction tx) => exact told_transaction hbuild hputs h hsend

end Steps

/-! ## Runs -/

theorem ItemRequest.built_of_sendAll {σ : Type} [Client σ] : ∀ {rs : List ItemRequest} {plans : List Plan},
    rs.mapM ItemRequest.build = .ok plans → ∀ c : σ,
    List.Forall₂ (fun r (e : Exchange) => ∃ p, r.build = .ok p ∧ e.1 = p.request) rs
      (Client.sendAll c (plans.map PlanOf.request)).1
  | [], _, h, _ => by
    cases h
    exact .nil
  | _ :: _, _, h, _ => by
    obtain ⟨p, plans, hp, hplans, rfl⟩ := mapM_cons_eq_ok.1 h
    exact .cons ⟨p, hp, rfl⟩ (built_of_sendAll hplans _)

/-- So is a run of them, whatever faults are laid on the store in between. -/
theorem exists_chronicle {name : String} {k : KeySchema} {s s' : DisturbedStore} {talk : List Exchange}
    (htalk : Talks s talk s') : ∀ {rs : List ItemRequest} {before : List Deed},
    List.Forall₂ (fun r (e : Exchange) => ∃ p, r.build = .ok p ∧ e.1 = p.request) rs talk →
    (∀ r ∈ rs, ∀ item ∈ r.puts, Entries.Sorted item) → s.store.tables.Hold name k before →
    ∃ deeds, Chronicle name k before (rs.zip (talk.map Prod.snd)) deeds ∧ s'.store.tables.Hold name k deeds := by
  induction htalk with
  | silence s =>
    intro rs before hbuilt _ h
    cases hbuilt
    exact ⟨before, .nil, h⟩
  | @exchange s s₁ s' req reply talk hsend _ ih =>
    intro rs before hbuilt hputs h
    cases hbuilt with
    | @cons r _ rs _ hr hbuilt =>
      obtain ⟨p, hbuild, rfl⟩ := hr
      obtain ⟨hput, hputs⟩ := List.forall_mem_cons.1 hputs
      obtain ⟨store, htables, hstore⟩ := DisturbedStore.exists_send hsend
      rw [← htables] at h
      obtain ⟨deeds, hanswered, hhold⟩ := told_of_build hbuild hput h hstore
      obtain ⟨after, hchronicle, hafter⟩ := ih hbuilt hputs hhold
      exact ⟨after, .cons hanswered hchronicle, hafter⟩

/-- **The table of a shape is a map from keys to items.**  Whatever requests of the builders a store has been sent since
the table was created, and however they came out, there is a chronicle of what each has left under its key: what each of
them was answered is what the chronicle tells up to there, and what the table holds in the end is what it tells in all,
under no key more than one item, and each item with all of its key. -/
theorem tables_are_maps {d : Descriptor} (hd : d.Compiled) {s₀ : Store} (hnew : s₀.tables.get? d.table = none)
    {faults : List Faults} {s : DisturbedStore} {talk : List Exchange} (htalk : Talks ⟨s₀.create d, faults⟩ talk s)
    {rs : List ItemRequest}
    (hbuilt : List.Forall₂ (fun r (e : Exchange) => ∃ p, r.build = .ok p ∧ e.1 = p.request) rs talk)
    (hputs : ∀ r ∈ rs, ∀ item ∈ r.puts, Entries.Sorted item) :
    ∃ t deeds, s.store.tables.get? d.table = some t ∧ Chronicle d.table d.key [] (rs.zip (talk.map Prod.snd)) deeds ∧
      t.items.Pairwise (fun a b => d.key.sameKey a b = false) ∧ (∀ item ∈ t.items, d.key.KeyedIn item) ∧
      (∀ key, t.find? key = Deed.latest d.key deeds key) ∧
      (∀ item, item ∈ t.items ↔ Deed.latest d.key deeds item = some item) ∧
      ∀ (g : Get) (p : Plan), g.shape = d → g.build = .ok p → s.store.faults.next.1 = none → ∃ key,
        d.keyItem g.key = .ok key ∧
        (s.store.send p.request).1 = .ok { item := (Deed.latest d.key deeds key).map (shownIn g.projection) } := by
  have hstart : (s₀.create d).tables.Hold d.table d.key [] := by
    obtain ⟨t, ht, hshape⟩ := Store.exists_of_create hnew
    exact ⟨t, ht, hshape.key, .of_empty (Store.handle_new (e := .create d) hnew ht)⟩
  obtain ⟨deeds, hchronicle, t, ht, hkey, hholds⟩ := exists_chronicle htalk hbuilt hputs hstart
  rw [← hkey] at hchronicle ⊢
  refine ⟨t, deeds, ht, hchronicle, hholds.distinct, hholds.keyed, hholds.found, fun item => hholds.mem_iff,
    fun g p hg hbuild hcalm => ?_⟩
  obtain ⟨key, hkeyItem, hop, htable, hshown⟩ := Get.plan_of_build hbuild
  subst hg
  refine ⟨key, hkeyItem, ?_⟩
  have ht' : s.store.tables.get? p.request.table = some t := by rw [PlanOf.request_table, htable, ht]
  rw [Store.send_of_no_fault (Prod.ext hcalm rfl)]
  simp only [Store.serve, PlanOf.request_operation, hop, ht', Store.serveTable, PlanOf.request_expressions,
    Table.get_of_shown hshown, Descriptor.checkKey_of_keyItem hd hkey hkeyItem, hholds.found]
  rfl

namespace Samples

open SeveralItems (oneReadingTwice onePointZero)

def putReading (number : Numeral) (returnValues : ReturnValues) : ItemRequest :=
  .write (.put { shape := oneReadingTwice.shape, item := [("at", .number number)], returnValues })

/-- A reading is put and put again with its number in another spelling, which is throttled once; then it is read. -/
def readingRequests : List ItemRequest :=
  [putReading (.ofInt 1) .nothing, putReading onePointZero .allOld, putReading onePointZero .allOld,
    .get { shape := oneReadingTwice.shape, key := { partition := .number (.ofInt 1) } }]

def throttledReadings : DisturbedStore := ⟨Store.create {} oneReadingTwice.shape, [{}, { throttled := 1 }]⟩

end Samples

open Samples SeveralItems in
theorem tables_are_maps_of_readings : ∃ (plans : List Plan) (t : Table) (deeds : List Deed),
    readingRequests.mapM ItemRequest.build = .ok plans ∧
    let talk := (Client.sendAll throttledReadings (plans.map PlanOf.request)).1
    let s := (Client.sendAll throttledReadings (plans.map PlanOf.request)).2
    talk.map Prod.snd = [.ok {}, .error (.throttling "Rate of requests exceeds the allowed throughput"),
      .ok { attributes := some [("at", .number (.ofInt 1))] }, .ok { item := some [("at", .number onePointZero)] }] ∧
    s.store.tables.get? "readings" = some t ∧ t.items = [[("at", .number onePointZero)]] ∧
    Chronicle "readings" ⟨"at", none⟩ [] (readingRequests.zip (talk.map Prod.snd)) deeds ∧
    Deed.latest ⟨"at", none⟩ deeds [("at", .number (.ofInt 1))] = some [("at", .number onePointZero)] := by
  obtain ⟨plans, hplans⟩ : ∃ plans, readingRequests.mapM ItemRequest.build = .ok plans := ⟨_, rfl⟩
  have hputs : ∀ r ∈ readingRequests, ∀ item ∈ r.puts, Entries.Sorted item := by
    simp [readingRequests, putReading, ItemRequest.puts, SingleWrite.puts, Entries.Sorted]
  obtain ⟨t, deeds, ht, hchronicle, -, -, hfound, -⟩ :=
    tables_are_maps (d := oneReadingTwice.shape) ⟨readings, rfl⟩ rfl (Talks.of_sendAll _ throttledReadings)
      (ItemRequest.built_of_sendAll hplans throttledReadings) hputs
  cases hplans
  refine ⟨_, t, deeds, rfl, rfl, ht, ?_, hchronicle, ?_⟩
  · cases ht
    rfl
  · refine (hfound _).symm.trans ?_
    cases ht
    rfl

end ItemStore
