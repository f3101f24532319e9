import ItemStore.Proofs.Outcome
import ItemStore.Request.Reading
import ItemStore.Request.Several
/-!
# When requests are built

What each builder checks, and the plan that it makes of a request that passes (that of queries is in
`Query.build_eq_ok_iff`).  Whoever reasons about built plans takes these apart and not the builders.
-/
namespace ItemStore

open Outcome (bind_eq_ok exists_check refused_eq_ok)

variable {p : Plan}

/-! ## Checks -/

theorem checkDistinct_eq_ok {keys : List Item} : checkDistinct keys = .ok () ↔ keys.Nodup := by
  unfold checkDistinct
  split <;> simp [*]

theorem Transaction.checkTargets_eq_ok : ∀ {targets seen : List (String × Item)},
    checkTargets seen targets = .ok () ↔ targets.Nodup ∧ ∀ x ∈ targets, x ∉ seen
  | [], seen => by simp [checkTargets]
  | target :: rest, seen => by
    rw [checkTargets, List.nodup_cons, List.forall_mem_cons]
    constructor
    · intro h
      split at h
      · cases h
      · next hseen =>
        obtain ⟨hnodup, hunseen⟩ := checkTargets_eq_ok.1 h
        exact ⟨⟨fun hmem => hunseen target hmem List.mem_cons_self, hnodup⟩, hseen,
          fun x hx hmem => hunseen x hx (List.mem_cons_of_mem target hmem)⟩
    · rintro ⟨⟨hfresh, hnodup⟩, hseen, hunseen⟩
      rw [if_neg hseen]
      refine checkTargets_eq_ok.2 ⟨hnodup, fun x hx hmem => ?_⟩
      rcases List.mem_cons.1 hmem with rfl | hmem
      · exact hfresh hx
      · exact hunseen x hx hmem

/-! ## Reads -/

/-- The expressions of a request that asks for nothing but a projection. -/
def Expressions.projecting (names : List String) : Expressions :=
  (Writer.empty.projection? names).2.expressions none none (Writer.empty.projection? names).1

theorem Get.build_eq_ok_iff {g : Get} : g.build = .ok p ↔ ∃ key, g.shape.keyItem g.key = .ok key ∧
    g.shape.checkProjection g.projection = .ok () ∧
    { shape := g.shape.name, table := g.shape.table, operation := .get key, expressions := .projecting g.projection,
      consistency := g.consistency } = p := by
  simp only [build, bind_eq_ok, exists_check, pure, Except.pure, Except.ok.injEq]
  rfl

theorem Scan.build_eq_ok_iff {q : Scan} : q.build = .ok p ↔ ∃ key, q.source = .ok key ∧
    q.shape.checkConditions q.filters = .ok () ∧ q.shape.checkProjection q.projection = .ok () ∧
    checkLimit q.limit = .ok () ∧ checkSegment q.segment = .ok () ∧ q.start.checkShape q.shape.name = .ok () ∧
    { q.plan .scan Writer.empty with segment := q.segment } = p := by
  simp only [build, bind_eq_ok, exists_check, pure, Except.pure, Except.ok.injEq]

theorem BatchGet.build_eq_ok_iff {b : BatchGet} : b.build = .ok p ↔ b.keys ≠ [] ∧
    ∃ keys, b.keys.mapM b.shape.keyItem = .ok keys ∧ keys.Nodup ∧ b.shape.checkProjection b.projection = .ok () ∧
    { shape := b.shape.name, table := b.shape.table, operation := .batchGet keys,
      expressions := .projecting b.projection,
      consistency := b.consistency } = p := by
  simp only [build, refused_eq_ok, bind_eq_ok, exists_check, checkDistinct_eq_ok, pure, Except.pure, Except.ok.injEq]
  rfl

/-! ## Writes -/

theorem Put.build_eq_ok_iff {w : Put} : w.build = .ok p ↔ ∃ key, w.key = .ok key ∧
    w.shape.checkConditions w.conditions = .ok () ∧ checkOldImage "put" w.returnValues = .ok () ∧
    w.plan (.put w.item) Writer.empty = p := by
  simp only [build, bind_eq_ok, exists_check, pure, Except.pure, Except.ok.injEq]

theorem Delete.build_eq_ok_iff {d : Delete} : d.build = .ok p ↔ ∃ key, d.key = .ok key ∧
    d.shape.checkConditions d.conditions = .ok () ∧ checkOldImage "delete" d.returnValues = .ok () ∧
    d.plan (.delete key) Writer.empty = p := by
  simp only [build, bind_eq_ok, exists_check, pure, Except.pure, Except.ok.injEq]

theorem Update.build_eq_ok_iff {u : Update} : u.build = .ok p ↔ ∃ key, u.keyItem = .ok key ∧
    UpdateAction.validateAll u.shape u.actions = .ok () ∧ u.shape.checkConditions u.conditions = .ok () ∧
    u.plan (.update key (Writer.empty.update u.actions).1) (Writer.empty.update u.actions).2 = p := by
  simp only [build, bind_eq_ok, exists_check, pure, Except.pure, Except.ok.injEq]

theorem BatchWrite.build_eq_ok_iff {b : BatchWrite} : b.build = .ok p ↔ b.writes ≠ [] ∧
    ∃ entries, b.writes.mapM (PendingWrite.entry b.shape) = .ok entries ∧ (entries.map Prod.snd).Nodup ∧
    { shape := b.shape.name, table := b.shape.table, operation := .batchWrite (entries.map Prod.fst) } = p := by
  simp only [build, refused_eq_ok, List.isEmpty_iff, bind_eq_ok, exists_check, checkDistinct_eq_ok, pure, Except.pure,
    Except.ok.injEq]

/-- A member of a transaction has been built as the write that it is. -/
theorem SingleWrite.member_eq_ok_iff {s : SingleWrite} {m : Plan × Item} : s.member = .ok m ↔
    s.build = .ok m.1 ∧ s.key = .ok m.2 ∧ m.1.returnValues = .nothing := by
  simp only [member, bind_eq_ok, Outcome.guard_eq_ok, Except.ok.injEq]
  constructor
  · rintro ⟨plan, hplan, key, hkey, hnothing, rfl⟩
    exact ⟨hplan, hkey, hnothing⟩
  · rintro ⟨hplan, hkey, hnothing⟩
    exact ⟨m.1, hplan, m.2, hkey, hnothing, rfl⟩

theorem Transaction.build_eq_ok_iff {tx : Transaction} : tx.build = .ok p ↔ tx.writes ≠ [] ∧
    tx.writes.length ≤ maxTransaction ∧ checkToken tx.token = .ok () ∧
    ∃ members, tx.writes.mapM SingleWrite.member = .ok members ∧ (members.map fun m => (m.1.table, m.2)).Nodup ∧
    { shape := "", table := "", operation := .transaction (members.map Prod.fst) tx.token } = p := by
  simp only [build, refused_eq_ok, List.isEmpty_iff, bind_eq_ok, exists_check, checkTargets_eq_ok, List.not_mem_nil,
    not_false_eq_true, implies_true, and_true, Nat.not_lt, pure, Except.pure, Except.ok.injEq]

end ItemStore
