import ItemStore.Proofs.Expression.ConditionText
import ItemStore.Proofs.Outcome
import ItemStore.Proofs.Value.Equality
/-!
# What contains is evaluated to

Checking a condition decides by the declared kind what an attribute can contain; evaluating it decides by the two values
that meet.  The two agree on texts, sets and lists.  Bytes are admitted as a part of bytes, and no evaluation ever finds
them there (`contains_finds_all_but_bytes`).
-/
namespace ItemStore

open Outcome (bind_eq_ok)

namespace Value

/-- The part stands in the value: without gaps in a text or in bytes, or as an element, numbers by what they denote and
the elements of lists by the store's equality. -/
inductive Contains : Value → Value → Prop
  | string {s part : String} : part.toList <:+: s.toList → Contains (string s) (string part)
  | binary {b part : Bytes} : part <:+: b → Contains (binary b) (binary part)
  | stringSet {xs : List String} {x : String} : x ∈ xs → Contains (stringSet xs) (string x)
  | numberSet {xs : List Numeral} {x y : Numeral} : y ∈ xs → y.value = x.value → Contains (numberSet xs) (number x)
  | binarySet {xs : List Bytes} {x : Bytes} : x ∈ xs → Contains (binarySet xs) (binary x)
  | list {xs : List Value} {x y : Value} : y ∈ xs → y.equal x = true → Contains (list xs) x

theorem occursIn_iff {α : Type} [BEq α] [LawfulBEq α] {part : List α} : ∀ {xs : List α},
    occursIn part xs = true ↔ part <:+: xs
  | [] => by rw [occursIn, List.isEmpty_iff, List.infix_nil]
  | x :: xs => by rw [occursIn, Bool.or_eq_true, List.isPrefixOf_iff_prefix, occursIn_iff, List.infix_cons_iff]

/-- **The evaluator finds what a value contains, unless the value is bytes.** -/
theorem contains_iff {v part : Value} : v.contains part = true ↔ v.wireType ≠ .binary ∧ v.Contains part := by
  constructor
  · intro h
    unfold contains at h
    split at h
    · exact ⟨nofun, .string (occursIn_iff.1 h)⟩
    · exact ⟨nofun, .stringSet (List.contains_iff_mem.1 h)⟩
    · obtain ⟨y, hy, hsame⟩ := List.any_eq_true.1 h
      exact ⟨nofun, .numberSet hy ((sameNumber_iff y _).1 hsame)⟩
    · exact ⟨nofun, .binarySet (List.contains_iff_mem.1 h)⟩
    · obtain ⟨y, hy, hequal⟩ := List.any_eq_true.1 h
      exact ⟨nofun, .list hy hequal⟩
    · cases h
  · rintro ⟨htype, h⟩
    cases h with
    | string hpart => exact occursIn_iff.2 hpart
    | binary => exact absurd rfl htype
    | stringSet hx => exact List.contains_iff_mem.2 hx
    | numberSet hy hvalue => exact List.any_eq_true.2 ⟨_, hy, (sameNumber_iff _ _).2 hvalue⟩
    | binarySet hx => exact List.contains_iff_mem.2 hx
    | list hy hequal => exact List.any_eq_true.2 ⟨_, hy, hequal⟩

end Value

/-! ## Kinds -/

theorem Kind.string_accepts_iff {v : Value} : Kind.string.accepts v = true ↔ ∃ s, v = .string s := by
  cases v <;> simp [accepts]

theorem Kind.number_accepts_iff {v : Value} : Kind.number.accepts v = true ↔ ∃ n, v = .number n := by
  cases v <;> simp [accepts]

theorem Kind.binary_accepts_iff {v : Value} : Kind.binary.accepts v = true ↔ ∃ b, v = .binary b := by
  cases v <;> simp [accepts]

theorem Kind.wireType_eq_binary_iff {kind : Kind} {v : Value} (h : kind.accepts v = true) :
    v.wireType = .binary ↔ kind = .binary := by
  cases kind <;> cases v <;> simp_all [accepts, Value.wireType]

/-- What a condition may look for is in some value of the kind. -/
theorem Condition.exists_contains {kind element : Kind} {v : Value} (h : containedKind? kind = some element)
    (hv : element.accepts v = true) : ∃ x, kind.accepts x = true ∧ x.Contains v := by
  cases kind with
  | string =>
    cases h
    obtain ⟨s, rfl⟩ := Kind.string_accepts_iff.1 hv
    exact ⟨.string s, rfl, .string List.infix_rfl⟩
  | binary =>
    cases h
    obtain ⟨b, rfl⟩ := Kind.binary_accepts_iff.1 hv
    exact ⟨.binary b, rfl, .binary List.infix_rfl⟩
  | stringSet =>
    cases h
    obtain ⟨s, rfl⟩ := Kind.string_accepts_iff.1 hv
    exact ⟨.stringSet [s], rfl, .stringSet (List.mem_singleton_self s)⟩
  | numberSet =>
    cases h
    obtain ⟨n, rfl⟩ := Kind.number_accepts_iff.1 hv
    exact ⟨.numberSet [n], rfl, .numberSet (List.mem_singleton_self n) rfl⟩
  | binarySet =>
    cases h
    obtain ⟨b, rfl⟩ := Kind.binary_accepts_iff.1 hv
    exact ⟨.binarySet [b], rfl, .binarySet (List.mem_singleton_self b)⟩
  | list kind =>
    cases h
    refine ⟨.list [v], ?_, .list (List.mem_singleton_self v) v.equal_refl⟩
    simp [Kind.accepts, hv]
  | _ => cases h

theorem Condition.validate_contains_eq_ok {d : Descriptor} {name : String} {v : Value} :
    (contains name v).validate d = .ok () ↔ ∃ a element, d.requireAttribute name = .ok a ∧
      containedKind? a.kind = some element ∧ element.accepts v = true := by
  rw [validate, bind_eq_ok]
  refine exists_congr fun a => ?_
  cases containedKind? a.kind <;> simp

/-! ## Rendered conditions -/

/-- **A condition that asks what an attribute contains is true of the items that contain it, unless the attribute is
binary**, and then it is true of none.  This holds of all such conditions that a shape admits, in any state of a writer,
and every one of them that is not about a binary attribute is true of some value of the attribute's kind. -/
theorem contains_finds_all_but_bytes {d : Descriptor} {name : String} {v : Value}
    (h : (Condition.contains name v).validate d = .ok ()) : ∃ a, d.requireAttribute name = .ok a ∧
    (∀ w : Writer, ∃ f, Formula.parse (w.condition (.contains name v)).1 = .ok f ∧
      ∀ (later : List Writer.Call) (item : Item), (∀ x ∈ item.get? name, a.kind.accepts x = true) →
        ∃ result, f.holds ((w.condition (.contains name v)).2.run later).bindings item = .ok result ∧
          (result = true ↔ a.kind ≠ .binary ∧ ∃ x ∈ item.get? name, x.Contains v)) ∧
    ((∃ x, a.kind.accepts x = true ∧ x.contains v = true) ↔ a.kind ≠ .binary) := by
  obtain ⟨a, element, ha, helement, hv⟩ := Condition.validate_contains_eq_ok.1 h
  refine ⟨a, ha, fun w => ?_, ?_, fun hkind => ?_⟩
  · obtain ⟨f, hparse, hholds⟩ := w.expresses_condition (c := .contains name v) rfl
    refine ⟨f, hparse, fun later item hitem => ⟨_, hholds later item, ?_⟩⟩
    show (item.get? name).any (fun x => x.contains v) = true ↔ _
    cases hx : item.get? name with
    | none => simp
    | some x =>
      have htype := Kind.wireType_eq_binary_iff (hitem x hx)
      simp [Value.contains_iff, htype]
  · rintro ⟨x, hx, hcontains⟩ hkind
    exact (Value.contains_iff.1 hcontains).1 ((Kind.wireType_eq_binary_iff hx).2 hkind)
  · obtain ⟨x, hx, hcontains⟩ := Condition.exists_contains helement hv
    exact ⟨x, hx, Value.contains_iff.2 ⟨fun htype => hkind ((Kind.wireType_eq_binary_iff hx).1 htype), hcontains⟩⟩

/-- Marks that hold the number 1, asked for as 1.0. -/
theorem contains_finds_all_but_bytes_of_marks :
    let d : Descriptor := ⟨"Order", "orders", [⟨"id", .string, false, false, .partition⟩,
      ⟨"marks", .numberSet, true, false, .none⟩], ⟨"id", none⟩, []⟩
    let c : Condition := .contains "marks" (.number ⟨"1.0", by decide⟩)
    let item : Item := [("id", .string "A"), ("marks", .numberSet [⟨"2", by decide⟩, ⟨"1", by decide⟩])]
    c.validate d = .ok () ∧ ∃ f, Formula.parse (Writer.empty.condition c).1 = .ok f ∧
      f.holds (Writer.empty.condition c).2.bindings item = .ok true := by
  intro d c item
  have hc : c.validate d = .ok () := rfl
  obtain ⟨a, ha, hfinds, -⟩ := contains_finds_all_but_bytes hc
  cases ha
  obtain ⟨f, hparse, hholds⟩ := hfinds Writer.empty
  have hmarks : ∀ x ∈ item.get? "marks", Kind.numberSet.accepts x = true := by
    intro x hx
    cases hx
    rfl
  obtain ⟨result, hresult, hiff⟩ := hholds [] item hmarks
  have hone : (⟨"1", by decide⟩ : Numeral).value = (⟨"1.0", by decide⟩ : Numeral).value :=
    (Value.sameNumber_iff _ _).1 (by decide)
  have htrue : result = true :=
    hiff.2 ⟨nofun, _, rfl, .numberSet (List.mem_cons_of_mem _ (List.mem_singleton_self _)) hone⟩
  rw [htrue] at hresult
  exact ⟨hc, f, hparse, hresult⟩

/-- A part of the bytes that are there, looked for by an admitted condition, and not found. -/
theorem contains_does_not_find_bytes :
    let d : Descriptor := ⟨"Blob", "blobs", [⟨"id", .string, false, false, .partition⟩,
      ⟨"body", .binary, false, false, .none⟩], ⟨"id", none⟩, []⟩
    let c : Condition := .contains "body" (.binary [2])
    let body : Value := .binary [1, 2, 3]
    c.validate d = .ok () ∧ Kind.binary.accepts body = true ∧ body.Contains (.binary [2]) ∧
      ∃ f, Formula.parse (Writer.empty.condition c).1 = .ok f ∧
        f.holds (Writer.empty.condition c).2.bindings [("id", .string "A"), ("body", body)] = .ok false := by
  intro d c body
  obtain ⟨f, hparse, hholds⟩ := Writer.empty.expresses_condition (c := c) rfl
  exact ⟨rfl, rfl, .binary ⟨[1], [3], rfl⟩, f, hparse, hholds [] _⟩

end ItemStore
