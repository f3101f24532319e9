import Mathlib.Data.List.Perm.Subperm
import Mathlib.Data.Set.Finite.List
import ItemStore.Expression.Formula
import ItemStore.Proofs.Number.Values
import ItemStore.Proofs.Value.SortedSet
import ItemStore.Record.Codec
/-!
# Where equality of values is symmetric

Two sets are equal if they have as many elements and each one of the first is among those of the second.  Of sets that
repeat an element, by value where they are of numbers, this asks more in one direction than in the other: `1, 1.0` is
equal to `1, 2`, and `1, 2` is not equal to `1, 1.0`.  Equality is reflexive and transitive among all values, and the
values whose equality is symmetric are those that repeat nothing (`equality_is_symmetric_where_nothing_repeats`).
-/
namespace ItemStore

namespace Value

/-! ## Lists of elements -/

section Elements
variable {α κ : Type} {eq : α → α → Bool} {key : α → κ} {xs ys zs : List α}
variable (heq : ∀ x y, eq x y = true ↔ key x = key y)
include heq

theorem sameElements_iff : sameElements eq xs ys = true ↔ xs.length = ys.length ∧ xs.map key ⊆ ys.map key := by
  have hsub : xs.map key ⊆ ys.map key ↔ ∀ x ∈ xs, ∃ y ∈ ys, key x = key y := by
    simp only [List.subset_def, List.mem_map]
    constructor
    · intro h x hx
      obtain ⟨y, hy, hkey⟩ := h ⟨x, hx, rfl⟩
      exact ⟨y, hy, hkey.symm⟩
    · rintro h _ ⟨x, hx, rfl⟩
      obtain ⟨y, hy, hkey⟩ := h x hx
      exact ⟨y, hy, hkey.symm⟩
  simp [sameElements, heq, hsub]

theorem sameElements_refl : sameElements eq xs xs = true := (sameElements_iff heq).2 ⟨rfl, List.Subset.refl _⟩

theorem sameElements_trans (h : sameElements eq xs ys = true) (h' : sameElements eq ys zs = true) :
    sameElements eq xs zs = true := by
  obtain ⟨hlength, hsub⟩ := (sameElements_iff heq).1 h
  obtain ⟨hlength', hsub'⟩ := (sameElements_iff heq).1 h'
  exact (sameElements_iff heq).2 ⟨hlength.trans hlength', List.Subset.trans hsub hsub'⟩

/-- Distinct elements are all the elements of a list of that length. -/
theorem sameElements_symm (hxs : (xs.map key).Nodup) (h : sameElements eq xs ys = true) :
    sameElements eq ys xs = true := by
  obtain ⟨hlength, hsub⟩ := (sameElements_iff heq).1 h
  have hperm : (xs.map key).Perm (ys.map key) := (hxs.subperm hsub).perm_of_length_le (by simp [hlength])
  exact (sameElements_iff heq).2 ⟨hlength.symm, hperm.symm.subset⟩

/-- A repeated element leaves room for any other. -/
theorem exists_of_repeats (z : α) : ∀ {xs : List α}, ¬(xs.map key).Nodup →
    ∃ ys, sameElements eq xs ys = true ∧ z ∈ ys
  | [], h => absurd List.nodup_nil h
  | x :: xs, h => by
    by_cases hx : key x ∈ xs.map key
    · refine ⟨z :: xs, (sameElements_iff heq).2 ⟨rfl, ?_⟩, List.mem_cons_self⟩
      exact List.cons_subset.2 ⟨List.mem_cons_of_mem _ hx, List.subset_cons_self _ _⟩
    · obtain ⟨ys, hys, hz⟩ := exists_of_repeats z fun hxs => h (List.nodup_cons.2 ⟨hx, hxs⟩)
      obtain ⟨hlength, hsub⟩ := (sameElements_iff heq).1 hys
      refine ⟨x :: ys, (sameElements_iff heq).2 ⟨congrArg (· + 1) hlength, ?_⟩, List.mem_cons_of_mem x hz⟩
      exact List.cons_subset_cons _ hsub

/-- **Among elements of infinitely many keys, having the same elements is symmetric at the lists that repeat none.** -/
theorem nodup_iff_symm {f : Nat → α} (hf : Function.Injective fun n => key (f n)) :
    (xs.map key).Nodup ↔ ∀ ys, sameElements eq xs ys = true → sameElements eq ys xs = true := by
  refine ⟨fun hxs ys => sameElements_symm heq hxs, fun h => ?_⟩
  by_contra hxs
  obtain ⟨_, ⟨n, rfl⟩, hn⟩ :=
    (Set.infinite_range_of_injective hf).exists_notMem_finite (List.finite_toSet (xs.map key))
  obtain ⟨ys, hys, hz⟩ := exists_of_repeats heq (f n) hxs
  exact hn (((sameElements_iff heq).1 (h ys hys)).2 (List.mem_map_of_mem hz))

end Elements

/-! ## Values -/

/-- No two elements of a set are equal; what is no set has none. -/
def RepeatsNothing : Value → Prop
  | stringSet xs => xs.Nodup
  | numberSet xs => (xs.map Numeral.value).Nodup
  | binarySet xs => xs.Nodup
  | _ => True

section Equal
variable {a b c : Value}

/-- How two values are equal. -/
inductive Alike : Value → Value → Prop
  | same (a : Value) : Alike a a
  | number {x y : Numeral} : x.value = y.value → Alike (number x) (number y)
  | stringSet {xs ys : List String} : sameElements (· == ·) xs ys = true → Alike (stringSet xs) (stringSet ys)
  | numberSet {xs ys : List Numeral} : sameElements sameNumber xs ys = true → Alike (numberSet xs) (numberSet ys)
  | binarySet {xs ys : List Bytes} : sameElements (· == ·) xs ys = true → Alike (binarySet xs) (binarySet ys)

theorem beq_iff {α : Type} [BEq α] [LawfulBEq α] (x y : α) : (x == y) = true ↔ id x = id y := beq_iff_eq

theorem sameNumber_iff (x y : Numeral) : sameNumber x y = true ↔ x.value = y.value := by
  rw [sameNumber, beq_iff_eq, Numeral.order_eq_compare, compare_eq_iff_eq]

theorem equal_refl (a : Value) : a.equal a = true := by
  cases a with
  | number x => exact (sameNumber_iff x x).2 rfl
  | stringSet xs => exact sameElements_refl beq_iff
  | numberSet xs => exact sameElements_refl sameNumber_iff
  | binarySet xs => exact sameElements_refl beq_iff
  | _ => simp [equal]

theorem equal_iff_alike : a.equal b = true ↔ Alike a b := by
  constructor
  · intro h
    cases a <;> cases b <;> simp only [equal, decide_eq_true_eq, reduceCtorEq, sameNumber_iff] at h
    case number.number => exact .number h
    case stringSet.stringSet => exact .stringSet h
    case numberSet.numberSet => exact .numberSet h
    case binarySet.binarySet => exact .binarySet h
    case null.null => exact .same null
    all_goals exact h ▸ .same _
  · intro h
    cases h with
    | same => exact equal_refl a
    | number h => exact (sameNumber_iff _ _).2 h
    | stringSet h => exact h
    | numberSet h => exact h
    | binarySet h => exact h

theorem equal_trans (hab : a.equal b = true) (hbc : b.equal c = true) : a.equal c = true := by
  rw [equal_iff_alike] at hab hbc ⊢
  cases hab with
  | same => exact hbc
  | number h =>
    cases hbc with
    | same => exact .number h
    | number h' => exact .number (h.trans h')
  | stringSet h =>
    cases hbc with
    | same => exact .stringSet h
    | stringSet h' => exact .stringSet (sameElements_trans beq_iff h h')
  | numberSet h =>
    cases hbc with
    | same => exact .numberSet h
    | numberSet h' => exact .numberSet (sameElements_trans sameNumber_iff h h')
  | binarySet h =>
    cases hbc with
    | same => exact .binarySet h
    | binarySet h' => exact .binarySet (sameElements_trans beq_iff h h')

theorem RepeatsNothing.equal_symm (ha : a.RepeatsNothing) (h : a.equal b = true) : b.equal a = true := by
  rw [equal_iff_alike] at h ⊢
  cases h with
  | same => exact .same a
  | number h => exact .number h.symm
  | stringSet h => exact .stringSet (sameElements_symm beq_iff (by simpa [RepeatsNothing] using ha) h)
  | numberSet h => exact .numberSet (sameElements_symm sameNumber_iff ha h)
  | binarySet h => exact .binarySet (sameElements_symm beq_iff (by simpa [RepeatsNothing] using ha) h)

theorem repeatsNothing_iff_symm : a.RepeatsNothing ↔ ∀ b, a.equal b = true → b.equal a = true := by
  refine ⟨fun ha b => ha.equal_symm, fun h => ?_⟩
  cases a with
  | stringSet xs =>
    have hf : Function.Injective fun n => id (String.ofList (List.replicate n 'a')) := fun m n hmn => by
      simpa using congrArg String.length hmn
    simpa [RepeatsNothing] using (nodup_iff_symm beq_iff hf).2 fun ys => h (stringSet ys)
  | numberSet xs =>
    have hf : Function.Injective fun n : Nat => (Numeral.ofInt n).value :=
      Numeral.value_ofInt_injective.comp Nat.cast_injective
    exact (nodup_iff_symm sameNumber_iff hf).2 fun ys => h (numberSet ys)
  | binarySet xs =>
    have hf : Function.Injective fun n => id (List.replicate n (0 : UInt8)) := fun m n hmn => by
      simpa using congrArg List.length hmn
    simpa [RepeatsNothing] using (nodup_iff_symm beq_iff hf).2 fun ys => h (binarySet ys)
  | _ => trivial

/-- What equals a value that repeats nothing repeats nothing. -/
theorem RepeatsNothing.of_equal (ha : a.RepeatsNothing) (h : a.equal b = true) : b.RepeatsNothing :=
  repeatsNothing_iff_symm.2 fun _ hbc => equal_trans (ha.equal_symm (equal_trans h hbc)) h

theorem RepeatsNothing.equal_comm (ha : a.RepeatsNothing) (hb : b.RepeatsNothing) : a.equal b = b.equal a :=
  Bool.eq_iff_iff.2 ⟨ha.equal_symm, hb.equal_symm⟩

end Equal

/-- The elements of a sorted set are distinct, and so are the numbers of integers. -/
theorem repeatsNothing_encodeSet {e : SetElement} (he : e ≠ .numeral) (s : SortedSet e.Val) :
    (e.encodeSet s.elements).RepeatsNothing := by
  have hs : s.elements.Nodup := s.increasing.imp SortedSet.ne_of_lt
  cases e with
  | text => exact hs
  | numeral => exact absurd rfl he
  | binary => exact hs
  | integer t =>
    have hinj : Function.Injective fun n : BoundedInt t => (Numeral.ofInt n.val).value := fun m n h => by
      cases m
      cases n
      simpa [Numeral.value_ofInt] using h
    simpa [SetElement.encodeSet, RepeatsNothing, Function.comp_def] using hs.map hinj

end Value

/-! ## Comparisons -/

theorem Comparator.holds_comm {op : Comparator} (hop : op.isOrdering = false) {l r : Option Value}
    (hl : ∀ v ∈ l, v.RepeatsNothing) (hr : ∀ v ∈ r, v.RepeatsNothing) : op.holds l r = op.holds r l := by
  cases l with
  | none => cases r <;> rfl
  | some v =>
    cases r with
    | none => rfl
    | some w =>
      have hcomm := (hl v rfl).equal_comm (hr w rfl)
      cases op <;> simp_all [holds, isOrdering]

namespace Formula
variable {b : Bindings} {item : Item} {op : Comparator} {x y : Formula}

theorem holds_compare_eq_ok {result : Bool} : (compare op x y).holds b item = .ok result ↔
    ∃ l r, x.resolve b item = .ok l ∧ y.resolve b item = .ok r ∧ op.holds l r = result := by
  rw [holds, Outcome.bind_eq_ok]
  refine exists_congr fun l => ?_
  rw [Outcome.bind_eq_ok]
  simp [pure, Except.pure]

theorem compare_swap (hop : op.isOrdering = false) (hx : ∀ v, x.resolve b item = .ok (some v) → v.RepeatsNothing)
    (hy : ∀ v, y.resolve b item = .ok (some v) → v.RepeatsNothing) {result : Bool}
    (h : (compare op x y).holds b item = .ok result) : (compare op y x).holds b item = .ok result := by
  obtain ⟨l, r, hl, hr, hholds⟩ := holds_compare_eq_ok.1 h
  refine holds_compare_eq_ok.2 ⟨r, l, hr, hl, ?_⟩
  rw [← hholds]
  exact op.holds_comm hop (fun v hv => hy v (hr.trans (congrArg _ hv))) fun v hv => hx v (hl.trans (congrArg _ hv))

end Formula

/-! ## Equality and repetition -/

/-- **Equality is reflexive and transitive, and it is symmetric at the values that repeat nothing and at no others.**
Values that repeat nothing equal only such values.  What is written for a set of texts, bytes or integers repeats
nothing.  A formula that compares two such operands for being equal or unequal has the same result with its sides
exchanged. -/
theorem equality_is_symmetric_where_nothing_repeats (a : Value) :
    a.equal a = true ∧
    (∀ b c : Value, a.equal b = true → b.equal c = true → a.equal c = true) ∧
    (a.RepeatsNothing ↔ ∀ b, a.equal b = true → b.equal a = true) ∧
    (a.RepeatsNothing → ∀ b, a.equal b = true → b.RepeatsNothing) ∧
    (∀ (e : SetElement) (s : SortedSet e.Val), e ≠ .numeral → a = e.encodeSet s.elements → a.RepeatsNothing) ∧
    (∀ (b : Bindings) (item : Item) (op : Comparator) (x y : Formula), op.isOrdering = false →
      (∀ v, x.resolve b item = .ok (some v) → v.RepeatsNothing) →
      (∀ v, y.resolve b item = .ok (some v) → v.RepeatsNothing) → ∀ result,
        (Formula.compare op x y).holds b item = .ok result ↔ (Formula.compare op y x).holds b item = .ok result) :=
  ⟨a.equal_refl, fun _ _ => Value.equal_trans, Value.repeatsNothing_iff_symm, fun ha _ h => ha.of_equal h,
    fun _ s he h => h ▸ Value.repeatsNothing_encodeSet he s,
    fun _ _ _ _ _ hop hx hy _ => ⟨Formula.compare_swap hop hx hy, Formula.compare_swap hop hy hx⟩⟩

/-- A set of two numbers, held and asked for in either order. -/
theorem equality_is_symmetric_where_nothing_repeats_of_two_numbers :
    ∃ (b : Bindings) (item : Item), ∀ op ∈ [Comparator.eq, .ne], ∀ result,
      (Formula.compare op (.path "a") (.value ":v")).holds b item = .ok result ↔
        (Formula.compare op (.value ":v") (.path "a")).holds b item = .ok result := by
  let held : Value := .numberSet [.ofInt 1, .ofInt 2]
  let asked : Value := .numberSet [.ofInt 2, .ofInt 1]
  have hheld : held.RepeatsNothing := by simp [held, Value.RepeatsNothing, Numeral.value_ofInt]
  have hasked : asked.RepeatsNothing := by simp [asked, Value.RepeatsNothing, Numeral.value_ofInt]
  refine ⟨⟨[], [(":v", asked)]⟩, [("a", held)], fun op hop result => ?_⟩
  have hplain : op.isOrdering = false := by
    rcases List.mem_pair.1 hop with rfl | rfl <;> rfl
  obtain ⟨-, -, -, -, -, hsides⟩ := equality_is_symmetric_where_nothing_repeats held
  refine hsides _ _ op _ _ hplain (fun v hv => ?_) (fun v hv => ?_) result
  · cases hv
    exact hheld
  · cases hv
    exact hasked

/-- The set of the numerals `1` and `1.0`, as a mapper writes it, equals a set of two numbers that does not equal it. -/
theorem equality_of_one_number_written_twice_is_not_symmetric :
    let elements : SortedSet Numeral := SortedSet.ofList [⟨"1", by decide⟩, ⟨"1.0", by decide⟩]
    let held := SetElement.numeral.encodeSet elements.elements
    let asked := Value.numberSet [⟨"1", by decide⟩, ⟨"2", by decide⟩]
    held.equal asked = true ∧ asked.equal held = false ∧
      (Formula.compare .eq (.path "a") (.value ":v")).holds ⟨[], [(":v", asked)]⟩ [("a", held)] = .ok true ∧
      (Formula.compare .eq (.value ":v") (.path "a")).holds ⟨[], [(":v", asked)]⟩ [("a", held)] = .ok false := by
  decide

end ItemStore
