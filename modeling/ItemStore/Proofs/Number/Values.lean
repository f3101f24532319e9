import Mathlib.Algebra.Order.Field.Power
import Mathlib.Data.Rat.Cast.Order
import Mathlib.Tactic.FieldSimp
import Mathlib.Tactic.Linarith
import Mathlib.Tactic.Positivity
import Mathlib.Tactic.Ring
import ItemStore.Proofs.Number.Sums
import ItemStore.Proofs.Number.Texts
/-!
# Numerals are ordered by the numbers they denote
-/
namespace ItemStore

/-! ## The number of a text -/

namespace Parts

/-- The number that is written: a sign, digits before and behind the point, and a power of ten. -/
def value (p : Parts) : ℚ :=
  (if p.negative then -1 else 1) *
    (ofDigits (p.whole.map digitValue) + ofDigits (p.fraction.map digitValue) / 10 ^ p.fraction.length) * 10
      ^ p.exponent

theorem value_eq (p : Parts) :
    p.value = (if p.negative then -1 else 1) * (ofDigits p.digits * 10 ^ (p.exponent - p.fraction.length)) := by
  have hdigits : (ofDigits p.digits : ℚ) =
      ofDigits (p.whole.map digitValue) * 10 ^ p.fraction.length + ofDigits (p.fraction.map digitValue) := by
    rw [digits, List.map_append, ofDigits_append, List.length_map]
    push_cast
    rfl
  have hten : (10 : ℚ) ≠ 0 := by norm_num
  rw [value, hdigits, zpow_sub₀ hten, zpow_natCast]
  field_simp

end Parts

/-! ## The number of a normal form -/

namespace Decimal

/-- The digits behind a point. -/
def fraction (ds : List Nat) : ℚ := Parts.ofDigits ds / 10 ^ ds.length

theorem fraction_nil : fraction [] = 0 := by simp [fraction, Parts.ofDigits]

theorem fraction_cons (d : Nat) (ds : List Nat) : fraction (d :: ds) = (d + fraction ds) / 10 := by
  have hdigits : (Parts.ofDigits (d :: ds) : ℚ) = d * 10 ^ ds.length + Parts.ofDigits ds := by
    rw [← List.singleton_append, Parts.ofDigits_append]
    simp [Parts.ofDigits]
  rw [fraction, fraction, hdigits, List.length_cons, pow_succ]
  field_simp

/-- The absolute value. -/
def size (a : Decimal) : ℚ := fraction a.digits * 10 ^ a.exponent

def value (a : Decimal) : ℚ := if a.negative then -a.size else a.size

/-- Digits of the decimal system that do not end in zeros. -/
structure Significant (ds : List Nat) : Prop where
  digits : ∀ d ∈ ds, d < 10
  last : ds.getLast? ≠ some 0

/-- No zero stands at either end, and zero has no sign. -/
structure Normal (a : Decimal) : Prop where
  significant : Significant a.digits
  first : a.digits.head? ≠ some 0
  sign : a.negative = true → a.digits ≠ []

theorem Significant.tail {d : Nat} {ds : List Nat} (h : Significant (d :: ds)) : Significant ds := by
  refine ⟨fun e he => h.digits e (List.mem_cons_of_mem d he), fun hlast => h.last ?_⟩
  cases ds with
  | nil => cases hlast
  | cons e es => rwa [List.getLast?_cons_cons]

theorem fraction_nonneg (ds : List Nat) : 0 ≤ fraction ds := by
  unfold fraction
  positivity

theorem fraction_lt_one : ∀ {ds : List Nat}, (∀ d ∈ ds, d < 10) → fraction ds < 1
  | [], _ => by simp [fraction_nil]
  | d :: ds, h => by
    obtain ⟨hd, hds⟩ := List.forall_mem_cons.1 h
    have hrest := fraction_lt_one hds
    have hd' : (d : ℚ) ≤ 9 := by exact_mod_cast Nat.le_of_lt_succ hd
    rw [fraction_cons]
    linarith

/-- Digits that do not end in zeros are not all zeros. -/
theorem Significant.fraction_pos : ∀ {ds : List Nat}, Significant ds → ds ≠ [] → 0 < fraction ds
  | [], _, hne => absurd rfl hne
  | [d], h, _ => by
    have hd : d ≠ 0 := by
      rintro rfl
      exact h.last rfl
    have hd' : (0 : ℚ) < d := by exact_mod_cast Nat.pos_of_ne_zero hd
    rw [fraction_cons, fraction_nil]
    linarith
  | d :: e :: es, h, _ => by
    have hrest := h.tail.fraction_pos (List.cons_ne_nil e es)
    rw [fraction_cons]
    positivity

theorem compare_map {f : ℚ → ℚ} (hf : StrictMono f) (x y : ℚ) : compare (f x) (f y) = compare x y := by
  rw [← cmp_eq_compare, ← cmp_eq_compare, hf.cmp_map_eq]

theorem compare_neg (x y : ℚ) : compare (-x) (-y) = compare y x := by
  rw [← cmp_eq_compare, ← cmp_eq_compare, StrictAnti.cmp_map_eq fun _ _ => neg_lt_neg]

/-- **Digit by digit is by value.** -/
theorem compare_digits : ∀ {ds es : List Nat}, Significant ds → Significant es →
    compare ds es = compare (fraction ds) (fraction es)
  | [], [], _, _ => by simp
  | [], e :: es, _, h => by
    rw [fraction_nil, List.compare_nil_cons, eq_comm, compare_lt_iff_lt]
    exact h.fraction_pos (List.cons_ne_nil e es)
  | d :: ds, [], h, _ => by
    rw [fraction_nil, List.compare_cons_nil, eq_comm, compare_gt_iff_gt]
    exact h.fraction_pos (List.cons_ne_nil d ds)
  | d :: ds, e :: es, h, h' => by
    have hrest := compare_digits h.tail h'.tail
    -- of two first digits that differ the next place makes up less than one
    have hds := fraction_nonneg ds
    have hds' := fraction_lt_one h.tail.digits
    have hes := fraction_nonneg es
    have hes' := fraction_lt_one h'.tail.digits
    rw [List.compare_cons_cons, fraction_cons, fraction_cons]
    rcases Nat.lt_trichotomy d e with hlt | rfl | hgt
    · have hstep : (d : ℚ) + 1 ≤ e := by exact_mod_cast hlt
      have hvalue : (d + fraction ds) / 10 < (e + fraction es) / 10 := by linarith
      rw [compare_lt_iff_lt.2 hlt, compare_lt_iff_lt.2 hvalue]
      rfl
    · have hmono : StrictMono fun x : ℚ => (d + x) / 10 := fun x y hxy => by linarith
      rw [compare_eq_iff_eq.2 rfl, Ordering.eq_then, hrest]
      exact (compare_map hmono _ _).symm
    · have hstep : (e : ℚ) + 1 ≤ d := by exact_mod_cast hgt
      have hvalue : (e + fraction es) / 10 < (d + fraction ds) / 10 := by linarith
      rw [compare_gt_iff_gt.2 hgt, compare_gt_iff_gt.2 hvalue]
      rfl

section Order
variable {a b : Decimal}

theorem size_nonneg (a : Decimal) : 0 ≤ a.size := mul_nonneg (fraction_nonneg _) (by positivity)

theorem Normal.size_pos (h : a.Normal) (hne : a.digits ≠ []) : 0 < a.size :=
  mul_pos (h.significant.fraction_pos hne) (by positivity)

theorem size_of_nil (h : a.digits = []) : a.size = 0 := by simp [size, h, fraction_nil]

/-- The exponent of a normal form is where its first digit stands. -/
theorem Normal.size_bounds (h : a.Normal) (hne : a.digits ≠ []) :
    10 ^ (a.exponent - 1) ≤ a.size ∧ a.size < 10 ^ a.exponent := by
  have hten : (0 : ℚ) < 10 ^ a.exponent := by positivity
  obtain ⟨d, ds, hdigits⟩ := List.exists_cons_of_ne_nil hne
  have hfirst : d ≠ 0 := by
    rintro rfl
    exact h.first (by rw [hdigits]; rfl)
  have hlow : 1 / 10 ≤ fraction a.digits := by
    have hd : (1 : ℚ) ≤ d := by exact_mod_cast Nat.one_le_iff_ne_zero.2 hfirst
    have hrest := fraction_nonneg ds
    rw [hdigits, fraction_cons]
    linarith
  have hhigh := fraction_lt_one h.significant.digits
  constructor
  · rw [zpow_sub_one₀ (by norm_num), size]
    nlinarith
  · rw [size]
    nlinarith

/-- **The order of magnitudes is that of the absolute values.** -/
theorem compareMagnitude_eq_compare (ha : a.Normal) (hb : b.Normal) : compareMagnitude a b = compare a.size b.size := by
  unfold compareMagnitude
  split
  · next hnil hnil' => rw [size_of_nil hnil, size_of_nil hnil', compare_eq_iff_eq.2 rfl]
  · next d ds hnil hcons =>
    have hpos := hb.size_pos (by simp [hcons])
    rw [size_of_nil hnil, compare_lt_iff_lt.2 hpos]
  · next d ds hcons hnil =>
    have hpos := ha.size_pos (by simp [hcons])
    rw [size_of_nil hnil, compare_gt_iff_gt.2 hpos]
  · next d ds e es hcons hcons' =>
    have hbounds := ha.size_bounds (by simp [hcons])
    have hbounds' := hb.size_bounds (by simp [hcons'])
    rcases lt_trichotomy a.exponent b.exponent with hlt | heq | hgt
    · have hsize : a.size < b.size := by
        calc a.size < 10 ^ a.exponent := hbounds.2
          _ ≤ 10 ^ (b.exponent - 1) := zpow_le_zpow_right₀ (by norm_num) (by omega)
          _ ≤ b.size := hbounds'.1
      rw [compare_lt_iff_lt.2 hlt, compare_lt_iff_lt.2 hsize]
      rfl
    · have hmono : StrictMono fun x : ℚ => x * 10 ^ b.exponent := fun x y hxy =>
        mul_lt_mul_of_pos_right hxy (by positivity)
      rw [compare_eq_iff_eq.2 heq, Ordering.eq_then, compare_digits ha.significant hb.significant, size, size, heq]
      exact (compare_map hmono _ _).symm
    · have hsize : b.size < a.size := by
        calc b.size < 10 ^ b.exponent := hbounds'.2
          _ ≤ 10 ^ (a.exponent - 1) := zpow_le_zpow_right₀ (by norm_num) (by omega)
          _ ≤ a.size := hbounds.1
      rw [compare_gt_iff_gt.2 hgt, compare_gt_iff_gt.2 hsize]
      rfl

/-- **The order of normal forms is that of the numbers.** -/
theorem order_eq_compare (ha : a.Normal) (hb : b.Normal) : a.order b = compare a.value b.value := by
  unfold order value
  cases hsign : a.negative <;> cases hsign' : b.negative
  · exact compareMagnitude_eq_compare ha hb
  · have hneg : -b.size < a.size := by
      have hpos := hb.size_pos (hb.sign hsign')
      have hnonneg := size_nonneg a
      linarith
    exact (compare_gt_iff_gt.2 hneg).symm
  · have hneg : -a.size < b.size := by
      have hpos := ha.size_pos (ha.sign hsign)
      have hnonneg := size_nonneg b
      linarith
    exact (compare_lt_iff_lt.2 hneg).symm
  · exact (compareMagnitude_eq_compare hb ha).trans (compare_neg _ _).symm

theorem Normal.value_eq_zero_iff (h : a.Normal) : a.value = 0 ↔ a.digits = [] := by
  have hvalue : a.value = 0 ↔ a.size = 0 := by
    unfold value
    split <;> simp
  rw [hvalue]
  exact ⟨fun hzero => by_contra fun hne => (h.size_pos hne).ne' hzero, size_of_nil⟩

end Order

/-! ## Normal forms of texts -/

theorem head?_dropWhile_ne (ds : List Nat) : (ds.dropWhile (· == 0)).head? ≠ some 0 := by
  have hhead := List.head?_dropWhile_not (· == 0) ds
  intro hzero
  rw [hzero] at hhead
  cases hhead

theorem getLast?_dropTrailingZeros (ds : List Nat) : (dropTrailingZeros ds).getLast? ≠ some 0 := by
  rw [dropTrailingZeros, List.getLast?_reverse]
  exact head?_dropWhile_ne _

theorem digitValue_lt {c : Char} (h : c.isDigit = true) : Parts.digitValue c < 10 := by
  simp only [Char.isDigit, Bool.and_eq_true, decide_eq_true_eq, UInt32.le_iff_toNat_le] at h
  have hzero : '0'.toNat = 48 := rfl
  have hnine : c.toNat ≤ 57 := h.2
  rw [Parts.digitValue]
  omega

theorem digits_ofParts (p : Parts) : (ofParts p).digits = dropTrailingZeros (p.digits.dropWhile (· == 0)) := by
  unfold ofParts
  dsimp only
  split <;> simp_all [zero]

theorem negative_ofParts (p : Parts) : (ofParts p).negative = (p.negative && !(ofParts p).digits.isEmpty) := by
  unfold ofParts
  dsimp only
  split <;> simp [zero]

theorem normal_ofParts {cs : List Char} {p : Parts} (h : DecimalText cs p) : (ofParts p).Normal := by
  obtain ⟨-, hwhole, hfraction, -, -⟩ := h
  refine ⟨⟨fun d hd => ?_, ?_⟩, ?_, fun hsign hnil => ?_⟩
  · rw [digits_ofParts, dropTrailingZeros, List.mem_reverse] at hd
    have hmem := (List.dropWhile_sublist _).mem (List.mem_reverse.1 ((List.dropWhile_sublist _).mem hd))
    obtain ⟨c, hc, rfl⟩ := List.mem_map.1 hmem
    exact digitValue_lt ((List.mem_append.1 hc).elim (hwhole c) (hfraction c))
  · rw [digits_ofParts]
    exact getLast?_dropTrailingZeros _
  · rcases ofParts_spec p with ⟨hnil, -⟩ | ⟨d, ds, -, hd, hcons, -⟩
    · simp [hnil]
    · simpa [hcons] using hd
  · simp [negative_ofParts, hnil] at hsign

/-- **A normal form denotes the number that its text does.** -/
theorem value_ofParts (p : Parts) : (ofParts p).value = p.value := by
  have hten : (10 : ℚ) ≠ 0 := by norm_num
  rw [Parts.value_eq, value, size, negative_ofParts]
  rcases ofParts_spec p with ⟨hnil, hzero⟩ | ⟨d, ds, k, -, hcons, hvalue, hpoint⟩
  · simp [hnil, hzero, fraction_nil]
  · have hsize : fraction (d :: ds) * 10 ^ (ofParts p).exponent = Parts.ofDigits p.digits * 10 ^ p.scale := by
      have hexponent : (ofParts p).exponent = p.scale + k + ((d :: ds).length : Int) := by omega
      rw [fraction, hexponent, hvalue, zpow_add₀ hten, zpow_add₀ hten, zpow_natCast, zpow_natCast]
      push_cast
      field_simp
    rw [hcons, hsize]
    cases p.negative <;> simp [Parts.scale]

end Decimal

/-! ## Numerals -/

namespace Numeral

/-- The number that a numeral denotes. -/
def value (x : Numeral) : ℚ := x.parts.value

theorem value_ofInt (n : Int) : (ofInt n).value = n := by
  have hdigits : (Parts.ofDigits ([] : List Nat) : ℚ) = 0 := by simp [Parts.ofDigits]
  rw [value, parts_ofInt]
  by_cases hn : n < 0
  · simp [Parts.value, Parts.ofDigits_toDigits, hdigits, hn, Nat.cast_natAbs, abs_of_neg]
  · simp [Parts.value, Parts.ofDigits_toDigits, hdigits, hn, Nat.cast_natAbs, abs_of_nonneg (not_lt.1 hn)]

theorem value_ofInt_injective : Function.Injective fun n : Int => (ofInt n).value := fun m n h => by
  simpa [value_ofInt] using h

theorem normal_decimal (x : Numeral) : x.decimal.Normal := Decimal.normal_ofParts x.decimalText

theorem value_decimal (x : Numeral) : x.decimal.value = x.value := Decimal.value_ofParts x.parts

theorem order_eq_compare (x y : Numeral) : x.order y = compare x.value y.value := by
  rw [order, Decimal.order_eq_compare x.normal_decimal y.normal_decimal, value_decimal, value_decimal]

theorem isZero_iff (x : Numeral) : x.isZero = true ↔ x.value = 0 := by
  rw [isZero, List.isEmpty_iff, ← x.normal_decimal.value_eq_zero_iff, value_decimal]

/-- Every number can be written in another way: with one more zero in front of its digits. -/
theorem exists_other_text (x : Numeral) : ∃ y : Numeral, x ≠ y ∧ x.value = y.value := by
  have htext := x.decimalText
  have hfits := x.exponentFits
  have hvalue : x.value = x.parts.value := rfl
  generalize x.parts = p at htext hfits hvalue
  generalize hcs : x.text.toList = cs at htext
  obtain @⟨p, sign, number, power, hsign, hwhole, hfraction, hnumber, hpower⟩ := htext
  have hother : DecimalText (sign ++ '0' :: number ++ power) { p with whole := '0' :: p.whole } :=
    .mk hsign (List.forall_mem_cons.2 ⟨rfl, hwhole⟩) hfraction hnumber.zero_cons hpower
  have hparse := Parts.ofChars?_eq_some_iff.2 hother
  let y : Numeral := ⟨String.ofList (sign ++ '0' :: number ++ power), by rw [String.toList_ofList, hparse]; exact hfits⟩
  have hy : y.parts = { p with whole := '0' :: p.whole } := by
    refine y.decimalText.unique ?_
    rw [String.toList_ofList]
    exact hother
  refine ⟨y, fun heq => ?_, ?_⟩
  · have hlength := congrArg (fun n : Numeral => n.text.toList.length) heq
    simp [y, hcs] at hlength
  · rw [hvalue, Numeral.value, hy]
    rfl

end Numeral

end ItemStore
