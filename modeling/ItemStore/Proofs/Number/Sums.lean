import Mathlib.Tactic.Ring
import ItemStore.Expression.Combination
import ItemStore.Proofs.Number.Texts
import ItemStore.Proofs.Outcome
/-!
# Sums of whole numbers

Two whole numbers in plain notation whose sum fits 128 bits are added exactly.  All others, `1.0` and `1e3` among them,
are added as binary fractions.  That can fail only by leaving the range of those, and no numbers of about 128 bits do
(`Binary64.Below`), so that a sum of whole numbers is a number again however they are written (`Numeral.exists_sum`).
-/
namespace ItemStore

theorem twoPow_eq (n : Nat) : twoPow n = 2 ^ n := rfl

theorem tenPow_eq (n : Nat) : tenPow n = 10 ^ n := rfl

/-! ## Digits -/

namespace Parts

theorem foldl_digits : ∀ (ds : List Nat) (n : Nat),
    ds.foldl (fun n d => 10 * n + d) n = n * 10 ^ ds.length + ofDigits ds
  | [], n => by rw [List.foldl_nil, List.length_nil, Nat.pow_zero, Nat.mul_one]; rfl
  | d :: ds, n => by
    rw [ofDigits, List.foldl_cons, List.foldl_cons, foldl_digits ds, foldl_digits ds (10 * 0 + d), List.length_cons]
    ring

theorem ofDigits_append (xs ys : List Nat) : ofDigits (xs ++ ys) = ofDigits xs * 10 ^ ys.length + ofDigits ys := by
  rw [ofDigits, List.foldl_append, foldl_digits, ← ofDigits]

theorem ofDigits_zeros : ∀ k : Nat, ofDigits (List.replicate k 0) = 0
  | 0 => rfl
  | k + 1 => by
    rw [List.replicate_succ, ofDigits, List.foldl_cons]
    exact ofDigits_zeros k

/-- A number is at least the power of ten of its first digit's place. -/
theorem tenPow_le_ofDigits {d : Nat} (hd : d ≠ 0) (ds : List Nat) : 10 ^ ds.length ≤ ofDigits (d :: ds) := by
  rw [ofDigits, List.foldl_cons, foldl_digits]
  refine le_trans (Nat.le_mul_of_pos_left _ ?_) (Nat.le_add_right _ _)
  omega

end Parts

/-! ## Normal forms -/

namespace Decimal

/-- What is dropped from the front are zeros. -/
theorem eq_zeros_append (ds : List Nat) : ∃ k, ds = List.replicate k 0 ++ ds.dropWhile (· == 0) := by
  refine ⟨(ds.takeWhile (· == 0)).length, ?_⟩
  have hzeros : ds.takeWhile (· == 0) = List.replicate (ds.takeWhile (· == 0)).length 0 :=
    List.eq_replicate_iff.2 ⟨rfl, fun d hd => by simpa using List.mem_takeWhile_imp hd⟩
  rw [← hzeros, List.takeWhile_append_dropWhile]

/-- What is dropped from the end are zeros. -/
theorem eq_append_zeros (ds : List Nat) : ∃ k, ds = dropTrailingZeros ds ++ List.replicate k 0 := by
  obtain ⟨k, hk⟩ := eq_zeros_append ds.reverse
  refine ⟨k, ?_⟩
  rw [dropTrailingZeros, ← List.reverse_replicate, ← List.reverse_append, ← hk, List.reverse_reverse]

/-- The normal form of parts has their digits without some zeros on both sides, and the point in the same place. -/
theorem ofParts_spec (p : Parts) :
    ((ofParts p).digits = [] ∧ Parts.ofDigits p.digits = 0) ∨
      ∃ d ds, ∃ k : Nat, d ≠ 0 ∧ (ofParts p).digits = d :: ds ∧
        Parts.ofDigits p.digits = Parts.ofDigits (d :: ds) * 10 ^ k ∧
        (ofParts p).exponent - (d :: ds).length = p.scale + k := by
  obtain ⟨j, hj⟩ := eq_zeros_append p.digits
  obtain ⟨k, hk⟩ := eq_append_zeros (p.digits.dropWhile (· == 0))
  have hvalue : Parts.ofDigits p.digits =
      Parts.ofDigits (dropTrailingZeros (p.digits.dropWhile (· == 0))) * 10 ^ k := by
    conv_lhs => rw [hj, hk]
    rw [Parts.ofDigits_append, Parts.ofDigits_zeros, Nat.zero_mul, Nat.zero_add, Parts.ofDigits_append,
      Parts.ofDigits_zeros, List.length_replicate, Nat.add_zero]
  have hlength : p.digits.length = p.whole.length + p.fraction.length := by
    rw [Parts.digits, List.length_map, List.length_append]
  unfold ofParts
  dsimp only
  cases hcore : dropTrailingZeros (p.digits.dropWhile (· == 0)) with
  | nil => exact .inl ⟨rfl, by rw [hvalue, hcore]; exact Nat.zero_mul _⟩
  | cons d ds =>
    have hd : d ≠ 0 := by
      have hhead := List.head?_dropWhile_not (· == 0) p.digits
      rw [hk, hcore] at hhead
      simpa using hhead
    refine .inr ⟨d, ds, k, hd, rfl, by rw [hvalue, hcore], ?_⟩
    have hsignificant : (p.digits.dropWhile (· == 0)).length = (d :: ds).length + k := by
      rw [hk, hcore, List.length_append, List.length_replicate]
    have hleading := congrArg List.length hj
    rw [List.length_append, List.length_replicate, hsignificant] at hleading
    show p.whole.length + p.exponent - ((p.digits.length - (p.digits.dropWhile (· == 0)).length : Nat) : Int) -
      ((d :: ds).length : Int) = p.exponent - p.fraction.length + k
    rw [hsignificant]
    omega

end Decimal

/-! ## Binary fractions that are not too great -/

namespace Binary64

/-- Finite, with a significand of about 54 bits, and so less than `2 ^ (k + 55)`. -/
inductive Below (k : Nat) : Binary64 → Prop
  | finite {negative : Bool} {m : Nat} {q : Int} : m ≤ 2 ^ 54 → q ≤ k → Below k (finite negative m q)

theorem below_zero (k : Nat) (negative : Bool) : (zero negative).Below k :=
  .finite (Nat.zero_le _) (by omega)

theorem divNearest_le {n d b : Nat} (h : n < b * d) : divNearest n d ≤ b := by
  have hdiv : n / d < b := Nat.div_lt_of_lt_mul (Nat.mul_comm b d ▸ h)
  unfold divNearest
  dsimp only
  split <;> omega

theorem binaryExponent_bounds (n d : Nat) :
    (n.log2 : Int) - d.log2 - 1 ≤ binaryExponent n d ∧ binaryExponent n d ≤ n.log2 - d.log2 := by
  unfold binaryExponent
  dsimp only
  split <;> omega

theorem log2_le_of_lt {n d a : Nat} (hn : n ≠ 0) (h : n < 2 ^ a * d) : n.log2 ≤ a + d.log2 := by
  have hd' : d < 2 ^ (d.log2 + 1) := Nat.lt_log2_self
  have hlt : n < 2 ^ (a + d.log2 + 1) := by
    calc n < 2 ^ a * d := h
      _ ≤ 2 ^ a * 2 ^ (d.log2 + 1) := Nat.mul_le_mul_left _ hd'.le
      _ = 2 ^ (a + d.log2 + 1) := by rw [← Nat.pow_add, Nat.add_assoc]
  exact Nat.le_of_lt_succ ((Nat.log2_lt hn).2 hlt)

/-- Of a quotient, the step `2 ^ q` that rounding takes leaves 54 bits at most. -/
theorem significand_le {n d : Nat} (hd : 0 < d) {q : Int} (hq : (n.log2 : Int) - d.log2 - 53 ≤ q) :
    (if q ≥ 0 then divNearest n (d * twoPow q.toNat) else divNearest (n * twoPow (-q).toNat) d) ≤ 2 ^ 54 := by
  have hn : n < 2 ^ (n.log2 + 1) := Nat.lt_log2_self
  have hd' : 2 ^ d.log2 ≤ d := Nat.log2_self_le hd.ne'
  split
  · refine divNearest_le (lt_of_lt_of_le hn ?_)
    rw [twoPow_eq]
    calc 2 ^ (n.log2 + 1) ≤ 2 ^ (54 + (d.log2 + q.toNat)) := Nat.pow_le_pow_right (by decide) (by omega)
      _ = 2 ^ 54 * (2 ^ d.log2 * 2 ^ q.toNat) := by rw [Nat.pow_add, Nat.pow_add]
      _ ≤ 2 ^ 54 * (d * 2 ^ q.toNat) := Nat.mul_le_mul_left _ (Nat.mul_le_mul_right _ hd')
  · refine divNearest_le ?_
    rw [twoPow_eq]
    calc n * 2 ^ (-q).toNat < 2 ^ (n.log2 + 1) * 2 ^ (-q).toNat := Nat.mul_lt_mul_of_pos_right hn (Nat.two_pow_pos _)
      _ = 2 ^ (n.log2 + 1 + (-q).toNat) := (Nat.pow_add ..).symm
      _ ≤ 2 ^ (54 + d.log2) := Nat.pow_le_pow_right (by decide) (by omega)
      _ = 2 ^ 54 * 2 ^ d.log2 := Nat.pow_add ..
      _ ≤ 2 ^ 54 * d := Nat.mul_le_mul_left _ hd'

/-- **A quotient below `2 ^ k` is rounded to a finite number.** -/
theorem below_round {n d k : Nat} (negative : Bool) (hd : 0 < d) (h : n < 2 ^ k * d) (hk : k ≤ 1000) :
    (round negative n d).Below k := by
  unfold round
  split
  · exact below_zero k negative
  · next hn =>
    have hlog := log2_le_of_lt hn h
    obtain ⟨hlow, hhigh⟩ := binaryExponent_bounds n d
    generalize hq : max (binaryExponent n d - 52) (-1074) = q
    have hm := significand_le (n := n) (q := q) hd (by omega)
    have hbound : q + 1 ≤ k ∧ q + 1 ≤ 971 := by omega
    dsimp only
    generalize (if q ≥ 0 then divNearest n (d * twoPow q.toNat) else divNearest (n * twoPow (-q).toNat) d) = m at hm
    split
    · -- the carry into one more bit halves the significand
      rw [if_neg (show ¬q + 1 > 971 by omega)]
      exact .finite (Nat.pow_le_pow_right (by decide) (by decide)) hbound.1
    · rw [if_neg (show ¬q > 971 by omega)]
      exact .finite hm (show q ≤ k by omega)

theorem natAbs_multiple (negative : Bool) (m : Nat) (q base : Int) :
    (multiple negative m q base).natAbs = m * 2 ^ (q - base).toNat := by
  have habs : ((m : Int) * twoPow (q - base).toNat).natAbs = m * 2 ^ (q - base).toNat := by
    rw [Int.natAbs_mul, Int.natAbs_natCast, Int.natAbs_natCast, twoPow_eq]
  unfold multiple
  dsimp only
  split
  · rw [Int.natAbs_neg, habs]
  · exact habs

/-- Sums of numbers that are not too great are finite. -/
theorem Below.add {x y : Binary64} {k : Nat} (hx : x.Below k) (hy : y.Below k) (hk : k ≤ 900) :
    (x.add y).Below (k + 56) := by
  obtain @⟨s, m, q, hm, hq⟩ := hx
  obtain @⟨t, n, r, hn, hr⟩ := hy
  unfold Binary64.add
  dsimp only
  split
  · exact below_zero _ _
  · generalize hbase : min q r = base
    have hterm : ∀ {c : Nat} {p : Int}, c ≤ 2 ^ 54 → p ≤ k →
        c * 2 ^ (p - base).toNat ≤ 2 ^ (54 + (k - base).toNat) := by
      intro c p hc hp
      rw [Nat.pow_add]
      exact Nat.mul_le_mul hc (Nat.pow_le_pow_right (by decide) (by omega))
    have hsum : (multiple s m q base + multiple t n r base).natAbs < 2 ^ (56 + (k - base).toNat) := by
      have habs := Int.natAbs_add_le (multiple s m q base) (multiple t n r base)
      rw [natAbs_multiple, natAbs_multiple] at habs
      have hm' := hterm hm hq
      have hn' := hterm hn hr
      have hpow : 2 ^ (56 + (k - base).toNat) = 4 * 2 ^ (54 + (k - base).toNat) := by
        rw [show 56 + (k - base).toNat = 2 + (54 + (k - base).toNat) by omega, Nat.pow_add 2 2]
      have hpos : 0 < 2 ^ (54 + (k - base).toNat) := Nat.two_pow_pos _
      omega
    unfold roundScaled
    split
    · refine below_round _ Nat.one_pos ?_ (by omega)
      rw [Nat.mul_one, twoPow_eq]
      calc _ < 2 ^ (56 + (k - base).toNat) * 2 ^ base.toNat := Nat.mul_lt_mul_of_pos_right hsum (Nat.two_pow_pos _)
        _ = 2 ^ (k + 56) := by rw [← Nat.pow_add]; congr 1; omega
    · refine below_round _ (twoPow_pos _) (lt_of_lt_of_le hsum ?_) (by omega)
      rw [twoPow_eq, ← Nat.pow_add]
      exact Nat.pow_le_pow_right (by decide) (by omega)

theorem Below.neg {x : Binary64} {k : Nat} (hx : x.Below k) : x.neg.Below k := by
  obtain ⟨hm, hq⟩ := hx
  exact .finite hm hq

/-! ## Their texts -/

/-- Digits, at least one of them before a point. -/
def Plain (cs : List Char) : Prop :=
  ∃ whole fraction, whole ≠ [] ∧ (∀ c ∈ whole, c.isDigit = true) ∧ (∀ c ∈ fraction, c.isDigit = true) ∧
    (cs = whole ∨ cs = whole ++ '.' :: fraction)

theorem isDigit_of_mem_zeros {k : Nat} {c : Char} (h : c ∈ List.replicate k '0') : c.isDigit = true :=
  List.eq_of_mem_replicate h ▸ rfl

theorem plain_positional {ds : List Char} (h : ∀ c ∈ ds, c.isDigit = true) (k : Int) : Plain (positional ds k) := by
  unfold positional
  split
  · refine ⟨['0'], _, List.cons_ne_nil _ _, List.forall_mem_singleton.2 rfl, fun c hc => ?_, .inr rfl⟩
    rcases List.mem_append.1 hc with hzero | hc
    · exact isDigit_of_mem_zeros hzero
    · exact h c hc
  · split
    · next hk hlength =>
      refine ⟨_, [], fun hnil => ?_, fun c hc => ?_, nofun, .inl rfl⟩
      · have hlength := congrArg List.length hnil
        rw [List.length_append, List.length_replicate, List.length_nil] at hlength
        omega
      · rcases List.mem_append.1 hc with hc | hzero
        · exact h c hc
        · exact isDigit_of_mem_zeros hzero
    · next hk hlength =>
      refine ⟨ds.take k.toNat, ds.drop k.toNat, fun hnil => ?_, fun c hc => h c (List.mem_of_mem_take hc),
        fun c hc => h c (List.mem_of_mem_drop hc), .inr rfl⟩
      rcases List.take_eq_nil_iff.1 hnil with hzero | rfl
      · omega
      · rw [List.length_nil] at hlength
        omega

theorem isDigit_of_mem_shortest {m : Nat} {q : Int} {c : Char} (h : c ∈ (shortest m q).1) : c.isDigit = true := by
  have hdigit := (List.dropWhile_sublist _).mem (List.mem_reverse.1 h)
  exact isDigit_toDigits _ c (List.mem_reverse.1 hdigit)

/-- Such digits are a decimal text, with a sign or without one. -/
theorem Plain.exists_decimalText {cs : List Char} (h : Plain cs) (negative : Bool) :
    ∃ p, DecimalText (if negative then '-' :: cs else cs) p ∧ p.exponent = 0 := by
  obtain ⟨whole, fraction, hne, hwhole, hfraction, hcs⟩ := h
  obtain ⟨fraction', hfraction', hnumber⟩ :
      ∃ fraction', (∀ c ∈ fraction', c.isDigit = true) ∧ PointText whole fraction' cs := by
    rcases hcs with rfl | rfl
    · exact ⟨[], nofun, .without hne⟩
    · exact ⟨fraction, hfraction, .with (.inl hne)⟩
  have htext {sign : List Char} (hsign : SignText negative sign) :
      DecimalText (sign ++ cs ++ []) ⟨negative, whole, fraction', 0⟩ := .mk hsign hwhole hfraction' hnumber .none
  refine ⟨⟨negative, whole, fraction', 0⟩, ?_, rfl⟩
  cases negative with
  | false => simpa using htext .none
  | true => simpa using htext .minus

end Binary64

namespace Numeral

/-- **What is finite is written as a number.** -/
theorem exists_parse_render {x : Binary64} {k : Nat} (h : x.Below k) : ∃ y, parse x.render = .ok y := by
  obtain @⟨s, m, q, -, -⟩ := h
  have hplain : Binary64.Plain
      (if m = 0 then ['0'] else Binary64.positional (Binary64.shortest m q).1 (Binary64.shortest m q).2) := by
    split
    · exact ⟨['0'], [], List.cons_ne_nil _ _, List.forall_mem_singleton.2 rfl, nofun, .inl rfl⟩
    · exact Binary64.plain_positional (fun c hc => Binary64.isDigit_of_mem_shortest hc) _
  obtain ⟨p, hp, hexponent⟩ := hplain.exists_decimalText s
  refine exists_parse_iff.2 ⟨p, ?_, ?_⟩
  · rw [Binary64.render, String.toList_ofList]
    exact hp
  · rw [hexponent]
    decide

/-! ## Whole numbers -/

/-- The number that a numeral denotes is this integer, in whatever notation. -/
def Denotes (x : Numeral) (n : Int) : Prop :=
  x.parts.significand * tenPow x.parts.scale.toNat = n * tenPow (-x.parts.scale).toNat

/-- An integer's own notation denotes it. -/
theorem denotes_ofInt (n : Int) : (ofInt n).Denotes n := by
  have hsignificand : (ofInt n).parts.significand = n := by
    rw [parts_ofInt]
    simp only [Parts.significand, Parts.digits, List.append_nil, Parts.ofDigits_toDigits, decide_eq_true_eq]
    split <;> omega
  have hscale : (ofInt n).parts.scale = 0 := by
    rw [parts_ofInt]
    rfl
  rw [Denotes, hsignificand, hscale]
  rfl

theorem natAbs_significand (p : Parts) : p.significand.natAbs = Parts.ofDigits p.digits := by
  unfold Parts.significand
  split
  · rw [Int.natAbs_neg, Int.natAbs_natCast]
  · exact Int.natAbs_natCast _

/-- A number without `k` zeros at its end has its point `k` places further on. -/
theorem shift_point {core k size : Nat} {scale e : Int} (he : e = scale + k)
    (h : core * 10 ^ k * 10 ^ scale.toNat = size * 10 ^ (-scale).toNat) :
    core * 10 ^ e.toNat = size * 10 ^ (-e).toNat := by
  have hpos : 0 < 10 ^ (-scale - (-e).toNat).toNat := Nat.pow_pos (by decide)
  have hleft : e.toNat + (-scale - (-e).toNat).toNat = k + scale.toNat := by omega
  have hright : (-e).toNat + (-scale - (-e).toNat).toNat = (-scale).toNat := by omega
  refine Nat.eq_of_mul_eq_mul_right hpos ?_
  rw [Nat.mul_assoc, ← Nat.pow_add, Nat.mul_assoc, ← Nat.pow_add, hleft, hright, Nat.pow_add, ← Nat.mul_assoc, h]

/-- A number of 128 bits has no more places before its point. -/
theorem places_lt {core places size : Nat} {e : Int} (h : core * 10 ^ e.toNat = size * 10 ^ (-e).toNat)
    (hsize : size < 2 ^ 128) (hcore : 10 ^ places ≤ core) : places + e < 128 := by
  have hpow : 10 ^ (places + e.toNat) < 10 ^ (128 + (-e).toNat) := by
    calc 10 ^ (places + e.toNat) = 10 ^ places * 10 ^ e.toNat := Nat.pow_add ..
      _ ≤ core * 10 ^ e.toNat := Nat.mul_le_mul_right _ hcore
      _ = size * 10 ^ (-e).toNat := h
      _ < 2 ^ 128 * 10 ^ (-e).toNat := Nat.mul_lt_mul_of_pos_right hsize (Nat.pow_pos (by decide))
      _ ≤ 10 ^ 128 * 10 ^ (-e).toNat := Nat.mul_le_mul_right _ (Nat.pow_le_pow_left (by decide) 128)
      _ = 10 ^ (128 + (-e).toNat) := (Nat.pow_add ..).symm
  have hplaces := (Nat.pow_lt_pow_iff_right (by decide)).1 hpow
  omega

/-- A whole number of 128 bits is near a binary fraction. -/
theorem below_toBinary64 {x : Numeral} {n : Int} (h : x.Denotes n) (hn : n.natAbs < 2 ^ 128) :
    x.toBinary64.Below 128 := by
  have habs := congrArg Int.natAbs h
  rw [Int.natAbs_mul, Int.natAbs_mul, natAbs_significand, Int.natAbs_natCast, Int.natAbs_natCast, tenPow_eq,
    tenPow_eq] at habs
  unfold toBinary64 Binary64.ofParts
  dsimp only
  rcases Decimal.ofParts_spec x.parts with ⟨hdigits, -⟩ | ⟨d, ds, k, hd, hdigits, hvalue, hpoint⟩
  · rw [hdigits]
    exact Binary64.below_zero _ _
  · rw [hdigits]
    have hfirst := Parts.tenPow_le_ofDigits hd ds
    rw [hvalue] at habs
    generalize Parts.ofDigits (d :: ds) = core at habs hfirst
    generalize (Decimal.ofParts x.parts).exponent = exponent at hpoint
    generalize hplaces : exponent - ((d :: ds).length : Int) = e at hpoint
    have hshift := shift_point hpoint habs
    have hfew := places_lt hshift hn hfirst
    rw [List.length_cons] at hplaces
    split
    · exact Binary64.below_zero _ _
    · rw [if_neg (show ¬exponent > 400 by omega)]
      split
      · exact Binary64.below_zero _ _
      · split
        · next he =>
          refine Binary64.below_round _ Nat.one_pos ?_ (by decide)
          rw [show (-e).toNat = 0 by omega, Nat.pow_zero, Nat.mul_one] at hshift
          rw [tenPow_eq, hshift, Nat.mul_one]
          exact hn
        · next he =>
          refine Binary64.below_round _ (tenPow_pos _) ?_ (by decide)
          rw [show e.toNat = 0 by omega, Nat.pow_zero, Nat.mul_one] at hshift
          rw [tenPow_eq, hshift]
          exact Nat.mul_lt_mul_of_pos_right hn (Nat.pow_pos (by decide))

/-- Two whole numbers whose sum and difference fit 128 bits. -/
def SumsFit (x y : Numeral) : Prop :=
  ∃ m n, x.Denotes m ∧ y.Denotes n ∧ (IntType.signed 128).Contains (m + n) ∧ (IntType.signed 128).Contains (m - n)

/-- **Whole numbers whose sum and difference fit 128 bits have a sum and a difference.** -/
theorem exists_sum {x y : Numeral} (h : x.SumsFit y) (subtract : Bool) : ∃ z, x.sum y subtract = .ok z := by
  obtain ⟨m, n, hx, hy, hsum, hdifference⟩ := h
  have hbits : twoPow (128 - 1) = 2 ^ 127 := rfl
  simp only [IntType.Contains, IntType.least, IntType.greatest, hbits] at hsum hdifference
  have hxb := below_toBinary64 hx (by omega)
  have hyb := below_toBinary64 hy (by omega)
  unfold sum
  split
  · exact ⟨_, rfl⟩
  · have hfinite : (x.toBinary64.add (if subtract then y.toBinary64.neg else y.toBinary64)).Below (128 + 56) := by
      refine hxb.add ?_ (by decide)
      split
      · exact hyb.neg
      · exact hyb
    obtain ⟨z, hz⟩ := exists_parse_render hfinite
    exact ⟨z, Outcome.mapError_eq_ok.2 hz⟩

end Numeral
end ItemStore
