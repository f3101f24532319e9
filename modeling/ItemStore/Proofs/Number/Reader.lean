import ItemStore.Proofs.Number.Values
/-!
# Reading normal forms off texts

A normal form can be read off a text in one pass that checks nothing (`Decimal.ofText?`): an exponent that cannot be
read counts as zero, a sum that leaves 64 bits is cut off at their ends, and of a character below the digits nothing is
made at all.  On the texts of numerals none of this happens, and the pass finds the normal form of the parts
(`Decimal.ofText?_eq_ofParts`).
-/
namespace ItemStore

/-! ## The pass -/

/-- The nearest of the integers of a type. -/
def IntType.saturate (t : IntType) (n : Int) : Int := max t.least (min n t.greatest)

theorem IntType.saturate_of_contains {t : IntType} {n : Int} (h : t.Contains n) : t.saturate n = n := by
  rw [saturate, min_eq_left h.2, max_eq_right h.1]

namespace Decimal

def isMark (c : Char) : Bool := c == 'e' || c == 'E'

/-- What a character is more than `0`. -/
def digit? (c : Char) : Option Nat := if '0'.toNat ≤ c.toNat then some (Parts.digitValue c) else none

/-- The exponent behind the mark; what is no 32-bit integer counts as zero. -/
def readPower : List Char → Int
  | [] => 0
  | _ :: text => ((IntType.signed 32).read? text).getD 0

/-- Leading zeros lower the exponent within 64 bits, trailing zeros go, and zero has one form. -/
def normalize (negative : Bool) (digits : List Nat) (exponent : Int) : Decimal :=
  let significant := digits.dropWhile (· == 0)
  let leading := digits.length - significant.length
  match dropTrailingZeros significant with
  | [] => zero
  | d :: ds => ⟨negative, d :: ds, (IntType.signed 64).saturate (exponent - leading)⟩

/-- The sign, then what stands before the mark, cut at the first point, then what stands behind it. -/
def ofText? (cs : List Char) : Option Decimal :=
  let (negative, body) := Parts.takeSign cs
  let number := body.takeWhile fun c => !isMark c
  let power := body.dropWhile fun c => !isMark c
  let whole := number.takeWhile (· != '.')
  let fraction := (number.dropWhile (· != '.')).tail
  ((whole ++ fraction).mapM digit?).map fun digits =>
    normalize negative digits ((IntType.signed 64).saturate (whole.length + readPower power))

/-! ## On the texts of numerals -/

section Digits
variable {c : Char} (h : c.isDigit = true)
include h

theorem digit?_of_isDigit : digit? c = some (Parts.digitValue c) := by
  simp only [Char.isDigit, Bool.and_eq_true, decide_eq_true_eq, UInt32.le_iff_toNat_le] at h
  exact if_pos h.1

theorem not_isMark_of_isDigit : (!isMark c) = true := by
  by_cases hc : c = 'e' ∨ c = 'E'
  · rcases hc with rfl | rfl <;> cases h
  · simpa [isMark] using hc

theorem ne_point_of_isDigit : (c != '.') = true := by
  by_cases hc : c = '.'
  · subst hc
    cases h
  · simpa using hc

end Digits

theorem mapM_digit? {cs : List Char} (h : ∀ c ∈ cs, c.isDigit = true) :
    cs.mapM digit? = some (cs.map Parts.digitValue) := by
  induction cs with
  | nil => rfl
  | cons c cs ih =>
    obtain ⟨hc, hcs⟩ := List.forall_mem_cons.1 h
    simp [digit?_of_isDigit hc, ih hcs]

theorem readPower_eq {power : List Char} {n : Int} (h : PowerText n power) (hn : (IntType.signed 32).Contains n) :
    readPower power = n := by
  cases h with
  | none => rfl
  | written _ htext =>
    simp [readPower, IntType.read?, IntType.allowsMinus, Parts.readInt?_eq_some_iff.2 htext, Option.filter_some, hn]

/-- Digits with or without a point are cut at the point. -/
theorem cut_number {whole fraction number : List Char} (hwhole : ∀ c ∈ whole, c.isDigit = true)
    (h : PointText whole fraction number) :
    number.takeWhile (· != '.') = whole ∧ (number.dropWhile (· != '.')).tail = fraction := by
  cases h with
  | without _ =>
    obtain ⟨htake, hdrop⟩ := Parts.takeRun_append (fun c hc => ne_point_of_isDigit (hwhole c hc)) [] nofun
    rw [List.append_nil] at htake hdrop
    exact ⟨htake, by rw [hdrop]; rfl⟩
  | «with» _ =>
    obtain ⟨htake, hdrop⟩ := Parts.takeRun_append (fun c hc => ne_point_of_isDigit (hwhole c hc)) ('.' :: fraction)
      (by rintro c ⟨⟩; rfl)
    exact ⟨htake, by rw [hdrop]; rfl⟩

/-- No mark stands among the digits. -/
theorem not_isMark_of_mem {whole fraction number : List Char} (hwhole : ∀ c ∈ whole, c.isDigit = true)
    (hfraction : ∀ c ∈ fraction, c.isDigit = true) (h : PointText whole fraction number) :
    ∀ c ∈ number, (!isMark c) = true := by
  intro c hc
  cases h with
  | without _ => exact not_isMark_of_isDigit (hwhole c hc)
  | «with» _ =>
    rcases List.mem_append.1 hc with hc | hc
    · exact not_isMark_of_isDigit (hwhole c hc)
    · rcases List.mem_cons.1 hc with rfl | hc
      · rfl
      · exact not_isMark_of_isDigit (hfraction c hc)

theorem isMark_of_head? {power : List Char} {n : Int} (h : PowerText n power) :
    ∀ c ∈ power.head?, (!isMark c) = false := by
  cases h with
  | none => exact nofun
  | written hmark _ =>
    rintro c ⟨⟩
    rcases hmark with rfl | rfl <;> rfl

/-- In texts of fewer than about 2^63 characters, more than any memory holds, the sums stay within 64 bits. -/
theorem normalize_eq_ofParts (p : Parts) (hexponent : (IntType.signed 32).Contains p.exponent)
    (hlength : p.digits.length + 2 ^ 31 ≤ 2 ^ 63) :
    normalize p.negative p.digits ((IntType.signed 64).saturate (p.whole.length + p.exponent)) = ofParts p := by
  have hdigits : p.digits.length = p.whole.length + p.fraction.length := by simp [Parts.digits]
  have hleading := List.length_dropWhile_le (· == 0) p.digits
  simp only [IntType.Contains, IntType.least, IntType.greatest, twoPow_eq] at hexponent
  have hsum : (IntType.signed 64).Contains (p.whole.length + p.exponent) := by
    simp only [IntType.Contains, IntType.least, IntType.greatest, twoPow_eq]
    omega
  have hdifference : (IntType.signed 64).Contains
      (p.whole.length + p.exponent - (p.digits.length - (p.digits.dropWhile (· == 0)).length : Nat)) := by
    simp only [IntType.Contains, IntType.least, IntType.greatest, twoPow_eq]
    omega
  simp only [normalize, ofParts, IntType.saturate_of_contains hsum]
  cases dropTrailingZeros (p.digits.dropWhile (· == 0)) with
  | nil => rfl
  | cons d ds => exact congrArg (Decimal.mk p.negative (d :: ds)) (IntType.saturate_of_contains hdifference)

theorem length_digits_le {cs : List Char} {p : Parts} (h : DecimalText cs p) : p.digits.length ≤ cs.length := by
  obtain @⟨⟨_, whole, fraction, _⟩, _, number, _, _, _, _, hnumber, _⟩ := h
  cases hnumber <;> simp [Parts.digits] <;> omega

/-- **On a text of the grammar the pass finds the normal form.** -/
theorem ofText?_eq_ofParts {cs : List Char} {p : Parts} (h : DecimalText cs p)
    (hexponent : (IntType.signed 32).Contains p.exponent) (hlength : cs.length + 2 ^ 31 ≤ 2 ^ 63) :
    ofText? cs = some (ofParts p) := by
  have hdigits := length_digits_le h
  obtain @⟨_, sign, number, power, hsign, hwhole, hfraction, hnumber, hpower⟩ := h
  have htake : Parts.takeSign (sign ++ number ++ power) = (p.negative, number ++ power) := by
    rw [List.append_assoc]
    exact Parts.takeSign_append hsign (Parts.head?_number hwhole hnumber power)
  obtain ⟨hbefore, hbehind⟩ :=
    Parts.takeRun_append (not_isMark_of_mem hwhole hfraction hnumber) power (isMark_of_head? hpower)
  obtain ⟨hcut, hcut'⟩ := cut_number hwhole hnumber
  have hread : (p.whole ++ p.fraction).mapM digit? = some p.digits :=
    mapM_digit? fun c hc => (List.mem_append.1 hc).elim (hwhole c) (hfraction c)
  simp only [ofText?, htake, hbefore, hbehind, hcut, hcut', hread, readPower_eq hpower hexponent, Option.map_some]
  rw [normalize_eq_ofParts p hexponent (by omega)]

end Decimal

/-- **Numerals are the texts of the grammar, and they are ordered by the numbers they denote.**  A text is accepted
exactly when it is a decimal text whose exponent is a 32-bit integer, it is kept as it is, and it has one reading; two
numerals are in the order of their values, level exactly when these are equal, and zero exactly when the value is; and
the pass that checks nothing finds the normal form that the order goes by, in every text that a memory can hold. -/
theorem numerals_are_ordered_by_value :
    (∀ text : String, (∃ x, Numeral.parse text = .ok x) ↔
      ∃ p, DecimalText text.toList p ∧ (IntType.signed 32).Contains p.exponent) ∧
    (∀ (text : String) (x : Numeral), Numeral.parse text = .ok x ↔ x.text = text) ∧
    (∀ (x : Numeral) (p : Parts), DecimalText x.text.toList p ↔ p = x.parts) ∧
    (∀ x y : Numeral, x.order y = compare x.parts.value y.parts.value) ∧
    (∀ x y : Numeral, x.order y = .eq ↔ x.parts.value = y.parts.value) ∧
    (∀ x : Numeral, x.isZero = true ↔ x.parts.value = 0) ∧
    (∀ x : Numeral, x.text.toList.length + 2 ^ 31 ≤ 2 ^ 63 → Decimal.ofText? x.text.toList = some x.decimal) := by
  refine ⟨fun _ => Numeral.exists_parse_iff, fun _ _ => Numeral.parse_eq_ok_iff,
    fun x p => ⟨fun hp => hp.unique x.decimalText, ?_⟩, Numeral.order_eq_compare, fun x y => ?_, Numeral.isZero_iff,
    fun x hlength => ?_⟩
  · rintro rfl
    exact x.decimalText
  · rw [Numeral.order_eq_compare, compare_eq_iff_eq]
    rfl
  · obtain ⟨p, hp, hexponent⟩ := Numeral.exists_parse_iff.1 ⟨x, Numeral.parse_eq_ok_iff.2 rfl⟩
    obtain rfl := hp.unique x.decimalText
    exact Decimal.ofText?_eq_ofParts hp hexponent hlength

/-- Two texts of minus five. -/
theorem numerals_are_ordered_by_value_of_minus_five :
    ∃ x y : Numeral, Numeral.parse "-0.50e1" = .ok x ∧ Numeral.parse "-005." = .ok y ∧ x.order y = .eq ∧
      Decimal.ofText? "-0.50e1".toList = some ⟨true, [5], 1⟩ := by
  let x : Numeral := ⟨"-0.50e1", by decide⟩
  let y : Numeral := ⟨"-005.", by decide⟩
  obtain ⟨-, hparse, hreading, -, hlevel, -, hpass⟩ := numerals_are_ordered_by_value
  have hx : x.parts = ⟨true, ['0'], ['5', '0'], 1⟩ :=
    ((hreading x _).1 (Parts.ofChars?_eq_some_iff.1 (by decide))).symm
  have hy : y.parts = ⟨true, ['0', '0', '5'], [], 0⟩ :=
    ((hreading y _).1 (Parts.ofChars?_eq_some_iff.1 (by decide))).symm
  have hzero : Parts.digitValue '0' = 0 := rfl
  have hfive : Parts.digitValue '5' = 5 := rfl
  refine ⟨x, y, (hparse _ x).2 rfl, (hparse _ y).2 rfl, (hlevel x y).2 ?_, (hpass x (by decide)).trans ?_⟩
  · rw [hx, hy]
    norm_num [Parts.value, Parts.ofDigits, hzero, hfive]
  · rw [Numeral.decimal, hx]
    rfl

end ItemStore
