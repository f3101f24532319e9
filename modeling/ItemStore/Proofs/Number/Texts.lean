import Mathlib.Data.List.TakeWhile
import ItemStore.Proofs.Number.Digits
/-!
# The grammar of decimal texts

A decimal text is an optional sign, digits with an optional point among them, and an optional power of ten
(`DecimalText`).  The reader accepts these texts and no others, and finds their parts (`Parts.ofChars?_eq_some_iff`), so
that a text has one reading at most; and a numeral is such a text, kept as it is, whose exponent is a 32-bit integer
(`Numeral.exists_parse_iff`).
-/
namespace ItemStore

/-! ## The grammar -/

inductive SignText : Bool → List Char → Prop
  | none : SignText false []
  | plus : SignText false ['+']
  | minus : SignText true ['-']

/-- Digits before the point, digits behind it, and how they are written: at least one digit, and no digit behind a point
that is not there. -/
inductive PointText (whole : List Char) : List Char → List Char → Prop
  | without : whole ≠ [] → PointText whole [] whole
  | with {fraction : List Char} : whole ≠ [] ∨ fraction ≠ [] → PointText whole fraction (whole ++ '.' :: fraction)

/-- An integer with an optional sign. -/
inductive IntegerText : Int → List Char → Prop
  | mk {negative : Bool} {sign digits : List Char} : SignText negative sign → digits ≠ [] →
      (∀ c ∈ digits, c.isDigit = true) →
      IntegerText (if negative then -(Parts.ofDigits (digits.map Parts.digitValue) : Int)
        else Parts.ofDigits (digits.map Parts.digitValue)) (sign ++ digits)

/-- The power of ten behind the digits; none is the power zero. -/
inductive PowerText : Int → List Char → Prop
  | none : PowerText 0 []
  | written {exponent : Int} {mark : Char} {text : List Char} : mark = 'e' ∨ mark = 'E' → IntegerText exponent text →
      PowerText exponent (mark :: text)

/-- A decimal text with its parts. -/
inductive DecimalText : List Char → Parts → Prop
  | mk {p : Parts} {sign number power : List Char} : SignText p.negative sign → (∀ c ∈ p.whole, c.isDigit = true) →
      (∀ c ∈ p.fraction, c.isDigit = true) → PointText p.whole p.fraction number → PowerText p.exponent power →
      DecimalText (sign ++ number ++ power) p

theorem PointText.zero_cons {whole fraction number : List Char} (h : PointText whole fraction number) :
    PointText ('0' :: whole) fraction ('0' :: number) := by
  cases h with
  | without => exact .without (List.cons_ne_nil _ _)
  | «with» => exact .with (.inl (List.cons_ne_nil _ _))

/-! ## Reading -/

namespace Parts

theorem exists_sign (cs : List Char) :
    ∃ negative sign body, takeSign cs = (negative, body) ∧ SignText negative sign ∧ cs = sign ++ body := by
  unfold takeSign
  split
  · exact ⟨_, _, _, rfl, .minus, rfl⟩
  · exact ⟨_, _, _, rfl, .plus, rfl⟩
  · exact ⟨_, _, _, rfl, .none, rfl⟩

/-- A sign is taken off what begins with none. -/
theorem takeSign_append {negative : Bool} {sign rest : List Char} (h : SignText negative sign)
    (hrest : ∀ c ∈ rest.head?, c ≠ '-' ∧ c ≠ '+') : takeSign (sign ++ rest) = (negative, rest) := by
  cases h with
  | none =>
    rw [List.nil_append]
    unfold takeSign
    split
    · exact absurd rfl (hrest '-' rfl).1
    · exact absurd rfl (hrest '+' rfl).2
    · rfl
  | plus => rfl
  | minus => rfl

theorem not_sign_of_isDigit {c : Char} (h : c.isDigit = true) : c ≠ '-' ∧ c ≠ '+' :=
  ⟨fun hc => by simp [hc] at h, fun hc => by simp [hc] at h⟩

theorem readInt?_of_takeSign {cs digits : List Char} {negative : Bool} (h : takeSign cs = (negative, digits)) :
    readInt? cs = (readNat? digits).map fun m : Nat => if negative then -(m : Int) else m := by
  simp only [readInt?, h]
  cases readNat? digits <;> rfl

theorem readInt?_eq_some_iff {cs : List Char} {n : Int} : readInt? cs = some n ↔ IntegerText n cs := by
  constructor
  · intro h
    obtain ⟨negative, sign, digits, htake, hsign, rfl⟩ := exists_sign cs
    rw [readInt?_of_takeSign htake] at h
    obtain ⟨_, hread, rfl⟩ := Option.map_eq_some_iff.1 h
    obtain ⟨⟨hne, hall⟩, heq⟩ := Option.ite_none_right_eq_some.1 hread
    cases heq
    exact .mk hsign hne (List.all_eq_true.1 hall)
  · rintro ⟨hsign, hne, hdigits⟩
    rw [readInt?_of_takeSign (takeSign_append hsign fun c hc =>
      not_sign_of_isDigit (hdigits c (List.mem_of_mem_head? hc))), readNat?, if_pos ⟨hne, List.all_eq_true.2 hdigits⟩]
    rfl

theorem readExponent?_eq_some_iff {cs : List Char} {n : Int} : readExponent? cs = some n ↔ PowerText n cs := by
  constructor
  · intro h
    unfold readExponent? at h
    split at h
    · cases h
      exact .none
    · obtain ⟨hmark, h⟩ := Option.ite_none_right_eq_some.1 h
      exact .written hmark (readInt?_eq_some_iff.1 h)
  · intro h
    cases h with
    | none => rfl
    | written hmark htext => rw [readExponent?, if_pos hmark, readInt?_eq_some_iff.2 htext]

/-- What follows the digits is neither a digit nor a point. -/
theorem head?_power {power : List Char} {n : Int} (h : PowerText n power) :
    ∀ c ∈ power.head?, c.isDigit = false ∧ c ≠ '.' := by
  cases h with
  | none => exact nofun
  | written hmark _ =>
    rintro c ⟨⟩
    rcases hmark with rfl | rfl <;> decide

/-- A number begins with a digit or a point. -/
theorem head?_number {whole fraction number : List Char} (hwhole : ∀ c ∈ whole, c.isDigit = true)
    (h : PointText whole fraction number) (rest : List Char) :
    ∀ c ∈ (number ++ rest).head?, c ≠ '-' ∧ c ≠ '+' := by
  intro c hc
  cases whole with
  | nil =>
    cases h with
    | without hne => exact absurd rfl hne
    | «with» _ =>
      cases hc
      decide
  | cons d ds =>
    have hd : c = d := by
      cases h <;> simpa [eq_comm] using hc
    exact hd ▸ not_sign_of_isDigit (hwhole d List.mem_cons_self)

/-- A run of characters of one kind is taken off what begins with none of that kind. -/
theorem takeRun_append {kind : Char → Bool} {run : List Char} (h : ∀ c ∈ run, kind c = true) (rest : List Char)
    (hrest : ∀ c ∈ rest.head?, kind c = false) :
    (run ++ rest).takeWhile kind = run ∧ (run ++ rest).dropWhile kind = rest := by
  rw [List.takeWhile_append_of_pos h, List.dropWhile_append_of_pos h]
  cases rest with
  | nil => simp
  | cons c rest =>
    have hc : kind c = false := hrest c rfl
    simp [hc]

section
variable {cs body rest : List Char} {negative : Bool}

theorem ofChars?_without_point (hsign : takeSign cs = (negative, body)) (hrest : body.dropWhile Char.isDigit = rest)
    (hpoint : ∀ c ∈ rest.head?, c ≠ '.') : ofChars? cs =
      if body.takeWhile Char.isDigit = [] then none
      else (readExponent? rest).map fun exponent => ⟨negative, body.takeWhile Char.isDigit, [], exponent⟩ := by
  unfold ofChars?
  simp only [hsign, hrest]
  split
  · exact absurd rfl (hpoint '.' rfl)
  · simp

theorem ofChars?_with_point (hsign : takeSign cs = (negative, body))
    (hrest : body.dropWhile Char.isDigit = '.' :: rest) : ofChars? cs =
      if body.takeWhile Char.isDigit = [] ∧ rest.takeWhile Char.isDigit = [] then none
      else (readExponent? (rest.dropWhile Char.isDigit)).map fun exponent =>
        ⟨negative, body.takeWhile Char.isDigit, rest.takeWhile Char.isDigit, exponent⟩ := by
  simp [ofChars?, hsign, hrest]

end

theorem isDigit_of_mem_takeWhile (cs : List Char) : ∀ c ∈ cs.takeWhile Char.isDigit, c.isDigit = true := fun _ hc =>
  List.mem_takeWhile_imp hc

/-- **The reader accepts the texts of the grammar, and finds their parts.** -/
theorem ofChars?_eq_some_iff {cs : List Char} {p : Parts} : ofChars? cs = some p ↔ DecimalText cs p := by
  constructor
  · intro h
    obtain ⟨negative, sign, body, htake, hsign, rfl⟩ := exists_sign cs
    by_cases hpoint : ∃ tail, body.dropWhile Char.isDigit = '.' :: tail
    · obtain ⟨tail, hdrop⟩ := hpoint
      rw [ofChars?_with_point htake hdrop] at h
      obtain ⟨hsome, h⟩ := Option.ite_none_left_eq_some.1 h
      obtain ⟨exponent, hexponent, rfl⟩ := Option.map_eq_some_iff.1 h
      have htext : sign ++ body = sign ++ (body.takeWhile Char.isDigit ++ '.' :: tail.takeWhile Char.isDigit) ++
          tail.dropWhile Char.isDigit := by simp [← hdrop]
      rw [htext]
      exact .mk hsign (isDigit_of_mem_takeWhile _) (isDigit_of_mem_takeWhile _) (.with (not_and_or.1 hsome))
        (readExponent?_eq_some_iff.1 hexponent)
    · have hhead : ∀ c ∈ (body.dropWhile Char.isDigit).head?, c ≠ '.' := by
        rintro c hc rfl
        obtain ⟨tail, htail⟩ := List.head?_eq_some_iff.1 hc
        exact hpoint ⟨tail, htail⟩
      rw [ofChars?_without_point htake rfl hhead] at h
      obtain ⟨hsome, h⟩ := Option.ite_none_left_eq_some.1 h
      obtain ⟨exponent, hexponent, rfl⟩ := Option.map_eq_some_iff.1 h
      have htext : sign ++ body = sign ++ body.takeWhile Char.isDigit ++ body.dropWhile Char.isDigit := by simp
      rw [htext]
      exact .mk hsign (isDigit_of_mem_takeWhile _) nofun (.without hsome) (readExponent?_eq_some_iff.1 hexponent)
  · rintro @⟨⟨negative, whole, fraction, exponent⟩, sign, number, power, hsign, hwhole, hfraction, hnumber, hpower⟩
    have hhead := head?_power hpower
    have htake : takeSign (sign ++ number ++ power) = (negative, number ++ power) := by
      rw [List.append_assoc]
      exact takeSign_append hsign (head?_number hwhole hnumber power)
    cases hnumber with
    | without hne =>
      obtain ⟨hfirst, hdrop⟩ := takeRun_append hwhole power fun c hc => (hhead c hc).1
      rw [ofChars?_without_point htake hdrop fun c hc => (hhead c hc).2, hfirst, if_neg hne,
        readExponent?_eq_some_iff.2 hpower]
      rfl
    | «with» hne =>
      have htail : (whole ++ '.' :: fraction) ++ power = whole ++ '.' :: (fraction ++ power) := by simp
      rw [htail] at htake
      obtain ⟨hfirst, hdrop⟩ := takeRun_append hwhole ('.' :: (fraction ++ power)) (by rintro c ⟨⟩; rfl)
      obtain ⟨hsecond, hrest⟩ := takeRun_append hfraction power fun c hc => (hhead c hc).1
      rw [ofChars?_with_point htake hdrop, hfirst, hsecond, hrest, if_neg (not_and_or.2 hne),
        readExponent?_eq_some_iff.2 hpower]
      rfl

end Parts

/-- A text has one reading at most. -/
theorem DecimalText.unique {cs : List Char} {p q : Parts} (hp : DecimalText cs p) (hq : DecimalText cs q) : p = q :=
  Option.some.inj ((Parts.ofChars?_eq_some_iff.2 hp).symm.trans (Parts.ofChars?_eq_some_iff.2 hq))

namespace Numeral

theorem decimalText (x : Numeral) : DecimalText x.text.toList x.parts :=
  Parts.ofChars?_eq_some_iff.1 (Option.some_get _).symm

theorem parts_ofInt (n : Int) : (ofInt n).parts = ⟨decide (n < 0), Nat.toDigits 10 n.natAbs, [], 0⟩ := by
  refine (ofInt n).decimalText.unique (Parts.ofChars?_eq_some_iff.1 ?_)
  rw [ofInt, String.toList_ofList, ofChars?_integerChars]

theorem exponentFits (x : Numeral) : x.parts.exponentFits = true := by
  have h := x.valid
  rwa [Parts.ofChars?_eq_some_iff.2 x.decimalText] at h

/-- What is checked is kept as it is. -/
theorem parse_eq_ok_iff {text : String} {x : Numeral} : parse text = .ok x ↔ x.text = text := by
  constructor
  · intro h
    unfold parse at h
    split at h
    · cases h
    · split at h
      · cases h
        rfl
      · cases h
  · rintro rfl
    have hp := Parts.ofChars?_eq_some_iff.2 x.decimalText
    unfold parse
    split
    · next hnone => cases hp.symm.trans hnone
    · next p hsome =>
      cases hp.symm.trans hsome
      exact dif_pos x.exponentFits

/-- **The texts of numerals are those of the grammar whose exponent is a 32-bit integer.** -/
theorem exists_parse_iff {text : String} :
    (∃ x, parse text = .ok x) ↔ ∃ p, DecimalText text.toList p ∧ (IntType.signed 32).Contains p.exponent := by
  have hfits (p : Parts) : p.exponentFits = true ↔ (IntType.signed 32).Contains p.exponent := by
    rw [Parts.exponentFits, Bool.and_eq_true_iff, decide_eq_true_eq, decide_eq_true_eq, IntType.Contains, IntType.least,
      IntType.greatest, Int.le_sub_one_iff]
  constructor
  · rintro ⟨x, hx⟩
    obtain rfl := parse_eq_ok_iff.1 hx
    exact ⟨x.parts, x.decimalText, (hfits _).1 x.exponentFits⟩
  · rintro ⟨p, hp, hexponent⟩
    have hread := Parts.ofChars?_eq_some_iff.2 hp
    exact ⟨⟨text, by simpa [hread] using (hfits p).2 hexponent⟩, parse_eq_ok_iff.2 rfl⟩

end Numeral
end ItemStore
