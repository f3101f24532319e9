import ItemStore.Number.Numeral
/-!
# Digits read back

The decimal digits of a number, with or without zeros in front of them, denote it; and the notation of an integer is
read into every type that holds it.
-/
namespace ItemStore

namespace Parts

theorem ofDigits_digitValue (cs : List Char) : ofDigits (cs.map digitValue) = Nat.ofDigitChars 10 cs 0 := by
  rw [ofDigits, List.foldl_map, Nat.ofDigitChars_eq_foldl]
  rfl

theorem ofDigits_toDigits (n : Nat) : ofDigits ((Nat.toDigits 10 n).map digitValue) = n := by
  rw [ofDigits_digitValue, Nat.ofDigitChars_ten_toDigits]

theorem ofDigits_zeros_toDigits (k n : Nat) :
    ofDigits ((List.replicate k '0' ++ Nat.toDigits 10 n).map digitValue) = n := by
  rw [ofDigits_digitValue, Nat.ofDigitChars_append, Nat.ofDigitChars_replicate_zero, Nat.mul_zero,
    Nat.ofDigitChars_ten_toDigits]

theorem readNat?_toDigits (n : Nat) : readNat? (Nat.toDigits 10 n) = some n := by
  have hdigits : (Nat.toDigits 10 n).all Char.isDigit = true := List.all_eq_true.2 (isDigit_toDigits n)
  rw [readNat?, if_pos ⟨Nat.toDigits_ne_nil, hdigits⟩, ofDigits_toDigits]

theorem readInt?_integerChars (n : Int) : readInt? (integerChars n) = some n := by
  cases n with
  | ofNat k =>
    rw [integerChars, readInt?, takeSign_toDigits]
    simp [readNat?_toDigits]
  | negSucc k =>
    rw [integerChars, readInt?, takeSign]
    simp [readNat?_toDigits, Int.negSucc_eq]

end Parts

/-- An integer within the range of a type is read back from its notation. -/
theorem IntType.read?_integerChars {t : IntType} {n : Int} (h : t.Contains n) : t.read? (integerChars n) = some n := by
  have hsign : ¬((integerChars n).head? = some '-' ∧ t.allowsMinus = false) := by
    rintro ⟨hhead, hminus⟩
    cases t with
    | signed bits => cases hminus
    | unsigned bits =>
      cases n with
      | ofNat k =>
        have hmem : '-' ∈ Nat.toDigits 10 k := List.mem_of_mem_head? hhead
        exact absurd (isDigit_toDigits k _ hmem) (by decide)
      | negSucc k => exact absurd h.1 (Int.not_le.2 (Int.negSucc_lt_zero k))
  rw [read?, if_neg hsign, Parts.readInt?_integerChars, Option.filter_some, if_pos (decide_eq_true h)]

theorem Numeral.toInteger_ofInt {t : IntType} {n : Int} (h : t.Contains n) : (ofInt n).toInteger t = .ok n := by
  have htext : (ofInt n).text.toList = integerChars n := String.toList_ofList
  rw [toInteger, htext, IntType.read?_integerChars h]

end ItemStore
