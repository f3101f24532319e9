import ItemStore.Proofs.Number.Digits
import ItemStore.Proofs.Time.Calendar
/-!
# Dates and timestamps are read back

What is written for a date is read as that date, whatever its year (`Date.parse?_render`); what is written for a moment
is read as that moment if its year has four digits (`Timestamp.parse?_render`).
-/
namespace ItemStore

/-! ## Numbers of a fixed width -/

theorem isDigit_zeroPadded (width n : Nat) : ∀ c ∈ zeroPadded width n, c.isDigit = true := by
  intro c hc
  rcases List.mem_append.1 hc with hc | hc
  · rw [List.eq_of_mem_replicate hc]
    rfl
  · exact isDigit_toDigits n c hc

theorem ofDigits_zeroPadded (width n : Nat) : Parts.ofDigits ((zeroPadded width n).map Parts.digitValue) = n :=
  Parts.ofDigits_zeros_toDigits _ n

theorem width_le_length_zeroPadded (width n : Nat) : width ≤ (zeroPadded width n).length := by
  rw [zeroPadded, List.length_append, List.length_replicate]
  omega

theorem length_zeroPadded {width n : Nat} (hwidth : 0 < width) (h : n < 10 ^ width) :
    (zeroPadded width n).length = width := by
  have hlength : (Nat.toDigits 10 n).length ≤ width := (Nat.length_toDigits_le_iff (by decide) hwidth).2 h
  rw [zeroPadded, List.length_append, List.length_replicate]
  omega

/-- The text does not go on with a digit. -/
def EndsDigits (rest : List Char) : Prop := rest.takeWhile Char.isDigit = []

theorem endsDigits_nil : EndsDigits [] := rfl

theorem endsDigits_cons {c : Char} (h : c.isDigit = false) (rest : List Char) : EndsDigits (c :: rest) :=
  List.takeWhile_cons_of_neg (by rw [h]; exact Bool.false_ne_true)

/-- Digits are taken up to what follows them, or up to the most that may be taken. -/
theorem takeDigits?_append {least most : Nat} {ds rest : List Char} (h : ∀ c ∈ ds, c.isDigit = true)
    (hleast : least ≤ ds.length) (hmost : ds.length ≤ most) (hend : EndsDigits rest ∨ ds.length = most) :
    takeDigits? least most (ds ++ rest) = some (Parts.ofDigits (ds.map Parts.digitValue), rest) := by
  -- what is taken ends with the digits, or where no more may be taken
  have htaken : ((ds ++ rest).takeWhile Char.isDigit).take most = ds := by
    rw [List.takeWhile_append_of_pos h]
    rcases hend with hend | rfl
    · rw [hend, List.append_nil, List.take_of_length_le hmost]
    · exact List.take_left
  rw [takeDigits?, htaken, if_neg (by omega), List.drop_left]

theorem takeDigits?_zeroPadded {least most width n : Nat} {rest : List Char} (hwidth : 0 < width) (h : n < 10 ^ width)
    (hleast : least ≤ width) (hmost : width ≤ most) (hend : EndsDigits rest ∨ width = most) :
    takeDigits? least most (zeroPadded width n ++ rest) = some (n, rest) := by
  have hlength : (zeroPadded width n).length = width := length_zeroPadded hwidth h
  rw [takeDigits?_append (isDigit_zeroPadded width n) (by omega) (by omega) (hend.imp_right hlength.trans),
    ofDigits_zeroPadded]

/-- Two digits that have to be two. -/
theorem takeDigits?_two {n : Nat} (h : n < 100) (rest : List Char) :
    takeDigits? 2 2 (zeroPadded 2 n ++ rest) = some (n, rest) :=
  takeDigits?_zeroPadded (by decide) h (by decide) (by decide) (.inr rfl)

theorem exists_zeroPadded_cons {width : Nat} (hwidth : 0 < width) (n : Nat) :
    ∃ c cs, zeroPadded width n = c :: cs ∧ c.isDigit = true := by
  have hlength := width_le_length_zeroPadded width n
  obtain ⟨c, cs, hcs⟩ := List.exists_cons_of_length_pos (Nat.lt_of_lt_of_le hwidth hlength)
  exact ⟨c, cs, hcs, isDigit_zeroPadded width n c (hcs ▸ List.mem_cons_self)⟩

theorem takeChar?_self (c : Char) (rest : List Char) : takeChar? c (c :: rest) = some rest := if_pos rfl

/-- One step of a reader. -/
theorem some_bind {α β : Type} {x : Option α} {f : α → Option β} {a : α} {b : β} (hx : x = some a)
    (hf : f a = some b) : (x >>= f) = some b :=
  Option.bind_eq_some_iff.2 ⟨a, hx, hf⟩

/-! ## Dates -/

theorem daysInMonth_le (y : Int) (m : Nat) : daysInMonth y m ≤ 31 := by
  unfold daysInMonth
  repeat' split
  all_goals decide

namespace Date

theorem skipWhiteSpace_cons {c : Char} (h : Text.isWhiteSpace c = false) (cs : List Char) :
    skipWhiteSpace (c :: cs) = c :: cs :=
  List.dropWhile_cons_of_neg (by rw [h]; exact Bool.false_ne_true)

theorem skipWhiteSpace_zeroPadded {width : Nat} (hwidth : 0 < width) (n : Nat) (rest : List Char) :
    skipWhiteSpace (zeroPadded width n ++ rest) = zeroPadded width n ++ rest := by
  obtain ⟨c, cs, hcs, hdigit⟩ := exists_zeroPadded_cons hwidth n
  rw [hcs, List.cons_append, skipWhiteSpace_cons (Text.isWhiteSpace_of_isDigit hdigit)]

theorem skipWhiteSpace_yearChars (y : Int) (rest : List Char) :
    skipWhiteSpace (yearChars y ++ rest) = yearChars y ++ rest := by
  unfold yearChars
  split
  · exact skipWhiteSpace_cons rfl _
  · split
    · exact skipWhiteSpace_zeroPadded (by decide) _ rest
    · exact skipWhiteSpace_cons rfl _

/-- A year without a sign. -/
theorem takeYear?_of_isDigit {c : Char} (h : c.isDigit = true) (cs : List Char) :
    takeYear? (c :: cs) = (takeDigits? 1 4 (c :: cs)).map fun (n, tail) => ((n : Int), tail) := by
  unfold takeYear?
  split
  · next heq =>
    cases heq
    exact absurd h (by decide)
  · next heq =>
    cases heq
    exact absurd h (by decide)
  · rfl

theorem takeYear?_yearChars (y : Int) {rest : List Char} (h : EndsDigits rest) :
    takeYear? (yearChars y ++ rest) = some (y, rest) := by
  have hsigned : takeDigits? 1 (zeroPadded 4 y.natAbs ++ rest).length (zeroPadded 4 y.natAbs ++ rest) =
      some (y.natAbs, rest) := by
    have hwidth := width_le_length_zeroPadded 4 y.natAbs
    rw [takeDigits?_append (isDigit_zeroPadded 4 _) (by omega) (by rw [List.length_append]; omega) (.inl h),
      ofDigits_zeroPadded]
  unfold yearChars
  split
  · next hneg =>
    have hy : -(y.natAbs : Int) = y := by omega
    rw [List.cons_append, takeYear?, hsigned]
    exact congrArg (fun year => some (year, rest)) hy
  · next hnonneg =>
    have hy : (y.natAbs : Int) = y := by omega
    split
    · next hfour =>
      have hread : takeDigits? 1 4 (zeroPadded 4 y.natAbs ++ rest) = some (y.natAbs, rest) :=
        takeDigits?_zeroPadded (by decide) (by omega) (by decide) (by decide) (.inl h)
      obtain ⟨c, cs, hcs, hdigit⟩ := exists_zeroPadded_cons (by decide : 0 < 4) y.natAbs
      rw [hcs, List.cons_append] at hread ⊢
      rw [takeYear?_of_isDigit hdigit, hread]
      exact congrArg (fun year => some (year, rest)) hy
    · rw [List.cons_append, takeYear?, hsigned]
      exact congrArg (fun year => some (year, rest)) hy

/-- A month or a day, before the character that ends it. -/
theorem takeDigits?_skipWhiteSpace {n : Nat} (h : n < 100) {rest : List Char} (hend : EndsDigits rest) :
    takeDigits? 1 2 (skipWhiteSpace (zeroPadded 2 n ++ rest)) = some (n, rest) := by
  rw [skipWhiteSpace_zeroPadded (by decide)]
  exact takeDigits?_zeroPadded (by decide) h (by decide) (by decide) (.inl hend)

/-- **A date is read back from what is written for it.** -/
theorem parse?_render (x : Date) : parse? x.render = some x := by
  obtain ⟨-, hm, hd⟩ := x.valid
  have hlast := daysInMonth_le x.year x.month
  have hmonth : x.month < 100 := by omega
  have hday : x.day < 100 := by omega
  have htext : x.render.toList = yearChars x.year ++
      '-' :: (zeroPadded 2 x.month ++ '-' :: (zeroPadded 2 x.day ++ [])) := by
    rw [render, String.toList_ofList, List.append_nil, List.append_assoc, List.cons_append]
  have hhyphen : ∀ rest, EndsDigits ('-' :: rest) := fun rest => endsDigits_cons rfl rest
  unfold parse?
  rw [htext, skipWhiteSpace_yearChars]
  refine some_bind (takeYear?_yearChars _ (hhyphen _)) ?_
  refine some_bind (takeChar?_self _ _) ?_
  refine some_bind (takeDigits?_skipWhiteSpace hmonth (hhyphen _)) ?_
  refine some_bind (takeChar?_self _ _) ?_
  refine some_bind (takeDigits?_skipWhiteSpace hday endsDigits_nil) ?_
  exact (if_pos rfl).trans (dif_pos x.valid)

end Date

/-! ## Timestamps -/

namespace Timestamp

theorem takeFraction?_zeroPadded {width k : Nat} (hwidth : 0 < width) (hmost : width ≤ 9) (hk : k < 10 ^ width) :
    takeFraction? ('.' :: zeroPadded width k ++ ['Z']) = some (k * tenPow (9 - width), ['Z']) := by
  have hlength : (zeroPadded width k).length = width := length_zeroPadded hwidth hk
  rw [List.cons_append, takeFraction?, takeDigits?_zeroPadded hwidth hk hwidth hmost (.inl (endsDigits_cons rfl []))]
  simp [hlength, List.dropWhile]

/-- A fraction of a second is read up to what follows it. -/
theorem takeFraction?_fractionChars {n : Nat} (h : n < 1000000000) :
    takeFraction? (fractionChars n ++ ['Z']) = some (n, ['Z']) := by
  unfold fractionChars
  split
  · next hzero => rw [hzero]; rfl
  · split
    · next hmilli =>
      rw [takeFraction?_zeroPadded (by decide) (by decide) (by omega)]
      exact congrArg (fun k => some (k, ['Z'])) (Nat.div_mul_cancel (Nat.dvd_of_mod_eq_zero hmilli))
    · split
      · next hmicro =>
        rw [takeFraction?_zeroPadded (by decide) (by decide) (by omega)]
        exact congrArg (fun k => some (k, ['Z'])) (Nat.div_mul_cancel (Nat.dvd_of_mod_eq_zero hmicro))
      · rw [takeFraction?_zeroPadded (by decide) (by decide) (by omega)]
        exact congrArg (fun k => some (k, ['Z'])) (Nat.mul_one n)

/-- The calendar year a moment falls into. -/
def year (t : Timestamp) : Int := (calendarDay (t.minute / 1440)).1

theorem yearChars_of_four {y : Int} (h : 0 ≤ y ∧ y ≤ 9999) : yearChars y = zeroPadded 4 y.toNat := by
  have habs : y.natAbs = y.toNat := by omega
  rw [yearChars, if_neg (by omega), if_pos h.2, habs]

/-- **A moment in a year of four digits is read back from what is written for it.** -/
theorem parse?_render {t : Timestamp} (h : 0 ≤ t.year ∧ t.year ≤ 9999) : parse? t.render = some t := by
  obtain ⟨y, m, d, hday, hnumber, hm, hd⟩ := calendarDay_spec (t.minute / 1440)
  have hy : 0 ≤ y ∧ y ≤ 9999 := by
    rw [year, hday] at h
    exact h
  have hvalid : IsCalendarDay y.toNat m d := by
    rw [Int.toNat_of_nonneg hy.1]
    exact ⟨⟨by omega, by omega⟩, hm, hd⟩
  have hlast := daysInMonth_le y m
  have hsecond := t.second.isLt
  obtain ⟨q, hq⟩ : ∃ q, q = (t.minute % 1440).toNat := ⟨_, rfl⟩
  have htext : t.render.toList = zeroPadded 4 y.toNat ++ '-' :: (zeroPadded 2 m ++ '-' :: (zeroPadded 2 d ++
      'T' :: (zeroPadded 2 (q / 60) ++ ':' :: (zeroPadded 2 (q % 60) ++ ':' :: (zeroPadded 2 t.second ++
      (fractionChars t.nanosecond ++ ['Z'])))))) := by
    simp only [render, hday, yearChars_of_four hy, ← hq, String.toList_ofList, List.append_assoc, List.cons_append]
  have hback : dayNumber y.toNat m d * 1440 + (q / 60 : Nat) * 60 + (q % 60 : Nat) - 0 = t.minute := by
    rw [Int.toNat_of_nonneg hy.1, hnumber]
    omega
  -- each reader takes its part and leaves the sign that follows
  unfold parse?
  rw [htext]
  refine some_bind (takeDigits?_zeroPadded (by decide) (by omega) (by decide) (by decide) (.inr rfl)) ?_
  refine some_bind (takeChar?_self _ _) ?_
  refine some_bind (takeDigits?_two (by omega) _) ?_
  refine some_bind (takeChar?_self _ _) ?_
  refine some_bind (takeDigits?_two (by omega) _) ?_
  refine some_bind (a := _) rfl ?_
  refine some_bind (takeDigits?_two (by omega) _) ?_
  refine some_bind (takeChar?_self _ _) ?_
  refine some_bind (takeDigits?_two (by omega) _) ?_
  refine some_bind (takeChar?_self _ _) ?_
  refine some_bind (takeDigits?_two (by omega) _) ?_
  refine some_bind (takeFraction?_fractionChars t.nanosecond.isLt) ?_
  refine some_bind (a := (0, [])) rfl ?_
  refine some_bind (dif_pos hvalid) ?_
  rw [dif_pos hsecond, dif_pos t.nanosecond.isLt, if_pos ⟨by omega, by omega, rfl⟩]
  rw [hback]

end Timestamp
end ItemStore
