import ItemStore.Text.Json
/-!
# JSON there and back

What is written of a document without numbers is read as that document again, by a reader that goes as deep as the
document does (`parse?_render`).
-/
namespace ItemStore.Json

/-! ## Strings -/

theorem hexValue?_hexDigit : ∀ n < 16, hexValue? (hexDigit n) = some n := by decide

theorem codeUnit?_of_lt {n : Nat} (h : n < 32) :
    codeUnit? '0' '0' (hexDigit (n / 16)) (hexDigit (n % 16)) = some n := by
  have hhigh := hexValue?_hexDigit (n / 16) (by omega)
  have hlow := hexValue?_hexDigit (n % 16) (by omega)
  have hzero : hexValue? '0' = some 0 := rfl
  have hall : ((0 * 16 + 0) * 16 + n / 16) * 16 + n % 16 = n := by omega
  simp only [codeUnit?, hzero, hhigh, hlow, Option.bind_eq_bind, Option.bind_some, hall, Option.pure_def]

theorem readCodes?_escapeChar (c : Char) (rest : List Char) :
    readCodes? (escapeChar c ++ rest) = (readCodes? rest).map fun (ns, tail) => (c.toNat :: ns, tail) := by
  unfold escapeChar
  split
  · subst_vars
    rfl
  split
  · subst_vars
    rfl
  next hquote hslash =>
  split
  · next hcontrol =>
    have hlt : c.toNat < 32 := hcontrol
    -- five of the controls have a letter of their own
    iterate 5
      split
      · subst_vars
        rfl
    show readCodes? ('\\' :: 'u' :: '0' :: '0' :: hexDigit (c.toNat / 16) :: hexDigit (c.toNat % 16) :: rest) = _
    rw [readCodes?, codeUnit?_of_lt hlt]
  · next hcontrol =>
    show readCodes? (c :: rest) = _
    rw [readCodes?, if_neg (not_or.2 ⟨hcontrol, hslash⟩)]
    · exact hquote
    · exact fun _ _ _ _ _ h => absurd h hslash
    · exact fun _ _ h => absurd h hslash

theorem readCodes?_flatMap_escapeChar (tail : List Char) : ∀ cs : List Char,
    readCodes? (cs.flatMap escapeChar ++ '"' :: tail) = some (cs.map Char.toNat, tail)
  | [] => rfl
  | c :: cs => by
    rw [List.flatMap_cons, List.append_assoc, readCodes?_escapeChar, readCodes?_flatMap_escapeChar tail cs]
    rfl

/-- No character is half of a surrogate pair. -/
theorem isSurrogate_toNat (c : Char) : isHighSurrogate c.toNat = false ∧ isLowSurrogate c.toNat = false := by
  have hvalid : c.toNat < 0xD800 ∨ 0xDFFF < c.toNat ∧ c.toNat < 0x110000 := c.valid
  simp only [isHighSurrogate, isLowSurrogate, Bool.and_eq_false_iff, decide_eq_false_iff_not]
  omega

theorem ofCodes?_map_toNat : ∀ cs : List Char, ofCodes? (cs.map Char.toNat) = some cs
  | [] => rfl
  | [c] => by
    obtain ⟨hhigh, hlow⟩ := isSurrogate_toNat c
    simp [ofCodes?, hhigh, hlow]
  | c :: d :: cs => by
    obtain ⟨hhigh, hlow⟩ := isSurrogate_toNat c
    have ih := ofCodes?_map_toNat (d :: cs)
    rw [List.map_cons] at ih
    simp [ofCodes?, hhigh, hlow, ih]

theorem readString?_flatMap_escapeChar (s : String) (tail : List Char) :
    readString? (s.toList.flatMap escapeChar ++ '"' :: tail) = some (some s, tail) := by
  rw [readString?, readCodes?_flatMap_escapeChar, Option.map_some]
  simp only [ofCodes?_map_toNat, Option.map_some, String.ofList_toList]

theorem renderString_append (s : String) (rest : List Char) :
    renderString s ++ rest = '"' :: (s.toList.flatMap escapeChar ++ '"' :: rest) := by
  rw [renderString, List.cons_append, List.append_assoc, List.singleton_append]

/-! ## Documents without numbers -/

mutual

/-- No number is in the document, and all of it is readable. -/
def Textual : Json → Prop
  | num _ | unreadable => False
  | arr xs => TextualAll xs
  | obj ms => TextualMembers ms
  | null | bool _ | str _ => True

def TextualAll : List Json → Prop
  | [] => True
  | x :: xs => Textual x ∧ TextualAll xs

def TextualMembers : List (String × Json) → Prop
  | [] => True
  | (_, x) :: ms => Textual x ∧ TextualMembers ms

end

/-- Such a document begins with a character that tells what it is. -/
theorem exists_renderTo_eq_cons {j : Json} (h : j.Textual) (tail : List Char) :
    ∃ c ∈ ['n', 't', 'f', '"', '[', '\x7b'], ∃ rest, renderTo j tail = c :: rest := by
  cases j with
  | null => exact ⟨'n', by decide, _, rfl⟩
  | bool b => cases b with
    | true => exact ⟨'t', by decide, _, rfl⟩
    | false => exact ⟨'f', by decide, _, rfl⟩
  | num text => exact h.elim
  | str s => exact ⟨'"', by decide, _, rfl⟩
  | unreadable => exact h.elim
  | arr xs => cases xs with
    | nil => exact ⟨'[', by decide, _, rfl⟩
    | cons x xs => exact ⟨'[', by decide, _, rfl⟩
  | obj ms => cases ms with
    | nil => exact ⟨'\x7b', by decide, _, rfl⟩
    | cons m ms => exact ⟨'\x7b', by decide, _, rfl⟩

theorem skipBlanks_cons {c : Char} (h : c ∉ [' ', '\n', '\t', '\r']) (cs : List Char) :
    skipBlanks (c :: cs) = c :: cs := by
  simp only [List.mem_cons, List.not_mem_nil, or_false, not_or] at h
  simp [skipBlanks, h]

/-! ## Lengths -/

mutual

/-- A document is written with more characters than it has levels. -/
theorem depth_lt_length_renderTo (tail : List Char) :
    ∀ j : Json, j.Textual → j.depth + tail.length < (renderTo j tail).length
  | null, _ | bool true, _ | bool false, _ => by
    show 0 + tail.length < (_ ++ tail : List Char).length
    rw [List.length_append]
    exact Nat.add_lt_add_right (by decide) _
  | str s, _ => by
    show 0 + tail.length < (renderString s ++ tail).length
    rw [renderString, List.cons_append, List.length_cons, List.length_append]
    omega
  | arr [], _ | obj [], _ => by
    show 1 + tail.length < tail.length + 1 + 1
    omega
  | arr (x :: xs), h => by
    have := depth_lt_length_renderTo (renderElementsTo xs tail) x h.1
    have := depth_lt_length_renderElementsTo tail xs h.2
    show max x.depth (depthElements xs) + 1 + tail.length < (renderTo x (renderElementsTo xs tail)).length + 1
    omega
  | obj ((name, x) :: ms), h => by
    have := depth_lt_length_renderTo (renderMembersTo ms tail) x h.1
    have := depth_lt_length_renderMembersTo tail ms h.2
    show max x.depth (depthMembers ms) + 1 + tail.length <
      (renderString name ++ ':' :: renderTo x (renderMembersTo ms tail)).length + 1
    rw [List.length_append, List.length_cons]
    omega

theorem depth_lt_length_renderElementsTo (tail : List Char) :
    ∀ xs : List Json, TextualAll xs → depthElements xs + tail.length < (renderElementsTo xs tail).length
  | [], _ => by
    show 0 + tail.length < tail.length + 1
    omega
  | x :: xs, h => by
    have := depth_lt_length_renderTo (renderElementsTo xs tail) x h.1
    have := depth_lt_length_renderElementsTo tail xs h.2
    show max x.depth (depthElements xs) + tail.length < (renderTo x (renderElementsTo xs tail)).length + 1
    omega

theorem depth_lt_length_renderMembersTo (tail : List Char) :
    ∀ ms : List (String × Json), TextualMembers ms → depthMembers ms + tail.length < (renderMembersTo ms tail).length
  | [], _ => by
    show 0 + tail.length < tail.length + 1
    omega
  | (name, x) :: ms, h => by
    have := depth_lt_length_renderTo (renderMembersTo ms tail) x h.1
    have := depth_lt_length_renderMembersTo tail ms h.2
    show max x.depth (depthMembers ms) + tail.length <
      (renderString name ++ ':' :: renderTo x (renderMembersTo ms tail)).length + 1
    rw [List.length_append, List.length_cons]
    omega

end

/-! ## Reading what has been written -/

theorem readValue?_quote (fuel depth : Nat) (rest : List Char) :
    readValue? (fuel + 1) depth ('"' :: rest) =
      (readString? rest).map fun (s, tail) => ((s.map str).getD unreadable, tail) := rfl

theorem readValue?_bracket (fuel depth : Nat) {c : Char} (hc : c ∈ ['n', 't', 'f', '"', '[', '\x7b'])
    (rest : List Char) : readValue? (fuel + 1) (depth + 1) ('[' :: c :: rest) =
      (readElements? fuel depth (c :: rest)).map fun (xs, tail) => (arr xs, tail) := by
  simp only [List.mem_cons, List.not_mem_nil, or_false] at hc
  obtain rfl | rfl | rfl | rfl | rfl | rfl := hc <;> rfl

theorem readValue?_brace (fuel depth : Nat) (rest : List Char) :
    readValue? (fuel + 1) (depth + 1) ('\x7b' :: '"' :: rest) =
      (readMembers? fuel depth ('"' :: rest)).map fun (ms, tail) => ((ms.map obj).getD unreadable, tail) := rfl

mutual

/-- **What is written is read, and what follows is left**, given as much fuel as characters are written. -/
theorem readValue?_renderTo : ∀ (j : Json), j.Textual → ∀ {fuel depth : Nat} {tail : List Char}, j.depth ≤ depth →
    (renderTo j tail).length ≤ fuel + tail.length → readValue? fuel depth (renderTo j tail) = some (j, tail)
  | j, h, 0, _, tail, _, hfuel => by
    have := depth_lt_length_renderTo tail j h
    omega
  | null, _, fuel + 1, _, tail, _, _ => rfl
  | bool true, _, fuel + 1, _, tail, _, _ => rfl
  | bool false, _, fuel + 1, _, tail, _, _ => rfl
  | str s, _, fuel + 1, _, tail, _, _ => by
    show readValue? (fuel + 1) _ (renderString s ++ tail) = _
    rw [renderString_append, readValue?_quote, readString?_flatMap_escapeChar]
    rfl
  | arr [], _, fuel + 1, depth + 1, tail, _, _ => rfl
  | arr (x :: xs), h, fuel + 1, depth + 1, tail, hdepth, hfuel => by
    have hxs : readElements? fuel depth (renderTo x (renderElementsTo xs tail)) = some (x :: xs, tail) :=
      readElements?_renderElementsTo (x :: xs) h (List.cons_ne_nil x xs) (Nat.le_of_succ_le_succ hdepth) hfuel
    obtain ⟨c, hc, rest, hrest⟩ := exists_renderTo_eq_cons h.1 (renderElementsTo xs tail)
    show readValue? (fuel + 1) (depth + 1) ('[' :: renderTo x (renderElementsTo xs tail)) = _
    rw [hrest, readValue?_bracket fuel depth hc, ← hrest, hxs]
    rfl
  | obj [], _, fuel + 1, depth + 1, tail, _, _ => rfl
  | obj ((name, x) :: ms), h, fuel + 1, depth + 1, tail, hdepth, hfuel => by
    have hms : readMembers? fuel depth (renderString name ++ ':' :: renderTo x (renderMembersTo ms tail)) =
        some (some ((name, x) :: ms), tail) :=
      readMembers?_renderMembersTo ((name, x) :: ms) h (List.cons_ne_nil _ ms) (Nat.le_of_succ_le_succ hdepth) hfuel
    show readValue? (fuel + 1) (depth + 1)
      ('\x7b' :: (renderString name ++ ':' :: renderTo x (renderMembersTo ms tail))) = _
    rw [renderString_append] at hms ⊢
    rw [readValue?_brace, hms]
    rfl

theorem readElements?_renderElementsTo : ∀ (xs : List Json), TextualAll xs → xs ≠ [] →
    ∀ {fuel depth : Nat} {tail : List Char}, depthElements xs ≤ depth →
    (renderElementsTo xs tail).length ≤ fuel + 1 + tail.length →
    readElements? fuel depth (renderElementsTo xs tail).tail = some (xs, tail)
  | x :: xs, h, _, fuel, depth, tail, hdepth, hfuel => by
    have hlength := depth_lt_length_renderElementsTo tail xs h.2
    have hlength' := depth_lt_length_renderTo (renderElementsTo xs tail) x h.1
    replace hfuel : (renderTo x (renderElementsTo xs tail)).length + 1 ≤ fuel + 1 + tail.length := hfuel
    show readElements? fuel depth (renderTo x (renderElementsTo xs tail)) = _
    cases fuel with
    | zero => omega
    | succ fuel =>
      -- what stands behind the element is longer than the tail, which pays for the step
      have hx := readValue?_renderTo x h.1 (Nat.le_trans (Nat.le_max_left _ _) hdepth)
        (show (renderTo x (renderElementsTo xs tail)).length ≤ fuel + (renderElementsTo xs tail).length by omega)
      rw [readElements?, hx]
      cases xs with
      | nil => rfl
      | cons y ys =>
        have hys : readElements? fuel depth (renderTo y (renderElementsTo ys tail)) = some (y :: ys, tail) :=
          readElements?_renderElementsTo (y :: ys) h.2 (List.cons_ne_nil y ys)
            (Nat.le_trans (Nat.le_max_right _ _) hdepth) (by omega)
        show (readElements? fuel depth (renderTo y (renderElementsTo ys tail))).map _ = _
        rw [hys]
        rfl

theorem readMembers?_renderMembersTo : ∀ (ms : List (String × Json)), TextualMembers ms → ms ≠ [] →
    ∀ {fuel depth : Nat} {tail : List Char}, depthMembers ms ≤ depth →
    (renderMembersTo ms tail).length ≤ fuel + 1 + tail.length →
    readMembers? fuel depth (renderMembersTo ms tail).tail = some (some ms, tail)
  | (name, x) :: ms, h, _, fuel, depth, tail, hdepth, hfuel => by
    have hlength := depth_lt_length_renderMembersTo tail ms h.2
    have hlength' := depth_lt_length_renderTo (renderMembersTo ms tail) x h.1
    replace hfuel : (renderString name ++ ':' :: renderTo x (renderMembersTo ms tail)).length + 1 ≤
      fuel + 1 + tail.length := hfuel
    rw [List.length_append, List.length_cons] at hfuel
    show readMembers? fuel depth (renderString name ++ ':' :: renderTo x (renderMembersTo ms tail)) = _
    cases fuel with
    | zero => omega
    | succ fuel =>
      have hx := readValue?_renderTo x h.1 (Nat.le_trans (Nat.le_max_left _ _) hdepth)
        (show (renderTo x (renderMembersTo ms tail)).length ≤ fuel + (renderMembersTo ms tail).length by omega)
      rw [renderString_append, readMembers?, skipBlanks_cons (by decide)]
      simp only [readString?_flatMap_escapeChar, skipBlanks_cons (show ':' ∉ _ by decide), hx]
      cases ms with
      | nil => rfl
      | cons m ms =>
        have hms : readMembers? fuel depth (renderMembersTo (m :: ms) tail).tail = some (some (m :: ms), tail) :=
          readMembers?_renderMembersTo (m :: ms) h.2 (List.cons_ne_nil m ms)
            (Nat.le_trans (Nat.le_max_right _ _) hdepth) (by omega)
        show (readMembers? fuel depth (renderMembersTo (m :: ms) tail).tail).map _ = _
        rw [hms]
        rfl

end

/-- **A document without numbers is read as it was written**, if readers go as deep. -/
theorem parse?_render {j : Json} (h : j.Textual) {depth : Nat} (hdepth : j.depth ≤ depth) :
    parse? depth j.render = some j := by
  have hread : readValue? (2 * j.render.length + 2) depth j.render.toList = some (j, []) := by
    rw [render, String.toList_ofList]
    refine readValue?_renderTo j h hdepth ?_
    rw [String.length_ofList]
    omega
  rw [parse?, hread]
  rfl

theorem depth_le_length_render {j : Json} (h : j.Textual) : j.depth ≤ j.render.length := by
  have := depth_lt_length_renderTo [] j h
  rw [render, String.length_ofList]
  omega

end ItemStore.Json
