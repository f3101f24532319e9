import ItemStore.Expression.Token
/-!
# Texts that scan to given tokens

`Scans cs ts` says that the scanner takes the text `cs` for the tokens `ts`, whatever stands after it, so long as
that does not go on with the last word of `cs`.  Texts of that kind go together: side by side with a blank between
them, inside parentheses, as the arguments of a function.
-/
namespace ItemStore
namespace Token

/-- The text does not go on with a word that ends before it. -/
def EndsWord (rest : List Char) : Prop := ∀ c ∈ rest.head?, isNameChar c = false

theorem endsWord_nil : EndsWord [] := fun _ h => by cases h

theorem endsWord_cons {c : Char} {rest : List Char} (h : isNameChar c = false) : EndsWord (c :: rest) := by
  intro d hd
  cases hd
  exact h

theorem takeWhile_word : ∀ {word rest : List Char}, (∀ c ∈ word, isNameChar c = true) → EndsWord rest →
    (word ++ rest).takeWhile isNameChar = word
  | [], [], _, _ => rfl
  | [], c :: rest, _, hr => List.takeWhile_cons_of_neg (by rw [hr c rfl]; decide)
  | c :: word, rest, hw, hr => by
    rw [List.cons_append, List.takeWhile_cons_of_pos (hw c List.mem_cons_self),
      takeWhile_word (fun d hd => hw d (List.mem_cons_of_mem c hd)) hr]

theorem dropWhile_word : ∀ {word rest : List Char}, (∀ c ∈ word, isNameChar c = true) → EndsWord rest →
    (word ++ rest).dropWhile isNameChar = rest
  | [], [], _, _ => rfl
  | [], c :: rest, _, hr => List.dropWhile_cons_of_neg (by rw [hr c rfl]; decide)
  | c :: word, rest, hw, hr => by
    rw [List.cons_append, List.dropWhile_cons_of_pos (hw c List.mem_cons_self),
      dropWhile_word (fun d hd => hw d (List.mem_cons_of_mem c hd)) hr]

/-! ## One token at the front -/

theorem scan_nil : scan [] = .ok [] := by rw [scan]

theorem scan_blank {c : Char} (h : Text.isWhiteSpace c = true) (cs : List Char) : scan (c :: cs) = scan cs := by
  rw [scan, if_pos h]

theorem scan_cons {c : Char} {cs rest : List Char} {t : Token} {us : List Token}
    (hc : Text.isWhiteSpace c = false) (hf : first c cs = .ok (t, rest)) (hs : scan rest = .ok us) :
    scan (c :: cs) = .ok (t :: us) := by
  rw [scan, if_neg (by rw [hc]; decide)]
  split
  · next h => rw [hf] at h; cases h
  · next p h =>
    rw [hf] at h
    cases h
    rw [hs]
    rfl

theorem first_symbol {c : Char} {cs rest : List Char} {t : Token} (h : symbol? (c :: cs) = some (t, rest)) :
    first c cs = .ok (t, rest) := by
  unfold first
  rw [h]

/-- A character that begins no symbol. -/
theorem symbol?_eq_none {c : Char} {cs : List Char}
    (h : c ∉ ['(', ')', ',', '+', '-', '=', '<', '>']) : symbol? (c :: cs) = none := by
  simp only [List.mem_cons, List.not_mem_nil, or_false, not_or] at h
  obtain ⟨h1, h2, h3, h4, h5, h6, h7, h8⟩ := h
  unfold symbol?
  split <;> simp_all

/-! ## Texts -/

/-- The scanner takes the text for the tokens, before any text that does not go on with its last word. -/
def Scans (cs : List Char) (ts : List Token) : Prop :=
  ∀ rest us, EndsWord rest → scan rest = .ok us → scan (cs ++ rest) = .ok (ts ++ us)

theorem Scans.scan_eq {cs : List Char} {ts : List Token} (h : Scans cs ts) : scan cs = .ok ts := by
  have := h [] [] endsWord_nil scan_nil
  rwa [List.append_nil, List.append_nil] at this

theorem Scans.append {cs ds : List Char} {ts us : List Token} (hc : Scans cs ts) (hd : Scans ds us)
    (hw : ∀ rest, EndsWord rest → EndsWord (ds ++ rest)) : Scans (cs ++ ds) (ts ++ us) := by
  intro rest vs hr hs
  rw [List.append_assoc, List.append_assoc]
  exact hc _ _ (hw rest hr) (hd rest vs hr hs)

/-- Blanks keep two texts apart. -/
theorem Scans.spaced {cs ds : List Char} {ts us : List Token} (hc : Scans cs ts) (hd : Scans ds us) :
    Scans (cs ++ ' ' :: ds) (ts ++ us) := by
  intro rest vs hr hs
  rw [List.append_assoc, List.append_assoc]
  refine hc _ _ (endsWord_cons (by decide)) ?_
  rw [List.cons_append, scan_blank (by decide)]
  exact hd rest vs hr hs

theorem scans_symbol {c : Char} {t : Token} (hc : Text.isWhiteSpace c = false)
    (hs : ∀ cs, symbol? (c :: cs) = some (t, cs)) : Scans [c] [t] := by
  intro rest us _ h
  exact scan_cons hc (first_symbol (hs rest)) h

theorem scans_closing : Scans [')'] [closing] := scans_symbol (by decide) fun _ => rfl

theorem scans_comma : Scans [','] [comma] := scans_symbol (by decide) fun _ => rfl

theorem scans_plus : Scans ['+'] [plus] := scans_symbol (by decide) fun _ => rfl

theorem scans_minus : Scans ['-'] [minus] := scans_symbol (by decide) fun _ => rfl

theorem endsWord_symbol {c : Char} (h : isNameChar c = false) (ds rest : List Char) (_ : EndsWord rest) :
    EndsWord (c :: ds ++ rest) := endsWord_cons h

theorem Scans.parens {cs : List Char} {ts : List Token} (h : Scans cs ts) :
    Scans ('(' :: cs ++ [')']) (opening :: ts ++ [closing]) := by
  have hin : Scans (cs ++ [')']) (ts ++ [closing]) := h.append scans_closing (endsWord_symbol (by decide) [])
  intro rest us hr hs
  exact scan_cons (by decide) (first_symbol rfl) (hin rest us hr hs)

/-- Texts with a comma between them. -/
theorem Scans.listed {cs ds : List Char} {ts us : List Token} (hc : Scans cs ts) (hd : Scans ds us) :
    Scans (cs ++ ',' :: ' ' :: ds) (ts ++ comma :: us) := by
  have hcomma : Scans (',' :: ' ' :: ds) (comma :: us) := scans_comma.spaced hd
  exact hc.append hcomma (endsWord_symbol (by decide) _)

/-- Any number of texts with commas between them. -/
theorem Scans.commaList : ∀ {cs : List Char} {ts : List Token} (more : List (List Char × List Token)), Scans cs ts →
    (∀ p ∈ more, Scans p.1 p.2) →
      Scans ([',', ' '].intercalate (cs :: more.map Prod.fst)) (ts ++ more.flatMap fun p => comma :: p.2)
  | cs, ts, [], h, _ => by
    rw [List.map_nil, List.intercalate_singleton, List.flatMap_nil, List.append_nil]
    exact h
  | cs, ts, (ds, us) :: more, h, hmore => by
    have hrest := Scans.commaList more (hmore _ List.mem_cons_self) fun p hp => hmore p (List.mem_cons_of_mem _ hp)
    rw [List.map_cons, List.intercalate_cons_cons, List.append_assoc, List.flatMap_cons]
    exact h.listed hrest

/-- A comparator before a blank. -/
theorem Scans.comparison {cs ds : List Char} {ts us : List Token} (op : Comparator) (hc : Scans cs ts)
    (hd : Scans ds us) : Scans (cs ++ ' ' :: (op.symbol.toList ++ ' ' :: ds)) (ts ++ compare op :: us) := by
  intro rest vs hr hs
  rw [List.append_assoc, List.append_assoc]
  refine hc _ _ (endsWord_cons (by decide)) ?_
  have hd' : scan (' ' :: (ds ++ rest)) = .ok (us ++ vs) := by
    rw [scan_blank (by decide)]
    exact hd rest vs hr hs
  rw [List.cons_append, List.append_assoc, scan_blank (by decide)]
  cases op <;> exact scan_cons (by decide) (first_symbol rfl) hd'

/-! ## Words -/

theorem scans_namePlaceholder {word : List Char} (h : ∀ c ∈ word, isNameChar c = true) :
    Scans ('#' :: word) [name (String.ofList ('#' :: word))] := by
  intro rest us hr hs
  refine scan_cons (by decide) ?_ hs
  rw [first, List.append_eq, symbol?_eq_none (by decide)]
  simp only [takeWhile_word h hr, dropWhile_word h hr, if_true]

theorem scans_valuePlaceholder {word : List Char} (h : ∀ c ∈ word, isNameChar c = true) :
    Scans (':' :: word) [value (String.ofList (':' :: word))] := by
  intro rest us hr hs
  refine scan_cons (by decide) ?_ hs
  rw [first, List.append_eq, symbol?_eq_none (by decide)]
  simp only [takeWhile_word h hr, dropWhile_word h hr, if_neg (show ¬(':' = '#') by decide), if_true]

/-- The tables of letters and of white space have no character in common. -/
theorem isWhiteSpace_of_isAlphabetic {c : Char} (h : Text.isAlphabetic c = true) : Text.isWhiteSpace c = false := by
  unfold Text.isAlphabetic at h
  unfold Text.isWhiteSpace
  split
  · next hlt =>
    rw [if_pos hlt] at h
    have hascii : ∀ n < 128, (Char.ofNat n).isAlpha = true → Char.ofNat n ≠ ' ' ∧
        ¬(9 ≤ n ∧ n ≤ 13) := by decide
    have := hascii c.toNat hlt (by rwa [Char.ofNat_toNat])
    rw [Char.ofNat_toNat] at this
    simpa using this
  · next hlt =>
    rw [if_neg hlt] at h
    have hapart : ∀ r ∈ Text.whiteSpaceRanges, ∀ s ∈ Text.alphabeticRanges, s.2 < r.1 ∨ r.2 < s.1 := by
      decide +kernel
    obtain ⟨s, hs, hsc⟩ := List.any_eq_true.1 h
    refine Bool.eq_false_iff.2 fun hw => ?_
    obtain ⟨r, hr, hrc⟩ := List.any_eq_true.1 hw
    have := hapart r hr s hs
    simp only [Bool.and_eq_true, decide_eq_true_eq] at hsc hrc
    omega

/-- A word that begins with a letter is taken as far as it goes. -/
theorem scans_word {c : Char} {word : List Char} (hc : Text.isAlphabetic c = true)
    (h : ∀ d ∈ word, isNameChar d = true) : Scans (c :: word) [ofWord (String.ofList (c :: word))] := by
  have hne (d : Char) (hd : Text.isAlphabetic d = false) : c ≠ d := fun he => by rw [he, hd] at hc; cases hc
  have hall : ['(', ')', ',', '+', '-', '=', '<', '>'].all (fun d => !Text.isAlphabetic d) = true := by decide
  have hsymbols (d : Char) (hd : d ∈ ['(', ')', ',', '+', '-', '=', '<', '>']) : Text.isAlphabetic d = false :=
    Bool.not_eq_eq_eq_not.1 (List.all_eq_true.1 hall d hd)
  intro rest us hr hs
  refine scan_cons (isWhiteSpace_of_isAlphabetic hc) ?_ hs
  rw [first, List.append_eq, symbol?_eq_none fun hm => hne c (hsymbols c hm) rfl]
  simp only [takeWhile_word h hr, dropWhile_word h hr, if_neg (hne '#' (by decide)),
    if_neg (hne ':' (by decide)), hc, if_true]

/-- A word whose upper case is a keyword's. -/
theorem scans_keyword {c : Char} {word : List Char} {k : Keyword} (hc : Text.isAlphabetic c = true)
    (h : ∀ d ∈ word, isNameChar d = true) (hk : Keyword.ofWord? (String.ofList (c :: word)) = some k) :
    Scans (c :: word) [keyword k] := by
  have hword := scans_word hc h
  rwa [ofWord, hk] at hword

/-- A text begins with a letter and goes on with characters of names. -/
def isWord (text : String) : Bool :=
  match text.toList with
  | [] => false
  | c :: word => Text.isAlphabetic c && word.all isNameChar

theorem scans_keywordText {text : String} {k : Keyword} (hw : isWord text = true)
    (hk : Keyword.ofWord? text = some k) : Scans text.toList [keyword k] := by
  unfold isWord at hw
  split at hw
  · cases hw
  · next c word htext =>
    rw [Bool.and_eq_true, List.all_eq_true] at hw
    rw [htext]
    exact scans_keyword hw.1 hw.2 (by rw [← htext, String.ofList_toList, hk])

/-- A function before its arguments. -/
theorem Scans.call {f cs : List Char} {k : Keyword} {ts : List Token} (hf : Scans f [keyword k])
    (hc : Scans cs ts) : Scans (f ++ ('(' :: cs ++ [')'])) (keyword k :: opening :: ts ++ [closing]) :=
  hf.append hc.parens (endsWord_symbol (by decide) _)

end Token
end ItemStore
