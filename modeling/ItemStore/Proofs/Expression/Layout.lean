import Mathlib.Data.List.TakeWhile
import ItemStore.Proofs.Expression.Scanning
import ItemStore.Proofs.Outcome
/-!
# Tokens laid out as text

`Laid ts cs` says that the text `cs` is the tokens `ts` in some spelling of each, with white space before, between and
behind them as one likes, so long as no token takes in the character behind it.  Main statement: these are the tokens
that the scanner finds (`scan_eq_ok_iff`).  White space is never taken in, so it keeps any two tokens apart.
-/
namespace ItemStore

/-! ## Characters -/

namespace Text

/-- Each range of the first list lies in one of the second, found by going through both in order. -/
def coveredBy : List (Nat × Nat) → List (Nat × Nat) → Bool
  | rs, [] => rs.isEmpty
  | rs, s :: ss => coveredBy (rs.dropWhile fun r => s.1 ≤ r.1 && r.2 ≤ s.2) ss

theorem exists_of_coveredBy : ∀ {ss rs : List (Nat × Nat)}, coveredBy rs ss = true →
    ∀ r ∈ rs, ∃ s ∈ ss, s.1 ≤ r.1 ∧ r.2 ≤ s.2
  | [], rs, h, r, hr => by
    rw [List.isEmpty_iff.1 h] at hr
    cases hr
  | s :: ss, rs, h, r, hr => by
    have hrest : coveredBy (rs.dropWhile fun r => s.1 ≤ r.1 && r.2 ≤ s.2) ss = true := h
    rw [← List.takeWhile_append_dropWhile (p := fun r => s.1 ≤ r.1 && r.2 ≤ s.2) (l := rs)] at hr
    rcases List.mem_append.1 hr with htaken | hleft
    · exact ⟨s, List.mem_cons_self, by simpa using List.mem_takeWhile_imp htaken⟩
    · obtain ⟨t, ht, hcovers⟩ := exists_of_coveredBy hrest r hleft
      exact ⟨t, List.mem_cons_of_mem s ht, hcovers⟩

/-- What has an upper case of its own is a letter. -/
theorem isAlphabetic_of_upperChar_ne {c : Char} (h : upperChar c ≠ [c]) : isAlphabetic c = true := by
  unfold upperChar at h
  unfold isAlphabetic
  split
  · next hlt =>
    rw [if_pos hlt] at h
    have hascii : ∀ n < 128, (Char.ofNat n).toUpper ≠ Char.ofNat n → (Char.ofNat n).isAlpha = true := by decide
    have hupper : c.toUpper ≠ c := fun he => h (congrArg (fun d => [d]) he)
    have := hascii c.toNat hlt
    rw [Char.ofNat_toNat] at this
    exact this hupper
  · next hlt =>
    rw [if_neg hlt, mapCase] at h
    split at h
    · next codes hlookup =>
      have hletters : coveredBy (upperExpansions.map fun e => (e.1, e.1)) alphabeticRanges = true := by decide +kernel
      obtain ⟨_, _, heq, -⟩ := List.lookup_eq_some_iff.1 hlookup
      have hmem : (c.toNat, codes) ∈ upperExpansions := by
        rw [heq]
        exact List.mem_append_right _ List.mem_cons_self
      obtain ⟨s, hs, hcovers⟩ := exists_of_coveredBy hletters _ (List.mem_map_of_mem hmem)
      exact List.any_eq_true.2 ⟨s, hs, by simpa using hcovers⟩
    · split at h
      · next r hfind =>
        have hletters : coveredBy (upperRuns.map fun r => (r.first, r.last)) alphabeticRanges =
            true := by decide +kernel
        obtain ⟨s, hs, hfirst, hlast⟩ :=
          exists_of_coveredBy hletters _ (List.mem_map_of_mem (List.mem_of_find?_eq_some hfind))
        have hcovers := List.find?_some hfind
        simp only [CaseRun.covers, Bool.and_eq_true, decide_eq_true_eq] at hcovers
        refine List.any_eq_true.2 ⟨s, hs, ?_⟩
        simp only [Bool.and_eq_true, decide_eq_true_eq]
        omega
      · exact absurd rfl h

/-- The tables of numerals and of white space have no character in common. -/
theorem isWhiteSpace_of_isAlphanumeric {c : Char} (h : isAlphanumeric c = true) : isWhiteSpace c = false := by
  by_cases hletter : isAlphabetic c = true
  · exact Token.isWhiteSpace_of_isAlphabetic hletter
  unfold isAlphanumeric at h
  unfold isAlphabetic at hletter
  split at h
  · next hlt =>
    rw [if_pos hlt] at hletter
    rw [Char.isAlphanum, Bool.or_eq_true] at h
    exact isWhiteSpace_of_isDigit (h.resolve_left hletter)
  · next hlt =>
    rw [if_neg hlt] at hletter
    rw [isWhiteSpace, if_neg hlt]
    have hapart : ∀ r ∈ whiteSpaceRanges, ∀ s ∈ numericRanges, s.2 < r.1 ∨ r.2 < s.1 := by decide +kernel
    obtain ⟨s, hs, hsc⟩ := List.any_eq_true.1 ((Bool.or_eq_true _ _ ▸ h).resolve_left hletter)
    refine Bool.eq_false_iff.2 fun hw => ?_
    obtain ⟨r, hr, hrc⟩ := List.any_eq_true.1 hw
    have := hapart r hr s hs
    simp only [Bool.and_eq_true, decide_eq_true_eq] at hsc hrc
    omega

end Text

namespace Token

theorem isNameChar_of_isAlphabetic {c : Char} (h : Text.isAlphabetic c = true) : isNameChar c = true := by
  unfold Text.isAlphabetic at h
  unfold isNameChar Text.isAlphanumeric
  split
  · next hlt =>
    rw [if_pos hlt] at h
    rw [Char.isAlphanum, h]
    rfl
  · next hlt =>
    rw [if_neg hlt] at h
    rw [h]
    rfl

theorem isNameChar_of_isWhiteSpace {c : Char} (h : Text.isWhiteSpace c = true) : isNameChar c = false := by
  refine Bool.eq_false_iff.2 fun hname => ?_
  rcases Bool.or_eq_true _ _ ▸ hname with halphanumeric | hline
  · rw [Text.isWhiteSpace_of_isAlphanumeric halphanumeric] at h
    cases h
  · rw [eq_of_beq hline] at h
    exact absurd h (by decide)

/-- A word that is a keyword in upper case begins with a letter and goes on with characters of names. -/
theorem keyword_isWord {cs : List Char} {k : Keyword} (h : Text.upper (String.ofList cs) = k.spelling) :
    ∃ c word, cs = c :: word ∧ Text.isAlphabetic c = true ∧ ∀ d ∈ word, isNameChar d = true := by
  have hupper : cs.flatMap Text.upperChar = k.spelling.toList := by
    rw [← h, Text.upper, String.toList_ofList, String.toList_ofList]
  cases cs with
  | nil => cases k <;> exact absurd hupper (by decide)
  | cons c word =>
    rw [List.flatMap_cons] at hupper
    -- a character that is its own upper case stands in the keyword as it is
    have hname : k.spelling.toList.all isNameChar = true := by cases k <;> decide
    have hletter : k.spelling.toList.head?.all Text.isAlphabetic = true := by cases k <;> decide
    refine ⟨c, word, rfl, ?_, fun d hd => ?_⟩
    · by_cases hc : Text.upperChar c = [c]
      · refine (Option.all_eq_true _ _).1 hletter c ?_
        rw [← hupper, hc]
        rfl
      · exact Text.isAlphabetic_of_upperChar_ne hc
    · by_cases hc : Text.upperChar d = [d]
      · refine List.all_eq_true.1 hname d ?_
        rw [← hupper]
        exact List.mem_append_right _ (List.mem_flatMap.2 ⟨d, hd, by rw [hc]; exact List.mem_singleton_self d⟩)
      · exact isNameChar_of_isAlphabetic (Text.isAlphabetic_of_upperChar_ne hc)

/-! ## The spellings of a token -/

/-- The texts of a token.  A keyword may be spelled in any way that is the keyword in upper case, and the words that
begin with a letter and are no keywords are identifiers. -/
inductive Spelling : Token → List Char → Prop where
  | compare (op : Comparator) : Spelling (.compare op) op.symbol.toList
  | plus : Spelling .plus ['+']
  | minus : Spelling .minus ['-']
  | opening : Spelling .opening ['(']
  | closing : Spelling .closing [')']
  | comma : Spelling .comma [',']
  | keyword {k : Keyword} {cs : List Char} : Text.upper (String.ofList cs) = k.spelling → Spelling (.keyword k) cs
  | identifier {c : Char} {cs : List Char} : Text.isAlphabetic c = true → (∀ d ∈ cs, isNameChar d = true) →
      (∀ k : Keyword, Text.upper (String.ofList (c :: cs)) ≠ k.spelling) →
      Spelling (.identifier (String.ofList (c :: cs))) (c :: cs)
  | name {cs : List Char} : (∀ d ∈ cs, isNameChar d = true) → Spelling (.name (String.ofList ('#' :: cs))) ('#' :: cs)
  | value {cs : List Char} : (∀ d ∈ cs, isNameChar d = true) →
      Spelling (.value (String.ofList (':' :: cs))) (':' :: cs)

/-- The token would take in a character that stood right behind it. -/
def takesIn : Token → Char → Bool
  | compare .lt, c => c == '=' || c == '>'
  | compare .gt, c => c == '='
  | keyword _, c | identifier _, c | name _, c | value _, c => isNameChar c
  | _, _ => false

/-- The token ends where the text goes on. -/
def EndsBefore (t : Token) (rest : List Char) : Prop := ∀ c ∈ rest.head?, t.takesIn c = false

inductive Laid : List Token → List Char → Prop where
  | blank {gap : List Char} : (∀ c ∈ gap, Text.isWhiteSpace c = true) → Laid [] gap
  | token {gap word rest : List Char} {t : Token} {ts : List Token} : (∀ c ∈ gap, Text.isWhiteSpace c = true) →
      Spelling t word → t.EndsBefore rest → Laid ts rest → Laid (t :: ts) (gap ++ (word ++ rest))

/-- **White space keeps a token from what stands behind it.** -/
theorem endsBefore_of_isWhiteSpace (t : Token) {c : Char} (h : Text.isWhiteSpace c = true) (rest : List Char) :
    t.EndsBefore (c :: rest) := by
  intro d hd
  cases hd
  have hname := isNameChar_of_isWhiteSpace h
  have hsymbol : ∀ d, Text.isWhiteSpace d = false → (c == d) = false := fun d hd =>
    beq_false_of_ne fun he => by rw [he, hd] at h; cases h
  cases t with
  | compare op => cases op <;> simp [takesIn, hsymbol '=' (by decide), hsymbol '>' (by decide)]
  | keyword k => exact hname
  | identifier word => exact hname
  | name placeholder => exact hname
  | value placeholder => exact hname
  | _ => rfl

/-! ## What is laid out is scanned -/

theorem scan_gap : ∀ {gap : List Char}, (∀ c ∈ gap, Text.isWhiteSpace c = true) → ∀ cs, scan (gap ++ cs) = scan cs
  | [], _, _ => rfl
  | c :: gap, h, cs => by
    obtain ⟨hc, hgap⟩ := List.forall_mem_cons.1 h
    rw [List.cons_append, scan_blank hc, scan_gap hgap]

theorem ofWord?_eq_none {word : String} (h : ∀ k : Keyword, Text.upper word ≠ k.spelling) :
    Keyword.ofWord? word = none := by
  refine List.find?_eq_none.2 fun k _ hk => h k ?_
  exact (eq_of_beq hk).symm

theorem ofWord?_eq_some_iff {word : String} {k : Keyword} :
    Keyword.ofWord? word = some k ↔ Text.upper word = k.spelling := by
  constructor
  · intro h
    have hfound := List.find?_some (h : Keyword.all.find? (fun k => k.spelling == Text.upper word) = some k)
    exact (eq_of_beq hfound).symm
  · intro h
    rw [Keyword.ofWord?, h]
    cases k <;> decide

theorem symbol?_lt {rest : List Char} (h : EndsBefore (compare .lt) rest) :
    symbol? ('<' :: rest) = some (compare .lt, rest) := by
  cases rest with
  | nil => rfl
  | cons c rest =>
    have hc := h c rfl
    simp only [takesIn, Bool.or_eq_false_iff, beq_eq_false_iff_ne] at hc
    unfold symbol?
    split <;> simp_all

theorem symbol?_gt {rest : List Char} (h : EndsBefore (compare .gt) rest) :
    symbol? ('>' :: rest) = some (compare .gt, rest) := by
  cases rest with
  | nil => rfl
  | cons c rest =>
    have hc := h c rfl
    simp only [takesIn, beq_eq_false_iff_ne] at hc
    unfold symbol?
    split <;> simp_all

theorem scan_spelling {t : Token} {word rest : List Char} {us : List Token} (h : Spelling t word)
    (hrest : t.EndsBefore rest) (hs : scan rest = .ok us) : scan (word ++ rest) = .ok (t :: us) := by
  cases h with
  | compare op =>
    cases op with
    | lt => exact scan_cons (by decide) (first_symbol (symbol?_lt hrest)) hs
    | gt => exact scan_cons (by decide) (first_symbol (symbol?_gt hrest)) hs
    | _ => exact scan_cons (by decide) (first_symbol rfl) hs
  | keyword hk =>
    obtain ⟨c, word, rfl, hc, hword⟩ := keyword_isWord hk
    exact scans_keyword hc hword (ofWord?_eq_some_iff.2 hk) rest us hrest hs
  | identifier hc hword hno =>
    have h := scans_word hc hword rest us hrest hs
    rwa [ofWord, ofWord?_eq_none hno] at h
  | name hword => exact scans_namePlaceholder hword rest us hrest hs
  | value hword => exact scans_valuePlaceholder hword rest us hrest hs
  | _ => exact scan_cons (by decide) (first_symbol rfl) hs

theorem Laid.scan_eq {ts : List Token} {cs : List Char} (h : Laid ts cs) : scan cs = .ok ts := by
  induction h with
  | @blank gap hgap =>
    have := scan_gap hgap []
    rwa [List.append_nil, scan_nil] at this
  | token hgap hword hrest _ ih => rw [scan_gap hgap, scan_spelling hword hrest ih]

/-! ## What is scanned is laid out -/

theorem Laid.cons_blank {c : Char} (hc : Text.isWhiteSpace c = true) {ts : List Token} {cs : List Char}
    (h : Laid ts cs) : Laid ts (c :: cs) := by
  cases h with
  | blank hgap => exact .blank (List.forall_mem_cons.2 ⟨hc, hgap⟩)
  | @token gap word rest t ts hgap hword hrest hlaid =>
    have htoken := Laid.token (List.forall_mem_cons.2 ⟨hc, hgap⟩) hword hrest hlaid
    exact htoken

theorem endsWord_dropWhile (cs : List Char) : EndsWord (cs.dropWhile isNameChar) := by
  intro c hc
  have := List.head?_dropWhile_not isNameChar cs
  rw [Option.mem_def.1 hc] at this
  exact this

theorem spelling_of_symbol? {cs rest : List Char} {t : Token} (h : symbol? cs = some (t, rest)) :
    ∃ word, cs = word ++ rest ∧ Spelling t word ∧ t.EndsBefore rest := by
  unfold symbol? at h
  split at h
  case h_12 => cases h
  case h_9 hne hle =>
    cases h
    refine ⟨_, rfl, .compare .lt, fun c hc => ?_⟩
    obtain ⟨rest, rfl⟩ := List.head?_eq_some_iff.1 hc
    simp only [takesIn, Bool.or_eq_false_iff, beq_eq_false_iff_ne]
    exact ⟨fun he => hle rest (he ▸ rfl), fun he => hne rest (he ▸ rfl)⟩
  case h_11 hge =>
    cases h
    refine ⟨_, rfl, .compare .gt, fun c hc => ?_⟩
    obtain ⟨rest, rfl⟩ := List.head?_eq_some_iff.1 hc
    simp only [takesIn, beq_eq_false_iff_ne]
    exact fun he => hge rest (he ▸ rfl)
  all_goals
    cases h
    refine ⟨_, rfl, by constructor, fun _ _ => rfl⟩

theorem spelling_of_first {c : Char} {cs rest : List Char} {t : Token} (h : first c cs = .ok (t, rest)) :
    ∃ word, c :: cs = word ++ rest ∧ Spelling t word ∧ t.EndsBefore rest := by
  have hsplit : c :: cs = (c :: cs.takeWhile isNameChar) ++ cs.dropWhile isNameChar := by
    rw [List.cons_append, List.takeWhile_append_dropWhile]
  have hword : ∀ d ∈ cs.takeWhile isNameChar, isNameChar d = true := List.all_eq_true.1 List.all_takeWhile
  unfold first at h
  split at h
  · next hs =>
    cases h
    exact spelling_of_symbol? hs
  · dsimp only at h
    split at h
    · next hname =>
      cases h
      subst hname
      exact ⟨_, hsplit, .name hword, endsWord_dropWhile cs⟩
    · split at h
      · next hvalue =>
        cases h
        subst hvalue
        exact ⟨_, hsplit, .value hword, endsWord_dropWhile cs⟩
      · split at h
        · next hletter =>
          cases h
          refine ⟨_, hsplit, ?_⟩
          unfold ofWord
          split
          · next k hk => exact ⟨.keyword (ofWord?_eq_some_iff.1 hk), endsWord_dropWhile cs⟩
          · next hnone =>
            refine ⟨.identifier hletter hword fun k hk => ?_, endsWord_dropWhile cs⟩
            rw [ofWord?_eq_some_iff.2 hk] at hnone
            cases hnone
        · cases h

theorem laid_of_scan (cs : List Char) {ts : List Token} (h : scan cs = .ok ts) : Laid ts cs := by
  -- on the text, of which every token takes at least one character
  induction hn : cs.length using Nat.strongRecOn generalizing cs ts with
  | _ n ih =>
    cases cs with
    | nil =>
      rw [scan_nil] at h
      cases h
      exact .blank nofun
    | cons c cs =>
      rw [List.length_cons] at hn
      by_cases hc : Text.isWhiteSpace c = true
      · rw [scan_blank hc] at h
        exact (ih cs.length (by omega) cs h rfl).cons_blank hc
      · rw [scan, if_neg hc] at h
        split at h
        · cases h
        · next p hfirst =>
          obtain ⟨t, rest⟩ := p
          obtain ⟨us, hrest, h⟩ := Outcome.bind_eq_ok.1 h
          cases h
          have hlength : rest.length ≤ cs.length := length_of_first hfirst
          obtain ⟨word, hsplit, hspelling, hends⟩ := spelling_of_first hfirst
          rw [hsplit]
          have htoken := Laid.token (List.forall_mem_nil _) hspelling hends (ih rest.length (by omega) rest hrest rfl)
          exact htoken

/-- **The scanner finds the tokens that a text is laid out as, and no others.** -/
theorem scan_eq_ok_iff {cs : List Char} {ts : List Token} : scan cs = .ok ts ↔ Laid ts cs :=
  ⟨laid_of_scan cs, Laid.scan_eq⟩

end Token
end ItemStore
