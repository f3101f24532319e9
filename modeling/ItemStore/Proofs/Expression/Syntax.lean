import ItemStore.Proofs.Expression.Grammar
import ItemStore.Proofs.Expression.Layout
/-!
# Formulas and their texts

The reader takes the tokens that spell a formula and no others (`ofTokens_eq_ok_iff`), and the scanner finds them in any
text they are laid out as.  So a text is read as a formula exactly if it is a text of that formula, and then of no other
one (`formulas_are_read_from_their_texts`).  The formulas that have a text are those without empty lists of candidates
whose names are placeholders or identifiers.
-/
namespace ItemStore
namespace Formula

open Outcome (bind_eq_ok)
open Token (expect takePath Spelling Laid)

/-! ## What is read is spelled -/

theorem expect_eq_ok {t : Token} {ts us : List Token} : expect t ts = .ok us ↔ ts = t :: us := by
  cases ts with
  | nil => simp [expect]
  | cons u ts =>
    rw [expect, Outcome.guard_eq_ok, List.cons.injEq]
    simp

theorem exists_of_takePath {place p : String} {ts us : List Token} (h : takePath place ts = .ok (p, us)) :
    ∃ t, IsPath p t ∧ ts = t :: us := by
  unfold takePath at h
  split at h
  · cases h
    exact ⟨_, .identifier p, rfl⟩
  · cases h
    exact ⟨_, .name p, rfl⟩
  · cases h

/-- The tokens at the front of `ts`, down to `rest`, spell the phrase. -/
def Phrase.Takes (phrase : Phrase) (ts rest : List Token) : Prop := ∃ us, ts = us ++ rest ∧ Spelled phrase us

/-- What the readers give back, with this much fuel, is spelled by the tokens that they take.  The loops lengthen what
is spelled before them. -/
structure ReadsSpelled (fuel : Nat) : Prop where
  disjunction {ts rest f} : readDisjunction fuel ts = .ok (f, rest) → (Phrase.disjunction f).Takes ts rest
  moreDisjuncts {left ts rest f} : readMoreDisjuncts fuel left ts = .ok (f, rest) →
    ∀ {us}, Spelled (.disjunction left) us → ∃ vs, ts = vs ++ rest ∧ Spelled (.disjunction f) (us ++ vs)
  conjunction {ts rest f} : readConjunction fuel ts = .ok (f, rest) → (Phrase.conjunction f).Takes ts rest
  moreConjuncts {left ts rest f} : readMoreConjuncts fuel left ts = .ok (f, rest) →
    ∀ {us}, Spelled (.conjunction left) us → ∃ vs, ts = vs ++ rest ∧ Spelled (.conjunction f) (us ++ vs)
  negation {ts rest f} : readNegation fuel ts = .ok (f, rest) → (Phrase.negation f).Takes ts rest
  comparison {ts rest f} : readComparison fuel ts = .ok (f, rest) → (Phrase.comparison f).Takes ts rest
  moreCandidates {ts rest fs} : readMoreCandidates fuel ts = .ok (fs, rest) → (Phrase.moreCandidates fs).Takes ts rest
  operand {ts rest f} : readOperand fuel ts = .ok (f, rest) → (Phrase.operand f).Takes ts rest
  twoArguments {make ts rest f} : readTwoArguments fuel make ts = .ok (f, rest) → ∃ x y us vs, f = make x y ∧
    ts = .opening :: (us ++ .comma :: (vs ++ [.closing])) ++ rest ∧ Spelled (.operand x) us ∧ Spelled (.operand y) vs

namespace ReadsSpelled

theorem zero : ReadsSpelled 0 where
  disjunction h := by cases h
  moreDisjuncts h _ hleft := by
    cases h
    exact ⟨[], rfl, by rwa [List.append_nil]⟩
  conjunction h := by cases h
  moreConjuncts h _ hleft := by
    cases h
    exact ⟨[], rfl, by rwa [List.append_nil]⟩
  negation h := by cases h
  comparison h := by cases h
  moreCandidates h := by
    cases h
    exact ⟨[], rfl, .noMore⟩
  operand h := by cases h
  twoArguments h := by cases h

variable {fuel : Nat} (ih : ReadsSpelled fuel) {ts rest us : List Token} {f left : Formula}
include ih

theorem disjunction_succ (h : readDisjunction (fuel + 1) ts = .ok (f, rest)) :
    (Phrase.disjunction f).Takes ts rest := by
  rw [readDisjunction] at h
  obtain ⟨⟨left, middle⟩, hleft, hmore⟩ := bind_eq_ok.1 h
  obtain ⟨us, rfl, hus⟩ := ih.conjunction hleft
  obtain ⟨vs, rfl, hvs⟩ := ih.moreDisjuncts hmore (.ofConjunction hus)
  exact ⟨us ++ vs, (List.append_assoc ..).symm, hvs⟩

theorem moreDisjuncts_succ (h : readMoreDisjuncts (fuel + 1) left ts = .ok (f, rest))
    (hleft : Spelled (.disjunction left) us) : ∃ vs, ts = vs ++ rest ∧ Spelled (.disjunction f) (us ++ vs) := by
  unfold readMoreDisjuncts at h
  split at h
  · next n ts hfuel =>
    cases hfuel
    obtain ⟨⟨right, middle⟩, hright, hmore⟩ := bind_eq_ok.1 h
    obtain ⟨vs, rfl, hvs⟩ := ih.conjunction hright
    obtain ⟨ws, rfl, hws⟩ := ih.moreDisjuncts hmore (.or hleft hvs)
    refine ⟨.keyword .or :: (vs ++ ws), by simp, ?_⟩
    simpa using hws
  · cases h
    exact ⟨[], rfl, by rwa [List.append_nil]⟩

theorem conjunction_succ (h : readConjunction (fuel + 1) ts = .ok (f, rest)) :
    (Phrase.conjunction f).Takes ts rest := by
  rw [readConjunction] at h
  obtain ⟨⟨left, middle⟩, hleft, hmore⟩ := bind_eq_ok.1 h
  obtain ⟨us, rfl, hus⟩ := ih.negation hleft
  obtain ⟨vs, rfl, hvs⟩ := ih.moreConjuncts hmore (.ofNegation hus)
  exact ⟨us ++ vs, (List.append_assoc ..).symm, hvs⟩

theorem moreConjuncts_succ (h : readMoreConjuncts (fuel + 1) left ts = .ok (f, rest))
    (hleft : Spelled (.conjunction left) us) : ∃ vs, ts = vs ++ rest ∧ Spelled (.conjunction f) (us ++ vs) := by
  unfold readMoreConjuncts at h
  split at h
  · next n ts hfuel =>
    cases hfuel
    obtain ⟨⟨right, middle⟩, hright, hmore⟩ := bind_eq_ok.1 h
    obtain ⟨vs, rfl, hvs⟩ := ih.negation hright
    obtain ⟨ws, rfl, hws⟩ := ih.moreConjuncts hmore (.and hleft hvs)
    refine ⟨.keyword .and :: (vs ++ ws), by simp, ?_⟩
    simpa using hws
  · cases h
    exact ⟨[], rfl, by rwa [List.append_nil]⟩

theorem negation_succ (h : readNegation (fuel + 1) ts = .ok (f, rest)) : (Phrase.negation f).Takes ts rest := by
  unfold readNegation at h
  split at h
  · cases h
  · next n ts hfuel =>
    cases hfuel
    obtain ⟨⟨inner, middle⟩, hinner, h⟩ := bind_eq_ok.1 h
    cases h
    obtain ⟨us, rfl, hus⟩ := ih.negation hinner
    exact ⟨.keyword .not :: us, rfl, .not hus⟩
  · next hfuel _ =>
    cases hfuel
    obtain ⟨us, rfl, hus⟩ := ih.comparison h
    exact ⟨us, rfl, .ofComparison hus⟩

theorem comparison_succ (h : readComparison (fuel + 1) ts = .ok (f, rest)) : (Phrase.comparison f).Takes ts rest := by
  rw [readComparison] at h
  obtain ⟨⟨left, middle⟩, hleft, hbehind⟩ := bind_eq_ok.1 h
  obtain ⟨us, rfl, hus⟩ := ih.operand hleft
  dsimp only at hbehind
  split at hbehind
  · next op ts =>
    obtain ⟨⟨right, _⟩, hright, hend⟩ := bind_eq_ok.1 hbehind
    cases hend
    obtain ⟨vs, rfl, hvs⟩ := ih.operand hright
    exact ⟨us ++ .compare op :: vs, by simp, .compare op hus hvs⟩
  · next ts =>
    obtain ⟨⟨low, _⟩, hlow, hbehind⟩ := bind_eq_ok.1 hbehind
    obtain ⟨_, hand, hbehind⟩ := bind_eq_ok.1 hbehind
    obtain ⟨⟨high, _⟩, hhigh, hend⟩ := bind_eq_ok.1 hbehind
    cases hend
    obtain ⟨vs, rfl, hvs⟩ := ih.operand hlow
    obtain rfl := expect_eq_ok.1 hand
    obtain ⟨ws, rfl, hws⟩ := ih.operand hhigh
    exact ⟨us ++ .keyword .between :: (vs ++ .keyword .and :: ws), by simp, .between hus hvs hws⟩
  · next ts =>
    obtain ⟨_, hopening, hbehind⟩ := bind_eq_ok.1 hbehind
    obtain ⟨⟨c, _⟩, hfirst, hbehind⟩ := bind_eq_ok.1 hbehind
    obtain ⟨⟨more, _⟩, hmore, hbehind⟩ := bind_eq_ok.1 hbehind
    obtain ⟨_, hclosing, hend⟩ := bind_eq_ok.1 hbehind
    cases hend
    obtain rfl := expect_eq_ok.1 hopening
    obtain ⟨vs, rfl, hvs⟩ := ih.operand hfirst
    obtain ⟨ws, rfl, hws⟩ := ih.moreCandidates hmore
    obtain rfl := expect_eq_ok.1 hclosing
    exact ⟨us ++ .keyword .isIn :: .opening :: (vs ++ (ws ++ [.closing])), by simp, .isIn hus hvs hws⟩
  · cases hbehind
    exact ⟨us, rfl, .ofOperand hus⟩

theorem moreCandidates_succ {fs : List Formula} (h : readMoreCandidates (fuel + 1) ts = .ok (fs, rest)) :
    (Phrase.moreCandidates fs).Takes ts rest := by
  unfold readMoreCandidates at h
  split at h
  · next n ts hfuel =>
    cases hfuel
    obtain ⟨⟨x, middle⟩, hx, h⟩ := bind_eq_ok.1 h
    obtain ⟨⟨xs, _⟩, hxs, h⟩ := bind_eq_ok.1 h
    cases h
    obtain ⟨us, rfl, hus⟩ := ih.operand hx
    obtain ⟨vs, rfl, hvs⟩ := ih.moreCandidates hxs
    exact ⟨.comma :: (us ++ vs), by simp, .more hus hvs⟩
  · cases h
    exact ⟨[], rfl, .noMore⟩

omit ih in
theorem exists_of_readPathArgument {make : String → Formula} (h : readPathArgument make ts = .ok (f, rest)) :
    ∃ p t, IsPath p t ∧ f = make p ∧ ts = [.opening, t, .closing] ++ rest := by
  rw [readPathArgument] at h
  obtain ⟨middle, hopening, h⟩ := bind_eq_ok.1 h
  obtain ⟨⟨p, _⟩, hp, h⟩ := bind_eq_ok.1 h
  obtain ⟨_, hclosing, h⟩ := bind_eq_ok.1 h
  cases h
  obtain rfl := expect_eq_ok.1 hopening
  obtain ⟨t, ht, rfl⟩ := exists_of_takePath hp
  obtain rfl := expect_eq_ok.1 hclosing
  exact ⟨p, t, ht, rfl, rfl⟩

theorem operand_succ (h : readOperand (fuel + 1) ts = .ok (f, rest)) : (Phrase.operand f).Takes ts rest := by
  unfold readOperand at h
  split at h
  case h_1 => cases h
  case h_2 n ts hfuel =>
    cases hfuel
    obtain ⟨⟨inner, middle⟩, hinner, h⟩ := bind_eq_ok.1 h
    obtain ⟨_, hclosing, h⟩ := bind_eq_ok.1 h
    cases h
    obtain ⟨us, rfl, hus⟩ := ih.disjunction hinner
    obtain rfl := expect_eq_ok.1 hclosing
    exact ⟨.opening :: us ++ [.closing], by simp, .parens hus⟩
  case h_3 p ts _ =>
    cases h
    exact ⟨[.identifier p], rfl, .path (.identifier p)⟩
  case h_4 p ts _ =>
    cases h
    exact ⟨[.name p], rfl, .path (.name p)⟩
  case h_5 p ts _ =>
    cases h
    exact ⟨[.value p], rfl, .value p⟩
  case h_6 ts _ =>
    obtain ⟨p, t, ht, rfl, rfl⟩ := exists_of_readPathArgument h
    exact ⟨[.keyword .attributeExists, .opening, t, .closing], rfl, .present ht⟩
  case h_7 ts _ =>
    obtain ⟨p, t, ht, rfl, rfl⟩ := exists_of_readPathArgument h
    exact ⟨[.keyword .attributeNotExists, .opening, t, .closing], rfl, .absent ht⟩
  case h_8 n ts hfuel =>
    cases hfuel
    obtain ⟨middle, hopening, h⟩ := bind_eq_ok.1 h
    obtain ⟨⟨p, _⟩, hp, h⟩ := bind_eq_ok.1 h
    obtain ⟨_, hcomma, h⟩ := bind_eq_ok.1 h
    obtain ⟨⟨tag, _⟩, htag, h⟩ := bind_eq_ok.1 h
    obtain ⟨_, hclosing, h⟩ := bind_eq_ok.1 h
    cases h
    obtain rfl := expect_eq_ok.1 hopening
    obtain ⟨t, ht, rfl⟩ := exists_of_takePath hp
    obtain rfl := expect_eq_ok.1 hcomma
    obtain ⟨us, rfl, hus⟩ := ih.operand htag
    obtain rfl := expect_eq_ok.1 hclosing
    exact ⟨.keyword .attributeType :: .opening :: t :: .comma :: (us ++ [.closing]), by simp, .hasType ht hus⟩
  case h_9 n ts hfuel =>
    cases hfuel
    obtain ⟨x, y, us, vs, rfl, rfl, hus, hvs⟩ := ih.twoArguments h
    exact ⟨.keyword .beginsWith :: .opening :: (us ++ .comma :: (vs ++ [.closing])), rfl, .beginsWith hus hvs⟩
  case h_10 n ts hfuel =>
    cases hfuel
    obtain ⟨x, y, us, vs, rfl, rfl, hus, hvs⟩ := ih.twoArguments h
    exact ⟨.keyword .contains :: .opening :: (us ++ .comma :: (vs ++ [.closing])), rfl, .contains hus hvs⟩
  case h_11 => cases h

theorem twoArguments_succ {make : Formula → Formula → Formula}
    (h : readTwoArguments (fuel + 1) make ts = .ok (f, rest)) : ∃ x y us vs, f = make x y ∧
      ts = .opening :: (us ++ .comma :: (vs ++ [.closing])) ++ rest ∧ Spelled (.operand x) us ∧
        Spelled (.operand y) vs := by
  rw [readTwoArguments] at h
  obtain ⟨middle, hopening, h⟩ := bind_eq_ok.1 h
  obtain ⟨⟨x, _⟩, hx, h⟩ := bind_eq_ok.1 h
  obtain ⟨_, hcomma, h⟩ := bind_eq_ok.1 h
  obtain ⟨⟨y, _⟩, hy, h⟩ := bind_eq_ok.1 h
  obtain ⟨_, hclosing, h⟩ := bind_eq_ok.1 h
  cases h
  obtain rfl := expect_eq_ok.1 hopening
  obtain ⟨us, rfl, hus⟩ := ih.operand hx
  obtain rfl := expect_eq_ok.1 hcomma
  obtain ⟨vs, rfl, hvs⟩ := ih.operand hy
  obtain rfl := expect_eq_ok.1 hclosing
  exact ⟨x, y, us, vs, rfl, by simp, hus, hvs⟩

end ReadsSpelled

theorem readsSpelled : ∀ fuel, ReadsSpelled fuel
  | 0 => .zero
  | fuel + 1 =>
    have ih := readsSpelled fuel
    { disjunction := ih.disjunction_succ
      moreDisjuncts := fun h _ => ih.moreDisjuncts_succ h
      conjunction := ih.conjunction_succ
      moreConjuncts := fun h _ => ih.moreConjuncts_succ h
      negation := ih.negation_succ
      comparison := ih.comparison_succ
      moreCandidates := ih.moreCandidates_succ
      operand := ih.operand_succ
      twoArguments := ih.twoArguments_succ }

theorem expectEnd_eq_ok {ts : List Token} : Token.expectEnd ts = .ok () ↔ ts = [] := by
  cases ts <;> simp [Token.expectEnd]

/-- **All tokens are read as a formula exactly if they spell it.** -/
theorem ofTokens_eq_ok_iff {ts : List Token} {f : Formula} : ofTokens ts = .ok f ↔ Spelled (.disjunction f) ts := by
  refine ⟨fun h => ?_, ofTokens_of_spelled⟩
  rw [ofTokens] at h
  obtain ⟨⟨g, rest⟩, hread, h⟩ := bind_eq_ok.1 h
  obtain ⟨_, hend, h⟩ := bind_eq_ok.1 h
  cases h
  obtain rfl := expectEnd_eq_ok.1 hend
  obtain ⟨us, rfl, hus⟩ := (readsSpelled _).disjunction hread
  rwa [List.append_nil]

/-! ## Texts -/

/-- The text spells the formula: it has the parentheses that precedence asks for, and any others, with white space where
one likes. -/
def WrittenAs (f : Formula) (text : String) : Prop := ∃ ts, Spelled (.disjunction f) ts ∧ Laid ts text.toList

theorem parse_eq_ok_iff {f : Formula} {text : String} : parse text = .ok f ↔ f.WrittenAs text := by
  rw [parse, bind_eq_ok]
  refine exists_congr fun ts => ?_
  rw [Token.scan_eq_ok_iff, ofTokens_eq_ok_iff, and_comm]

/-- No text is a text of two formulas. -/
theorem WrittenAs.unique {f g : Formula} {text : String} (hf : f.WrittenAs text) (hg : g.WrittenAs text) : f = g :=
  Except.ok.inj ((parse_eq_ok_iff.2 hf).symm.trans (parse_eq_ok_iff.2 hg))

/-! ## The formulas that have a text -/

/-- Some text is the token. -/
def HasText (t : Token) : Prop := ∃ word, Spelling t word

/-- A placeholder for a name, or an identifier that is no keyword. -/
def PathReadable (p : String) : Prop := ∃ t, IsPath p t ∧ HasText t

/-- No list of candidates is empty, and the scanner can read all names. -/
inductive Readable : Formula → Prop where
  | compare {op x y} : Readable x → Readable y → Readable (.compare op x y)
  | between {x low high} : Readable x → Readable low → Readable high → Readable (.between x low high)
  | isIn {x candidates} : Readable x → candidates ≠ [] → (∀ c ∈ candidates, Readable c) →
      Readable (.isIn x candidates)
  | and {x y} : Readable x → Readable y → Readable (.and x y)
  | or {x y} : Readable x → Readable y → Readable (.or x y)
  | not {x} : Readable x → Readable (.not x)
  | present {p} : PathReadable p → Readable (.present p)
  | absent {p} : PathReadable p → Readable (.absent p)
  | hasType {p tag} : PathReadable p → Readable tag → Readable (.hasType p tag)
  | beginsWith {x start} : Readable x → Readable start → Readable (.beginsWith x start)
  | contains {x part} : Readable x → Readable part → Readable (.contains x part)
  | path {p} : PathReadable p → Readable (.path p)
  | value {p} : HasText (.value p) → Readable (.value p)

@[simp] theorem hasText_compare (op : Comparator) : HasText (.compare op) := ⟨_, .compare op⟩

@[simp] theorem hasText_opening : HasText .opening := ⟨_, .opening⟩

@[simp] theorem hasText_closing : HasText .closing := ⟨_, .closing⟩

@[simp] theorem hasText_comma : HasText .comma := ⟨_, .comma⟩

@[simp] theorem hasText_keyword (k : Keyword) : HasText (.keyword k) :=
  ⟨k.spelling.toList, .keyword (by cases k <;> decide)⟩

theorem exists_laid : ∀ {ts : List Token}, (∀ t ∈ ts, HasText t) → ∃ cs, Laid ts cs
  | [], _ => ⟨[], .blank nofun⟩
  | t :: ts, h => by
    obtain ⟨⟨word, hword⟩, hts⟩ := List.forall_mem_cons.1 h
    obtain ⟨cs, hcs⟩ := exists_laid hts
    have hblank : Laid ts (' ' :: cs) := hcs.cons_blank (by decide)
    exact ⟨[] ++ (word ++ ' ' :: cs), .token nofun hword (t.endsBefore_of_isWhiteSpace (by decide) cs) hblank⟩

theorem hasText_of_laid {ts : List Token} {cs : List Char} (h : Laid ts cs) : ∀ t ∈ ts, HasText t := by
  induction h with
  | blank _ => exact nofun
  | token _ hword _ _ ih => exact List.forall_mem_cons.2 ⟨⟨_, hword⟩, ih⟩

/-- The formulas of a phrase are readable. -/
def Phrase.Readable : Phrase → Prop
  | .disjunction f | .conjunction f | .negation f | .comparison f | .operand f => f.Readable
  | .moreCandidates fs => ∀ f ∈ fs, f.Readable

theorem readable_of_spelled {phrase : Phrase} {ts : List Token} (h : Spelled phrase ts) (hts : ∀ t ∈ ts, HasText t) :
    phrase.Readable := by
  induction h with
  | ofConjunction _ ih | ofNegation _ ih | ofComparison _ ih | ofOperand _ ih => exact ih hts
  | or _ _ ihl ihr =>
    simp only [List.forall_mem_append, List.forall_mem_cons] at hts
    exact .or (ihl hts.1) (ihr hts.2.2)
  | and _ _ ihl ihr =>
    simp only [List.forall_mem_append, List.forall_mem_cons] at hts
    exact .and (ihl hts.1) (ihr hts.2.2)
  | not _ ih => exact .not (ih (List.forall_mem_cons.1 hts).2)
  | compare op _ _ ihl ihr =>
    simp only [List.forall_mem_append, List.forall_mem_cons] at hts
    exact .compare (ihl hts.1) (ihr hts.2.2)
  | between _ _ _ ihx ihlow ihhigh =>
    simp only [List.forall_mem_append, List.forall_mem_cons] at hts
    obtain ⟨hx, -, hlow, -, hhigh⟩ := hts
    exact .between (ihx hx) (ihlow hlow) (ihhigh hhigh)
  | isIn _ _ _ ihx ihc ihcs =>
    simp only [List.forall_mem_append, List.forall_mem_cons] at hts
    obtain ⟨hx, -, -, hc, hcs, -⟩ := hts
    exact .isIn (ihx hx) (List.cons_ne_nil _ _) (List.forall_mem_cons.2 ⟨ihc hc, ihcs hcs⟩)
  | parens _ ih =>
    simp only [List.cons_append, List.forall_mem_append, List.forall_mem_cons] at hts
    exact ih hts.2.1
  | path hp => exact .path ⟨_, hp, hts _ List.mem_cons_self⟩
  | value p => exact .value (hts _ List.mem_cons_self)
  | present hp => exact .present ⟨_, hp, hts _ (by simp)⟩
  | absent hp => exact .absent ⟨_, hp, hts _ (by simp)⟩
  | hasType hp _ ih =>
    simp only [List.forall_mem_append, List.forall_mem_cons] at hts
    obtain ⟨-, -, ht, -, htag, -⟩ := hts
    exact .hasType ⟨_, hp, ht⟩ (ih htag)
  | beginsWith _ _ ihx ihy =>
    simp only [List.forall_mem_append, List.forall_mem_cons] at hts
    obtain ⟨-, -, hx, -, hy, -⟩ := hts
    exact .beginsWith (ihx hx) (ihy hy)
  | contains _ _ ihx ihy =>
    simp only [List.forall_mem_append, List.forall_mem_cons] at hts
    obtain ⟨-, -, hx, -, hy, -⟩ := hts
    exact .contains (ihx hx) (ihy hy)
  | noMore => exact nofun
  | more _ _ ihx ihxs =>
    simp only [List.forall_mem_append, List.forall_mem_cons] at hts
    exact List.forall_mem_cons.2 ⟨ihx hts.2.1, ihxs hts.2.2⟩

/-- Tokens that have texts spell the phrase. -/
def Phrase.HasTokens (phrase : Phrase) : Prop := ∃ ts, Spelled phrase ts ∧ ∀ t ∈ ts, HasText t

namespace Phrase.HasTokens

variable {f : Formula}

/-- In parentheses any formula is an operand. -/
theorem parens (h : (Phrase.disjunction f).HasTokens) : (Phrase.operand f).HasTokens := by
  obtain ⟨ts, hspelled, hts⟩ := h
  refine ⟨_, .parens hspelled, ?_⟩
  simp only [List.cons_append, List.forall_mem_append, List.forall_mem_cons]
  exact ⟨hasText_opening, hts, hasText_closing, nofun⟩

theorem ofConjunction (h : (Phrase.conjunction f).HasTokens) : (Phrase.operand f).HasTokens :=
  parens (h.imp fun _ hts => ⟨.ofConjunction hts.1, hts.2⟩)

theorem ofNegation (h : (Phrase.negation f).HasTokens) : (Phrase.operand f).HasTokens :=
  ofConjunction (h.imp fun _ hts => ⟨.ofNegation hts.1, hts.2⟩)

theorem ofComparison (h : (Phrase.comparison f).HasTokens) : (Phrase.operand f).HasTokens :=
  ofNegation (h.imp fun _ hts => ⟨.ofComparison hts.1, hts.2⟩)

theorem moreCandidates : ∀ {fs : List Formula}, (∀ f ∈ fs, (Phrase.operand f).HasTokens) →
    (Phrase.moreCandidates fs).HasTokens
  | [], _ => ⟨[], .noMore, nofun⟩
  | f :: fs, h => by
    obtain ⟨⟨ts, hf, hts⟩, hrest⟩ := List.forall_mem_cons.1 h
    obtain ⟨us, hfs, hus⟩ := moreCandidates hrest
    refine ⟨_, .more hf hfs, ?_⟩
    simp only [List.forall_mem_append, List.forall_mem_cons]
    exact ⟨hasText_comma, hts, hus⟩

end Phrase.HasTokens

open Phrase.HasTokens in
/-- With every part in parentheses, a readable formula is an operand. -/
theorem Readable.hasTokens {f : Formula} (h : f.Readable) : (Phrase.operand f).HasTokens := by
  induction h with
  | compare _ _ ihx ihy =>
    obtain ⟨ts, hx, hts⟩ := ihx
    obtain ⟨us, hy, hus⟩ := ihy
    exact ofComparison ⟨_, .compare _ hx hy, by simpa [or_imp, forall_and] using ⟨hts, hus⟩⟩
  | between _ _ _ ihx ihlow ihhigh =>
    obtain ⟨ts, hx, hts⟩ := ihx
    obtain ⟨us, hlow, hus⟩ := ihlow
    obtain ⟨vs, hhigh, hvs⟩ := ihhigh
    exact ofComparison ⟨_, .between hx hlow hhigh, by simpa [or_imp, forall_and] using ⟨hts, hus, hvs⟩⟩
  | @isIn x candidates _ hne _ ihx ihc =>
    cases candidates with
    | nil => exact absurd rfl hne
    | cons c cs =>
      obtain ⟨ts, hx, hts⟩ := ihx
      obtain ⟨⟨us, hc, hus⟩, hrest⟩ := List.forall_mem_cons.1 ihc
      obtain ⟨vs, hcs, hvs⟩ := moreCandidates hrest
      exact ofComparison ⟨_, .isIn hx hc hcs, by simpa [or_imp, forall_and] using ⟨hts, hus, hvs⟩⟩
  | and _ _ ihx ihy =>
    obtain ⟨ts, hx, hts⟩ := ihx
    obtain ⟨us, hy, hus⟩ := ihy
    exact ofConjunction ⟨_, .and (.ofNegation (.ofComparison (.ofOperand hx))) (.ofComparison (.ofOperand hy)),
      by simpa [or_imp, forall_and] using ⟨hts, hus⟩⟩
  | or _ _ ihx ihy =>
    obtain ⟨ts, hx, hts⟩ := ihx
    obtain ⟨us, hy, hus⟩ := ihy
    exact parens ⟨_, .or (.ofConjunction (.ofNegation (.ofComparison (.ofOperand hx))))
      (.ofNegation (.ofComparison (.ofOperand hy))), by simpa [or_imp, forall_and] using ⟨hts, hus⟩⟩
  | not _ ihx =>
    obtain ⟨ts, hx, hts⟩ := ihx
    exact ofNegation ⟨_, .not (.ofComparison (.ofOperand hx)), by simpa [or_imp, forall_and] using hts⟩
  | present hp =>
    obtain ⟨t, hp, ht⟩ := hp
    exact ⟨_, .present hp, by simp [ht]⟩
  | absent hp =>
    obtain ⟨t, hp, ht⟩ := hp
    exact ⟨_, .absent hp, by simp [ht]⟩
  | hasType hp _ ih =>
    obtain ⟨t, hp, ht⟩ := hp
    obtain ⟨ts, htag, hts⟩ := ih
    exact ⟨_, .hasType hp htag, by simpa [or_imp, forall_and] using ⟨ht, hts⟩⟩
  | beginsWith _ _ ihx ihy =>
    obtain ⟨ts, hx, hts⟩ := ihx
    obtain ⟨us, hy, hus⟩ := ihy
    exact ⟨_, .beginsWith hx hy, by simpa [or_imp, forall_and] using ⟨hts, hus⟩⟩
  | contains _ _ ihx ihy =>
    obtain ⟨ts, hx, hts⟩ := ihx
    obtain ⟨us, hy, hus⟩ := ihy
    exact ⟨_, .contains hx hy, by simpa [or_imp, forall_and] using ⟨hts, hus⟩⟩
  | path hp =>
    obtain ⟨t, hp, ht⟩ := hp
    exact ⟨_, .path hp, by simp [ht]⟩
  | value ht => exact ⟨_, .value _, by simp [ht]⟩

/-- **The formulas that have a text are the readable ones.** -/
theorem readable_iff_exists_writtenAs {f : Formula} : f.Readable ↔ ∃ text, f.WrittenAs text := by
  constructor
  · intro h
    obtain ⟨ts, hspelled, hts⟩ := h.hasTokens
    obtain ⟨cs, hlaid⟩ := exists_laid hts
    refine ⟨String.ofList cs, ts, .ofConjunction (.ofNegation (.ofComparison (.ofOperand hspelled))), ?_⟩
    rwa [String.toList_ofList]
  · rintro ⟨text, ts, hspelled, hlaid⟩
    exact readable_of_spelled hspelled (hasText_of_laid hlaid)

end Formula

/-- **Formulas are read from their texts and from no others.**  A text is read as a formula exactly if it is a text of
it: its tokens, in any spelling and with any white space that keeps them apart, spell the formula by the grammar, and
all of them do.  The formulas that have a text at all are the readable ones. -/
theorem formulas_are_read_from_their_texts (f : Formula) :
    (∀ text : String, Formula.parse text = .ok f ↔ f.WrittenAs text) ∧ (f.Readable ↔ ∃ text, f.WrittenAs text) :=
  ⟨fun _ => Formula.parse_eq_ok_iff, Formula.readable_iff_exists_writtenAs⟩

end ItemStore
