import ItemStore.Expression.Parse
/-!
# The grammar of formulas

`Spelled` is the grammar in the comment of the reader, as a relation between a formula at some level and the tokens
that spell it.  Main statement: the reader gives back every formula that is spelled (`ofTokens_of_spelled`).

A derivation groups OR and AND to the left while the reader goes on from the left part in a loop.  So what is said of
a spelled disjunction is that the reader, having read it, stands inside that loop with the disjunction as its left part.
-/
namespace ItemStore
namespace Formula

/-- The levels of the grammar, and the candidates of an IN behind the first one. -/
inductive Phrase where
  | disjunction (f : Formula)
  | conjunction (f : Formula)
  | negation (f : Formula)
  | comparison (f : Formula)
  | operand (f : Formula)
  | moreCandidates (fs : List Formula)

/-- The tokens that name an attribute. -/
inductive IsPath : String → Token → Prop where
  | identifier (p : String) : IsPath p (.identifier p)
  | name (p : String) : IsPath p (.name p)

inductive Spelled : Phrase → List Token → Prop where
  | ofConjunction {f ts} : Spelled (.conjunction f) ts → Spelled (.disjunction f) ts
  | or {l r ts us} : Spelled (.disjunction l) ts → Spelled (.conjunction r) us →
      Spelled (.disjunction (.or l r)) (ts ++ .keyword .or :: us)
  | ofNegation {f ts} : Spelled (.negation f) ts → Spelled (.conjunction f) ts
  | and {l r ts us} : Spelled (.conjunction l) ts → Spelled (.negation r) us →
      Spelled (.conjunction (.and l r)) (ts ++ .keyword .and :: us)
  | ofComparison {f ts} : Spelled (.comparison f) ts → Spelled (.negation f) ts
  | not {f ts} : Spelled (.negation f) ts → Spelled (.negation (.not f)) (.keyword .not :: ts)
  | ofOperand {f ts} : Spelled (.operand f) ts → Spelled (.comparison f) ts
  | compare (op) {l r ts us} : Spelled (.operand l) ts → Spelled (.operand r) us →
      Spelled (.comparison (.compare op l r)) (ts ++ .compare op :: us)
  | between {x low high ts us vs} : Spelled (.operand x) ts → Spelled (.operand low) us →
      Spelled (.operand high) vs →
      Spelled (.comparison (.between x low high)) (ts ++ .keyword .between :: (us ++ .keyword .and :: vs))
  | isIn {x c cs ts us vs} : Spelled (.operand x) ts → Spelled (.operand c) us → Spelled (.moreCandidates cs) vs →
      Spelled (.comparison (.isIn x (c :: cs))) (ts ++ .keyword .isIn :: .opening :: (us ++ (vs ++ [.closing])))
  | parens {f ts} : Spelled (.disjunction f) ts → Spelled (.operand f) (.opening :: ts ++ [.closing])
  | path {p t} : IsPath p t → Spelled (.operand (.path p)) [t]
  | value (p) : Spelled (.operand (.value p)) [.value p]
  | present {p t} : IsPath p t →
      Spelled (.operand (.present p)) [.keyword .attributeExists, .opening, t, .closing]
  | absent {p t} : IsPath p t →
      Spelled (.operand (.absent p)) [.keyword .attributeNotExists, .opening, t, .closing]
  | hasType {p t tag ts} : IsPath p t → Spelled (.operand tag) ts →
      Spelled (.operand (.hasType p tag)) (.keyword .attributeType :: .opening :: t :: .comma :: (ts ++ [.closing]))
  | beginsWith {x y ts us} : Spelled (.operand x) ts → Spelled (.operand y) us →
      Spelled (.operand (.beginsWith x y)) (.keyword .beginsWith :: .opening :: (ts ++ .comma :: (us ++ [.closing])))
  | contains {x y ts us} : Spelled (.operand x) ts → Spelled (.operand y) us →
      Spelled (.operand (.contains x y)) (.keyword .contains :: .opening :: (ts ++ .comma :: (us ++ [.closing])))
  | noMore : Spelled (.moreCandidates []) []
  | more {x xs ts us} : Spelled (.operand x) ts → Spelled (.moreCandidates xs) us →
      Spelled (.moreCandidates (x :: xs)) (.comma :: (ts ++ us))

/-! ## What may follow -/

/-- The tokens do not begin with one at which a reader would go on. -/
def Follows (goesOn : Token → Bool) (rest : List Token) : Prop := ∀ t ∈ rest.head?, goesOn t = false

theorem follows_nil (goesOn : Token → Bool) : Follows goesOn [] := fun _ h => by cases h

theorem follows_cons {goesOn : Token → Bool} {t : Token} {rest : List Token} (h : goesOn t = false) :
    Follows goesOn (t :: rest) := by
  intro u hu
  cases hu
  exact h

/-- Where a comparison goes on behind its first operand. -/
def comparesOn : Token → Bool
  | .compare _ | .keyword .between | .keyword .isIn => true
  | _ => false

/-- Where a conjunction goes on. -/
def conjoinsOn (t : Token) : Bool := comparesOn t || t == .keyword .and

/-- Where a disjunction goes on. -/
def disjoinsOn (t : Token) : Bool := conjoinsOn t || t == .keyword .or

theorem Follows.weaken {p q : Token → Bool} {rest : List Token} (h : Follows q rest)
    (hpq : ∀ t, q t = false → p t = false) : Follows p rest := fun t ht => hpq t (h t ht)

theorem Follows.comparison {rest : List Token} (h : Follows conjoinsOn rest) : Follows comparesOn rest :=
  h.weaken fun _ ht => (Bool.or_eq_false_iff.1 ht).1

theorem Follows.conjunction {rest : List Token} (h : Follows disjoinsOn rest) : Follows conjoinsOn rest :=
  h.weaken fun _ ht => (Bool.or_eq_false_iff.1 ht).1

theorem readMoreConjuncts_stop (fuel : Nat) (f : Formula) {rest : List Token} (h : Follows conjoinsOn rest) :
    readMoreConjuncts fuel f rest = .ok (f, rest) := by
  unfold readMoreConjuncts
  split
  · exact absurd (h _ rfl) (by decide)
  · rfl

theorem readMoreDisjuncts_stop (fuel : Nat) (f : Formula) {rest : List Token} (h : Follows disjoinsOn rest) :
    readMoreDisjuncts fuel f rest = .ok (f, rest) := by
  unfold readMoreDisjuncts
  split
  · exact absurd (h _ rfl) (by decide)
  · rfl

theorem readMoreCandidates_stop (fuel : Nat) {rest : List Token} (h : Follows (· == .comma) rest) :
    readMoreCandidates fuel rest = .ok ([], rest) := by
  unfold readMoreCandidates
  split
  · exact absurd (h _ rfl) (by decide)
  · rfl

/-! ## Reading what is spelled -/

open Token (expect takePath)

@[simp] theorem expect_self (t : Token) (ts : List Token) : expect t (t :: ts) = .ok ts := by
  rw [expect, if_pos rfl]

theorem takePath_of_isPath {p place : String} {t : Token} (h : IsPath p t) (ts : List Token) :
    takePath place (t :: ts) = .ok (p, ts) := by
  cases h <;> rfl

/-- The reader of a level reads the tokens as the formula.  With six units of fuel for every token there is always
enough; the loops have used up at most one for each token when they come to the end. -/
def Phrase.Reads : Phrase → List Token → Prop
  | .operand f, ts => ∀ fuel rest, 6 * ts.length ≤ fuel → readOperand fuel (ts ++ rest) = .ok (f, rest)
  | .comparison f, ts => ∀ fuel rest, 6 * ts.length + 1 ≤ fuel → Follows comparesOn rest →
      readComparison fuel (ts ++ rest) = .ok (f, rest)
  | .negation f, ts => ∀ fuel rest, 6 * ts.length + 2 ≤ fuel → Follows comparesOn rest →
      readNegation fuel (ts ++ rest) = .ok (f, rest)
  | .conjunction f, ts => ∃ used ≤ ts.length, ∀ fuel rest, 6 * ts.length + 2 ≤ fuel → Follows comparesOn rest →
      readConjunction (fuel + 1) (ts ++ rest) = readMoreConjuncts (fuel - used) f rest
  | .disjunction f, ts => ∃ used ≤ ts.length, ∀ fuel rest, 6 * ts.length + 3 ≤ fuel → Follows conjoinsOn rest →
      readDisjunction (fuel + 1) (ts ++ rest) = readMoreDisjuncts (fuel - used) f rest
  | .moreCandidates fs, ts => ∀ fuel rest, 6 * ts.length ≤ fuel → Follows (· == .comma) rest →
      readMoreCandidates fuel (ts ++ rest) = .ok (fs, rest)

theorem readConjunction_of_reads {f : Formula} {ts : List Token} (h : (Phrase.conjunction f).Reads ts)
    {fuel : Nat} {rest : List Token} (hf : 6 * ts.length + 3 ≤ fuel) (hr : Follows conjoinsOn rest) :
    readConjunction fuel (ts ++ rest) = .ok (f, rest) := by
  obtain ⟨used, _, h⟩ := h
  obtain ⟨n, rfl⟩ : ∃ n, fuel = n + 1 := ⟨fuel - 1, by omega⟩
  rw [h n rest (by omega) hr.comparison, readMoreConjuncts_stop _ f hr]

theorem readDisjunction_of_reads {f : Formula} {ts : List Token} (h : (Phrase.disjunction f).Reads ts)
    {fuel : Nat} {rest : List Token} (hf : 6 * ts.length + 4 ≤ fuel) (hr : Follows disjoinsOn rest) :
    readDisjunction fuel (ts ++ rest) = .ok (f, rest) := by
  obtain ⟨used, _, h⟩ := h
  obtain ⟨n, rfl⟩ : ∃ n, fuel = n + 1 := ⟨fuel - 1, by omega⟩
  rw [h n rest (by omega) hr.conjunction, readMoreDisjuncts_stop _ f hr]

theorem readOperand_not (fuel : Nat) (ts : List Token) :
    ∃ fault, readOperand fuel (.keyword .not :: ts) = .error fault := by
  cases fuel <;> exact ⟨_, rfl⟩

/-- A negation that is a comparison does not begin with NOT. -/
theorem readNegation_of_comparison {fuel : Nat} {ts : List Token} {r : Reading Formula}
    (h : readComparison fuel ts = .ok r) : readNegation (fuel + 1) ts = .ok r := by
  unfold readNegation
  split
  · next hfuel => cases hfuel
  · next n us hfuel =>
    cases hfuel
    cases fuel with
    | zero => cases h
    | succ n =>
      obtain ⟨fault, hfault⟩ := readOperand_not n us
      rw [readComparison, hfault] at h
      cases h
  · next hfuel _ => cases hfuel; exact h

theorem readComparison_of_operand {fuel : Nat} {ts rest : List Token} {f : Formula}
    (h : readOperand fuel ts = .ok (f, rest)) (hr : Follows comparesOn rest) :
    readComparison (fuel + 1) ts = .ok (f, rest) := by
  rw [readComparison, h]
  simp only [bind, Except.bind]
  split
  · exact Bool.noConfusion (hr _ rfl)
  · exact Bool.noConfusion (hr _ rfl)
  · exact Bool.noConfusion (hr _ rfl)
  · rfl

theorem readTwoArguments_of_reads {x y : Formula} {ts us : List Token} (make : Formula → Formula → Formula)
    (hx : (Phrase.operand x).Reads ts) (hy : (Phrase.operand y).Reads us) {fuel : Nat} (rest : List Token)
    (hf : 6 * (ts.length + us.length) + 1 ≤ fuel) :
    readTwoArguments fuel make (.opening :: (ts ++ .comma :: (us ++ [.closing])) ++ rest) = .ok (make x y, rest) := by
  obtain ⟨n, rfl⟩ : ∃ n, fuel = n + 1 := ⟨fuel - 1, by omega⟩
  have hx := hx n (.comma :: (us ++ .closing :: rest)) (by omega)
  have hy := hy n (.closing :: rest) (by omega)
  simp only [List.cons_append, List.append_assoc, List.nil_append]
  simp only [readTwoArguments, expect_self, hx, hy, bind, Except.bind, pure, Except.pure]

theorem reads_of_spelled {phrase : Phrase} {ts : List Token} (h : Spelled phrase ts) : phrase.Reads ts := by
  -- On the derivation.  The left part of a chain is what its loop has read so far, so the hypothesis about it leaves
  -- the reader inside that loop, with fuel to go on.
  induction h with
  | ofConjunction _ ih =>
    refine ⟨0, Nat.zero_le _, fun fuel rest hf hr => ?_⟩
    rw [readDisjunction, readConjunction_of_reads ih (by omega) hr]
    rfl
  | @or l r ts us _ _ ihl ihr =>
    obtain ⟨used, hused, ihl⟩ := ihl
    simp only [Phrase.Reads, List.length_append, List.length_cons]
    refine ⟨used + 1, by omega, fun fuel rest hf hr => ?_⟩
    rw [List.append_assoc, List.cons_append, ihl fuel _ (by omega) (follows_cons rfl),
      show fuel - used = fuel - (used + 1) + 1 by omega, readMoreDisjuncts,
      readConjunction_of_reads ihr (by omega) hr]
    rfl
  | ofNegation _ ih =>
    refine ⟨0, Nat.zero_le _, fun fuel rest hf hr => ?_⟩
    rw [readConjunction, ih fuel rest (by omega) hr]
    rfl
  | @and l r ts us _ _ ihl ihr =>
    obtain ⟨used, hused, ihl⟩ := ihl
    simp only [Phrase.Reads, List.length_append, List.length_cons]
    refine ⟨used + 1, by omega, fun fuel rest hf hr => ?_⟩
    rw [List.append_assoc, List.cons_append, ihl fuel _ (by omega) (follows_cons rfl),
      show fuel - used = fuel - (used + 1) + 1 by omega, readMoreConjuncts, ihr _ rest (by omega) hr]
    rfl
  | ofComparison _ ih =>
    intro fuel rest hf hr
    obtain ⟨n, rfl⟩ : ∃ n, fuel = n + 1 := ⟨fuel - 1, by omega⟩
    exact readNegation_of_comparison (ih n rest (by omega) hr)
  | not _ ih =>
    intro fuel rest hf hr
    simp only [List.length_cons] at hf
    obtain ⟨n, rfl⟩ : ∃ n, fuel = n + 1 := ⟨fuel - 1, by omega⟩
    rw [List.cons_append, readNegation, ih n rest (by omega) hr]
    rfl
  | ofOperand _ ih =>
    intro fuel rest hf hr
    obtain ⟨n, rfl⟩ : ∃ n, fuel = n + 1 := ⟨fuel - 1, by omega⟩
    exact readComparison_of_operand (ih n rest (by omega)) hr
  | compare op _ _ ihl ihr =>
    intro fuel rest hf _
    simp only [List.length_append, List.length_cons] at hf
    obtain ⟨n, rfl⟩ : ∃ n, fuel = n + 1 := ⟨fuel - 1, by omega⟩
    rw [List.append_assoc, readComparison, ihl n _ (by omega)]
    simp only [List.cons_append, ihr n rest (by omega), bind, Except.bind, pure, Except.pure]
  | @between x low high ts us vs _ _ _ ihx ihlow ihhigh =>
    intro fuel rest hf _
    simp only [List.length_append, List.length_cons] at hf
    obtain ⟨n, rfl⟩ : ∃ n, fuel = n + 1 := ⟨fuel - 1, by omega⟩
    have hlow := ihlow n (.keyword .and :: (vs ++ rest)) (by omega)
    rw [List.append_assoc, readComparison, ihx n _ (by omega)]
    simp only [List.cons_append, List.append_assoc, hlow, expect_self, ihhigh n rest (by omega), bind,
      Except.bind, pure, Except.pure]
  | @isIn x c cs ts us vs _ _ _ ihx ihc ihcs =>
    intro fuel rest hf _
    simp only [List.length_append, List.length_cons] at hf
    obtain ⟨n, rfl⟩ : ∃ n, fuel = n + 1 := ⟨fuel - 1, by omega⟩
    have hc := ihc n (vs ++ .closing :: rest) (by omega)
    have hcs := ihcs n (.closing :: rest) (by omega) (follows_cons rfl)
    rw [List.append_assoc, readComparison, ihx n _ (by omega)]
    simp only [List.cons_append, List.append_assoc, List.nil_append, hc, hcs, expect_self, bind,
      Except.bind, pure, Except.pure]
  | parens _ ih =>
    intro fuel rest hf
    simp only [List.cons_append, List.length_append, List.length_cons, List.length_nil] at hf
    obtain ⟨n, rfl⟩ : ∃ n, fuel = n + 1 := ⟨fuel - 1, by omega⟩
    have h : readDisjunction n (_ ++ .closing :: rest) = .ok (_, .closing :: rest) :=
      readDisjunction_of_reads ih (by omega) (follows_cons rfl)
    simp only [List.cons_append, List.append_assoc, List.nil_append, readOperand, h, expect_self, bind,
      Except.bind, pure, Except.pure]
  | path hp =>
    intro fuel rest hf
    obtain ⟨n, rfl⟩ : ∃ n, fuel = n + 1 := ⟨fuel - 1, by simp at hf; omega⟩
    cases hp <;> rfl
  | value p =>
    intro fuel rest hf
    obtain ⟨n, rfl⟩ : ∃ n, fuel = n + 1 := ⟨fuel - 1, by simp at hf; omega⟩
    rfl
  | present hp =>
    intro fuel rest hf
    obtain ⟨n, rfl⟩ : ∃ n, fuel = n + 1 := ⟨fuel - 1, by simp at hf; omega⟩
    cases hp <;> rfl
  | absent hp =>
    intro fuel rest hf
    obtain ⟨n, rfl⟩ : ∃ n, fuel = n + 1 := ⟨fuel - 1, by simp at hf; omega⟩
    cases hp <;> rfl
  | @hasType p t tag ts hp _ ih =>
    intro fuel rest hf
    simp only [List.length_append, List.length_cons, List.length_nil] at hf
    obtain ⟨n, rfl⟩ : ∃ n, fuel = n + 1 := ⟨fuel - 1, by omega⟩
    have htag := ih n (.closing :: rest) (by omega)
    simp only [List.cons_append, List.append_assoc, List.nil_append, readOperand, expect_self,
      takePath_of_isPath hp, htag, bind, Except.bind, pure, Except.pure]
  | beginsWith _ _ ihx ihy =>
    intro fuel rest hf
    simp only [List.length_append, List.length_cons, List.length_nil] at hf
    obtain ⟨n, rfl⟩ : ∃ n, fuel = n + 1 := ⟨fuel - 1, by omega⟩
    exact readTwoArguments_of_reads .beginsWith ihx ihy rest (by omega)
  | contains _ _ ihx ihy =>
    intro fuel rest hf
    simp only [List.length_append, List.length_cons, List.length_nil] at hf
    obtain ⟨n, rfl⟩ : ∃ n, fuel = n + 1 := ⟨fuel - 1, by omega⟩
    exact readTwoArguments_of_reads .contains ihx ihy rest (by omega)
  | noMore =>
    intro fuel rest _ hr
    exact readMoreCandidates_stop fuel hr
  | @more x xs ts us _ _ ihx ihxs =>
    intro fuel rest hf hr
    simp only [List.length_append, List.length_cons] at hf
    obtain ⟨n, rfl⟩ : ∃ n, fuel = n + 1 := ⟨fuel - 1, by omega⟩
    have hx := ihx n (us ++ rest) (by omega)
    simp only [List.cons_append, List.append_assoc, readMoreCandidates, hx, ihxs n rest (by omega) hr, bind,
      Except.bind, pure, Except.pure]

/-- **What is spelled is read**, all tokens of it. -/
theorem ofTokens_of_spelled {f : Formula} {ts : List Token} (h : Spelled (.disjunction f) ts) :
    ofTokens ts = .ok f := by
  have hread : readDisjunction (6 * ts.length + 6) (ts ++ []) = .ok (f, []) :=
    readDisjunction_of_reads (reads_of_spelled h) (by omega) (follows_nil disjoinsOn)
  rw [List.append_nil] at hread
  rw [ofTokens, hread]
  rfl

end Formula
end ItemStore
