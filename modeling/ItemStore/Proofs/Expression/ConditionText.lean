import ItemStore.Expression.Meaning
import ItemStore.Proofs.Expression.Grammar
import ItemStore.Proofs.Expression.Placeholders
import ItemStore.Proofs.Value.Order
/-!
# The texts of conditions

What a writer makes of a condition is the text of a formula that holds of the same items.  Each leaf is a comparison of
the grammar, and so can stand beside an AND without parentheses; what is put together from conditions stands in
parentheses and can be read at any level.  Main statements: `expresses_condition`, `expresses_conjunction` and
`expresses_side_by_side`.
-/
namespace ItemStore

namespace Condition

/-- No list of candidates in the condition is empty. -/
def listsFilled : Condition → Bool
  | isIn _ vs => !vs.isEmpty
  | and left right | or left right => left.listsFilled && right.listsFilled
  | not inner => inner.listsFilled
  | _ => true

/-- The condition is not put together from conditions. -/
def isLeaf : Condition → Bool
  | and .. | or .. | not _ => false
  | _ => true

end Condition

namespace Writer

open Token (Scans)
open Formula (Spelled Phrase IsPath)

/-- Under the bindings of this state and of every later one, the formula holds of an item exactly if the meaning says
so, and its evaluation meets no fault. -/
def Says (w : Writer) (f : Formula) (meaning : Item → Bool) : Prop :=
  ∀ w', Extends w w' → ∀ item, f.holds w'.bindings item = .ok (meaning item)

theorem Says.later {w w' : Writer} {f : Formula} {meaning : Item → Bool} (h : Says w f meaning) (he : Extends w w') :
    Says w' f meaning := fun w'' he' => h w'' (he.trans he')

/-- The text spells a formula at this level of the grammar, and the formula says what is meant. -/
def Renders (w : Writer) (text : String) (level : Formula → Phrase) (meaning : Item → Bool) : Prop :=
  ∃ f ts, Scans text.toList ts ∧ Spelled (level f) ts ∧ Says w f meaning

/-- The text is tokens that spell the phrase. -/
def Writes (text : String) (phrase : Phrase) : Prop := ∃ ts, Scans text.toList ts ∧ Spelled phrase ts

theorem Writes.parse_eq {text : String} {f : Formula} (h : Writes text (.disjunction f)) :
    Formula.parse text = .ok f := by
  obtain ⟨ts, hscan, hspell⟩ := h
  rw [Formula.parse, hscan.scan_eq]
  exact Formula.ofTokens_of_spelled hspell

theorem Writes.renders {w : Writer} {text : String} {level : Formula → Phrase} {f : Formula} {meaning : Item → Bool}
    (h : Writes text (level f)) (hmeans : Says w f meaning) : Renders w text level meaning := by
  obtain ⟨ts, hscan, hspell⟩ := h
  exact ⟨f, ts, hscan, hspell, hmeans⟩

theorem Writes.negation {text : String} {f : Formula} (h : Writes text (.comparison f)) :
    Writes text (.negation f) := by
  obtain ⟨ts, hscan, hspell⟩ := h
  exact ⟨ts, hscan, .ofComparison hspell⟩

theorem Writes.conjunction {text : String} {f : Formula} (h : Writes text (.negation f)) :
    Writes text (.conjunction f) := by
  obtain ⟨ts, hscan, hspell⟩ := h
  exact ⟨ts, hscan, .ofNegation hspell⟩

theorem Writes.disjunction {text : String} {f : Formula} (h : Writes text (.conjunction f)) :
    Writes text (.disjunction f) := by
  obtain ⟨ts, hscan, hspell⟩ := h
  exact ⟨ts, hscan, .ofConjunction hspell⟩

theorem Renders.negation {w : Writer} {text : String} {meaning : Item → Bool}
    (h : Renders w text .comparison meaning) : Renders w text .negation meaning := by
  obtain ⟨f, ts, hscan, hspell, hsays⟩ := h
  exact (Writes.negation ⟨ts, hscan, hspell⟩).renders hsays

theorem Renders.conjunction {w : Writer} {text : String} {meaning : Item → Bool}
    (h : Renders w text .negation meaning) : Renders w text .conjunction meaning := by
  obtain ⟨f, ts, hscan, hspell, hsays⟩ := h
  exact (Writes.conjunction ⟨ts, hscan, hspell⟩).renders hsays

theorem Renders.disjunction {w : Writer} {text : String} {meaning : Item → Bool}
    (h : Renders w text .conjunction meaning) : Renders w text .disjunction meaning := by
  obtain ⟨f, ts, hscan, hspell, hsays⟩ := h
  exact (Writes.disjunction ⟨ts, hscan, hspell⟩).renders hsays

/-! ## Operands -/

section Leaves

variable {w w' : Writer} {n p q : String} {a : String} {v : Value}

theorem NameAs.resolve (hn : NameAs w n a) (he : Extends w w') (item : Item) :
    (Formula.path n).resolve w'.bindings item = .ok (item.get? a) := by
  rw [Formula.resolve, hn.bound he]
  rfl

theorem ValueAs.resolve (hp : ValueAs w p v) (he : Extends w w') (item : Item) :
    (Formula.value p).resolve w'.bindings item = .ok (some v) := by
  rw [Formula.resolve, hp.bound he]
  rfl

theorem spelled_name (n : String) : Spelled (.operand (.path n)) [.name n] := .path (.name n)

theorem test_some (f : Value → Value → Bool) (x : Option Value) (v : Value) :
    Formula.test f x (some v) = x.any fun x => f x v := by
  cases x <;> rfl

theorem tag_beq (s t : WireType) : (s.tag == t.tag) = (s == t) := by
  rw [Bool.eq_iff_iff, beq_iff_eq, beq_iff_eq]
  exact ⟨WireType.tag_injective, fun h => congrArg WireType.tag h⟩

/-! ## Lists of candidates -/

theorem scans_candidates {ps : List String} {vs : List Value} (hp : ValueAs w p v)
    (hps : List.Forall₂ (ValueAs w) ps vs) :
    Scans (", ".intercalate (p :: ps)).toList (.value p :: ps.flatMap fun q => [.comma, .value q]) := by
  have hscan : ∀ q ∈ ps, Scans q.toList [.value q] := by
    induction hps with
    | nil => intro q hq; cases hq
    | cons hq _ ih =>
      intro r hr
      rcases List.mem_cons.1 hr with rfl | hr
      · exact hq.scans
      · exact ih r hr
  have h := Scans.commaList (ps.map fun q => (q.toList, [Token.value q])) hp.scans (by
    intro r hr
    obtain ⟨q, hq, rfl⟩ := List.mem_map.1 hr
    exact hscan q hq)
  rw [List.map_map, List.flatMap_map] at h
  rw [String.toList_intercalate]
  exact h

theorem spelled_candidates : ∀ ps : List String,
    Spelled (.moreCandidates (ps.map .value)) (ps.flatMap fun q => [.comma, .value q])
  | [] => .noMore
  | q :: ps => .more (.value q) (spelled_candidates ps)

theorem equalsOne_values {ps : List String} {vs : List Value} (hps : List.Forall₂ (ValueAs w) ps vs)
    (he : Extends w w') (item : Item) (x : Value) :
    Formula.equalsOne w'.bindings item x (ps.map .value) = .ok (vs.any x.equal) := by
  induction hps with
  | nil => rfl
  | @cons q v ps vs hq _ ih =>
    rw [List.map_cons, Formula.equalsOne, hq.resolve he, List.any_cons]
    simp only [Formula.test, bind, Except.bind, pure, Except.pure, ih]
    cases x.equal v <;> rfl

/-! ## Leaves -/

theorem toList_spaced (a b c : String) : s!"{a} {b} {c}".toList = a.toList ++ ' ' :: (b.toList ++ ' ' :: c.toList) := by
  simp [toString]

theorem toList_call (f a : String) : s!"{f}({a})".toList = f.toList ++ ('(' :: a.toList ++ [')']) := by
  simp [toString]

theorem toList_callTwo (f a b : String) :
    s!"{f}({a}, {b})".toList = f.toList ++ ('(' :: (a.toList ++ ',' :: ' ' :: b.toList) ++ [')']) := by
  simp [toString]

theorem toList_between (a b c : String) : s!"{a} BETWEEN {b} AND {c}".toList =
    a.toList ++ ' ' :: ("BETWEEN".toList ++ ' ' :: (b.toList ++ ' ' :: ("AND".toList ++ ' ' :: c.toList))) := by
  simp [toString]

theorem toList_isIn (a list : String) :
    s!"{a} IN ({list})".toList = a.toList ++ ' ' :: ("IN".toList ++ ' ' :: ('(' :: list.toList ++ [')'])) := by
  simp [toString]

theorem writes_compare (op : Comparator) (hn : NameAs w n a) (hp : ValueAs w p v) :
    Writes s!"{n} {op.symbol} {p}" (.comparison (.compare op (.path n) (.value p))) := by
  refine ⟨_, ?_, .compare op (spelled_name n) (.value p)⟩
  rw [toList_spaced]
  exact hn.scans.comparison op hp.scans

theorem renders_compare (op : Comparator) (hn : NameAs w n a) (hp : ValueAs w p v) :
    Renders w s!"{n} {op.symbol} {p}" .comparison fun item => (Condition.compare a op v).holds item := by
  refine (writes_compare op hn hp).renders fun w' he item => ?_
  rw [Formula.holds, hn.resolve he, hp.resolve he]
  rfl

theorem writes_between {high : Value} (hn : NameAs w n a) (hp : ValueAs w p v) (hq : ValueAs w q high) :
    Writes s!"{n} BETWEEN {p} AND {q}" (.comparison (.between (.path n) (.value p) (.value q))) := by
  refine ⟨_, ?_, .between (spelled_name n) (.value p) (.value q)⟩
  have hbetween : Scans "BETWEEN".toList [.keyword .between] := Token.scans_keywordText (by decide) (by decide)
  have hand : Scans "AND".toList [.keyword .and] := Token.scans_keywordText (by decide) (by decide)
  rw [toList_between]
  exact hn.scans.spaced (hbetween.spaced (hp.scans.spaced (hand.spaced hq.scans)))

theorem renders_between {high : Value} (hn : NameAs w n a) (hp : ValueAs w p v) (hq : ValueAs w q high) :
    Renders w s!"{n} BETWEEN {p} AND {q}" .comparison fun item => (Condition.between a v high).holds item := by
  refine (writes_between hn hp hq).renders fun w' he item => ?_
  rw [Formula.holds, hn.resolve he, hp.resolve he, hq.resolve he]
  simp only [bind, Except.bind, pure, Except.pure, Condition.holds]
  cases Comparator.ge.holds (item.get? a) (some v) <;> rfl

theorem renders_isIn {ps : List String} {vs : List Value} (hn : NameAs w n a) (hp : ValueAs w p v)
    (hps : List.Forall₂ (ValueAs w) ps vs) {list : String} (hlist : ", ".intercalate (p :: ps) = list) :
    Renders w s!"{n} IN ({list})" .comparison fun item => (Condition.isIn a (v :: vs)).holds item := by
  refine ⟨_, _, ?_, .isIn (spelled_name n) (.value p) (spelled_candidates ps), ?_⟩
  · have hin : Scans "IN".toList [.keyword .isIn] := Token.scans_keywordText (by decide) (by decide)
    rw [toList_isIn, ← hlist]
    exact hn.scans.spaced (hin.spaced (scans_candidates hp hps).parens)
  · intro w' he item
    rw [Formula.holds, hn.resolve he]
    simp only [bind, Except.bind, pure, Except.pure, Condition.holds]
    cases item.get? a with
    | none => rfl
    | some x => exact equalsOne_values (.cons hp hps) he item x

theorem writes_beginsWith (hn : NameAs w n a) (hp : ValueAs w p v) :
    Writes s!"begins_with({n}, {p})" (.comparison (.beginsWith (.path n) (.value p))) := by
  refine ⟨_, ?_, .ofOperand (.beginsWith (spelled_name n) (.value p))⟩
  have hf : Scans "begins_with".toList [.keyword .beginsWith] := Token.scans_keywordText (by decide) (by decide)
  have h := hf.call (hn.scans.listed hp.scans)
  rwa [← toList_callTwo] at h

theorem renders_beginsWith (hn : NameAs w n a) (hp : ValueAs w p v) :
    Renders w s!"begins_with({n}, {p})" .comparison fun item => (Condition.beginsWith a v).holds item := by
  refine (writes_beginsWith hn hp).renders fun w' he item => ?_
  rw [Formula.holds, hn.resolve he, hp.resolve he]
  simp only [bind, Except.bind, pure, Except.pure, test_some, Condition.holds]

theorem renders_contains (hn : NameAs w n a) (hp : ValueAs w p v) :
    Renders w s!"contains({n}, {p})" .comparison fun item => (Condition.contains a v).holds item := by
  refine ⟨_, _, ?_, .ofOperand (.contains (spelled_name n) (.value p)), ?_⟩
  · have hf : Scans "contains".toList [.keyword .contains] := Token.scans_keywordText (by decide) (by decide)
    have h := hf.call (hn.scans.listed hp.scans)
    rwa [← toList_callTwo] at h
  · intro w' he item
    rw [Formula.holds, hn.resolve he, hp.resolve he]
    simp only [bind, Except.bind, pure, Except.pure, test_some, Condition.holds]

theorem renders_present (hn : NameAs w n a) :
    Renders w s!"attribute_exists({n})" .comparison fun item => (Condition.present a).holds item := by
  refine ⟨_, _, ?_, .ofOperand (.present (.name n)), ?_⟩
  · have hf : Scans "attribute_exists".toList [.keyword .attributeExists] :=
      Token.scans_keywordText (by decide) (by decide)
    have h := hf.call hn.scans
    rwa [← toList_call] at h
  · intro w' he item
    rw [Formula.holds, hn.bound he]
    rfl

theorem renders_absent (hn : NameAs w n a) :
    Renders w s!"attribute_not_exists({n})" .comparison fun item => (Condition.absent a).holds item := by
  refine ⟨_, _, ?_, .ofOperand (.absent (.name n)), ?_⟩
  · have hf : Scans "attribute_not_exists".toList [.keyword .attributeNotExists] :=
      Token.scans_keywordText (by decide) (by decide)
    have h := hf.call hn.scans
    rwa [← toList_call] at h
  · intro w' he item
    rw [Formula.holds, hn.bound he]
    rfl

theorem renders_hasType (t : WireType) (hn : NameAs w n a) (hp : ValueAs w p (.string t.tag)) :
    Renders w s!"attribute_type({n}, {p})" .comparison fun item => (Condition.hasType a t).holds item := by
  refine ⟨_, _, ?_, .ofOperand (.hasType (.name n) (.value p)), ?_⟩
  · have hf : Scans "attribute_type".toList [.keyword .attributeType] :=
      Token.scans_keywordText (by decide) (by decide)
    have h := hf.call (hn.scans.listed hp.scans)
    rwa [← toList_callTwo] at h
  · intro w' he item
    rw [Formula.holds, hn.bound he, hp.resolve he]
    simp only [bind, Except.bind, pure, Except.pure, Condition.holds, tag_beq]

end Leaves

/-! ## Conditions -/

theorem renders_leaf (w : Writer) {c : Condition} (hleaf : c.isLeaf = true) (hfilled : c.listsFilled = true) :
    Renders (w.condition c).2 (w.condition c).1 .comparison fun item => c.holds item := by
  cases c with
  | compare a op v => exact renders_compare op (nameAs_nameValue w a v) (valueAs_nameValue w a v)
  | between a low high =>
    have hext := extends_value (w.nameValue a low).2.2 high
    exact renders_between ((nameAs_nameValue w a low).later hext) ((valueAs_nameValue w a low).later hext)
      (valueAs_value _ high)
  | isIn a vs =>
    cases vs with
    | nil => cases hfilled
    | cons v vs =>
      have hn := (nameAs_name w a).later (extends_valueList _ (v :: vs))
      cases valuesAs_valueList (w.name a).2 (v :: vs) with
      | cons hp hps => exact renders_isIn hn hp hps rfl
  | beginsWith a v => exact renders_beginsWith (nameAs_nameValue w a v) (valueAs_nameValue w a v)
  | contains a v => exact renders_contains (nameAs_nameValue w a v) (valueAs_nameValue w a v)
  | present a => exact renders_present (nameAs_name w a)
  | absent a => exact renders_absent (nameAs_name w a)
  | hasType a t => exact renders_hasType t (nameAs_nameValue w a _) (valueAs_nameValue w a _)
  | and | or | not => cases hleaf

theorem Renders.parens {w : Writer} {text : String} {meaning : Item → Bool} (h : Renders w text .disjunction meaning) :
    Renders w s!"({text})" .operand meaning := by
  obtain ⟨f, ts, hscan, hspell, hsays⟩ := h
  refine ⟨f, _, ?_, .parens hspell, hsays⟩
  have htext : s!"({text})".toList = '(' :: text.toList ++ [')'] := by simp [toString]
  rw [htext]
  exact hscan.parens

theorem Renders.ofOperand {w : Writer} {text : String} {meaning : Item → Bool}
    (h : Renders w text .operand meaning) : Renders w text .comparison meaning := by
  obtain ⟨f, ts, hscan, hspell, hsays⟩ := h
  exact ⟨f, ts, hscan, .ofOperand hspell, hsays⟩

theorem Renders.later {w w' : Writer} {text : String} {level : Formula → Phrase} {meaning : Item → Bool}
    (h : Renders w text level meaning) (he : Extends w w') : Renders w' text level meaning := by
  obtain ⟨f, ts, hscan, hspell, hsays⟩ := h
  exact ⟨f, ts, hscan, hspell, hsays.later he⟩

theorem condition_and (w : Writer) (c d : Condition) : w.condition (.and c d) =
    (s!"({(w.condition c).1}) AND ({((w.condition c).2.condition d).1})", ((w.condition c).2.condition d).2) := rfl

theorem condition_or (w : Writer) (c d : Condition) : w.condition (.or c d) =
    (s!"({(w.condition c).1}) OR ({((w.condition c).2.condition d).1})", ((w.condition c).2.condition d).2) := rfl

theorem condition_not (w : Writer) (c : Condition) :
    w.condition (.not c) = (s!"NOT ({(w.condition c).1})", (w.condition c).2) := rfl

theorem toList_parensAnd (l r : String) : s!"({l}) AND ({r})".toList =
    s!"({l})".toList ++ ' ' :: ("AND".toList ++ ' ' :: s!"({r})".toList) := by
  simp [toString]

theorem toList_parensOr (l r : String) : s!"({l}) OR ({r})".toList =
    s!"({l})".toList ++ ' ' :: ("OR".toList ++ ' ' :: s!"({r})".toList) := by
  simp [toString]

theorem toList_notParens (l : String) : s!"NOT ({l})".toList = "NOT".toList ++ ' ' :: s!"({l})".toList := by
  simp [toString]

section Connectives

variable {w : Writer} {text l r : String} {p q : Item → Bool}

theorem writes_and {f g : Formula} (htext : text.toList = l.toList ++ ' ' :: ("AND".toList ++ ' ' :: r.toList))
    (hl : Writes l (.conjunction f)) (hr : Writes r (.negation g)) : Writes text (.conjunction (.and f g)) := by
  obtain ⟨ts, hscanf, hspellf⟩ := hl
  obtain ⟨us, hscang, hspellg⟩ := hr
  have hand : Scans "AND".toList [.keyword .and] := Token.scans_keywordText (by decide) (by decide)
  refine ⟨_, ?_, .and hspellf hspellg⟩
  rw [htext]
  exact hscanf.spaced (hand.spaced hscang)

theorem renders_and (htext : text.toList = l.toList ++ ' ' :: ("AND".toList ++ ' ' :: r.toList))
    (hl : Renders w l .conjunction p) (hr : Renders w r .negation q) :
    Renders w text .conjunction fun item => p item && q item := by
  obtain ⟨f, ts, hscanf, hspellf, hsaysf⟩ := hl
  obtain ⟨g, us, hscang, hspellg, hsaysg⟩ := hr
  refine (writes_and htext ⟨ts, hscanf, hspellf⟩ ⟨us, hscang, hspellg⟩).renders fun w' he item => ?_
  rw [Formula.holds, hsaysf w' he, hsaysg w' he]
  simp only [bind, Except.bind, pure, Except.pure]
  cases p item <;> rfl

theorem renders_or (htext : text.toList = l.toList ++ ' ' :: ("OR".toList ++ ' ' :: r.toList))
    (hl : Renders w l .disjunction p) (hr : Renders w r .conjunction q) :
    Renders w text .disjunction fun item => p item || q item := by
  obtain ⟨f, ts, hscanf, hspellf, hsaysf⟩ := hl
  obtain ⟨g, us, hscang, hspellg, hsaysg⟩ := hr
  refine ⟨_, _, ?_, .or hspellf hspellg, ?_⟩
  · have hor : Scans "OR".toList [.keyword .or] := Token.scans_keywordText (by decide) (by decide)
    rw [htext]
    exact hscanf.spaced (hor.spaced hscang)
  · intro w' he item
    rw [Formula.holds, hsaysf w' he, hsaysg w' he]
    simp only [bind, Except.bind, pure, Except.pure]
    cases p item <;> rfl

theorem renders_not (htext : text.toList = "NOT".toList ++ ' ' :: l.toList) (hl : Renders w l .negation p) :
    Renders w text .negation fun item => !p item := by
  obtain ⟨f, ts, hscan, hspell, hsays⟩ := hl
  refine ⟨_, _, ?_, .not hspell, ?_⟩
  · have hnot : Scans "NOT".toList [.keyword .not] := Token.scans_keywordText (by decide) (by decide)
    rw [htext]
    exact hnot.spaced hscan
  · intro w' he item
    rw [Formula.holds, hsays w' he]
    rfl

end Connectives

/-- **A written condition spells a formula that says what the condition means.** -/
theorem renders_condition (w : Writer) {c : Condition} (h : c.listsFilled = true) :
    Renders (w.condition c).2 (w.condition c).1 .disjunction fun item => c.holds item := by
  induction c generalizing w with
  | and left right ihl ihr =>
    obtain ⟨hl, hr⟩ := Bool.and_eq_true_iff.1 h
    have hleft := ((ihl w hl).later (extends_condition _ right)).parens.ofOperand.negation.conjunction
    have hright := (ihr (w.condition left).2 hr).parens.ofOperand.negation
    rw [condition_and]
    exact (renders_and (toList_parensAnd _ _) hleft hright).disjunction
  | or left right ihl ihr =>
    obtain ⟨hl, hr⟩ := Bool.and_eq_true_iff.1 h
    have hleft := ((ihl w hl).later (extends_condition _ right)).parens.ofOperand.negation.conjunction.disjunction
    have hright := (ihr (w.condition left).2 hr).parens.ofOperand.negation.conjunction
    rw [condition_or]
    exact renders_or (toList_parensOr _ _) hleft hright
  | not inner ih =>
    have hinner := (ih w h).parens.ofOperand.negation
    rw [condition_not]
    exact (renders_not (toList_notParens _) hinner).conjunction.disjunction
  -- Only the connectives write parentheses, and they put them around every part.
  | _ => exact (renders_leaf w rfl h).negation.conjunction.disjunction

/-! ## Several conditions -/

/-- The text of a condition, in a state of the writer that has handed out its placeholders. -/
def RendersCondition (w : Writer) (text : String) (c : Condition) : Prop :=
  Renders w text .disjunction fun item => c.holds item

theorem renders_conditionList (w : Writer) : ∀ cs : List Condition, (∀ c ∈ cs, c.listsFilled = true) →
    List.Forall₂ (RendersCondition (w.conditionList cs).2) (w.conditionList cs).1 cs
  | [], _ => .nil
  | c :: cs, h => by
    have hrest := renders_conditionList (w.condition c).2 cs fun d hd => h d (List.mem_cons_of_mem c hd)
    exact .cons ((renders_condition w (h c List.mem_cons_self)).later (extends_conditionList _ cs)) hrest

/-- Texts in parentheses joined by AND behind a first one; AND groups to the left, as the texts are joined. -/
theorem renders_joined {w : Writer} {texts : List String} {cs : List Condition}
    (h : List.Forall₂ (RendersCondition w) texts cs) {l : String} {p : Item → Bool} (hl : Renders w l .conjunction p) :
    Renders w (" AND ".intercalate (l :: texts.map fun text => s!"({text})")) .conjunction
      fun item => p item && Condition.allHold item cs := by
  induction h generalizing l p with
  | nil =>
    have hp : (fun item => p item && Condition.allHold item []) = p := by
      funext item
      exact Bool.and_true _
    rw [hp]
    exact hl
  | @cons text c texts cs htext _ ih =>
    have hword : (l ++ " AND " ++ s!"({text})").toList = l.toList ++
        ' ' :: ("AND".toList ++ ' ' :: s!"({text})".toList) := by
      simp [toString]
    have hstep := renders_and hword hl htext.parens.ofOperand.negation
    have hp : (fun item => p item && Condition.allHold item (c :: cs)) =
        fun item => (p item && c.holds item) && Condition.allHold item cs := by
      funext item
      rw [Condition.allHold, List.all_cons, Bool.and_assoc]
      rfl
    rw [hp]
    exact ih hstep

/-! ## What a text expresses -/

/-- The text can be read, and what is read holds of an item exactly if the meaning says so, without a fault and under
the bindings that this state of the writer leaves, or any later one. -/
def Expresses (w : Writer) (text : String) (meaning : Item → Bool) : Prop :=
  ∃ f, Formula.parse text = .ok f ∧
    ∀ (later : List Call) (item : Item), f.holds (w.run later).bindings item = .ok (meaning item)

theorem Renders.expresses {w : Writer} {text : String} {meaning : Item → Bool}
    (h : Renders w text .disjunction meaning) : Expresses w text meaning := by
  obtain ⟨f, ts, hscan, hspell, hsays⟩ := h
  exact ⟨f, Writes.parse_eq ⟨ts, hscan, hspell⟩, fun later item => hsays _ (extends_run later w) item⟩

theorem expresses_condition (w : Writer) {c : Condition} (h : c.listsFilled = true) :
    Expresses (w.condition c).2 (w.condition c).1 fun item => c.holds item := (renders_condition w h).expresses

theorem expresses_conjunction (w : Writer) {cs : List Condition} (h : ∀ c ∈ cs, c.listsFilled = true) :
    match (w.conjunction cs).1 with
    | none => cs = []
    | some text => Expresses (w.conjunction cs).2 text fun item => Condition.allHold item cs := by
  match cs, h with
  | [], _ => rfl
  | [c], h =>
    have hp : (fun item => Condition.allHold item [c]) = fun item => c.holds item := by
      funext item
      exact Bool.and_true _
    show Expresses (w.condition c).2 (w.condition c).1 _
    rw [hp]
    exact expresses_condition w (h c List.mem_cons_self)
  | c :: d :: cs, h =>
    have hall := renders_conditionList w (c :: d :: cs) h
    show Expresses (w.conditionList (c :: d :: cs)).2 (" AND ".intercalate
      ((w.conditionList (c :: d :: cs)).1.map fun text => s!"({text})")) _
    generalize w.conditionList (c :: d :: cs) = written at hall
    obtain ⟨texts, w'⟩ := written
    cases hall with
    | cons hc hrest => exact (renders_joined hrest hc.parens.ofOperand.negation.conjunction).disjunction.expresses

/-- Two leaves with an AND between them, without parentheses. -/
theorem expresses_side_by_side (w : Writer) {c d : Condition} (hc : c.isLeaf = true) (hd : d.isLeaf = true)
    (hcf : c.listsFilled = true) (hdf : d.listsFilled = true) :
    Expresses ((w.condition c).2.condition d).2 s!"{(w.condition c).1} AND {((w.condition c).2.condition d).1}"
      fun item => c.holds item && d.holds item := by
  have hleft := ((renders_leaf w hc hcf).later (extends_condition _ d)).negation.conjunction
  have hright := (renders_leaf (w.condition c).2 hd hdf).negation
  exact (renders_and (by simp [toString]) hleft hright).disjunction.expresses

end Writer
end ItemStore
