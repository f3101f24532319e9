import ItemStore.Proofs.Expression.Placeholders
import ItemStore.Proofs.Outcome
import ItemStore.Store.Page
/-!
# The texts of projections

A projection is written as its placeholders with a comma and a blank between them.  Neither is part of a placeholder, so
the store reads the names that were to be shown, in their order (`projectedNames_projection`), and shows the item so
(`project_projection?`).
-/
namespace ItemStore

/-! ## Words between commas -/

/-- A text that is neither cut at commas nor trimmed. -/
structure Text.IsWord (cs : List Char) : Prop where
  ne_nil : cs ≠ []
  noComma : ∀ c ∈ cs, (c == ',') = false
  noBlank : ∀ c ∈ cs, Text.isWhiteSpace c = false

namespace Text

theorem dropWhile_isWhiteSpace {cs : List Char} (h : ∀ c ∈ cs, isWhiteSpace c = false) :
    cs.dropWhile isWhiteSpace = cs := by
  cases cs with
  | nil => rfl
  | cons c cs => rw [List.dropWhile_cons_of_neg (by rw [h c List.mem_cons_self]; exact Bool.false_ne_true)]

theorem IsWord.trim_eq {cs : List Char} (h : IsWord cs) : trim cs = cs := by
  have hreverse : ∀ c ∈ cs.reverse, isWhiteSpace c = false := fun c hc => h.noBlank c (List.mem_reverse.1 hc)
  rw [trim, dropWhile_isWhiteSpace h.noBlank, dropWhile_isWhiteSpace hreverse, List.reverse_reverse]

theorem trim_blank_cons (cs : List Char) : trim (' ' :: cs) = trim cs := by
  rw [trim, List.dropWhile_cons_of_pos (by decide)]
  rfl

theorem trim_splitOnP_blank_cons (cs : List Char) :
    ((' ' :: cs).splitOnP (· == ',')).map trim = (cs.splitOnP (· == ',')).map trim := by
  rw [List.splitOnP_cons_eq_if_modifyHead, if_neg (by decide)]
  cases cs.splitOnP (· == ',') with
  | nil => rfl
  | cons part parts => rw [List.modifyHead_cons, List.map_cons, trim_blank_cons, List.map_cons]

/-- Words that are listed with commas and blanks are found again. -/
theorem trim_splitOnP_words :
    ∀ {word : List Char} {words : List (List Char)}, IsWord word → (∀ cs ∈ words, IsWord cs) →
    (([',', ' '].intercalate (word :: words)).splitOnP (· == ',')).map trim = word :: words
  | word, [], hword, _ => by
    rw [List.intercalate_singleton, List.splitOnP_eq_singleton hword.noComma, List.map_singleton, hword.trim_eq]
  | word, next :: words, hword, hwords => by
    obtain ⟨hnext, hwords⟩ := List.forall_mem_cons.1 hwords
    rw [List.intercalate_cons_cons, List.append_assoc, List.cons_append,
      List.splitOnP_append_cons_of_forall_mem hword.noComma ',' rfl, List.map_cons, hword.trim_eq, List.cons_append,
      trim_splitOnP_blank_cons, List.nil_append, trim_splitOnP_words hnext hwords]

end Text

/-! ## Projections -/

/-- An item as a projection on these names shows it; without names it is shown whole. -/
def shownIn (names : List String) (item : Item) : Item := if names = [] then item else item.restrict names

namespace Writer

theorem isWord_namePlaceholder (i : Nat) : Text.IsWord (namePlaceholder i).toList := by
  have hdigit : ∀ c ∈ Nat.toDigits 10 i, (c == ',') = false ∧ Text.isWhiteSpace c = false := by
    intro c hc
    have hc := isDigit_toDigits i c hc
    refine ⟨beq_false_of_ne ?_, Text.isWhiteSpace_of_isDigit hc⟩
    rintro rfl
    exact absurd hc (by decide)
  rw [toList_namePlaceholder]
  have hplain : ∀ c ∈ '#' :: 'n' :: Nat.toDigits 10 i, (c == ',') = false ∧ Text.isWhiteSpace c = false :=
    List.forall_mem_cons.2 ⟨⟨rfl, rfl⟩, List.forall_mem_cons.2 ⟨⟨rfl, rfl⟩, hdigit⟩⟩
  exact ⟨List.cons_ne_nil _ _, fun c hc => (hplain c hc).1, fun c hc => (hplain c hc).2⟩

/-- What a writer answers for names are words that stand for them. -/
theorem placeholders_nameList (w : Writer) (names : List String) :
    (∀ n ∈ (w.nameList names).1, Text.IsWord n.toList) ∧
    ∀ {w'}, Extends (w.nameList names).2 w' → (w.nameList names).1.mapM w'.bindings.name = .ok names := by
  induction names generalizing w with
  | nil => exact ⟨List.forall_mem_nil _, fun _ => rfl⟩
  | cons a as ih =>
    obtain ⟨i, hi, -⟩ := w.name_spec a
    obtain ⟨hwords, hnames⟩ := ih (w.name a).2
    refine ⟨List.forall_mem_cons.2 ⟨?_, hwords⟩, fun he =>
      Outcome.mapM_cons_eq_ok.2 ⟨a, as, ?_, hnames he, rfl⟩⟩
    · show Text.IsWord (w.name a).1.toList
      rw [hi]
      exact isWord_namePlaceholder i
    · exact (nameAs_name w a).bound ((extends_nameList (w.name a).2 as).trans he)

/-- **A store reads from a projection the names that it was written for.** -/
theorem projectedNames_projection (w : Writer) {w' : Writer} {names : List String} (hne : names ≠ [])
    (he : Extends (w.projection names).2 w') : Table.projectedNames w'.bindings (w.projection names).1 = .ok names := by
  obtain ⟨hwords, hnames⟩ := placeholders_nameList w names
  have hnames := hnames he
  rw [projection, Table.projectedNames, String.toList_intercalate]
  generalize (w.nameList names).1 = placeholders at hwords hnames
  cases placeholders with
  | nil =>
    cases hnames
    exact absurd rfl hne
  | cons n ns =>
    obtain ⟨hn, hns⟩ := List.forall_mem_cons.1 hwords
    have hparts := Text.trim_splitOnP_words hn (List.forall_mem_map.2 hns)
    have hfilter : ((n :: ns).map String.toList).filter (· ≠ []) = (n :: ns).map String.toList := by
      refine List.filter_eq_self.2 fun cs hcs => ?_
      obtain ⟨m, hm, rfl⟩ := List.mem_map.1 hcs
      exact decide_eq_true (hwords m hm).ne_nil
    have hback : (fun part => w'.bindings.name (String.ofList part)) ∘ String.toList = w'.bindings.name := by
      funext m
      rw [Function.comp, String.ofList_toList]
    have hnames : ((n :: ns).map String.toList).mapM (fun part => w'.bindings.name (String.ofList part)) =
        .ok names := by
      rw [List.mapM_map, hback]
      exact hnames
    show expressionFault
        ((((([',', ' '].intercalate ((n :: ns).map String.toList)).splitOnP (· == ',')).map Text.trim).filter
      (· ≠ [])).mapM fun part => w'.bindings.name (String.ofList part)) = .ok names
    rw [List.map_cons, hparts, ← List.map_cons, hfilter, hnames]
    rfl

theorem project_projection? (w : Writer) (names : List String) (filter condition : Option String) (item : Item) :
    Table.project ((w.projection? names).2.expressions filter condition (w.projection? names).1) item =
      .ok (shownIn names item) := by
  by_cases hnames : names = []
  · rw [projection?, if_pos hnames, shownIn, if_pos hnames]
    rfl
  · rw [projection?, if_neg hnames, shownIn, if_neg hnames]
    exact Outcome.bind_eq_ok.2 ⟨_, projectedNames_projection _ hnames (.refl _), rfl⟩

end Writer
end ItemStore
