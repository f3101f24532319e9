import ItemStore.Expression.Change
import ItemStore.Expression.Writer
import ItemStore.Proofs.Expression.Grammar
/-!
# The grammar of updates

The same for updates: relations between terms, changes and whole updates and the tokens that spell them, and the reader
giving back what is spelled (`ofTokens_of_spelled`).  An update is spelled from its first keyword on; a change is
followed by a comma and another change of its clause, by the keyword of another clause, or by nothing.
-/
namespace ItemStore

open Token (expect takePath)
open Formula (IsPath Follows follows_nil follows_cons expect_self takePath_of_isPath)

namespace Term

/-- What may stand on either side of a `+` or a `-`. -/
inductive SpelledOperand : Term → List Token → Prop where
  | path {p t} : IsPath p t → SpelledOperand (.path p) [t]
  | value (p) : SpelledOperand (.value p) [.value p]
  | append {l r ts us} : SpelledOperand l ts → SpelledOperand r us →
      SpelledOperand (.append l r) (.keyword .listAppend :: .opening :: (ts ++ .comma :: (us ++ [.closing])))

inductive Spelled : Term → List Token → Prop where
  | operand {x ts} : SpelledOperand x ts → Spelled x ts
  | plus {l r ts us} : SpelledOperand l ts → SpelledOperand r us → Spelled (.plus l r) (ts ++ .plus :: us)
  | minus {l r ts us} : SpelledOperand l ts → SpelledOperand r us → Spelled (.minus l r) (ts ++ .minus :: us)

/-- Where a term goes on behind its first operand. -/
def sumsOn : Token → Bool
  | .plus | .minus => true
  | _ => false

theorem readOperand_of_spelled {x : Term} {ts : List Token} (h : SpelledOperand x ts) :
    ∀ fuel rest, ts.length ≤ fuel → readOperand fuel (ts ++ rest) = .ok (x, rest) := by
  induction h with
  | path hp =>
    intro fuel rest _
    cases hp <;> rw [List.cons_append, readOperand] <;> rfl
  | value p =>
    intro fuel rest _
    rw [List.cons_append, readOperand]
    rfl
  | @append l r ts us _ _ ihl ihr =>
    intro fuel rest hf
    simp only [List.length_cons, List.length_append] at hf
    obtain ⟨n, rfl⟩ : ∃ n, fuel = n + 1 := ⟨fuel - 1, by omega⟩
    have hl := ihl n (.comma :: (us ++ .closing :: rest)) (by omega)
    have hr := ihr n (.closing :: rest) (by omega)
    simp only [List.cons_append, List.append_assoc, List.nil_append, readOperand, expect_self, hl, hr, bind,
      Except.bind, pure, Except.pure]

theorem read_of_spelled {x : Term} {ts : List Token} (h : Spelled x ts) {fuel : Nat} {rest : List Token}
    (hf : ts.length ≤ fuel) (hr : Follows sumsOn rest) : read fuel (ts ++ rest) = .ok (x, rest) := by
  cases h with
  | operand hx =>
    rw [read, readOperand_of_spelled hx fuel rest hf]
    simp only [bind, Except.bind]
    split
    · exact absurd (hr _ rfl) (by decide)
    · exact absurd (hr _ rfl) (by decide)
    · rfl
  | @plus l r ts us hl hr' =>
    simp only [List.length_append, List.length_cons] at hf
    rw [List.append_assoc, read, readOperand_of_spelled hl fuel _ (by omega)]
    simp only [List.cons_append, bind, Except.bind, readOperand_of_spelled hr' fuel rest (by omega)]
    rfl
  | @minus l r ts us hl hr' =>
    simp only [List.length_append, List.length_cons] at hf
    rw [List.append_assoc, read, readOperand_of_spelled hl fuel _ (by omega)]
    simp only [List.cons_append, bind, Except.bind, readOperand_of_spelled hr' fuel rest (by omega)]
    rfl

end Term

/-- The token that begins a clause. -/
def Writer.Clause.token : Writer.Clause → Token
  | .set => .keyword .set
  | .remove => .keyword .remove
  | .add => .keyword .add
  | .delete => .keyword .delete

namespace Change

open Writer (Clause)
open Term (sumsOn)

/-- The tokens spell a change of the clause. -/
inductive Spelled : Clause → Change → List Token → Prop where
  | set {p t x ts} : IsPath p t → Term.Spelled x ts → Spelled .set (.set p x) (t :: .compare .eq :: ts)
  | remove {p t} : IsPath p t → Spelled .remove (.remove p) [t]
  | add {p t x ts} : IsPath p t → Term.SpelledOperand x ts → Spelled .add (.add p x) (t :: ts)
  | delete {p t x ts} : IsPath p t → Term.SpelledOperand x ts → Spelled .delete (.delete p x) (t :: ts)

/-- The tokens behind the keyword of a clause spell changes of it and of the clauses after it. -/
inductive AllSpelled : Clause → List Change → List Token → Prop where
  | last {k c ts} : Spelled k c ts → AllSpelled k [c] ts
  | comma {k c cs ts us} : Spelled k c ts → AllSpelled k cs us → AllSpelled k (c :: cs) (ts ++ .comma :: us)
  | clause {k k' c cs ts us} : Spelled k c ts → AllSpelled k' cs us → AllSpelled k (c :: cs) (ts ++ k'.token :: us)

theorem AllSpelled.append {k k' : Clause} {cs ds : List Change} {ts us : List Token} (hc : AllSpelled k cs ts)
    (hd : AllSpelled k' ds us) : AllSpelled k (cs ++ ds) (ts ++ k'.token :: us) := by
  induction hc with
  | last h => exact .clause h hd
  | comma h _ ih =>
    rw [List.append_assoc]
    exact .comma h ih
  | clause h _ ih =>
    rw [List.append_assoc]
    exact .clause h ih

theorem read_of_spelled {k : Clause} {c : Change} {ts : List Token} (h : Spelled k c ts) {fuel : Nat}
    {rest : List Token} (hf : ts.length ≤ fuel) (hr : Follows sumsOn rest) :
    read k.token fuel (ts ++ rest) = .ok (c, rest) := by
  cases h with
  | set hp hx =>
    simp only [List.length_cons] at hf
    simp only [List.cons_append, Clause.token, read, takePath_of_isPath hp, expect_self,
      Term.read_of_spelled hx (show _ ≤ fuel by omega) hr, bind, Except.bind, pure, Except.pure]
  | remove hp =>
    simp only [List.cons_append, List.nil_append, Clause.token, read, takePath_of_isPath hp, bind, Except.bind,
      pure, Except.pure]
  | add hp hx =>
    simp only [List.length_cons] at hf
    simp only [List.cons_append, Clause.token, read, takePath_of_isPath hp,
      Term.readOperand_of_spelled hx fuel rest (by omega), bind, Except.bind, pure, Except.pure]
  | delete hp hx =>
    simp only [List.length_cons] at hf
    simp only [List.cons_append, Clause.token, read, takePath_of_isPath hp,
      Term.readOperand_of_spelled hx fuel rest (by omega), bind, Except.bind, pure, Except.pure]

theorem readClause_of_spelled {k : Clause} {cs : List Change} {ts : List Token} (h : AllSpelled k cs ts) :
    ∀ fuel, ts.length < fuel → readClause k.token fuel ts = .ok cs := by
  induction h with
  | @last k c ts h =>
    intro fuel hf
    obtain ⟨n, rfl⟩ : ∃ n, fuel = n + 1 := ⟨fuel - 1, by omega⟩
    have hread := read_of_spelled h (show ts.length ≤ n by omega) (follows_nil sumsOn)
    rw [List.append_nil] at hread
    rw [readClause, hread]
    rfl
  | @comma k c cs ts us h _ ih =>
    intro fuel hf
    simp only [List.length_append, List.length_cons] at hf
    obtain ⟨n, rfl⟩ : ∃ n, fuel = n + 1 := ⟨fuel - 1, by omega⟩
    rw [readClause, read_of_spelled h (show ts.length ≤ n by omega) (follows_cons rfl)]
    simp only [bind, Except.bind, ih n (by omega)]
    rfl
  | @clause k k' c cs ts us h _ ih =>
    intro fuel hf
    simp only [List.length_append, List.length_cons] at hf
    obtain ⟨n, rfl⟩ : ∃ n, fuel = n + 1 := ⟨fuel - 1, by omega⟩
    have hrest := ih n (by omega)
    rw [readClause, read_of_spelled h (show ts.length ≤ n by omega) (follows_cons (by cases k' <;> rfl))]
    cases k' <;> simp only [bind, Except.bind, Clause.token] at hrest ⊢ <;> rw [hrest] <;> rfl

/-- **What is spelled is read**, all tokens of it. -/
theorem ofTokens_of_spelled {k : Clause} {cs : List Change} {ts : List Token} (h : AllSpelled k cs ts) :
    ofTokens (k.token :: ts) = .ok cs := by
  rw [ofTokens]
  exact readClause_of_spelled h _ (Nat.lt_succ_self _)

end Change
end ItemStore
