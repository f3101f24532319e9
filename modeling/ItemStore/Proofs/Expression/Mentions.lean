import ItemStore.Proofs.Expression.ConditionText
import ItemStore.Proofs.Expression.UpdateText
/-!
# What texts mention

What is handed to a writer mentions names and values (`Condition.mentions`, `UpdateAction.mentions`), and the text that
is written has a placeholder for each mention, in the same order but for the clauses of an update (`records_condition`,
`records_update`).  The account of what a writer has handed out is kept by numbers, those of the placeholders (`Hands`):
a name is numbered by its place among the names, which it keeps, and the values of a text are numbered on from those of
the texts before, each once.
-/
namespace ItemStore

namespace Token

/-- A token that stands for a name or a value. -/
def isPlaceholder : Token → Bool
  | name _ | value _ => true
  | _ => false

/-- The placeholders in a text, in order, as the store reads it; no text has none. -/
def placeholders : Option String → List Token
  | some text =>
    match scan text.toList with
    | .ok ts => ts.filter isPlaceholder
    | .error _ => []
  | none => []

/-- The text is tokens, whatever stands after it, and these are the placeholders among them. -/
def Holds (cs : List Char) (ps : List Token) : Prop := ∃ ts, Scans cs ts ∧ ts.filter isPlaceholder = ps

namespace Holds
variable {cs ds : List Char} {ps qs : List Token}

theorem placeholders_eq {text : String} (h : Holds text.toList ps) : placeholders (some text) = ps := by
  obtain ⟨ts, hscan, rfl⟩ := h
  rw [placeholders, hscan.scan_eq]

theorem nil : Holds [] [] := ⟨[], fun _ _ _ h => h, rfl⟩

theorem keyword {text : String} {k : Keyword} (hw : isWord text = true) (hk : Keyword.ofWord? text = some k) :
    Holds text.toList [] := ⟨_, scans_keywordText hw hk, rfl⟩

theorem spaced (hc : Holds cs ps) (hd : Holds ds qs) : Holds (cs ++ ' ' :: ds) (ps ++ qs) := by
  obtain ⟨ts, hts, rfl⟩ := hc
  obtain ⟨us, hus, rfl⟩ := hd
  exact ⟨_, hts.spaced hus, List.filter_append ..⟩

theorem listed (hc : Holds cs ps) (hd : Holds ds qs) : Holds (cs ++ ',' :: ' ' :: ds) (ps ++ qs) := by
  obtain ⟨ts, hts, rfl⟩ := hc
  obtain ⟨us, hus, rfl⟩ := hd
  exact ⟨_, hts.listed hus, List.filter_append ..⟩

theorem comparison (op : Comparator) (hc : Holds cs ps) (hd : Holds ds qs) :
    Holds (cs ++ ' ' :: (op.symbol.toList ++ ' ' :: ds)) (ps ++ qs) := by
  obtain ⟨ts, hts, rfl⟩ := hc
  obtain ⟨us, hus, rfl⟩ := hd
  exact ⟨_, hts.comparison op hus, List.filter_append ..⟩

theorem parens (h : Holds cs ps) : Holds ('(' :: cs ++ [')']) ps := by
  obtain ⟨ts, hts, rfl⟩ := h
  exact ⟨_, hts.parens, by simp [isPlaceholder]⟩

theorem inParens {text : String} (h : Holds text.toList ps) : Holds s!"({text})".toList ps := by
  have htext : s!"({text})".toList = '(' :: text.toList ++ [')'] := by simp [toString]
  rw [htext]
  exact h.parens

theorem call {f : String} {k : Keyword} (hw : isWord f = true) (hk : Keyword.ofWord? f = some k) (h : Holds cs ps) :
    Holds (f.toList ++ ('(' :: cs ++ [')'])) ps := by
  obtain ⟨ts, hts, rfl⟩ := h
  exact ⟨_, (scans_keywordText hw hk).call hts, by simp [isPlaceholder]⟩

/-- Any number of texts, with something between them that has no placeholder. -/
theorem intercalate {α : Type} {s : String} {f : α → String} {g : α → List Token}
    (hsep : ∀ {cs ds ps qs}, Holds cs ps → Holds ds qs → Holds (cs ++ (s.toList ++ ds)) (ps ++ qs)) :
    ∀ {xs : List α}, (∀ x ∈ xs, Holds (f x).toList (g x)) → Holds (s.intercalate (xs.map f)).toList (xs.flatMap g)
  | [], _ => nil
  | [x], h => by simpa [String.toList_intercalate] using h x
  | x :: y :: xs, h => by
    obtain ⟨hx, hrest⟩ := List.forall_mem_cons.1 h
    have hjoined := hsep hx (intercalate hsep hrest)
    rw [String.toList_intercalate] at hjoined ⊢
    simpa [List.intercalate_cons_cons] using hjoined

end Holds
end Token

/-! ## Mentions -/

/-- A name or a value where it is spoken of. -/
inductive Mention where
  | name (a : String)
  | value (v : Value)

/-- The names and values of a condition, as they are written. -/
def Condition.mentions : Condition → List Mention
  | compare a _ v | beginsWith a v | contains a v => [.name a, .value v]
  | between a low high => [.name a, .value low, .value high]
  | isIn a vs => .name a :: vs.map .value
  | present a | absent a => [.name a]
  | hasType a t => [.name a, .value (.string t.tag)]
  | and left right | or left right => left.mentions ++ right.mentions
  | not inner => inner.mentions

namespace UpdateAction

/-- What is computed from the old value mentions the attribute twice. -/
def mentions : UpdateAction → List Mention
  | set a v | add a v | delete a v => [.name a, .value v]
  | increment a x | decrement a x => [.name a, .name a, .value (.number x)]
  | append a v => [.name a, .name a, .value v]
  | remove a => [.name a]

def clause : UpdateAction → Writer.Clause
  | set .. | increment .. | decrement .. | append .. => .set
  | remove _ => .remove
  | add .. => .add
  | delete .. => .delete

end UpdateAction

namespace Writer

open Token (Holds)

/-! ## Placeholders that have been handed out -/

/-- A placeholder in a text, by its number, and what it was handed out for. -/
inductive Use where
  | name (i : Nat) (a : String)
  | value (i : Nat) (v : Value)

namespace Use

def token : Use → Token
  | name i _ => .name (namePlaceholder i)
  | value i _ => .value (valuePlaceholder i)

def mention : Use → Mention
  | name _ a => .name a
  | value _ v => .value v

/-- The number of a value. -/
def valueNumber? : Use → Option Nat
  | name .. => none
  | value i _ => some i

/-- What it was handed out for has that number. -/
def StandsIn (w : Writer) : Use → Prop
  | name i a => w.names[i]? = some a
  | value i v => w.values[i]? = some v

theorem StandsIn.later {w w' : Writer} (he : Extends w w') : ∀ {u : Use}, u.StandsIn w → u.StandsIn w'
  | name _ _, h => getElem?_mono he.names h
  | value _ _, h => getElem?_mono he.values h

end Use

theorem holds_name (i : Nat) : Holds (namePlaceholder i).toList [.name (namePlaceholder i)] :=
  ⟨_, scans_namePlaceholder i, rfl⟩

theorem holds_value (i : Nat) : Holds (valuePlaceholder i).toList [.value (valuePlaceholder i)] :=
  ⟨_, scans_valuePlaceholder i, rfl⟩

/-- Between two states, a writer has handed these out: names that it had or has taken in, and new values, each once. -/
structure Hands (w w' : Writer) (us : List Use) : Prop where
  extends_ : Extends w w'
  stands : ∀ u ∈ us, u.StandsIn w'
  mem_names : ∀ a, a ∈ w'.names ↔ a ∈ w.names ∨ .name a ∈ us.map Use.mention
  nodup : w.names.Nodup → w'.names.Nodup
  values : ∃ n, w'.values.length = w.values.length + n ∧
    (us.filterMap Use.valueNumber?).Perm (List.range' w.values.length n)

namespace Hands
variable {w w' w'' : Writer} {us vs : List Use}

theorem refl (w : Writer) : Hands w w [] where
  extends_ := .refl w
  stands _ h := by cases h
  mem_names a := by simp
  nodup h := h
  values := ⟨0, rfl, .refl _⟩

theorem trans (h : Hands w w' us) (h' : Hands w' w'' vs) : Hands w w'' (us ++ vs) where
  extends_ := h.extends_.trans h'.extends_
  stands u hu := by
    rcases List.mem_append.1 hu with hu | hu
    · exact (h.stands u hu).later h'.extends_
    · exact h'.stands u hu
  mem_names a := by rw [h'.mem_names, h.mem_names, List.map_append, List.mem_append, or_assoc]
  nodup hd := h'.nodup (h.nodup hd)
  values := by
    obtain ⟨n, hn, hperm⟩ := h.values
    obtain ⟨m, hm, hperm'⟩ := h'.values
    refine ⟨n + m, by omega, ?_⟩
    rw [List.filterMap_append, ← List.range'_append_1]
    exact hperm.append (hn ▸ hperm')

/-- In what order does not matter. -/
theorem perm (h : Hands w w' us) (hperm : us.Perm vs) : Hands w w' vs where
  extends_ := h.extends_
  stands u hu := h.stands u (hperm.mem_iff.2 hu)
  mem_names a := by rw [h.mem_names, (hperm.map Use.mention).mem_iff]
  nodup := h.nodup
  values := by
    obtain ⟨n, hn, hvalues⟩ := h.values
    exact ⟨n, hn, (hperm.symm.filterMap _).trans hvalues⟩

/-- A name can be used again. -/
theorem again {i : Nat} {a : String} (h : Hands w w' (.name i a :: us)) :
    Hands w w' (.name i a :: .name i a :: us) where
  extends_ := h.extends_
  stands u hu := h.stands u (by simpa using hu)
  mem_names b := by
    rw [h.mem_names]
    simp [Use.mention]
  nodup := h.nodup
  values := h.values

end Hands

theorem hands_name (w : Writer) (a : String) :
    ∃ i, (w.name a).1 = namePlaceholder i ∧ Hands w (w.name a).2 [.name i a] := by
  unfold name
  split
  · next i h =>
    obtain ⟨hi, ha, -⟩ := List.idxOf?_eq_some_iff.1 h
    refine ⟨i, rfl, .refl w, fun u hu => ?_, fun b => ?_, fun hd => hd, 0, rfl, .refl _⟩
    · rw [List.mem_singleton.1 hu]
      exact List.getElem?_eq_some_iff.2 ⟨hi, ha⟩
    · have hmem : a ∈ w.names := ha ▸ List.getElem_mem hi
      simp only [List.map_cons, List.map_nil, Use.mention, List.mem_singleton, Mention.name.injEq]
      constructor
      · exact .inl
      · rintro (hb | rfl)
        · exact hb
        · exact hmem
  · next h =>
    refine ⟨w.names.length, rfl, ⟨List.prefix_append _ _, List.prefix_rfl⟩, fun u hu => ?_, fun b => ?_, fun hd => ?_,
      0, rfl, .refl _⟩
    · rw [List.mem_singleton.1 hu]
      exact List.getElem?_concat_length
    · simp [Use.mention]
    · rw [List.idxOf?_eq_none_iff] at h
      simpa [List.nodup_append] using ⟨hd, fun b hb heq => h (heq ▸ hb)⟩

theorem hands_value (w : Writer) (v : Value) : Hands w (w.value v).2 [.value w.values.length v] where
  extends_ := extends_value w v
  stands u hu := by
    rw [List.mem_singleton.1 hu]
    exact List.getElem?_concat_length
  mem_names a := by simp [Use.mention, value]
  nodup h := h
  values := ⟨1, List.length_append, .refl _⟩

theorem hands_nameValue (w : Writer) (a : String) (v : Value) : ∃ i j, (w.nameValue a v).1 = namePlaceholder i ∧
    (w.nameValue a v).2.1 = valuePlaceholder j ∧ Hands w (w.nameValue a v).2.2 [.name i a, .value j v] := by
  obtain ⟨i, hi, hname⟩ := hands_name w a
  exact ⟨i, _, hi, rfl, hname.trans (hands_value (w.name a).2 v)⟩

/-! ## Texts and what they mention -/

/-- From one state to the other the writer has written this text, whose placeholders are for these mentions. -/
def Records (w w' : Writer) (text : String) (ms : List Mention) : Prop :=
  ∃ us, Holds text.toList (us.map Use.token) ∧ Hands w w' us ∧ us.map Use.mention = ms

/-- And these texts, one after the other. -/
def RecordsAll (w w' : Writer) (texts : List String) (mss : List (List Mention)) : Prop :=
  ∃ rs : List (String × List Use), rs.map Prod.fst = texts ∧ (∀ r ∈ rs, Holds r.1.toList (r.2.map Use.token)) ∧
    Hands w w' (rs.flatMap Prod.snd) ∧ rs.map (fun r => r.2.map Use.mention) = mss

section Texts
variable {w w' w'' : Writer} {text : String} {texts : List String} {ms : List Mention} {mss : List (List Mention)}

theorem RecordsAll.nil (w : Writer) : RecordsAll w w [] [] := ⟨[], rfl, List.forall_mem_nil _, .refl w, rfl⟩

theorem RecordsAll.cons (h : Records w w' text ms) (h' : RecordsAll w' w'' texts mss) :
    RecordsAll w w'' (text :: texts) (ms :: mss) := by
  obtain ⟨us, hholds, hhands, rfl⟩ := h
  obtain ⟨rs, rfl, hrest, hhands', rfl⟩ := h'
  exact ⟨(text, us) :: rs, rfl, List.forall_mem_cons.2 ⟨hholds, hrest⟩, hhands.trans hhands', rfl⟩

/-- Texts, each written in some way, with something between them that has no placeholder. -/
theorem RecordsAll.intercalate {s : String} {f : String → String}
    (hsep : ∀ {cs ds ps qs}, Holds cs ps → Holds ds qs → Holds (cs ++ (s.toList ++ ds)) (ps ++ qs))
    (hf : ∀ {text : String} {ps}, Holds text.toList ps → Holds (f text).toList ps) (h : RecordsAll w w' texts mss) :
    Records w w' (s.intercalate (texts.map f)) mss.flatten := by
  obtain ⟨rs, rfl, hrs, hhands, rfl⟩ := h
  refine ⟨_, ?_, hhands, by rw [List.map_flatMap, List.flatMap_def]⟩
  rw [List.map_flatMap, List.map_map]
  exact Token.Holds.intercalate hsep fun r hr => hf (hrs r hr)

end Texts

theorem records_name (w : Writer) (a : String) : Records w (w.name a).2 (w.name a).1 [.name a] := by
  obtain ⟨i, hi, hhands⟩ := hands_name w a
  exact ⟨_, hi ▸ holds_name i, hhands, rfl⟩

theorem records_value (w : Writer) (v : Value) : Records w (w.value v).2 (w.value v).1 [.value v] :=
  ⟨[.value w.values.length v], holds_value w.values.length, hands_value w v, rfl⟩

theorem recordsAll_nameList (w : Writer) : ∀ as : List String,
    RecordsAll w (w.nameList as).2 (w.nameList as).1 (as.map fun a => [.name a])
  | [] => .nil w
  | a :: as => .cons (records_name w a) (recordsAll_nameList (w.name a).2 as)

theorem recordsAll_valueList (w : Writer) : ∀ vs : List Value,
    RecordsAll w (w.valueList vs).2 (w.valueList vs).1 (vs.map fun v => [.value v])
  | [] => .nil w
  | v :: vs => .cons (records_value w v) (recordsAll_valueList (w.value v).2 vs)

theorem records_listed {w w' : Writer} {texts : List String} {mss : List (List Mention)}
    (h : RecordsAll w w' texts mss) : Records w w' (", ".intercalate texts) mss.flatten := by
  have hlisted := h.intercalate (s := ", ") (f := id) (fun hc hd => hc.listed hd) fun h => h
  rwa [List.map_id] at hlisted

theorem records_projection (w : Writer) (names : List String) :
    Records w (w.projection names).2 (w.projection names).1 (names.map .name) := by
  rw [List.map_eq_flatMap, List.flatMap_def]
  exact records_listed (recordsAll_nameList w names)

/-! ## Conditions -/

theorem records_call (w : Writer) (a : String) {f : String} {k : Keyword} (hw : Token.isWord f = true)
    (hk : Keyword.ofWord? f = some k) : Records w (w.name a).2 s!"{f}({(w.name a).1})" [.name a] := by
  obtain ⟨i, hi, hhands⟩ := hands_name w a
  refine ⟨_, ?_, hhands, rfl⟩
  rw [toList_call, hi]
  exact (holds_name i).call hw hk

/-- A text that has the placeholder of a name and after it that of a value. -/
theorem records_nameValue (w : Writer) (a : String) (v : Value) {t : String → String → String}
    (ht : ∀ {n p : String} {ps qs}, Holds n.toList ps → Holds p.toList qs → Holds (t n p).toList (ps ++ qs)) :
    Records w (w.nameValue a v).2.2 (t (w.nameValue a v).1 (w.nameValue a v).2.1) [.name a, .value v] := by
  obtain ⟨i, j, hi, hj, hhands⟩ := hands_nameValue w a v
  rw [hi, hj]
  exact ⟨[.name i a, .value j v], ht (holds_name i) (holds_value j), hhands, rfl⟩

theorem records_callTwo (w : Writer) (a : String) (v : Value) {f : String} {k : Keyword} (hw : Token.isWord f = true)
    (hk : Keyword.ofWord? f = some k) : Records w (w.nameValue a v).2.2
      s!"{f}({(w.nameValue a v).1}, {(w.nameValue a v).2.1})" [.name a, .value v] :=
  records_nameValue w a v (t := fun n p => s!"{f}({n}, {p})") fun hn hp => by
    rw [toList_callTwo]
    exact (hn.listed hp).call hw hk

theorem records_compare (w : Writer) (a : String) (op : Comparator) (v : Value) : Records w (w.nameValue a v).2.2
    s!"{(w.nameValue a v).1} {op.symbol} {(w.nameValue a v).2.1}" [.name a, .value v] :=
  records_nameValue w a v (t := fun n p => s!"{n} {op.symbol} {p}") fun hn hp => by
    rw [toList_spaced]
    exact hn.comparison op hp

theorem holds_and : Holds "AND".toList [] := .keyword (k := .and) (by decide) (by decide)

theorem records_between (w : Writer) (a : String) (low high : Value) :
    Records w ((w.nameValue a low).2.2.value high).2
      s!"{(w.nameValue a low).1} BETWEEN {(w.nameValue a low).2.1} AND {((w.nameValue a low).2.2.value high).1}"
      [.name a, .value low, .value high] := by
  obtain ⟨i, j, hi, hj, hhands⟩ := hands_nameValue w a low
  have hbetween : Holds "BETWEEN".toList [] := .keyword (k := .between) (by decide) (by decide)
  refine ⟨_, ?_, hhands.trans (hands_value (w.nameValue a low).2.2 high), rfl⟩
  rw [toList_between, hi, hj]
  exact (holds_name i).spaced (hbetween.spaced ((holds_value j).spaced (holds_and.spaced (holds_value _))))

theorem records_isIn (w : Writer) (a : String) (vs : List Value) {list : String}
    (hlist : ", ".intercalate ((w.name a).2.valueList vs).1 = list) :
    Records w ((w.name a).2.valueList vs).2 s!"{(w.name a).1} IN ({list})" (.name a :: vs.map .value) := by
  obtain ⟨i, hi, hhands⟩ := hands_name w a
  obtain ⟨us, hvalues, hhands', hmentions⟩ := records_listed (recordsAll_valueList (w.name a).2 vs)
  rw [← List.flatMap_def, ← List.map_eq_flatMap] at hmentions
  have hin : Holds "IN".toList [] := .keyword (k := .isIn) (by decide) (by decide)
  refine ⟨.name i a :: us, ?_, hhands.trans hhands', by rw [List.map_cons, hmentions]; rfl⟩
  rw [toList_isIn, hi, ← hlist]
  exact (holds_name i).spaced (hin.spaced hvalues.parens)

/-- **The text of a condition mentions what the condition does**, in its order. -/
theorem records_condition (w : Writer) (c : Condition) : Records w (w.condition c).2 (w.condition c).1 c.mentions := by
  induction c generalizing w with
  | compare a op v => exact records_compare w a op v
  | between a low high => exact records_between w a low high
  | isIn a vs => exact records_isIn w a vs rfl
  | beginsWith a v => exact records_callTwo w a v (f := "begins_with") (k := .beginsWith) (by decide) (by decide)
  | contains a v => exact records_callTwo w a v (f := "contains") (k := .contains) (by decide) (by decide)
  | present a => exact records_call w a (f := "attribute_exists") (k := .attributeExists) (by decide) (by decide)
  | absent a => exact records_call w a (f := "attribute_not_exists") (k := .attributeNotExists) (by decide) (by decide)
  | hasType a t => exact records_callTwo w a _ (f := "attribute_type") (k := .attributeType) (by decide) (by decide)
  | and left right ihl ihr =>
    obtain ⟨us, hleft, hhands, hmentions⟩ := ihl w
    obtain ⟨vs, hright, hhands', hmentions'⟩ := ihr (w.condition left).2
    rw [condition_and]
    refine ⟨us ++ vs, ?_, hhands.trans hhands', by rw [List.map_append, hmentions, hmentions']; rfl⟩
    rw [toList_parensAnd, List.map_append]
    exact hleft.inParens.spaced (holds_and.spaced hright.inParens)
  | or left right ihl ihr =>
    obtain ⟨us, hleft, hhands, hmentions⟩ := ihl w
    obtain ⟨vs, hright, hhands', hmentions'⟩ := ihr (w.condition left).2
    have hor : Holds "OR".toList [] := .keyword (k := .or) (by decide) (by decide)
    rw [condition_or]
    refine ⟨us ++ vs, ?_, hhands.trans hhands', by rw [List.map_append, hmentions, hmentions']; rfl⟩
    rw [toList_parensOr, List.map_append]
    exact hleft.inParens.spaced (hor.spaced hright.inParens)
  | not inner ih =>
    obtain ⟨us, hinner, hhands, hmentions⟩ := ih w
    have hnot : Holds "NOT".toList [] := .keyword (k := .not) (by decide) (by decide)
    rw [condition_not]
    refine ⟨us, ?_, hhands, hmentions⟩
    rw [toList_notParens]
    exact hnot.spaced hinner.inParens

theorem recordsAll_conditionList (w : Writer) : ∀ cs : List Condition,
    RecordsAll w (w.conditionList cs).2 (w.conditionList cs).1 (cs.map Condition.mentions)
  | [] => .nil w
  | c :: cs => .cons (records_condition w c) (recordsAll_conditionList (w.condition c).2 cs)

/-- Conditions in parentheses with an AND between them. -/
theorem records_joined {w w' : Writer} {texts : List String} {mss : List (List Mention)}
    (h : RecordsAll w w' texts mss) :
    Records w w' (" AND ".intercalate (texts.map fun text => s!"({text})")) mss.flatten :=
  h.intercalate (s := " AND ") (fun hc hd => hc.spaced (holds_and.spaced hd)) Token.Holds.inParens

/-! ## Updates -/

theorem records_pair (w : Writer) (a : String) (v : Value) : Records w (w.nameValue a v).2.2
    s!"{(w.nameValue a v).1} {(w.nameValue a v).2.1}" [.name a, .value v] :=
  records_nameValue w a v (t := fun n p => s!"{n} {p}") fun {n p} _ _ hn hp => by
    have htext : s!"{n} {p}".toList = n.toList ++ ' ' :: p.toList := by simp [toString]
    rw [htext]
    exact hn.spaced hp

/-- The text of a SET whose term is computed from the old value. -/
theorem records_computed (w : Writer) (a : String) (v : Value) {text : String} {t : String → String → List Char}
    (htext : text.toList = (w.nameValue a v).1.toList ++ ' ' :: (Comparator.eq.symbol.toList ++
      ' ' :: t (w.nameValue a v).1 (w.nameValue a v).2.1))
    (ht : ∀ {n p : String} {ps qs}, Holds n.toList ps → Holds p.toList qs → Holds (t n p) (ps ++ qs)) :
    Records w (w.nameValue a v).2.2 text [.name a, .name a, .value v] := by
  obtain ⟨i, j, hi, hj, hhands⟩ := hands_nameValue w a v
  refine ⟨_, ?_, hhands.again, rfl⟩
  rw [htext, hi, hj]
  exact (holds_name i).comparison .eq (ht (holds_name i) (holds_value j))

theorem records_action (w : Writer) (u : UpdateAction) : Records w (w.action u).2.2 (w.action u).2.1 u.mentions := by
  cases u with
  | set a v =>
    have htext : (w.action (.set a v)).2.1 =
        s!"{(w.nameValue a v).1} {Comparator.eq.symbol} {(w.nameValue a v).2.1}" :=
      String.toList_injective (by simp [action, toString, Comparator.symbol])
    rw [htext]
    exact records_compare w a .eq v
  | remove a => exact records_name w a
  | increment a x =>
    have hplus : Holds ['+'] [] := ⟨_, Token.scans_plus, rfl⟩
    exact records_computed w a _ (t := fun n p => n.toList ++ ' ' :: (['+'] ++ ' ' :: p.toList))
      (by simp [action, toString, Comparator.symbol]) fun hn hp => hn.spaced (hplus.spaced hp)
  | decrement a x =>
    have hminus : Holds ['-'] [] := ⟨_, Token.scans_minus, rfl⟩
    exact records_computed w a _ (t := fun n p => n.toList ++ ' ' :: (['-'] ++ ' ' :: p.toList))
      (by simp [action, toString, Comparator.symbol]) fun hn hp => hn.spaced (hminus.spaced hp)
  | add a v => exact records_pair w a v
  | delete a v => exact records_pair w a v
  | append a v =>
    exact records_computed w a v
      (t := fun n p => "list_append".toList ++ ('(' :: (n.toList ++ ',' :: ' ' :: p.toList) ++ [')']))
      (by simp [action, toString, Comparator.symbol]) fun hn hp =>
        (hn.listed hp).call (k := .listAppend) (by decide) (by decide)

theorem clause_action (w : Writer) (u : UpdateAction) : (w.action u).1 = u.clause := by
  cases u <;> rfl

/-- An action with what is written for it. -/
structure Part where
  action : UpdateAction
  text : String
  uses : List Use

/-- The placeholders of the text are for what the action mentions. -/
structure Part.Sound (p : Part) : Prop where
  holds : Holds p.text.toList (p.uses.map Use.token)
  mentions : p.uses.map Use.mention = p.action.mentions

theorem exists_parts (w : Writer) : ∀ us : List UpdateAction, ∃ ps : List Part, (∀ p ∈ ps, p.Sound) ∧
    ps.map Part.action = us ∧ ps.map (fun p => (p.action.clause, p.text)) = (w.actionList us).1 ∧
    Hands w (w.actionList us).2 (ps.flatMap Part.uses)
  | [] => ⟨[], List.forall_mem_nil _, rfl, rfl, .refl w⟩
  | u :: us => by
    obtain ⟨uses, hholds, hhands, hmentions⟩ := records_action w u
    obtain ⟨ps, hps, hactions, htexts, hhands'⟩ := exists_parts (w.action u).2.2 us
    refine ⟨⟨u, (w.action u).2.1, uses⟩ :: ps, List.forall_mem_cons.2 ⟨⟨hholds, hmentions⟩, hps⟩, ?_, ?_,
      hhands.trans hhands'⟩
    · rw [List.map_cons, hactions]
    · rw [List.map_cons, htexts, ← clause_action w u]
      rfl

/-- The texts of some clauses, each with its placeholders. -/
theorem exists_clauseTexts {ps : List Part} (hps : ∀ p ∈ ps, p.Sound) : ∀ ks : List Clause,
    ∃ rs : List (String × List Token),
      rs.map Prod.fst = ks.filterMap (clauseText? (ps.map fun p => (p.action.clause, p.text))) ∧
      (∀ r ∈ rs, Holds r.1.toList r.2) ∧
      rs.flatMap Prod.snd = (ks.flatMap fun k => ps.filter fun p => p.action.clause == k).flatMap
        fun p => p.uses.map Use.token
  | [] => ⟨[], rfl, List.forall_mem_nil _, rfl⟩
  | k :: ks => by
    obtain ⟨rs, htexts, hrs, htokens⟩ := exists_clauseTexts hps ks
    have hclause : ((ps.map fun p => (p.action.clause, p.text)).filter fun q => q.1 == k).map Prod.snd =
        (ps.filter fun p => p.action.clause == k).map Part.text := by
      rw [List.filter_map, List.map_map]
      rfl
    rw [List.flatMap_cons, List.flatMap_append]
    cases hmine : ps.filter fun p => p.action.clause == k with
    | nil =>
      have hnone : clauseText? (ps.map fun p => (p.action.clause, p.text)) k = none := by
        rw [clauseText?, hclause, hmine]
        rfl
      exact ⟨rs, by rw [List.filterMap_cons_none hnone, htexts], hrs, htokens⟩
    | cons p more =>
      have hsome : clauseText? (ps.map fun p => (p.action.clause, p.text)) k =
          some (k.keyword ++ " " ++ ", ".intercalate ((p :: more).map Part.text)) := by
        rw [clauseText?, hclause, hmine]
        rfl
      have hsound : ∀ q ∈ p :: more, Holds q.text.toList (q.uses.map Use.token) := fun q hq =>
        (hps q (List.mem_filter.1 (hmine ▸ hq)).1).holds
      have hkeyword : Holds k.keyword.toList [] := by
        refine ⟨_, scans_clauseKeyword k, ?_⟩
        cases k <;> rfl
      have hlisted := Token.Holds.intercalate (s := ", ") (fun hc hd => hc.listed hd) hsound
      refine ⟨(_, (p :: more).flatMap fun q => q.uses.map Use.token) :: rs,
        by rw [List.filterMap_cons_some hsome, List.map_cons, htexts], ?_, ?_⟩
      · refine List.forall_mem_cons.2 ⟨?_, hrs⟩
        rw [String.toList_append, String.toList_append, List.append_assoc]
        exact hkeyword.spaced hlisted
      · rw [List.flatMap_cons, htokens]

end Writer

/-- What the text of an update mentions: the actions come under their clauses. -/
def UpdateAction.mentionsAll (us : List UpdateAction) : List Mention :=
  Writer.Clause.all.flatMap fun k => (us.filter fun u => u.clause == k).flatMap mentions

namespace Writer

/-- **The text of an update mentions what its actions do**, clause by clause. -/
theorem records_update (w : Writer) (us : List UpdateAction) :
    Records w (w.update us).2 (w.update us).1 (UpdateAction.mentionsAll us) := by
  obtain ⟨ps, hps, rfl, htexts, hhands⟩ := exists_parts w us
  obtain ⟨rs, hrs, hholds, htokens⟩ := exists_clauseTexts hps Clause.all
  have hperm : (Clause.all.flatMap fun k => ps.filter fun p => p.action.clause == k).Perm ps :=
    perm_flatMap_filter (fun p : Part => p.action.clause) (by decide) fun p _ => p.action.clause.mem_all
  refine ⟨_, ?_, hhands.perm (hperm.symm.flatMap_right Part.uses), ?_⟩
  · have hjoined := Token.Holds.intercalate (s := " ") (fun hc hd => hc.spaced hd) hholds
    rw [hrs, htexts, htokens] at hjoined
    rw [List.map_flatMap]
    exact hjoined
  · rw [List.map_flatMap, List.flatMap_assoc, UpdateAction.mentionsAll]
    refine List.flatMap_congr fun k _ => ?_
    rw [List.filter_map, List.flatMap_map]
    exact List.flatMap_congr fun p hp => (hps p (List.mem_filter.1 hp).1).mentions

end Writer
end ItemStore
