import ItemStore.Proofs.Expression.Operands
import ItemStore.Proofs.Expression.UpdateEffect
import ItemStore.Proofs.Record.Typing
import ItemStore.Proofs.Value.Equality
/-!
# Sets over many updates

A set is held as a list, and lists of the same elements can differ: in order, in repetitions, and in how a number is
written.  What ADD and DELETE do is said of the elements, numbers by value: one joins them (`mem_map_union`), the other
takes them away (`mem_map_without`), and the attribute goes with its last element.  So what an attribute has after any
number of updates is what was said of each element last (`set_attribute_holds_what_was_added_last`).
-/
namespace ItemStore

namespace Value

/-! ## Lists of elements -/

section Elements
variable {α κ : Type} {eq : α → α → Bool} {key : α → κ}

theorem any_eq_iff (heq : ∀ x y, eq x y = true ↔ key x = key y) (xs : List α) (y : α) :
    (xs.any fun x => eq x y) = true ↔ key y ∈ xs.map key := by
  simp [heq]

theorem mem_map_union (heq : ∀ x y, eq x y = true ↔ key x = key y) (z : κ) : ∀ ys xs : List α,
    z ∈ (union eq xs ys).map key ↔ z ∈ xs.map key ∨ z ∈ ys.map key
  | [], xs => by simp [union]
  | y :: ys, xs => by
    rw [union, List.foldl_cons]
    by_cases hy : (xs.any fun x => eq x y) = true
    · rw [if_pos hy]
      apply (mem_map_union heq z ys xs).trans
      -- nothing is added for `y`, since its key is there
      rw [any_eq_iff heq] at hy
      by_cases hz : z = key y
      · simp only [hz, hy, true_or]
      · simp [hz]
    · rw [if_neg hy]
      apply (mem_map_union heq z ys (xs ++ [y])).trans
      simp only [List.map_append, List.map_cons, List.map_nil, List.mem_append, List.mem_cons,
        List.not_mem_nil, or_false, or_assoc]

theorem mem_map_without (heq : ∀ x y, eq x y = true ↔ key x = key y) (z : κ) (xs ys : List α) :
    z ∈ (without eq xs ys).map key ↔ z ∈ xs.map key ∧ z ∉ ys.map key := by
  have hkept : ∀ x, (!ys.any fun y => eq y x) = true ↔ key x ∉ ys.map key := fun x => by
    rw [← any_eq_iff heq, Bool.not_eq_true', Bool.not_eq_true]
  simp only [without, List.mem_map (f := key), List.mem_filter, hkept]
  constructor
  · rintro ⟨x, ⟨hx, hnot⟩, rfl⟩
    exact ⟨⟨x, hx, rfl⟩, by simpa using hnot⟩
  · rintro ⟨⟨x, hx, rfl⟩, hnot⟩
    exact ⟨x, ⟨hx, by simpa using hnot⟩, rfl⟩

end Elements
end Value

/-! ## Elements of attributes -/

/-- An element of a set; numerals of one number are one element. -/
inductive Element where
  | text (s : String)
  | number (q : ℚ)
  | bytes (b : Bytes)

namespace Value

/-- What a set has in it; what is no set has nothing in it. -/
def elements : Value → List Element
  | stringSet xs => xs.map .text
  | numberSet xs => xs.map fun x => .number x.value
  | binarySet xs => xs.map .bytes
  | _ => []

def elementsOf : Option Value → List Element
  | some v => v.elements
  | none => []

theorem eq_text_iff (x y : String) : (x == y) = true ↔ Element.text x = .text y := by simp

theorem eq_number_iff (x y : Numeral) : sameNumber x y = true ↔ Element.number x.value = .number y.value := by
  simp [sameNumber_iff]

theorem eq_bytes_iff (x y : Bytes) : (x == y) = true ↔ Element.bytes x = .bytes y := by simp

section Combining
variable {k : Kind} {old set : Value}

theorem elements_ne_nil (hk : k.isSet = true) (hset : k.accepts set = true) : set.elements ≠ [] := by
  rcases Kind.sets_of_accepts hk hset hset with ⟨xs, _, rfl, -⟩ | ⟨xs, _, rfl, -⟩ | ⟨xs, _, rfl, -⟩
  · simpa [elements] using (Kind.accepts_stringSet_iff.1 hset).2
  · simpa [elements] using (Kind.accepts_numberSet_iff.1 hset).2
  · simpa [elements] using (Kind.accepts_binarySet_iff.1 hset).2

theorem mem_elements_add (hk : k.isSet = true) (hold : k.accepts old = true) (hset : k.accepts set = true) :
    ∃ w, Value.add (some old) set = .ok w ∧ k.accepts w = true ∧
      ∀ e, e ∈ w.elements ↔ e ∈ old.elements ∨ e ∈ set.elements := by
  rcases Kind.sets_of_accepts hk hold hset with ⟨xs, ys, rfl, rfl⟩ | ⟨xs, ys, rfl, rfl⟩ | ⟨xs, ys, rfl, rfl⟩
  · obtain ⟨hkind, hne⟩ := Kind.accepts_stringSet_iff.1 hold
    exact ⟨_, rfl, Kind.accepts_stringSet_iff.2 ⟨hkind, union_ne_nil ys hne⟩, fun e =>
      mem_map_union eq_text_iff e ys xs⟩
  · obtain ⟨hkind, hne⟩ := Kind.accepts_numberSet_iff.1 hold
    exact ⟨_, rfl, Kind.accepts_numberSet_iff.2 ⟨hkind, union_ne_nil ys hne⟩, fun e =>
      mem_map_union eq_number_iff e ys xs⟩
  · obtain ⟨hkind, hne⟩ := Kind.accepts_binarySet_iff.1 hold
    exact ⟨_, rfl, Kind.accepts_binarySet_iff.2 ⟨hkind, union_ne_nil ys hne⟩, fun e =>
      mem_map_union eq_bytes_iff e ys xs⟩

/-- What is left of a set of the elements that `make` makes sets of. -/
theorem mem_elementsOf_without {α : Type} {eq : α → α → Bool} {make : List α → Value} {key : α → Element}
    (heq : ∀ x y, eq x y = true ↔ key x = key y) (hmake : ∀ xs, (make xs).elements = xs.map key)
    (hk : ∀ xs, xs ≠ [] → k.accepts (make xs) = true) (xs ys : List α) :
    (∀ v, nonEmptySet? make (without eq xs ys) = some v → k.accepts v = true) ∧
      ∀ e, e ∈ elementsOf (nonEmptySet? make (without eq xs ys)) ↔ e ∈ (make xs).elements ∧
        e ∉ (make ys).elements := by
  constructor
  · intro v hv
    obtain ⟨hne, rfl⟩ := nonEmptySet?_eq_some.1 hv
    exact hk _ hne
  · intro e
    rw [hmake xs, hmake ys, ← mem_map_without heq e xs ys]
    cases without eq xs ys with
    | nil => simp [nonEmptySet?, elementsOf]
    | cons z zs => simp [nonEmptySet?, elementsOf, hmake]

theorem mem_elements_delete (hk : k.isSet = true) (hold : k.accepts old = true) (hset : k.accepts set = true) :
    ∃ left, Value.delete old set = .ok left ∧ (∀ v, left = some v → k.accepts v = true) ∧
      ∀ e, e ∈ elementsOf left ↔ e ∈ old.elements ∧ e ∉ set.elements := by
  rcases Kind.sets_of_accepts hk hold hset with ⟨xs, ys, rfl, rfl⟩ | ⟨xs, ys, rfl, rfl⟩ | ⟨xs, ys, rfl, rfl⟩
  · have hkind := (Kind.accepts_stringSet_iff.1 hold).1
    exact ⟨_, rfl, mem_elementsOf_without eq_text_iff (fun _ => rfl)
      (fun _ hne => Kind.accepts_stringSet_iff.2 ⟨hkind, hne⟩) xs ys⟩
  · have hkind := (Kind.accepts_numberSet_iff.1 hold).1
    exact ⟨_, rfl, mem_elementsOf_without eq_number_iff (fun _ => rfl)
      (fun _ hne => Kind.accepts_numberSet_iff.2 ⟨hkind, hne⟩) xs ys⟩
  · have hkind := (Kind.accepts_binarySet_iff.1 hold).1
    exact ⟨_, rfl, mem_elementsOf_without eq_bytes_iff (fun _ => rfl)
      (fun _ hne => Kind.accepts_binarySet_iff.2 ⟨hkind, hne⟩) xs ys⟩

end Combining
end Value

/-- The elements of the attribute of that name; none if the item has no set there. -/
def Entries.elementsOf (item : Item) (name : String) : List Element := Value.elementsOf (item.get? name)

/-! ## Histories -/

/-- What an update does to a set attribute: it adds the elements of a set, or takes them out. -/
structure SetDeed where
  adds : Bool
  set : Value

/-- The last deed on an element was that it was added; or there was none, and it was there before. -/
def SetDeed.LastSays (deeds : List SetDeed) (e : Element) (initially : Prop) : Prop :=
  (∃ before deed after, deeds = before ++ deed :: after ∧ e ∈ deed.set.elements ∧ deed.adds = true ∧
    ∀ later ∈ after, e ∉ later.set.elements) ∨
  (∀ deed ∈ deeds, e ∉ deed.set.elements) ∧ initially

/-- An update of one change, and what its placeholders stand for. -/
structure SetRun where
  bindings : Bindings
  change : Change

namespace SetRun

def apply (item : Item) (run : SetRun) : Except ExpressionFault Item := Change.applyAll run.bindings item [run.change]

/-- One update after the other, each of what the one before has made. -/
def applyAll (item : Item) (runs : List SetRun) : Except ExpressionFault Item := runs.foldlM apply item

/-- The update is an ADD or a DELETE on the attribute, of what its operand is for the item. -/
inductive Does (item : Item) (name : String) : SetRun → SetDeed → Prop where
  | add {b : Bindings} {path : String} {operand : Term} {set : Value} : b.name path = .ok name →
      operand.eval b item = .ok set → Does item name ⟨b, .add path operand⟩ ⟨true, set⟩
  | delete {b : Bindings} {path : String} {operand : Term} {set : Value} : b.name path = .ok name →
      operand.eval b item = .ok set → Does item name ⟨b, .delete path operand⟩ ⟨false, set⟩

/-- Each update does what is said of it to what those before have made, if they have made something, and does it with a
set of that kind. -/
def AllDo (k : Kind) (name : String) : Item → List SetRun → List SetDeed → Prop
  | _, [], [] => True
  | item, run :: runs, deed :: deeds =>
    run.Does item name deed ∧ k.accepts deed.set = true ∧ ∀ next, run.apply item = .ok next →
      AllDo k name next runs deeds
  | _, _, _ => False

end SetRun

namespace SetDeed
variable {deed : SetDeed} {deeds : List SetDeed} {e : Element} {initially : Prop}

theorem lastSays_cons_of_mem (h : e ∈ deed.set.elements) :
    LastSays (deed :: deeds) e initially ↔ LastSays deeds e (deed.adds = true) := by
  constructor
  · rintro (⟨before, last, after, heq, hmem, hadds, hafter⟩ | ⟨hnone, -⟩)
    · cases before with
      | nil =>
        cases heq
        exact .inr ⟨hafter, hadds⟩
      | cons first before =>
        cases heq
        exact .inl ⟨before, last, after, rfl, hmem, hadds, hafter⟩
    · exact absurd h (hnone deed List.mem_cons_self)
  · rintro (⟨before, last, after, rfl, hmem, hadds, hafter⟩ | ⟨hnone, hadds⟩)
    · exact .inl ⟨deed :: before, last, after, rfl, hmem, hadds, hafter⟩
    · exact .inl ⟨[], deed, deeds, rfl, h, hadds, hnone⟩

theorem lastSays_cons_of_not_mem (h : e ∉ deed.set.elements) :
    LastSays (deed :: deeds) e initially ↔ LastSays deeds e initially := by
  constructor
  · rintro (⟨before, last, after, heq, hmem, hadds, hafter⟩ | ⟨hnone, hinitially⟩)
    · cases before with
      | nil =>
        cases heq
        exact absurd hmem h
      | cons first before =>
        cases heq
        exact .inl ⟨before, last, after, rfl, hmem, hadds, hafter⟩
    · exact .inr ⟨fun later hlater => hnone later (List.mem_cons_of_mem deed hlater), hinitially⟩
  · rintro (⟨before, last, after, rfl, hmem, hadds, hafter⟩ | ⟨hnone, hinitially⟩)
    · exact .inl ⟨deed :: before, last, after, rfl, hmem, hadds, hafter⟩
    · exact .inr ⟨List.forall_mem_cons.2 ⟨h, hnone⟩, hinitially⟩

end SetDeed

namespace SetRun
variable {k : Kind} {name : String} {item : Item} {run : SetRun} {deed : SetDeed}

theorem apply_eq (item : Item) (run : SetRun) : run.apply item = run.change.apply run.bindings item item := by
  rw [apply, Change.applyAll, List.foldlM_cons]
  exact bind_pure _

theorem applyAll_cons (item : Item) (run : SetRun) (runs : List SetRun) :
    applyAll item (run :: runs) = run.apply item >>= fun item => applyAll item runs := List.foldlM_cons

/-- **One update goes through, and settles each element that it mentions and no other.** -/
theorem Does.exists_apply (hk : k.isSet = true) (hitem : ∀ v, item.get? name = some v → k.accepts v = true)
    (hset : k.accepts deed.set = true) (h : run.Does item name deed) :
    ∃ left, run.apply item = .ok (Entries.write item name left) ∧ (∀ v, left = some v → k.accepts v = true) ∧
      (∀ e ∈ deed.set.elements, e ∈ Value.elementsOf left ↔ deed.adds = true) ∧
      ∀ e, e ∉ deed.set.elements → (e ∈ Value.elementsOf left ↔ e ∈ item.elementsOf name) := by
  cases h with
  | @add b path operand set hname heval =>
    have happly : ∀ w, Value.add (item.get? name) set = .ok w →
        SetRun.apply item ⟨b, .add path operand⟩ = .ok (Entries.write item name (some w)) := fun w hw => by
      simp only [apply_eq, Change.apply, Change.path, hname, heval, hw, bind, Except.bind]
      rfl
    cases hold : item.get? name with
    | none =>
      refine ⟨some set, happly set (by rw [hold]; rfl), ?_, ?_, ?_⟩
      · rintro v ⟨⟩
        exact hset
      · intro e he
        simp [Value.elementsOf, he]
      · intro e he
        simp [Value.elementsOf, Entries.elementsOf, hold, he]
    | some old =>
      obtain ⟨w, hw, haccepts, hmem⟩ := Value.mem_elements_add hk (hitem old hold) hset
      refine ⟨some w, happly w (by rw [hold, hw]), ?_, ?_, ?_⟩
      · rintro v ⟨⟩
        exact haccepts
      · intro e he
        simp [Value.elementsOf, hmem, he]
      · intro e he
        simp [Value.elementsOf, Entries.elementsOf, hold, hmem, he]
  | @delete b path operand set hname heval =>
    cases hold : item.get? name with
    | none =>
      refine ⟨none, ?_, (fun _ hv => by cases hv), ?_, ?_⟩
      · simp only [apply_eq, Change.apply, Change.path, hname, heval, hold, bind, Except.bind, Entries.write]
        rw [Entries.remove_of_absent hold]
        rfl
      · simp [Value.elementsOf]
      · simp [Value.elementsOf, Entries.elementsOf, hold]
    | some old =>
      obtain ⟨left, hleft, haccepts, hmem⟩ := Value.mem_elements_delete hk (hitem old hold) hset
      refine ⟨left, ?_, haccepts, ?_, ?_⟩
      · simp only [apply_eq, Change.apply, Change.path, hname, heval, hold, hleft, bind, Except.bind]
        rfl
      · intro e he
        simp [hmem, he]
      · intro e he
        rw [hmem, Entries.elementsOf, hold]
        exact and_iff_left he

theorem AllDo.take : ∀ {runs : List SetRun} {deeds : List SetDeed} {item : Item}, AllDo k name item runs deeds →
    ∀ n, AllDo k name item (runs.take n) (deeds.take n)
  | [], [], _, _, _ => by simp [AllDo]
  | _ :: _, _ :: _, _, _, 0 => trivial
  | _ :: _, _ :: _, _, ⟨hdoes, hset, hrest⟩, n + 1 => ⟨hdoes, hset, fun next hnext => (hrest next hnext).take n⟩

/-- What a run of updates keeps of the set attribute, and what it settles. -/
theorem AllDo.exists_applyAll (hk : k.isSet = true) : ∀ {runs : List SetRun} {deeds : List SetDeed} {item : Item},
    (∀ v, item.get? name = some v → k.accepts v = true) → AllDo k name item runs deeds →
    ∃ final, applyAll item runs = .ok final ∧ (∀ v, final.get? name = some v → k.accepts v = true) ∧
      (∀ e, e ∈ final.elementsOf name ↔ SetDeed.LastSays deeds e (e ∈ item.elementsOf name)) ∧
      ∀ other, other ≠ name → final.get? other = item.get? other
  | [], [], item, hitem, _ => ⟨item, rfl, hitem, fun e => by simp [SetDeed.LastSays], fun _ _ => rfl⟩
  | run :: runs, deed :: deeds, item, hitem, ⟨hdoes, hset, hrest⟩ => by
    obtain ⟨left, hnext, haccepts, hsettled, hkept⟩ := hdoes.exists_apply hk hitem hset
    have hleft : (Entries.write item name left).get? name = left := Entries.get?_write_self item name left
    have hnextItem : ∀ v, (Entries.write item name left).get? name = some v → k.accepts v = true := by
      rw [hleft]
      exact haccepts
    obtain ⟨final, hfinal, hfinalSet, hmem, hothers⟩ := (hrest _ hnext).exists_applyAll hk hnextItem
    refine ⟨final, ?_, hfinalSet, fun e => ?_, fun other hne => ?_⟩
    · rw [applyAll_cons, hnext]
      exact hfinal
    · rw [hmem, Entries.elementsOf, hleft]
      by_cases he : e ∈ deed.set.elements
      · rw [SetDeed.lastSays_cons_of_mem he, hsettled e he]
      · rw [SetDeed.lastSays_cons_of_not_mem he, hkept e he]
    · rw [hothers other hne, Entries.get?_write_of_ne item left hne]

end SetRun

/-- **A set attribute holds what was added last.**  An item has nothing or a set under a name, and one update after the
other ADDs a set of that type to it or DELETEs one from it.  Then all of them go through, and after each of them there
is nothing or a set with elements under that name; what is in it is what the last update to mention it has added, and
what was there if none has mentioned it; there is nothing only if that is nothing; and all other attributes are as they
were. -/
theorem set_attribute_holds_what_was_added_last (k : Kind) (hk : k.isSet = true) (name : String) (item : Item)
    (hitem : ∀ v, item.get? name = some v → k.accepts v = true) (runs : List SetRun) (deeds : List SetDeed)
    (h : SetRun.AllDo k name item runs deeds) (n : Nat) :
    ∃ reached, SetRun.applyAll item (runs.take n) = .ok reached ∧
      (∀ v, reached.get? name = some v → k.accepts v = true ∧ v.elements ≠ []) ∧
      (∀ e, e ∈ reached.elementsOf name ↔ SetDeed.LastSays (deeds.take n) e (e ∈ item.elementsOf name)) ∧
      (reached.get? name = none ↔ ∀ e, ¬SetDeed.LastSays (deeds.take n) e (e ∈ item.elementsOf name)) ∧
      ∀ other, other ≠ name → reached.get? other = item.get? other := by
  obtain ⟨reached, hreached, haccepts, hmem, hothers⟩ := (h.take n).exists_applyAll hk hitem
  refine ⟨reached, hreached, ?_, hmem, ?_, hothers⟩
  · intro v hv
    exact ⟨haccepts v hv, Value.elements_ne_nil hk (haccepts v hv)⟩
  · rw [← forall_congr' fun e => not_congr (hmem e), ← List.eq_nil_iff_forall_not_mem, Entries.elementsOf]
    cases hv : reached.get? name with
    | none => simp [Value.elementsOf]
    | some v => simpa [Value.elementsOf] using Value.elements_ne_nil hk (haccepts v hv)

/-- A set that has one number twice, to which another is added: taking the first out takes out both, and taking out the
other, written in another way, takes the attribute away. -/
theorem set_attribute_holds_what_was_added_last_of_numbers :
    let item : Item := [("kept", .boolean true), ("seen", .numberSet [⟨"1", by decide⟩, ⟨"1.0", by decide⟩])]
    let run : (Term → Change) → Numeral → SetRun := fun change x =>
      ⟨⟨[("#n0", "seen")], [(":v0", .numberSet [x])]⟩, change (.value ":v0")⟩
    let runs := [run (.add "#n0") ⟨"2.0", by decide⟩, run (.delete "#n0") ⟨"1", by decide⟩,
      run (.delete "#n0") ⟨"2", by decide⟩]
    ∃ left final, SetRun.applyAll item (runs.take 2) = .ok left ∧
      left.get? "seen" = some (.numberSet [⟨"2.0", by decide⟩]) ∧
      SetRun.applyAll item runs = .ok final ∧ final.get? "seen" = none ∧ final.get? "kept" = some (.boolean true) := by
  intro item run runs
  have hitem : ∀ v, item.get? "seen" = some v → Kind.numberSet.accepts v = true := by
    rintro v ⟨⟩
    rfl
  let deeds : List SetDeed :=
    [⟨true, .numberSet [⟨"2.0", by decide⟩]⟩, ⟨false, .numberSet [⟨"1", by decide⟩]⟩,
      ⟨false, .numberSet [⟨"2", by decide⟩]⟩]
  have hdo : SetRun.AllDo .numberSet "seen" item runs deeds :=
    ⟨.add rfl rfl, rfl, fun _ _ =>
      ⟨.delete rfl rfl, rfl, fun _ _ => ⟨.delete rfl rfl, rfl, fun _ _ => trivial⟩⟩⟩
  obtain ⟨final, hfinal, -, -, -, hothers⟩ :=
    set_attribute_holds_what_was_added_last .numberSet rfl "seen" item hitem runs deeds hdo 3
  have hgone : SetRun.applyAll item runs = .ok [("kept", .boolean true)] := by decide
  have hleft : SetRun.applyAll item (runs.take 2) =
      .ok [("kept", .boolean true), ("seen", .numberSet [⟨"2.0", by decide⟩])] := by decide
  refine ⟨_, final, hleft, rfl, hfinal, ?_, hothers "kept" (by decide)⟩
  cases hfinal.symm.trans hgone
  rfl

end ItemStore
