import ItemStore.Proofs.Value.Entries
import ItemStore.Proofs.Value.Equality
/-!
# How deep equality goes

Numbers are equal by what they denote, and sets whatever their order.  Inside a list or a map this is not so: there a
value equals only itself.  Lists are therefore equal element by element, and maps name by name, exactly where all that
is in them has one form (`Value.list_equal_iff_forall₂`, `Value.map_equal_iff_get?`), and a number inside can be told
from another text of the same number (`Place.equal_fill_iff`).
-/
namespace ItemStore

namespace Value

/-! ## Values of one form -/

/-- The value has no other form: it is no number and no set with elements that could be written, ordered or repeated
otherwise. -/
def HasOneForm : Value → Prop
  | number _ => False
  | numberSet xs => xs = []
  | stringSet xs => xs.length ≤ 1
  | binarySet xs => xs.length ≤ 1
  | _ => True

section Elements
variable {α : Type} [BEq α] [LawfulBEq α] {xs ys : List α}

theorem eq_of_sameElements (hxs : xs.length ≤ 1) (h : sameElements (· == ·) xs ys = true) : xs = ys := by
  obtain ⟨hlength, hsub⟩ := (sameElements_iff beq_iff).1 h
  rw [List.map_id, List.map_id] at hsub
  match xs, ys, hlength with
  | [], [], _ => rfl
  | [x], [y], _ => rw [List.mem_singleton.1 (hsub (List.mem_singleton_self x))]

/-- Two elements that differ can be exchanged, and of two that do not, one can be any other. -/
theorem exists_other_elements (fresh : ∀ a : α, ∃ c, c ≠ a) (hxs : 1 < xs.length) :
    ∃ ys, sameElements (· == ·) xs ys = true ∧ xs ≠ ys := by
  match xs, hxs with
  | a :: b :: rest, _ =>
    by_cases hab : a = b
    · subst hab
      obtain ⟨c, hc⟩ := fresh a
      refine ⟨c :: a :: rest, (sameElements_iff beq_iff).2 ⟨rfl, ?_⟩, fun heq => hc (List.cons.inj heq).1.symm⟩
      rw [List.map_id, List.map_id]
      exact List.cons_subset.2 ⟨List.mem_cons_of_mem c List.mem_cons_self, List.subset_cons_self _ _⟩
    · refine ⟨b :: a :: rest, (sameElements_iff beq_iff).2 ⟨rfl, ?_⟩, fun heq => hab (List.cons.inj heq).1⟩
      rw [List.map_id, List.map_id]
      exact (List.Perm.swap b a rest).subset

end Elements

/-- **A value has one form exactly if it equals only itself.** -/
theorem hasOneForm_iff {a : Value} : a.HasOneForm ↔ ∀ b, a.equal b = true → a = b := by
  constructor
  · intro h b hb
    cases equal_iff_alike.1 hb with
    | same => rfl
    | number => exact h.elim
    | stringSet hsame => exact congrArg stringSet (eq_of_sameElements h hsame)
    | binarySet hsame => exact congrArg binarySet (eq_of_sameElements h hsame)
    | numberSet hsame =>
      obtain ⟨hlength, -⟩ := (sameElements_iff sameNumber_iff).1 hsame
      obtain rfl : _ = [] := h
      rw [List.eq_nil_of_length_eq_zero hlength.symm]
  · intro h
    cases a with
    | number x =>
      obtain ⟨y, hne, hvalue⟩ := x.exists_other_text
      exact hne (number.inj (h (number y) (equal_iff_alike.2 (.number hvalue))))
    | numberSet xs =>
      cases xs with
      | nil => rfl
      | cons x xs =>
        obtain ⟨y, hne, hvalue⟩ := x.exists_other_text
        have hsame : sameElements sameNumber (x :: xs) (y :: xs) = true := by
          refine (sameElements_iff sameNumber_iff).2 ⟨rfl, ?_⟩
          rw [List.map_cons, List.map_cons, hvalue]
          exact List.Subset.refl _
        exact absurd (List.cons.inj (numberSet.inj (h (numberSet (y :: xs)) hsame))).1 hne
    | stringSet xs =>
      by_contra hxs
      obtain ⟨ys, hsame, hne⟩ := exists_other_elements (fun s => ⟨s.push 'a', fun heq => by
        simpa using congrArg String.length heq⟩) (not_le.1 hxs)
      exact hne (stringSet.inj (h (stringSet ys) hsame))
    | binarySet xs =>
      by_contra hxs
      obtain ⟨ys, hsame, hne⟩ := exists_other_elements (fun b => ⟨0 :: b, List.cons_ne_self 0 b⟩) (not_le.1 hxs)
      exact hne (binarySet.inj (h (binarySet ys) hsame))
    | _ => trivial

/-! ## Lists and maps -/

theorem list_equal_iff {xs ys : List Value} : (list xs).equal (list ys) = true ↔ xs = ys := by simp [equal]

theorem map_equal_iff {es fs : List (String × Value)} : (map es).equal (map fs) = true ↔ es = fs := by simp [equal]

theorem forall₂_equal_refl (xs : List Value) : List.Forall₂ (fun x y => x.equal y = true) xs xs :=
  List.forall₂_same.2 fun x _ => x.equal_refl

theorem eq_of_forall₂_equal {xs ys : List Value} (hxs : ∀ x ∈ xs, x.HasOneForm)
    (h : List.Forall₂ (fun x y => x.equal y = true) xs ys) : xs = ys := by
  induction h with
  | nil => rfl
  | cons hxy _ ih =>
    obtain ⟨hx, hxs⟩ := List.forall_mem_cons.1 hxs
    rw [hasOneForm_iff.1 hx _ hxy, ih hxs]

/-- **A list is equal to others element by element exactly if its elements have one form.** -/
theorem list_equal_iff_forall₂ {xs : List Value} : (∀ x ∈ xs, x.HasOneForm) ↔
    ∀ ys, (list xs).equal (list ys) = true ↔ List.Forall₂ (fun x y => x.equal y = true) xs ys := by
  constructor
  · intro hxs ys
    rw [list_equal_iff]
    refine ⟨?_, eq_of_forall₂_equal hxs⟩
    rintro rfl
    exact forall₂_equal_refl xs
  · intro h x hx
    rw [hasOneForm_iff]
    intro y hxy
    obtain ⟨before, after, rfl⟩ := List.append_of_mem hx
    have helements : List.Forall₂ (fun x y => x.equal y = true) (before ++ x :: after) (before ++ y :: after) :=
      List.rel_append (forall₂_equal_refl before) (.cons hxy (forall₂_equal_refl after))
    have heq := list_equal_iff.1 ((h (before ++ y :: after)).2 helements)
    exact (List.cons.inj (List.append_cancel_left heq)).1

theorem rel_equal_refl (o : Option Value) : Option.Rel (fun x y => x.equal y = true) o o := by
  cases o with
  | none => exact .none
  | some x => exact .some x.equal_refl

/-- **A map is equal to others name by name exactly if its values have one form.** -/
theorem map_equal_iff_get? {es : List (String × Value)} (hes : Entries.Sorted es) : (∀ e ∈ es, e.2.HasOneForm) ↔
    ∀ fs, Entries.Sorted fs → ((map es).equal (map fs) = true ↔
      ∀ name, Option.Rel (fun x y => x.equal y = true) (Entries.get? es name) (Entries.get? fs name)) := by
  constructor
  · intro hvalues fs hfs
    rw [map_equal_iff]
    constructor
    · rintro rfl name
      exact rel_equal_refl _
    · intro h
      refine Entries.eq_of_get?_eq hes hfs fun name => ?_
      have hname := h name
      generalize hx : Entries.get? es name = o at hname ⊢
      generalize Entries.get? fs name = o' at hname ⊢
      cases hname with
      | none => rfl
      | some hxy => exact congrArg some (hasOneForm_iff.1 (hvalues _ ((Entries.mem_iff_get? hes).2 hx)) _ hxy)
  · rintro h ⟨name, x⟩ he
    rw [hasOneForm_iff]
    intro y hxy
    have hx := (Entries.mem_iff_get? hes).1 he
    have hnames : ∀ other, Option.Rel (fun x y => x.equal y = true) (Entries.get? es other)
        (Entries.get? (Entries.put es name y) other) := by
      intro other
      by_cases hother : other = name
      · rw [hother, hx, Entries.get?_put_self]
        exact .some hxy
      · rw [Entries.get?_put_of_ne es y hother]
        exact rel_equal_refl _
    have heq := map_equal_iff.1 ((h _ (Entries.sorted_put hes name y)).2 hnames)
    rw [heq, Entries.get?_put_self] at hx
    exact (Option.some.inj hx).symm

end Value

/-! ## Numbers written otherwise -/

namespace Value

/-- The second value is the first, with its number or the numbers in its set written as they are or otherwise. -/
inductive Rewritten : Value → Value → Prop
  | same (a : Value) : Rewritten a a
  | number {x y : Numeral} : x.value = y.value → Rewritten (number x) (number y)
  | numberSet {xs ys : List Numeral} : xs.map Numeral.value = ys.map Numeral.value →
      Rewritten (numberSet xs) (numberSet ys)

namespace Rewritten
variable {a a' b b' : Value}

theorem sameNumber_eq {x x' y y' : Numeral} (hx : x.value = x'.value) (hy : y.value = y'.value) :
    sameNumber x y = sameNumber x' y' := by
  rw [Bool.eq_iff_iff, sameNumber_iff, sameNumber_iff, hx, hy]

theorem sameElements_eq {xs xs' ys ys' : List Numeral} (hxs : xs.map Numeral.value = xs'.map Numeral.value)
    (hys : ys.map Numeral.value = ys'.map Numeral.value) :
    sameElements sameNumber xs ys = sameElements sameNumber xs' ys' := by
  have hlength : xs.length = xs'.length := by simpa using congrArg List.length hxs
  have hlength' : ys.length = ys'.length := by simpa using congrArg List.length hys
  rw [Bool.eq_iff_iff, sameElements_iff sameNumber_iff, sameElements_iff sameNumber_iff, hxs, hys, hlength, hlength']

/-- **What is written otherwise is equal to the same values.** -/
theorem equal (ha : Rewritten a a') (hb : Rewritten b b') : a.equal b = a'.equal b' := by
  cases ha with
  | same => cases hb with
    | same => rfl
    | number hb => cases a <;> simp [Value.equal, sameNumber_eq rfl hb]
    | numberSet hb => cases a <;> simp [Value.equal, sameElements_eq rfl hb]
  | number ha => cases hb with
    | same => cases b <;> simp [Value.equal, sameNumber_eq ha rfl]
    | number hb => exact sameNumber_eq ha hb
    | numberSet hb => simp [Value.equal]
  | numberSet ha => cases hb with
    | same => cases b <;> simp [Value.equal, sameElements_eq ha rfl]
    | number hb => simp [Value.equal]
    | numberSet hb => exact sameElements_eq ha hb

end Rewritten
end Value

/-! ## A number in a value -/

/-- Where in a value a number stands: it is the value, or an element of a set, or stands at a place in an element of a
list or in an entry of a map. -/
inductive Place where
  | here
  | inSet (before after : List Numeral)
  | inList (before : List Value) (inner : Place) (after : List Value)
  | inMap (before : List (String × Value)) (name : String) (inner : Place) (after : List (String × Value))

namespace Place

/-- The value with this number at the place. -/
def fill : Place → Numeral → Value
  | here, n => .number n
  | inSet before after, n => .numberSet (before ++ n :: after)
  | inList before inner after, n => .list (before ++ inner.fill n :: after)
  | inMap before name inner after, n => .map (before ++ (name, inner.fill n) :: after)

/-- The place is inside a list or a map. -/
def isNested : Place → Bool
  | here | inSet .. => false
  | inList .. | inMap .. => true

variable {p : Place} {m n : Numeral}

theorem equal_fill (hp : p.isNested = true) (n : Numeral) (v : Value) :
    (p.fill n).equal v = decide (p.fill n = v) ∧ v.equal (p.fill n) = decide (v = p.fill n) := by
  cases p with
  | here => cases hp
  | inSet => cases hp
  | inList before inner after => cases v <;> simp [fill, Value.equal]
  | inMap before name inner after => cases v <;> simp [fill, Value.equal]

/-- Outside of lists and maps, another text of the number only writes the value otherwise. -/
theorem rewritten_fill (hp : p.isNested = false) (h : m.value = n.value) : (p.fill m).Rewritten (p.fill n) := by
  cases p with
  | here => exact .number h
  | inSet before after => exact .numberSet (by simp [h])
  | inList => cases hp
  | inMap => cases hp

/-- With another text of the number, the value is among the equals of others as before, or one of the two is there. -/
theorem any_fill_iff (h : m.value = n.value) (vs : List Value) :
    (vs.any (p.fill m).equal = vs.any (p.fill n).equal ↔
      (p.isNested = true → (p.fill m ∈ vs ↔ p.fill n ∈ vs))) ∧
    ((Value.list vs).contains (p.fill m) = (Value.list vs).contains (p.fill n) ↔
      (p.isNested = true → (p.fill m ∈ vs ↔ p.fill n ∈ vs))) := by
  show _ ∧ ((vs.any fun v => v.equal (p.fill m)) = (vs.any fun v => v.equal (p.fill n)) ↔ _)
  cases hp : p.isNested with
  | false =>
    have hflat := rewritten_fill hp h
    have hleft : (p.fill m).equal = (p.fill n).equal := funext fun v => hflat.equal (.same v)
    have hright : (fun v : Value => v.equal (p.fill m)) = fun v => v.equal (p.fill n) :=
      funext fun v => Value.Rewritten.equal (.same v) hflat
    exact ⟨iff_of_true (by rw [hleft]) nofun, iff_of_true (by rw [hright]) nofun⟩
  | true =>
    have hany : ∀ k, (vs.any (p.fill k).equal = decide (p.fill k ∈ vs)) ∧
        (vs.any fun v => v.equal (p.fill k)) = decide (p.fill k ∈ vs) := by
      intro k
      have hleft := fun v => (equal_fill hp k v).1
      have hright := fun v => (equal_fill hp k v).2
      constructor
      · rw [Bool.eq_iff_iff]
        simp [hleft]
      · rw [Bool.eq_iff_iff]
        simp [hright]
    rw [(hany m).1, (hany m).2, (hany n).1, (hany n).2, decide_eq_decide]
    simp

/-- **Another text of the number changes what the value equals only inside a list or a map, and there only against one
of the two values themselves.** -/
theorem equal_fill_iff (h : m.value = n.value) (v : Value) :
    ((p.fill m).equal v = (p.fill n).equal v ↔ (p.isNested = true → (p.fill m = v ↔ p.fill n = v))) ∧
    (v.equal (p.fill m) = v.equal (p.fill n) ↔ (p.isNested = true → (p.fill m = v ↔ p.fill n = v))) := by
  simpa [Value.contains] using any_fill_iff h [v]

/-- With another text of a number in one of its elements, a list contains the same values, or only that element was or
is the value looked for. -/
theorem contains_list_fill_iff (h : m.value = n.value) (before after : List Value) (v : Value) :
    (Value.list (before ++ p.fill m :: after)).contains v = (Value.list (before ++ p.fill n :: after)).contains v ↔
      (p.isNested = true → (∀ x ∈ before ++ after, x.equal v = false) → (p.fill m = v ↔ p.fill n = v)) := by
  have hcontains : ∀ k, (Value.list (before ++ p.fill k :: after)).contains v =
      ((before ++ after).any (fun x => x.equal v) || (p.fill k).equal v) := by
    intro k
    simp only [Value.contains, List.any_append, List.any_cons]
    ac_rfl
  rw [hcontains, hcontains]
  cases hrest : (before ++ after).any fun x => x.equal v with
  | true =>
    obtain ⟨x, hx, hequal⟩ := List.any_eq_true.1 hrest
    refine iff_of_true rfl fun _ hnone => ?_
    rw [hnone x hx] at hequal
    cases hequal
  | false =>
    have hnone : ∀ x ∈ before ++ after, x.equal v = false := fun x hx =>
      Bool.eq_false_iff.2 (List.any_eq_false.1 hrest x hx)
    rw [Bool.false_or, Bool.false_or, (equal_fill_iff h v).1]
    exact forall_congr' fun _ => ⟨fun hsame _ => hsame, fun hsame => hsame hnone⟩

end Place
end ItemStore
