import ItemStore.Proofs.Outcome
import ItemStore.Proofs.Value.Depth
/-!
# Formulas and the texts of numbers

A formula looks at numbers by what they denote, wherever they stand in an item or among the bound values, as long as
they stand in no list or map (`Formula.holds_rewritten`).
-/
namespace ItemStore

open Value (Rewritten)

namespace Value.Rewritten
variable {a a' b b' : Value}

theorem wireType (h : Rewritten a a') : a.wireType = a'.wireType := by
  cases h <;> rfl

theorem order_eq {x x' y y' : Numeral} (hx : x.value = x'.value) (hy : y.value = y'.value) :
    x.order y = x'.order y' := by
  rw [Numeral.order_eq_compare, Numeral.order_eq_compare, hx, hy]

theorem order? (ha : Rewritten a a') (hb : Rewritten b b') : a.order? b = a'.order? b' := by
  cases ha with
  | same => cases hb with
    | same => rfl
    | number hb => cases a <;> simp [Value.order?, order_eq rfl hb]
    | numberSet => cases a <;> rfl
  | number ha => cases hb with
    | same => cases b <;> simp [Value.order?, order_eq ha rfl]
    | number hb => exact congrArg some (order_eq ha hb)
    | numberSet => rfl
  | numberSet => cases hb with
    | same => cases b <;> rfl
    | _ => rfl

theorem beginsWith (ha : Rewritten a a') (hb : Rewritten b b') : a.beginsWith b = a'.beginsWith b' := by
  cases ha with
  | same => cases hb with
    | same => rfl
    | _ => cases a <;> rfl
  | _ => rfl

theorem any_sameNumber {xs ys : List Numeral} {x y : Numeral} (hs : xs.map Numeral.value = ys.map Numeral.value)
    (h : x.value = y.value) : (xs.any fun z => sameNumber z x) = ys.any fun z => sameNumber z y := by
  have hany : ∀ (zs : List Numeral) (z : Numeral),
      (zs.any fun w => sameNumber w z) = true ↔ z.value ∈ zs.map Numeral.value := by
    intro zs z
    simp [sameNumber_iff]
  rw [Bool.eq_iff_iff, hany, hany, hs, h]

theorem contains (ha : Rewritten a a') (hb : Rewritten b b') : a.contains b = a'.contains b' := by
  cases ha with
  | same =>
    cases a with
    | list xs =>
      have hequal : (fun x : Value => x.equal b) = fun x => x.equal b' := funext fun x => equal (.same x) hb
      rw [Value.contains, Value.contains, hequal]
    | numberSet xs => cases hb with
      | same => rfl
      | number hb => exact any_sameNumber rfl hb
      | numberSet => rfl
    | _ => cases hb <;> rfl
  | number => cases hb <;> rfl
  | numberSet ha => cases hb with
    | same => cases b <;> first | exact any_sameNumber ha rfl | rfl
    | number hb => exact any_sameNumber ha hb
    | numberSet => rfl

theorem comparator (op : Comparator) {x x' y y' : Option Value} (hx : Option.Rel Rewritten x x')
    (hy : Option.Rel Rewritten y y') : op.holds x y = op.holds x' y' := by
  cases hx with
  | none => cases hy <;> rfl
  | some hx => cases hy with
    | none => rfl
    | some hy => cases op <;> simp [Comparator.holds, hx.equal hy, hx.order? hy]

theorem test {f : Value → Value → Bool} (hf : ∀ {a a' b b'}, Rewritten a a' → Rewritten b b' → f a b = f a' b')
    {x x' y y' : Option Value} (hx : Option.Rel Rewritten x x') (hy : Option.Rel Rewritten y y') :
    Formula.test f x y = Formula.test f x' y' := by
  cases hx with
  | none => cases hy <;> rfl
  | some hx => cases hy with
    | none => rfl
    | some hy => exact hf hx hy

theorem isSome {x x' : Option Value} (h : Option.Rel Rewritten x x') : x.isSome = x'.isSome := by
  cases h <;> rfl

theorem any_tag {x x' : Option Value} (h : Option.Rel Rewritten x x') (t : String) :
    (x.any fun v => v.wireType.tag == t) = x'.any fun v => v.wireType.tag == t := by
  cases h with
  | none => rfl
  | some h => rw [Option.any_some, Option.any_some, h.wireType]

end Value.Rewritten

namespace Formula

/-- Two ends of a step that go wrong alike, or go well with operands that are written alike or otherwise. -/
inductive SameEnd : Except ExpressionFault (Option Value) → Except ExpressionFault (Option Value) → Prop
  | error (e : ExpressionFault) : SameEnd (.error e) (.error e)
  | ok {x x' : Option Value} : Option.Rel Rewritten x x' → SameEnd (.ok x) (.ok x')

theorem rel_refl (x : Option Value) : Option.Rel Rewritten x x := by
  cases x with
  | none => exact .none
  | some a => exact .some (.same a)

section Environment
variable {b b' : Bindings} {item item' : Item} (hnames : b'.names = b.names)
variable (hvalues : ∀ p, Option.Rel Rewritten (b.values.get? p) (b'.values.get? p))
variable (hitem : ∀ name, Option.Rel Rewritten (item.get? name) (item'.get? name))
include hnames

theorem name_eq (p : String) : b'.name p = b.name p := by
  unfold Bindings.name
  rw [hnames]

include hvalues hitem

theorem sameEnd_resolve (f : Formula) : SameEnd (f.resolve b item) (f.resolve b' item') := by
  cases f with
  | path p =>
    rw [resolve, resolve, name_eq hnames]
    cases b.name p with
    | error e => exact .error e
    | ok name => exact .ok (hitem name)
  | value p =>
    have hp := hvalues p
    rw [resolve, resolve, Bindings.value, Bindings.value]
    generalize b.values.get? p = x at hp
    generalize b'.values.get? p = x' at hp
    cases hp with
    | none => exact .error _
    | some h => exact .ok (.some h)
  | _ => exact .error _

/-- A step with an operand goes on alike. -/
theorem bind_resolve (f : Formula) {α : Type} {k k' : Option Value → Except ExpressionFault α}
    (hk : ∀ {x x'}, Option.Rel Rewritten x x' → k x = k' x') :
    (f.resolve b item >>= k) = (f.resolve b' item' >>= k') := by
  generalize hx : f.resolve b item = x
  generalize hx' : f.resolve b' item' = x'
  have h := sameEnd_resolve hnames hvalues hitem f
  rw [hx, hx'] at h
  cases h with
  | error => rfl
  | ok h => exact hk h

theorem equalsOne_rewritten {x x' : Value} (hx : Rewritten x x') : ∀ cs : List Formula,
    equalsOne b item x cs = equalsOne b' item' x' cs
  | [] => rfl
  | c :: cs => by
    rw [equalsOne, equalsOne]
    refine bind_resolve hnames hvalues hitem c fun hc => ?_
    rw [Rewritten.test Rewritten.equal (.some hx) hc, equalsOne_rewritten hx cs]

/-- **The answer of a formula does not depend on how numbers are written outside of lists and maps.** -/
theorem holds_rewritten : ∀ f : Formula, f.holds b item = f.holds b' item'
  | compare op x y => by
    rw [holds, holds]
    refine bind_resolve hnames hvalues hitem x fun hx => bind_resolve hnames hvalues hitem y fun hy => ?_
    rw [Rewritten.comparator op hx hy]
  | between x low high => by
    rw [holds, holds]
    refine bind_resolve hnames hvalues hitem x fun hx => bind_resolve hnames hvalues hitem low fun hlow => ?_
    rw [Rewritten.comparator .ge hx hlow]
    split
    · refine bind_resolve hnames hvalues hitem high fun hhigh => ?_
      rw [Rewritten.comparator .le hx hhigh]
    · rfl
  | isIn x candidates => by
    rw [holds, holds]
    refine bind_resolve hnames hvalues hitem x fun hx => ?_
    cases hx with
    | none => rfl
    | some hx => exact equalsOne_rewritten hnames hvalues hitem hx candidates
  | and left right => by rw [holds, holds, holds_rewritten left, holds_rewritten right]
  | or left right => by rw [holds, holds, holds_rewritten left, holds_rewritten right]
  | not inner => by rw [holds, holds, holds_rewritten inner]
  | present p => by
    rw [holds, holds, name_eq hnames]
    exact bind_congr fun name => by rw [Entries.has, Entries.has, Rewritten.isSome (hitem name)]
  | absent p => by
    rw [holds, holds, name_eq hnames]
    exact bind_congr fun name => by rw [Entries.has, Entries.has, Rewritten.isSome (hitem name)]
  | hasType p tag => by
    rw [holds, holds, name_eq hnames]
    refine bind_congr fun name => bind_resolve hnames hvalues hitem tag fun htag => ?_
    cases htag with
    | none => rfl
    | some htag =>
      have htype := Rewritten.any_tag (hitem name)
      cases htag with
      | same =>
        split
        · exact congrArg Except.ok (htype _)
        · rfl
      | _ => rfl
  | beginsWith x start => by
    rw [holds, holds]
    refine bind_resolve hnames hvalues hitem x fun hx => bind_resolve hnames hvalues hitem start fun hstart => ?_
    rw [Rewritten.test Rewritten.beginsWith hx hstart]
  | contains x part => by
    rw [holds, holds]
    refine bind_resolve hnames hvalues hitem x fun hx => bind_resolve hnames hvalues hitem part fun hpart => ?_
    rw [Rewritten.test Rewritten.contains hx hpart]
  | path _ => rfl
  | value _ => rfl

end Environment

theorem rel_put {es : Entries Value} {name : String} {a a' : Value} (h : Rewritten a a') (other : String) :
    Option.Rel Rewritten ((es.put name a).get? other) ((es.put name a').get? other) := by
  by_cases hother : other = name
  · rw [hother, Entries.get?_put_self, Entries.get?_put_self]
    exact .some h
  · rw [Entries.get?_put_of_ne es a hother, Entries.get?_put_of_ne es a' hother]
    exact rel_refl _

end Formula

/-! ## Equality and nesting -/

/-- **Inside lists and maps, equality goes by the form of what is there.**  A list equals others element by element, and
a map name by name, exactly if all that is in it has one form; the values of one form are those that equal only
themselves.  Another text of a number changes what a value equals, what it is among and what contains it only if the
number is inside a list or a map, and then exactly if one of the two values, and not the other, is what it is compared
with; and what a list with such an element contains changes only if nothing else in it equals what is looked for.  Where
the number is in no list or map, no formula has another answer, be the number in the item or among the bound values. -/
theorem equality_goes_by_form_inside_lists_and_maps (a : Value) (xs : List Value) {es : Entries Value} (hes : es.Sorted)
    (p : Place) {m n : Numeral} (h : m.value = n.value) :
    (a.HasOneForm ↔ ∀ b, a.equal b = true → a = b) ∧
    ((∀ x ∈ xs, x.HasOneForm) ↔ ∀ ys,
      (Value.list xs).equal (.list ys) = true ↔ List.Forall₂ (fun x y => x.equal y = true) xs ys) ∧
    ((∀ e ∈ es, e.2.HasOneForm) ↔ ∀ fs : Entries Value, fs.Sorted → ((Value.map es).equal (.map fs) = true ↔
      ∀ name, Option.Rel (fun x y => x.equal y = true) (es.get? name) (fs.get? name))) ∧
    (∀ v, ((p.fill m).equal v = (p.fill n).equal v ↔ (p.isNested = true → (p.fill m = v ↔ p.fill n = v))) ∧
      (v.equal (p.fill m) = v.equal (p.fill n) ↔ (p.isNested = true → (p.fill m = v ↔ p.fill n = v)))) ∧
    (∀ vs : List Value,
      (vs.any (p.fill m).equal = vs.any (p.fill n).equal ↔
        (p.isNested = true → (p.fill m ∈ vs ↔ p.fill n ∈ vs))) ∧
      ((Value.list vs).contains (p.fill m) = (Value.list vs).contains (p.fill n) ↔
        (p.isNested = true → (p.fill m ∈ vs ↔ p.fill n ∈ vs)))) ∧
    (∀ before after v,
      (Value.list (before ++ p.fill m :: after)).contains v = (Value.list (before ++ p.fill n :: after)).contains v ↔
        (p.isNested = true → (∀ x ∈ before ++ after, x.equal v = false) → (p.fill m = v ↔ p.fill n = v))) ∧
    (p.isNested = false → ∀ (f : Formula) (b : Bindings) (item : Item) (name : String),
      f.holds b (item.put name (p.fill m)) = f.holds b (item.put name (p.fill n)) ∧
      f.holds { b with values := b.values.put name (p.fill m) } item =
        f.holds { b with values := b.values.put name (p.fill n) } item) := by
  refine ⟨Value.hasOneForm_iff, Value.list_equal_iff_forall₂, Value.map_equal_iff_get? hes, Place.equal_fill_iff h,
    Place.any_fill_iff h, Place.contains_list_fill_iff h, fun hp f b item name => ?_⟩
  have hfill := Place.rewritten_fill hp h
  constructor
  · exact f.holds_rewritten rfl (fun _ => Formula.rel_refl _) (Formula.rel_put hfill)
  · apply Formula.holds_rewritten
    · rfl
    · exact Formula.rel_put hfill
    · exact fun _ => Formula.rel_refl _

/-- The numerals 1 and 1.0, alone and in a list, and a map of one flag. -/
theorem equality_goes_by_form_inside_lists_and_maps_of_one :
    let m : Numeral := ⟨"1", by decide⟩
    let n : Numeral := ⟨"1.0", by decide⟩
    let flags : Entries Value := [("seen", .boolean true)]
    m ≠ n ∧ flags.Sorted ∧ m.value = n.value ∧
      (Value.list [.number m]).equal (.list [.ofInt 2]) = (Value.list [.number n]).equal (.list [.ofInt 2]) ∧
      (Value.list [.number m]).contains (.number n) = (Value.list [.number n]).contains (.number n) ∧
      (∀ (f : Formula) (b : Bindings) (item : Item),
        f.holds b (item.put "total" (.number m)) = f.holds b (item.put "total" (.number n))) ∧
      ((Value.map flags).equal (.map flags) = true ↔
        ∀ name, Option.Rel (fun x y => x.equal y = true) (flags.get? name) (flags.get? name)) := by
  intro m n flags
  have hvalue : m.value = n.value := (Value.sameNumber_iff m n).1 (by decide)
  have hsorted : flags.Sorted := List.pairwise_singleton _ _
  have hflags : ∀ e ∈ flags, e.2.HasOneForm := List.forall_mem_singleton.2 trivial
  obtain ⟨-, -, hmaps, hequal, -, -, -⟩ :=
    equality_goes_by_form_inside_lists_and_maps .null [] hsorted (.inList [] .here []) hvalue
  obtain ⟨-, -, -, -, -, hcontains, hformulas⟩ :=
    equality_goes_by_form_inside_lists_and_maps .null [] hsorted .here hvalue
  exact ⟨by decide, hsorted, hvalue, (hequal (.list [.ofInt 2])).1.2 fun _ => by decide,
    (hcontains [] [] (.number n)).2 nofun, fun f b item => (hformulas rfl f b item "total").1,
    hmaps.1 hflags flags hsorted⟩

/-- Two lists of one number written in two ways are equal element by element, and not equal; and writing the number in
the held list as it is in the list asked for turns the answers of an equality, of IN and of contains. -/
theorem lists_of_one_number_written_twice_are_not_equal :
    let held : Value := .list [.number ⟨"1", by decide⟩]
    let asked : Value := .list [.number ⟨"1.0", by decide⟩]
    let b : Bindings := ⟨[], [(":v", asked)]⟩
    List.Forall₂ (fun x y : Value => x.equal y = true) [.number ⟨"1", by decide⟩] [.number ⟨"1.0", by decide⟩] ∧
      held.equal asked = false ∧
      (Formula.compare .eq (.path "a") (.value ":v")).holds b [("a", held)] = .ok false ∧
      (Formula.compare .eq (.path "a") (.value ":v")).holds b [("a", asked)] = .ok true ∧
      (Formula.isIn (.path "a") [.value ":v"]).holds b [("a", held)] = .ok false ∧
      (Formula.isIn (.path "a") [.value ":v"]).holds b [("a", asked)] = .ok true ∧
      (Formula.contains (.path "a") (.value ":v")).holds b [("a", .list [held])] = .ok false ∧
      (Formula.contains (.path "a") (.value ":v")).holds b [("a", .list [asked])] = .ok true := by
  intro held asked b
  exact ⟨.cons (by decide) .nil, by decide, by decide, by decide, by decide, by decide, by decide, by decide⟩

end ItemStore
