import ItemStore.Proofs.Record.Requirements
/-!
# Updates keep items true to their declaration

A declaration says of each attribute what values it takes and whether it may be missing.  The store knows nothing of
declarations, and an update is checked without the item it is for, so that an item stays true to its declaration is left
to the actions: what each of them makes of a value that the attribute admits, the attribute admits again
(`UpdateAction.admits_newValue`).  Set attributes have to be optional for it, since a DELETE of the last elements takes
the attribute away.
-/
namespace ItemStore

open Outcome (bind_eq_ok map_eq_ok guard_eq_ok toOption_eq_some)

/-! ## Kinds of combined values -/

namespace Kind
variable {k : Kind}

theorem accepts_number_iff {x : Numeral} : k.accepts (.number x) = true ↔ k = number := by
  cases k <;> simp [accepts]

theorem accepts_stringSet_iff {xs : List String} : k.accepts (.stringSet xs) = true ↔ k = stringSet ∧ xs ≠ [] := by
  cases k <;> simp [accepts]

theorem accepts_numberSet_iff {xs : List Numeral} : k.accepts (.numberSet xs) = true ↔ k = numberSet ∧ xs ≠ [] := by
  cases k <;> simp [accepts]

theorem accepts_binarySet_iff {xs : List Bytes} : k.accepts (.binarySet xs) = true ↔ k = binarySet ∧ xs ≠ [] := by
  cases k <;> simp [accepts]

theorem accepts_append {xs ys : List Value} (hxs : k.accepts (.list xs) = true) (hys : k.accepts (.list ys) = true) :
    k.accepts (.list (xs ++ ys)) = true := by
  cases k
  case list element =>
    rw [accepts, List.all_append, Bool.and_eq_true]
    exact ⟨hxs, hys⟩
  all_goals cases hxs

end Kind

namespace Value
variable {α : Type} {eq : α → α → Bool}

theorem union_ne_nil : ∀ (ys : List α) {xs : List α}, xs ≠ [] → union eq xs ys ≠ []
  | [], _, h => h
  | y :: ys, xs, h => by
    rw [union, List.foldl_cons]
    refine union_ne_nil ys ?_
    split
    · exact h
    · exact List.append_ne_nil_of_left_ne_nil h _

theorem nonEmptySet?_eq_some {make : List α → Value} {xs : List α} {v : Value} :
    nonEmptySet? make xs = some v ↔ xs ≠ [] ∧ make xs = v := by
  cases xs <;> simp [nonEmptySet?]

end Value

/-! ## What an attribute admits -/

namespace Attribute
variable {a : Attribute} {old v w : Value}

/-- What an item may have for the attribute: a value of its kind, a null if nulls are written for it, and nothing at all
if either nothing or a null is. -/
def Admits (a : Attribute) : Option Value → Prop
  | some v => a.kind.accepts v = true ∨ v = .null ∧ a.nullable = true
  | none => a.optional = true ∨ a.nullable = true

theorem Admits.accepts (h : a.Admits (some v)) (hv : v.isNull = false) : a.kind.accepts v = true := by
  refine h.resolve_right fun hnull => ?_
  rw [hnull.1] at hv
  cases hv

/-- Numbers stay numbers, and sets sets of as many elements or more. -/
theorem Admits.add (h : a.Admits (some old)) (hw : Value.add (some old) v = .ok w) : a.kind.accepts w = true := by
  unfold Value.add at hw
  split at hw
  · cases ‹some old = none›
  · next heq =>
    cases heq
    obtain ⟨_, -, rfl⟩ := map_eq_ok.1 hw
    exact Kind.accepts_number_iff.2 (Kind.accepts_number_iff.1 (h.accepts rfl))
  · next heq =>
    cases heq
    cases hw
    obtain ⟨hkind, hne⟩ := Kind.accepts_stringSet_iff.1 (h.accepts rfl)
    exact Kind.accepts_stringSet_iff.2 ⟨hkind, Value.union_ne_nil _ hne⟩
  · next heq =>
    cases heq
    cases hw
    obtain ⟨hkind, hne⟩ := Kind.accepts_numberSet_iff.1 (h.accepts rfl)
    exact Kind.accepts_numberSet_iff.2 ⟨hkind, Value.union_ne_nil _ hne⟩
  · next heq =>
    cases heq
    cases hw
    obtain ⟨hkind, hne⟩ := Kind.accepts_binarySet_iff.1 (h.accepts rfl)
    exact Kind.accepts_binarySet_iff.2 ⟨hkind, Value.union_ne_nil _ hne⟩
  · cases hw

/-- What is left of a set is one, unless nothing is. -/
theorem Admits.delete (h : a.Admits (some old)) (hw : Value.delete old v = .ok (some w)) : a.kind.accepts w = true := by
  unfold Value.delete at hw
  split at hw
  · obtain ⟨hne, rfl⟩ := Value.nonEmptySet?_eq_some.1 (Except.ok.inj hw)
    exact Kind.accepts_stringSet_iff.2 ⟨(Kind.accepts_stringSet_iff.1 (h.accepts rfl)).1, hne⟩
  · obtain ⟨hne, rfl⟩ := Value.nonEmptySet?_eq_some.1 (Except.ok.inj hw)
    exact Kind.accepts_numberSet_iff.2 ⟨(Kind.accepts_numberSet_iff.1 (h.accepts rfl)).1, hne⟩
  · obtain ⟨hne, rfl⟩ := Value.nonEmptySet?_eq_some.1 (Except.ok.inj hw)
    exact Kind.accepts_binarySet_iff.2 ⟨(Kind.accepts_binarySet_iff.1 (h.accepts rfl)).1, hne⟩
  · cases hw

theorem Admits.arithmetic {subtract : Bool} (h : a.Admits (some old)) (hw : Value.arithmetic subtract old v = .ok w) :
    a.kind.accepts w = true := by
  unfold Value.arithmetic at hw
  split at hw
  · obtain ⟨_, -, rfl⟩ := map_eq_ok.1 hw
    exact Kind.accepts_number_iff.2 (Kind.accepts_number_iff.1 (h.accepts rfl))
  · cases hw

theorem Admits.append (h : a.Admits (some old)) (hv : a.Admits (some v)) (hw : Value.append old v = .ok w) :
    a.kind.accepts w = true := by
  unfold Value.append at hw
  split at hw
  · cases hw
    exact Kind.accepts_append (h.accepts rfl) (hv.accepts rfl)
  · cases hw

end Attribute

/-! ## What actions make -/

namespace UpdateAction
variable {u : UpdateAction} {a : Attribute} {item : Item}

/-- **What a checked action makes of an attribute, the attribute admits again.** -/
theorem admits_newValue (hcheck : u.checkAttribute a = .ok ()) (hset : a.kind.isSet = true → a.optional = true)
    (hold : a.Admits (item.get? u.name)) {v : Option Value} (hv : u.newValue item = .ok v) : a.Admits v := by
  cases u with
  | set name w =>
    cases hv
    by_cases hnull : w.isNull = true
    · rw [checkAttribute, if_pos hnull] at hcheck
      exact .inr ⟨Value.isNull_iff.1 hnull, (guard_eq_ok.1 hcheck).1⟩
    · rw [checkAttribute, if_neg hnull] at hcheck
      exact Condition.checkOperand_eq_ok.1 hcheck
  | remove name =>
    cases hv
    exact Bool.or_eq_true_iff.1 (guard_eq_ok.1 hcheck).1
  | increment name x | decrement name x =>
    obtain ⟨old, hpresent, hv⟩ := bind_eq_ok.1 hv
    obtain ⟨w, hw, hv⟩ := bind_eq_ok.1 hv
    cases hv
    rw [UpdateAction.name, oldValue_eq_ok hpresent] at hold
    exact .inl (hold.arithmetic hw)
  | add name x =>
    obtain ⟨w, hw, hv⟩ := bind_eq_ok.1 hv
    cases hv
    cases hpresent : item.get? name with
    | none =>
      rw [hpresent] at hw
      cases hw
      exact Condition.checkOperand_eq_ok.1 (guard_eq_ok.1 hcheck).2
    | some old =>
      rw [hpresent] at hw
      rw [UpdateAction.name, hpresent] at hold
      exact .inl (hold.add hw)
  | delete name x =>
    rw [UpdateAction.name] at hold
    rw [newValue] at hv
    split at hv
    · next old hpresent =>
      rw [hpresent] at hold
      cases v with
      | none => exact .inl (hset (guard_eq_ok.1 hcheck).1)
      | some w => exact .inl (hold.delete hv)
    · next habsent =>
      rw [habsent] at hold
      cases hv
      exact hold
  | append name x =>
    obtain ⟨old, hpresent, hv⟩ := bind_eq_ok.1 hv
    obtain ⟨w, hw, hv⟩ := bind_eq_ok.1 hv
    cases hv
    rw [UpdateAction.name, oldValue_eq_ok hpresent] at hold
    exact .inl (hold.append (Condition.checkOperand_eq_ok.1 (guard_eq_ok.1 hcheck).2) hw)

end UpdateAction

/-! ## Whole items -/

namespace Descriptor
variable {d : Descriptor}

/-- The item has for each attribute what the attribute admits. -/
def WellTyped (d : Descriptor) (item : Item) : Prop := ∀ a ∈ d.attributes, a.Admits (item.get? a.name)

theorem Compiled.attribute?_name (hd : d.Compiled) {a : Attribute} (ha : a ∈ d.attributes) :
    d.attribute? a.name = some a := by
  obtain ⟨decl, hdecl⟩ := hd
  have hcompiles := Declaration.compile_eq_ok_iff.1 hdecl
  exact find?_name (hcompiles.attributes ▸ hcompiles.distinct) ha

theorem WellTyped.applyAll (hd : d.Compiled) (hsets : ∀ a ∈ d.attributes, a.kind.isSet = true → a.optional = true)
    {us : List UpdateAction} (hvalid : UpdateAction.validateAll d us = .ok ()) {item made : Item} (h : d.WellTyped item)
    (hmade : UpdateAction.applyAll item us = .ok made) : d.WellTyped made := by
  intro a ha
  obtain ⟨htouched, hkept⟩ :=
    UpdateAction.get?_applyAll hmade (UpdateAction.distinct_of_validateAll hvalid).2
  by_cases hmem : a.name ∈ us.map UpdateAction.name
  · obtain ⟨u, hu, hname⟩ := List.mem_map.1 hmem
    obtain ⟨b, hb, -, hcheck⟩ := UpdateAction.validate_eq_ok.1 (UpdateAction.validate_of_validateAll hvalid u hu)
    obtain rfl : a = b := Option.some.inj ((hd.attribute?_name ha).symm.trans (hname ▸ hb))
    exact hname ▸ UpdateAction.admits_newValue hcheck (hsets a ha) (hname ▸ h a ha) (htouched u hu)
  · rw [hkept a.name hmem]
    exact h a ha

end Descriptor

theorem UpdateAction.key_not_mem_of_validateAll {d : Descriptor} {us : List UpdateAction}
    (hvalid : validateAll d us = .ok ()) {name : String} (hname : name ∈ d.key.names) :
    name ∉ us.map UpdateAction.name := by
  intro hmem
  obtain ⟨u, hu, rfl⟩ := List.mem_map.1 hmem
  obtain ⟨-, -, hnot, -⟩ := validate_eq_ok.1 (validate_of_validateAll hvalid u hu)
  exact hnot hname

/-- **Checked updates keep items true to their declaration.**  Take a compiled shape whose attributes of set kinds are
optional, an item that has for each attribute what it admits, and a checked update.  Its text is read, and where what is
read goes through on the item, under the bindings of the writer then or after any further calls, the item it makes has
again for each attribute what it admits.  The attributes of the key are as they were, and so are all that no action
names. -/
theorem updates_keep_items_well_typed (w : Writer) (d : Descriptor) (hd : d.Compiled)
    (hsets : ∀ a ∈ d.attributes, a.kind.isSet = true → a.optional = true) (us : List UpdateAction)
    (hvalid : UpdateAction.validateAll d us = .ok ()) (item : Named Value) (hitem : d.WellTyped item.entries) :
    ∃ cs, Change.parse (w.update us).1 = .ok cs ∧ ∀ (later : List Writer.Call) (made : Item),
      Change.applyAll ((w.update us).2.run later).bindings item.entries cs = .ok made →
        d.WellTyped made ∧ (∀ name ∈ d.key.names, made.get? name = item.entries.get? name) ∧
          ∀ name ∉ us.map UpdateAction.name, made.get? name = item.entries.get? name := by
  obtain ⟨hne, hnames⟩ := UpdateAction.distinct_of_validateAll hvalid
  obtain ⟨cs, hparse, hdo⟩ := Writer.update_spec w hne hnames
  refine ⟨cs, hparse, fun later made hmade => ?_⟩
  have hactions : UpdateAction.applyAll item.entries us = .ok made := by
    rw [← toOption_eq_some, ← hdo (Writer.extends_run later _) item.sorted, hmade]
    rfl
  have hkept := (UpdateAction.get?_applyAll hactions hnames).2
  exact ⟨hitem.applyAll hd hsets hvalid hactions,
    fun name hname => hkept name (UpdateAction.key_not_mem_of_validateAll hvalid hname), hkept⟩

/-- A basket loses its last label and its coupon, becomes cheaper and longer, and is a basket still. -/
theorem updates_keep_items_well_typed_of_basket :
    let basket : Declaration := ⟨"Basket", "baskets",
      [⟨"id", .string, false, false, .partition⟩, ⟨"total", .number, false, false, .none⟩,
        ⟨"labels", .stringSet, true, false, .none⟩, ⟨"lines", .list .string, false, false, .none⟩,
        ⟨"coupon", .string, false, true, .none⟩], []⟩
    let us : List UpdateAction := [.delete "labels" (.stringSet ["new"]), .decrement "total" (.ofInt 2),
      .append "lines" (.list [.string "soap", .null]), .set "coupon" .null]
    let item : Named Value := .ofList [("id", .string "B1"), ("total", .ofInt 7), ("labels", .stringSet ["new"]),
      ("lines", .list []), ("coupon", .string "X"), ("seen", .boolean true)]
    ∃ d, basket.compile = .ok d ∧ (∀ a ∈ d.attributes, a.kind.isSet = true → a.optional = true) ∧
      UpdateAction.validateAll d us = .ok () ∧ d.WellTyped item.entries ∧
      ∃ cs made, Change.parse (Writer.empty.update us).1 = .ok cs ∧
        Change.applyAll (Writer.empty.update us).2.bindings item.entries cs = .ok made ∧
        d.WellTyped made ∧ made.get? "labels" = none ∧ made.get? "id" = some (.string "B1") ∧
        made.get? "seen" = some (.boolean true) := by
  intro basket us item
  have hbasket : ∃ d, basket.compile = .ok d ∧ (∀ a ∈ d.attributes, a.kind.isSet = true → a.optional = true) ∧
      UpdateAction.validateAll d us = .ok () ∧ d.WellTyped item.entries ∧ "id" ∈ d.key.names := by
    refine ⟨_, rfl, by decide, rfl, ?_, .head _⟩
    simp only [Descriptor.WellTyped, basket, List.forall_mem_cons]
    exact ⟨.inl rfl, .inl rfl, .inl rfl, .inl rfl, .inl rfl, nofun⟩
  obtain ⟨d, hd, hsets, hvalid, hitem, hid⟩ := hbasket
  obtain ⟨cs, hparse, hkeeps⟩ :=
    updates_keep_items_well_typed Writer.empty d ⟨basket, hd⟩ hsets us hvalid item hitem
  obtain ⟨hne, hnames⟩ := UpdateAction.distinct_of_validateAll hvalid
  obtain ⟨cs', hparse', hdo⟩ := Writer.update_spec Writer.empty hne hnames
  obtain rfl := Except.ok.inj (hparse'.symm.trans hparse)
  have hgoes : ∃ made, UpdateAction.applyAll item.entries us = .ok made ∧ made.get? "labels" = none := ⟨_, rfl, rfl⟩
  obtain ⟨made, hactions, hlabels⟩ := hgoes
  have hmade : Change.applyAll (Writer.empty.update us).2.bindings item.entries cs' = .ok made := by
    rw [← toOption_eq_some, hdo (Writer.Extends.refl _) item.sorted, hactions]
    rfl
  obtain ⟨htyped, hkey, hothers⟩ := hkeeps [] made hmade
  exact ⟨d, hd, hsets, hvalid, hitem, cs', made, hparse, hmade, htyped, hlabels, hkey "id" hid,
    hothers "seen" (by decide)⟩

end ItemStore
