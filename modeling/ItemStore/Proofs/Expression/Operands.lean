import ItemStore.Proofs.Expression.Containment
import ItemStore.Proofs.Expression.UpdateText
import ItemStore.Proofs.Number.Sums
import ItemStore.Proofs.Record.Agreement
/-!
# Operands of updates

Checking an update compares operands with the kinds that the shape declares.  On an item whose attributes have these
kinds, that is nearly all there is to executing it: an action has a result exactly if its operand is no null that it
would have to combine with what is there (`UpdateAction.exists_newValue_iff`).  Such a null passes where the attribute
is nullable, for the check is the one that comparisons use, to which a null is a value like any other.
-/
namespace ItemStore

open Outcome (bind_eq_ok guard_eq_ok isSome_toOption_iff not_exists_ok)

/-! ## What the checks say -/

theorem Descriptor.requireAttribute_eq_ok {d : Descriptor} {name : String} {a : Attribute} :
    d.requireAttribute name = .ok a ↔ d.attribute? name = some a := by
  unfold requireAttribute
  cases d.attribute? name <;> simp

theorem Value.isNull_iff {v : Value} : v.isNull = true ↔ v = .null := by cases v <;> simp [isNull]

theorem Condition.checkOperand_eq_ok {a : Attribute} {v : Value} :
    checkOperand a v = .ok () ↔ a.kind.accepts v = true ∨ v = .null ∧ a.nullable = true := by
  unfold checkOperand
  rw [← Value.isNull_iff, ← Bool.and_eq_true_iff, ← Bool.or_eq_true_iff]
  split <;> simp [*]

namespace UpdateAction

theorem validate_eq_ok {d : Descriptor} {u : UpdateAction} : u.validate d = .ok () ↔
    ∃ a, d.attribute? u.name = some a ∧ u.name ∉ d.key.names ∧ u.checkAttribute a = .ok () := by
  have hkey : d.isTableKey u.name = true ↔ u.name ∈ d.key.names := List.contains_iff_mem
  unfold validate
  simp only [bind_eq_ok, Descriptor.requireAttribute_eq_ok]
  constructor
  · rintro ⟨a, ha, h⟩
    split at h
    · cases h
    · next hnot => exact ⟨a, ha, fun hmem => hnot (hkey.2 hmem), h⟩
  · rintro ⟨a, ha, hnot, h⟩
    exact ⟨a, ha, by rwa [if_neg fun htrue => hnot (hkey.1 htrue)]⟩

theorem validate_of_validateAfter {d : Descriptor} : ∀ {us : List UpdateAction} {seen : List String},
    validateAfter d seen us = .ok () → ∀ u ∈ us, u.validate d = .ok ()
  | [], _, _, _, hu => nomatch hu
  | v :: us, seen, h, u, hu => by
    obtain ⟨_, hv, h⟩ := bind_eq_ok.1 h
    split at h
    · cases h
    · rcases List.mem_cons.1 hu with rfl | hu
      · exact hv
      · exact validate_of_validateAfter h u hu

theorem validate_of_validateAll {d : Descriptor} {us : List UpdateAction} (h : validateAll d us = .ok ()) :
    ∀ u ∈ us, u.validate d = .ok () := by
  unfold validateAll at h
  split at h
  · cases h
  · exact validate_of_validateAfter h

end UpdateAction

/-! ## Values of one kind are combined -/

namespace Kind
variable {k : Kind} {old v : Value}

open UpdateAction (isAddable isList)

theorem isNull_of_accepts (h : k.accepts v = true) : v.isNull = false := by
  cases v
  case null => cases k <;> cases h
  all_goals rfl

/-- Of one set kind are only sets of one type of element. -/
theorem sets_of_accepts (hk : k.isSet = true) (hold : k.accepts old = true) (hv : k.accepts v = true) :
    (∃ xs ys, old = .stringSet xs ∧ v = .stringSet ys) ∨ (∃ xs ys, old = .numberSet xs ∧ v = .numberSet ys) ∨
      ∃ xs ys, old = .binarySet xs ∧ v = .binarySet ys := by
  cases k
  case stringSet =>
    cases old <;> try cases hold
    cases v <;> try cases hv
    exact .inl ⟨_, _, rfl, rfl⟩
  case numberSet =>
    cases old <;> try cases hold
    cases v <;> try cases hv
    exact .inr (.inl ⟨_, _, rfl, rfl⟩)
  case binarySet =>
    cases old <;> try cases hold
    cases v <;> try cases hv
    exact .inr (.inr ⟨_, _, rfl, rfl⟩)
  all_goals cases hk

theorem exists_add (hk : isAddable k = true) (hold : k.accepts old = true) (hv : k.accepts v = true)
    (hsums : ∀ y x, old = .number y → v = .number x → y.SumsFit x) : ∃ w, Value.add (some old) v = .ok w := by
  by_cases hset : k.isSet = true
  · rcases sets_of_accepts hset hold hv with ⟨xs, ys, rfl, rfl⟩ | ⟨xs, ys, rfl, rfl⟩ | ⟨xs, ys, rfl, rfl⟩
    all_goals exact ⟨_, rfl⟩
  · have hnumber : k = .number := by cases k <;> first | rfl | exact absurd hk hset
    subst hnumber
    obtain ⟨y, rfl⟩ := number_accepts_iff.1 hold
    obtain ⟨x, rfl⟩ := number_accepts_iff.1 hv
    obtain ⟨z, hz⟩ := Numeral.exists_sum (hsums y x rfl rfl) false
    exact ⟨.number z, by rw [Value.add, hz]; rfl⟩

theorem exists_delete (hk : k.isSet = true) (hold : k.accepts old = true) (hv : k.accepts v = true) :
    ∃ w, Value.delete old v = .ok w := by
  rcases sets_of_accepts hk hold hv with ⟨xs, ys, rfl, rfl⟩ | ⟨xs, ys, rfl, rfl⟩ | ⟨xs, ys, rfl, rfl⟩
  all_goals exact ⟨_, rfl⟩

theorem exists_append (hk : isList k = true) (hold : k.accepts old = true) (hv : k.accepts v = true) :
    ∃ w, Value.append old v = .ok w := by
  cases k
  case list =>
    cases old <;> try cases hold
    cases v <;> try cases hv
    exact ⟨_, rfl⟩
  all_goals cases hk

theorem exists_arithmetic {x : Numeral} (hold : number.accepts old = true) (hsums : ∀ y, old = .number y → y.SumsFit x)
    (subtract : Bool) : ∃ w, Value.arithmetic subtract old (.number x) = .ok w := by
  obtain ⟨y, rfl⟩ := number_accepts_iff.1 hold
  obtain ⟨z, hz⟩ := Numeral.exists_sum (hsums y rfl) subtract
  exact ⟨.number z, by rw [Value.arithmetic, hz]; rfl⟩

end Kind

namespace Value

theorem add_null (old : Value) : add (some old) null = .error .addition := by cases old <;> rfl

theorem delete_null (old : Value) : delete old null = .error .deletion := by cases old <;> rfl

theorem append_null (old : Value) : append old null = .error .listAppend := by cases old <;> rfl

end Value

/-! ## What the actions need -/

namespace UpdateAction

/-- The action is to combine what is there with a null. -/
def combinesNull : UpdateAction → Bool
  | add _ v | delete _ v | append _ v => v.isNull
  | _ => false

/-- The numbers that the action combines are whole, and their sum and difference fit 128 bits. -/
def SumsFit (item : Item) : UpdateAction → Prop
  | increment name x | decrement name x | add name (.number x) =>
    ∀ y, item.get? name = some (.number y) → y.SumsFit x
  | _ => True

section

variable {a : Attribute} {u : UpdateAction} {item : Item}

/-- **A checked action has a result on an attribute of its kind exactly if it combines no null.** -/
theorem exists_newValue_iff (hcheck : u.checkAttribute a = .ok ()) (hname : a.name = u.name) (hfilled : a.FilledIn item)
    (hsums : u.SumsFit item) : (∃ v, u.newValue item = .ok v) ↔ u.combinesNull = false := by
  obtain ⟨old, hold, haccepts⟩ := hfilled
  rw [hname] at hold
  have hpresent : oldValue item u.name = .ok old := by rw [oldValue, hold]
  cases u with
  | set name v => exact iff_of_true ⟨_, rfl⟩ rfl
  | remove name => exact iff_of_true ⟨_, rfl⟩ rfl
  | increment name x =>
    have hkind : a.kind = .number := (guard_eq_ok.1 hcheck).1
    obtain ⟨w, hw⟩ :=
      Kind.exists_arithmetic (hkind ▸ haccepts) (fun y hy => hsums y (hold.trans (congrArg some hy))) false
    exact iff_of_true ⟨some w, bind_eq_ok.2 ⟨old, hpresent, bind_eq_ok.2 ⟨w, hw, rfl⟩⟩⟩ rfl
  | decrement name x =>
    have hkind : a.kind = .number := (guard_eq_ok.1 hcheck).1
    obtain ⟨w, hw⟩ :=
      Kind.exists_arithmetic (hkind ▸ haccepts) (fun y hy => hsums y (hold.trans (congrArg some hy))) true
    exact iff_of_true ⟨some w, bind_eq_ok.2 ⟨old, hpresent, bind_eq_ok.2 ⟨w, hw, rfl⟩⟩⟩ rfl
  | add name v =>
    obtain ⟨haddable, hoperand⟩ := guard_eq_ok.1 hcheck
    replace hold : item.get? name = some old := hold
    rw [newValue, hold]
    rcases Condition.checkOperand_eq_ok.1 hoperand with hv | ⟨rfl, -⟩
    · have hsums' : ∀ y x, old = .number y → v = .number x → y.SumsFit x := by
        rintro y x rfl rfl
        exact hsums y hold
      obtain ⟨w, hw⟩ := Kind.exists_add haddable haccepts hv hsums'
      exact iff_of_true ⟨some w, bind_eq_ok.2 ⟨w, hw, rfl⟩⟩ (Kind.isNull_of_accepts hv)
    · rw [Value.add_null]
      exact iff_of_false (not_exists_ok _) (ne_false_of_eq_true rfl)
  | delete name v =>
    obtain ⟨hset, hoperand⟩ := guard_eq_ok.1 hcheck
    replace hold : item.get? name = some old := hold
    rw [newValue, hold]
    rcases Condition.checkOperand_eq_ok.1 hoperand with hv | ⟨rfl, -⟩
    · exact iff_of_true (Kind.exists_delete hset haccepts hv) (Kind.isNull_of_accepts hv)
    · dsimp only
      rw [Value.delete_null]
      exact iff_of_false (not_exists_ok _) (ne_false_of_eq_true rfl)
  | append name v =>
    obtain ⟨hlist, hoperand⟩ := guard_eq_ok.1 hcheck
    rcases Condition.checkOperand_eq_ok.1 hoperand with hv | ⟨rfl, -⟩
    · obtain ⟨w, hw⟩ := Kind.exists_append hlist haccepts hv
      exact iff_of_true ⟨some w, bind_eq_ok.2 ⟨old, hpresent, bind_eq_ok.2 ⟨w, hw, rfl⟩⟩⟩
        (Kind.isNull_of_accepts hv)
    · refine iff_of_false ?_ (ne_false_of_eq_true rfl)
      rintro ⟨_, h⟩
      obtain ⟨_, hvalue, h⟩ := bind_eq_ok.1 h
      obtain ⟨_, h, -⟩ := bind_eq_ok.1 h
      cases hvalue.symm.trans hpresent
      rw [Value.append_null] at h
      cases h

end

/-! ## Whole updates -/

/-- Actions on different attributes go through together exactly if each of them has a result on the item as it is. -/
theorem exists_applyAll_iff : ∀ {us : List UpdateAction} {item : Item}, (us.map name).Nodup →
    ((∃ made, applyAll item us = .ok made) ↔ ∀ u ∈ us, ∃ v, u.newValue item = .ok v)
  | [], item, _ => iff_of_true ⟨item, rfl⟩ nofun
  | u :: us, item, hd => by
    obtain ⟨hfresh, hd⟩ := List.nodup_cons.1 hd
    rw [List.forall_mem_cons, applyAll_cons]
    cases hv : u.newValue item with
    | error fault =>
      rw [apply_eq_map, hv]
      exact iff_of_false (not_exists_ok _) fun hall => not_exists_ok fault hall.1
    | ok v =>
      have happ : u.apply item = .ok (Entries.write item u.name v) := by
        rw [apply_eq_map, hv]
        rfl
      rw [happ]
      -- the actions that follow are on other attributes, which this one has left as they were
      have hsame : ∀ u' ∈ us, u'.newValue (Entries.write item u.name v) = u'.newValue item := fun u' hu' =>
        newValue_congr (Entries.get?_write_of_ne item v fun heq => hfresh (heq ▸ List.mem_map_of_mem hu'))
      have hrest : (∃ made, applyAll (Entries.write item u.name v) us = .ok made) ↔ _ := exists_applyAll_iff hd
      constructor
      · rintro ⟨made, hmade⟩
        exact ⟨⟨v, rfl⟩, fun u' hu' => hsame u' hu' ▸ hrest.1 ⟨made, hmade⟩ u' hu'⟩
      · rintro ⟨-, hothers⟩
        exact hrest.2 fun u' hu' => (hsame u' hu').symm ▸ hothers u' hu'

end UpdateAction

/-- **A checked update goes through exactly if it combines no null.**  Take an item that has every attribute of the
update with a value of its declared kind, where the numbers that are added or taken off are whole and their sums and
differences fit 128 bits.  The text of the update is read, and what is read goes through on the item, under the bindings
of the writer then or after any further calls, if and only if no ADD, DELETE or append has a null for its operand. -/
theorem checked_updates_go_through_iff (w : Writer) (d : Descriptor) (us : List UpdateAction) (item : Named Value)
    (hvalid : UpdateAction.validateAll d us = .ok ())
    (hfilled : ∀ u ∈ us, ∀ a, d.attribute? u.name = some a → a.FilledIn item.entries)
    (hsums : ∀ u ∈ us, u.SumsFit item.entries) :
    ∃ cs, Change.parse (w.update us).1 = .ok cs ∧ ∀ later : List Writer.Call,
      (∃ made, Change.applyAll ((w.update us).2.run later).bindings item.entries cs = .ok made) ↔
        ∀ u ∈ us, u.combinesNull = false := by
  obtain ⟨hne, hd⟩ := UpdateAction.distinct_of_validateAll hvalid
  obtain ⟨cs, hparse, hdo⟩ := Writer.update_spec w hne hd
  refine ⟨cs, hparse, fun later => ?_⟩
  rw [← isSome_toOption_iff, hdo (Writer.extends_run later _) item.sorted, isSome_toOption_iff,
    UpdateAction.exists_applyAll_iff hd]
  refine forall₂_congr fun u hu => ?_
  obtain ⟨a, ha, -, hcheck⟩ := UpdateAction.validate_eq_ok.1 (UpdateAction.validate_of_validateAll hvalid u hu)
  exact UpdateAction.exists_newValue_iff hcheck (Descriptor.mem_of_attribute? ha).2 (hfilled u hu a ha) (hsums u hu)

/-- A basket with something in it, to which more is added. -/
theorem checked_updates_go_through_iff_of_basket :
    let attributes : List Attribute :=
      [⟨"id", .string, false, false, .partition⟩, ⟨"total", .number, false, false, .none⟩,
        ⟨"tags", .stringSet, true, true, .none⟩, ⟨"lines", .list .string, false, false, .none⟩]
    let shape : Descriptor := ⟨"Basket", "baskets", attributes, ⟨"id", none⟩, []⟩
    let us : List UpdateAction :=
      [.add "tags" (.stringSet ["gift"]), .decrement "total" (.ofInt 5), .append "lines" (.list [.string "soap"])]
    let item : Named Value :=
      .ofList [("id", .string "B1"), ("lines", .list []), ("tags", .stringSet ["open"]), ("total", .ofInt 7)]
    UpdateAction.validateAll shape us = .ok () ∧
      (∀ u ∈ us, ∀ a, shape.attribute? u.name = some a → a.FilledIn item.entries) ∧
        (∀ u ∈ us, u.SumsFit item.entries) ∧
      ∃ cs, Change.parse (Writer.empty.update us).1 = .ok cs ∧ ∀ later : List Writer.Call,
        ∃ made, Change.applyAll ((Writer.empty.update us).2.run later).bindings item.entries cs = .ok made := by
  intro attributes shape us item
  have hvalid : UpdateAction.validateAll shape us = .ok () := rfl
  have hfilled : ∀ u ∈ us, ∀ a, shape.attribute? u.name = some a → a.FilledIn item.entries := by
    refine List.forall_mem_cons.2 ⟨fun a ha => ?_, List.forall_mem_cons.2 ⟨fun a ha => ?_, List.forall_mem_singleton.2
      fun a ha => ?_⟩⟩
    all_goals
      cases ha
      exact ⟨_, rfl, rfl⟩
  have hsums : ∀ u ∈ us, u.SumsFit item.entries := by
    refine List.forall_mem_cons.2 ⟨trivial,
      List.forall_mem_cons.2 ⟨fun y hy => ?_, List.forall_mem_singleton.2 trivial⟩⟩
    cases hy
    exact ⟨7, 5, Numeral.denotes_ofInt 7, Numeral.denotes_ofInt 5, by decide, by decide⟩
  obtain ⟨cs, hparse, hgo⟩ := checked_updates_go_through_iff Writer.empty shape us item hvalid hfilled hsums
  exact ⟨hvalid, hfilled, hsums, cs, hparse, fun later => (hgo later).2 (by decide)⟩

/-- To add no labels at all to some that are there is checked and refused: the empty set is a null. -/
theorem adding_no_labels_is_refused : ∃ s d, Samples.sinkDefinition.shape = .ok s ∧ s.declaration.compile = .ok d ∧
    let us : List UpdateAction := [.add "Labels" (((FieldType.set .text).encode SortedSet.empty).getD .null)]
    let item : Named Value := .ofList [("Labels", .stringSet ["a"])]
    UpdateAction.validateAll d us = .ok () ∧
      (∀ u ∈ us, ∀ a, d.attribute? u.name = some a → a.FilledIn item.entries) ∧
      (∀ u ∈ us, u.SumsFit item.entries) ∧ ∃ cs, Change.parse (Writer.empty.update us).1 = .ok cs ∧
        ¬∃ made, Change.applyAll (Writer.empty.update us).2.bindings item.entries cs = .ok made := by
  refine ⟨_, _, rfl, rfl, rfl, List.forall_mem_singleton.2 fun a ha => ?_, List.forall_mem_singleton.2 trivial, ?_⟩
  · cases ha
    exact ⟨_, rfl, rfl⟩
  · obtain ⟨cs, hparse, hdo⟩ := Writer.update_spec Writer.empty (List.cons_ne_nil _ []) (List.nodup_singleton _)
    refine ⟨cs, hparse, fun hmade => ?_⟩
    rw [← isSome_toOption_iff, hdo (Writer.Extends.refl _) (Named.sorted _)] at hmade
    cases hmade

end ItemStore
