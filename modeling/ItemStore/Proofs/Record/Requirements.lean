import ItemStore.Proofs.Expression.Operands
/-!
# What updates leave of required fields

A field decides by its type whether it can be read where nothing is: options and sets can, all others are required.  An
update is checked against the declaration, which knows that flag and a second one, whether nothing is written as a null.
It lets required attributes that are nullable be removed and be set to null, and only these
(`updates_lose_fields_iff`): nothing else makes an attribute absent or null but a DELETE that empties a set.
-/
namespace ItemStore

open Outcome (bind_eq_ok map_eq_ok mapError_eq_ok guard_eq_ok toOption_eq_some)

/-! ## Reading where nothing is -/

namespace FieldType

theorem exists_decodeAbsent_iff {t : FieldType} {name : String} :
    (∃ x, t.decodeAbsent name = .ok x) ↔ t.isOptional = true := by
  constructor
  · rintro ⟨x, hx⟩
    exact isOptional_of_decodeAbsent hx
  · intro h
    cases t
    case option => exact ⟨_, rfl⟩
    case set => exact ⟨_, rfl⟩
    all_goals cases h

theorem exists_decode_null_iff {t : FieldType} : (∃ x, t.decode .null = .ok x) ↔ t.isOptional = true := by
  constructor
  · rintro ⟨x, hx⟩
    refine ((t.accepts_or_null_of_decode hx).resolve_left fun haccepts => ?_).2
    cases Kind.isNull_of_accepts haccepts
  · intro h
    cases t
    case option => exact ⟨_, rfl⟩
    case set => exact ⟨_, rfl⟩
    all_goals cases h

/-- What is of a set kind is a set, or an option of one. -/
theorem isOptional_of_isSet {t : FieldType} (h : t.kind.isSet = true) : t.isOptional = true := by
  cases t
  case option => rfl
  case set => rfl
  all_goals cases h

end FieldType

section

variable {t : FieldType} {name : String} {item : Item}

/-- The item has nothing under the name, be it not there or a null. -/
def NothingUnder (name : String) (item : Item) : Prop := item.get? name = none ∨ item.get? name = some .null

theorem exists_decodeAttribute_iff (h : NothingUnder name item) :
    (∃ y, decodeAttribute t name item = .ok y) ↔ t.isOptional = true := by
  rcases h with habsent | hnull
  · rw [← @FieldType.exists_decodeAbsent_iff t name, decodeAttribute, readAttribute, habsent]
  · rw [← FieldType.exists_decode_null_iff, decodeAttribute, readAttribute, hnull]
    simp only [mapError_eq_ok]

/-- A required attribute that can be read is there with a value of its kind. -/
theorem filled_of_decodeAttribute {y : t.Val} (h : decodeAttribute t name item = .ok y)
    (hrequired : t.isOptional = false) :
    ∃ v, item.get? name = some v ∧ t.kind.accepts v = true := by
  rcases readAttribute_eq_ok.1 h with ⟨v, hv, hread⟩ | ⟨-, hread⟩
  · refine ⟨v, hv, (t.accepts_or_null_of_decode hread).resolve_right fun hnothing => ?_⟩
    cases hrequired.symm.trans hnothing.2
  · cases hrequired.symm.trans (FieldType.isOptional_of_decodeAbsent hread)

end

/-! ## What actions leave -/

namespace Value

theorem isNull_of_add {old v w : Value} (h : add (some old) v = .ok w) : w.isNull = false := by
  unfold add at h
  split at h
  · cases ‹some old = none›
  · obtain ⟨_, -, rfl⟩ := map_eq_ok.1 h
    rfl
  all_goals cases h <;> rfl

theorem isNull_of_arithmetic {subtract : Bool} {old v w : Value} (h : arithmetic subtract old v = .ok w) :
    w.isNull = false := by
  unfold arithmetic at h
  split at h
  · obtain ⟨_, -, rfl⟩ := map_eq_ok.1 h
    rfl
  · cases h

theorem isNull_of_append {old v w : Value} (h : append old v = .ok w) : w.isNull = false := by
  unfold append at h
  split at h
  · cases h
    rfl
  · cases h

end Value

namespace UpdateAction

variable {u : UpdateAction} {item : Item}

/-- The action takes the attribute away, or makes it a null. -/
def clears : UpdateAction → Bool
  | remove _ => true
  | set _ v => v.isNull
  | _ => false

/-- What the old value of an attribute is combined to is there then, and is no null if no combination is. -/
theorem exists_made {old : Except ExpressionFault Value} {combine : Value → Except ExpressionFault Value}
    {v : Option Value} (hcombine : ∀ {old made : Value}, combine old = .ok made → made.isNull = false)
    (h : (do return some (← combine (← old))) = .ok v) : ∃ made, v = some made ∧ made.isNull = false := by
  obtain ⟨_, -, h⟩ := bind_eq_ok.1 h
  obtain ⟨made, hmade, h⟩ := bind_eq_ok.1 h
  cases h
  exact ⟨made, rfl, hcombine hmade⟩

/-- On an attribute that is there and is of no set kind, only REMOVE and SET to a null leave nothing. -/
theorem nothing_left_iff {a : Attribute} {v : Option Value} (hcheck : u.checkAttribute a = .ok ())
    (hset : a.kind.isSet = false) {old : Value} (hold : item.get? u.name = some old) (hv : u.newValue item = .ok v) :
    (v = none ∨ v = some .null) ↔ u.clears = true := by
  have hsome : ∀ {w : Value}, some w = none ∨ some w = some .null ↔ w.isNull = true := fun {w} => by
    rw [Value.isNull_iff, Option.some_inj]
    exact or_iff_right nofun
  cases u with
  | set name w =>
    cases hv
    exact hsome
  | remove name =>
    cases hv
    exact iff_of_true (.inl rfl) rfl
  | increment name x =>
    obtain ⟨w, rfl, hw⟩ := exists_made Value.isNull_of_arithmetic hv
    rw [hsome, hw]
    rfl
  | decrement name x =>
    obtain ⟨w, rfl, hw⟩ := exists_made Value.isNull_of_arithmetic hv
    rw [hsome, hw]
    rfl
  | add name w =>
    replace hold : item.get? name = some old := hold
    obtain ⟨made, hmade, hv⟩ := bind_eq_ok.1 hv
    cases hv
    rw [hold] at hmade
    rw [hsome, Value.isNull_of_add hmade]
    rfl
  | delete name w => cases hset.symm.trans (guard_eq_ok.1 hcheck).1
  | append name w =>
    obtain ⟨w, rfl, hw⟩ := exists_made Value.isNull_of_append hv
    rw [hsome, hw]
    rfl

/-- What clears an attribute is let through if nothing can be written for it, or nulls are. -/
theorem of_clears {a : Attribute} (hcheck : u.checkAttribute a = .ok ()) (h : u.clears = true) :
    a.optional = true ∨ a.nullable = true := by
  cases u with
  | set name w =>
    have hnull : w.isNull = true := h
    rw [checkAttribute, if_pos hnull] at hcheck
    exact .inr (guard_eq_ok.1 hcheck).1
  | remove name => exact Bool.or_eq_true_iff.1 (guard_eq_ok.1 hcheck).1
  | _ => cases h

/-- After actions on different attributes, each attribute is what its action has made of it, and all others are as they
were. -/
theorem get?_applyAll : ∀ {us : List UpdateAction} {item made : Item}, applyAll item us = .ok made →
    (us.map name).Nodup →
    (∀ u ∈ us, u.newValue item = .ok (made.get? u.name)) ∧
    ∀ other ∉ us.map name, made.get? other = item.get? other
  | [], item, _, h, _ => by
    cases h
    exact ⟨nofun, fun _ _ => rfl⟩
  | u :: us, item, made, h, hd => by
    obtain ⟨hfresh, hd⟩ := List.nodup_cons.1 hd
    rw [applyAll_cons] at h
    obtain ⟨next, hnext, hrest⟩ := bind_eq_ok.1 h
    obtain ⟨hmade, hkept⟩ := get?_applyAll hrest hd
    obtain ⟨v, hv, rfl⟩ := apply_eq_ok hnext
    refine ⟨List.forall_mem_cons.2 ⟨?_, fun u' hu' => ?_⟩, fun other hother => ?_⟩
    · rw [hkept u.name hfresh, Entries.get?_write_self, hv]
    · have hne : u'.name ≠ u.name := fun heq => hfresh (heq ▸ List.mem_map_of_mem hu')
      rw [← hmade u' hu', newValue_congr (Entries.get?_write_of_ne item v hne)]
    · rw [List.map_cons, List.mem_cons, not_or] at hother
      rw [hkept other hother.2, Entries.get?_write_of_ne item v hother.1]

theorem clears_iff {name : String} (h : u.name = name) : u.clears = true ↔ u = remove name ∨ u = set name .null := by
  subst h
  cases u <;> simp [clears, UpdateAction.name, Value.isNull_iff]

/-- Of actions on different attributes, the one on this attribute is the only one that may clear it. -/
theorem mem_clears_iff {us : List UpdateAction} (hd : (us.map name).Nodup) (hu : u ∈ us) {n : String}
    (hname : u.name = n) : remove n ∈ us ∨ set n .null ∈ us ↔ u.clears = true := by
  have honly : ∀ {v : UpdateAction}, v ∈ us → v.name = n → u = v := fun hv hvname =>
    List.inj_on_of_nodup_map hd hu hv (hname.trans hvname.symm)
  rw [clears_iff hname]
  constructor
  · exact Or.imp (fun hmem => honly hmem rfl) (fun hmem => honly hmem rfl)
  · exact Or.imp (fun heq => heq ▸ hu) (fun heq => heq ▸ hu)

end UpdateAction

/-! ## Fields of records -/

/-- The field is lost: nothing is under its name, and it cannot be read so. -/
def FieldPart.LostIn (f : FieldPart FieldType) (item : Item) : Prop :=
  NothingUnder f.name item ∧ ¬∃ y, decodeAttribute f.type f.name item = .ok y

namespace ShapeParts
variable {s : ShapeParts FieldType} {d : Descriptor}

/-- The attribute of a stored field is what it declares. -/
theorem Checked.eq_declared (h : s.Checked) (hd : s.declaration.compile = .ok d) {f : FieldPart FieldType}
    (hf : f ∈ s.persisted) {a : Attribute} (ha : d.attribute? f.name = some a) : a = declared f := by
  obtain ⟨hmem, hname⟩ := Descriptor.mem_of_attribute? ha
  rw [(Declaration.compile_eq_ok_iff.1 hd).attributes] at hmem
  obtain ⟨g, hg, rfl⟩ := List.mem_map.1 hmem
  obtain rfl := h.eq_of_name hg hf hname
  rfl

/-- A required field is lost to the actions that clear its attribute. -/
theorem Checked.lostIn_iff (h : s.Checked) (hd : s.declaration.compile = .ok d) {us : List UpdateAction}
    (hvalid : UpdateAction.validateAll d us = .ok ()) {item made : Item}
    (hmade : UpdateAction.applyAll item us = .ok made) {f : FieldPart FieldType} (hf : f ∈ s.persisted) {y : f.type.Val}
    (hy : decodeAttribute f.type f.name item = .ok y) :
    f.LostIn made ↔ f.nullable = true ∧ f.type.isOptional = false ∧ (.remove f.name ∈ us ∨ .set f.name .null ∈ us) := by
  have hunreadable : f.LostIn made ↔ NothingUnder f.name made ∧ f.type.isOptional = false :=
    and_congr_right fun hnothing => by rw [exists_decodeAttribute_iff hnothing, Bool.not_eq_true]
  rw [hunreadable]
  by_cases hrequired : f.type.isOptional = false
  · obtain ⟨old, hold, haccepts⟩ := filled_of_decodeAttribute hy hrequired
    obtain ⟨-, hd'⟩ := UpdateAction.distinct_of_validateAll hvalid
    obtain ⟨htouched, hkept⟩ := UpdateAction.get?_applyAll hmade hd'
    by_cases hu : f.name ∈ us.map UpdateAction.name
    · obtain ⟨u, hu, hname⟩ := List.mem_map.1 hu
      obtain ⟨a, ha, -, hcheck⟩ := UpdateAction.validate_eq_ok.1 (UpdateAction.validate_of_validateAll hvalid u hu)
      obtain rfl := h.eq_declared hd hf (hname ▸ ha)
      have hset : (declared f).kind.isSet = false := by
        by_contra hset
        cases hrequired.symm.trans (FieldType.isOptional_of_isSet (Bool.not_eq_false _ ▸ hset))
      have hnothing := UpdateAction.nothing_left_iff hcheck hset (hname ▸ hold) (htouched u hu)
      rw [UpdateAction.mem_clears_iff hd' hu hname, NothingUnder, ← hname, hnothing]
      constructor
      · rintro ⟨hclears, -⟩
        refine ⟨(UpdateAction.of_clears hcheck hclears).resolve_left fun hoptional => ?_, hrequired, hclears⟩
        cases hrequired.symm.trans hoptional
      · rintro ⟨-, -, hclears⟩
        exact ⟨hclears, hrequired⟩
    · refine iff_of_false (fun hnothing => ?_) fun hlost => ?_
      · rw [NothingUnder, hkept f.name hu, hold, Option.some_inj] at hnothing
        rcases hnothing.1 with hnone | rfl
        · cases hnone
        · cases Kind.isNull_of_accepts haccepts
      · rcases hlost.2.2 with hmem | hmem
        · exact hu (List.mem_map.2 ⟨_, hmem, rfl⟩)
        · exact hu (List.mem_map.2 ⟨_, hmem, rfl⟩)
  · exact iff_of_false (fun hlost => hrequired hlost.2) fun hlost => hrequired hlost.2.1

end ShapeParts

/-- **An update loses exactly the required fields that are nullable and that it removes or sets to a null.**  Take the
shape of a definition, an item that a record is read from and a checked update.  Its text is read, and where what is
read goes through on the item, under the bindings of the writer then or after any further calls, a field cannot be read
any more, with its attribute not there or a null, if and only if it is required, it is nullable, and the update removes
its attribute or sets it to a null. -/
theorem updates_lose_fields_iff (definition : Definition FieldType) (s : ShapeParts FieldType) (d : Descriptor)
    (hs : definition.shape = .ok s) (hd : s.declaration.compile = .ok d) (w : Writer) (us : List UpdateAction)
    (hvalid : UpdateAction.validateAll d us = .ok ()) (item : Named Value) (x : s.recordType.Val)
    (hx : s.recordType.ofItem item.entries = .ok x) :
    ∃ cs, Change.parse (w.update us).1 = .ok cs ∧ ∀ (later : List Writer.Call) (made : Item),
      Change.applyAll ((w.update us).2.run later).bindings item.entries cs = .ok made → ∀ f ∈ s.persisted,
        f.LostIn made ↔
          f.nullable = true ∧ f.type.isOptional = false ∧ (.remove f.name ∈ us ∨ .set f.name .null ∈ us) := by
  obtain ⟨hne, hnames⟩ := UpdateAction.distinct_of_validateAll hvalid
  obtain ⟨cs, hparse, hdo⟩ := Writer.update_spec w hne hnames
  refine ⟨cs, hparse, fun later made hmade f hf => ?_⟩
  have hactions : (UpdateAction.applyAll item.entries us).toOption = some made := by
    rw [← hdo (Writer.extends_run later _) item.sorted, hmade]
    rfl
  obtain ⟨y, hy⟩ := ShapeParts.exists_decodeAttribute_of_ofItem hx hf
  exact (checked_of_shape hs).lostIn_iff hd hvalid (toOption_eq_some.1 hactions) hf hy

/-- Players have a nickname each, which is declared to be a null where nothing is written for it. -/
def playerDefinition : Definition FieldType :=
  Samples.record "Player" [Samples.setting "table" "players"]
    [Samples.field "id" .text [Samples.flag "partition_key"],
     Samples.field "nick" .text [Samples.flag "nullable"],
     Samples.field "points" (.integer (.signed 32)) [],
     Samples.field "team" (.option .text) []]

def playerItem : Named Value :=
  .ofList [("id", .string "P1"), ("nick", .string "Ann"), ("points", .ofInt 3), ("team", .string "red")]

/-- A player loses the nickname that is set to a null, and neither the points nor the team. -/
theorem updates_lose_fields_iff_of_player :
    let us : List UpdateAction := [.set "nick" .null, .remove "team", .increment "points" (.ofInt 1)]
    ∃ s d, playerDefinition.shape = .ok s ∧ s.declaration.compile = .ok d ∧ UpdateAction.validateAll d us = .ok () ∧
      (∃ x, s.recordType.ofItem playerItem.entries = .ok x) ∧
      ∃ cs, Change.parse (Writer.empty.update us).1 = .ok cs ∧
        ∃ made, Change.applyAll (Writer.empty.update us).2.bindings playerItem.entries cs = .ok made ∧
          ∀ f ∈ s.persisted, f.LostIn made ↔
            f.nullable = true ∧ f.type.isOptional = false ∧ (.remove f.name ∈ us ∨ .set f.name .null ∈ us) := by
  intro us
  have hplayer : ∃ s d, playerDefinition.shape = .ok s ∧ s.declaration.compile = .ok d ∧
      UpdateAction.validateAll d us = .ok () ∧ ∃ x, s.recordType.ofItem playerItem.entries = .ok x :=
    ⟨_, _, rfl, rfl, rfl, _, rfl⟩
  obtain ⟨s, d, hs, hd, hvalid, x, hx⟩ := hplayer
  obtain ⟨cs, hparse, hlost⟩ :=
    updates_lose_fields_iff playerDefinition s d hs hd Writer.empty us hvalid playerItem x hx
  obtain ⟨hne, hnames⟩ := UpdateAction.distinct_of_validateAll hvalid
  obtain ⟨cs', hparse', hdo⟩ := Writer.update_spec Writer.empty hne hnames
  obtain rfl := Except.ok.inj (hparse'.symm.trans hparse)
  have hmade := toOption_eq_some.1 (hdo (Writer.Extends.refl _) playerItem.sorted)
  exact ⟨s, d, hs, hd, hvalid, ⟨x, hx⟩, cs', hparse, _, hmade, hlost [] _ hmade⟩

/-- A nickname is removed as if it were optional, and the player cannot be read any more. -/
theorem removing_a_nickname_loses_it :
    let us : List UpdateAction := [.remove "nick"]
    ∃ s d, playerDefinition.shape = .ok s ∧ s.declaration.compile = .ok d ∧ UpdateAction.validateAll d us = .ok () ∧
      (∃ x, s.recordType.ofItem playerItem.entries = .ok x) ∧
      ∃ cs, Change.parse (Writer.empty.update us).1 = .ok cs ∧
        ∃ made, Change.applyAll (Writer.empty.update us).2.bindings playerItem.entries cs = .ok made ∧
          made.get? "nick" = none ∧
          s.recordType.ofItem made = .error (.malformedAttribute "missing required attribute 'nick'") := by
  obtain ⟨cs, hparse, hdo⟩ :=
    Writer.update_spec Writer.empty (List.cons_ne_nil (.remove "nick") []) (List.nodup_singleton _)
  have hmade := toOption_eq_some.1 (hdo (Writer.Extends.refl _) playerItem.sorted)
  exact ⟨_, _, rfl, rfl, rfl, ⟨_, rfl⟩, cs, hparse, _, hmade, rfl, rfl⟩

end ItemStore
