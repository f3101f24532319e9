import ItemStore.Proofs.Record.Rereading
import ItemStore.Proofs.Request.Items
/-!
# Mappers and descriptors agree

A field type says of what kind its values are and whether its attribute may be absent; its writer and its reader say it
again, each for itself.  They agree: what is written has the kind (`FieldType.accepts_of_encode`), and what is read had
it, or was nothing of a type that may be nothing (`FieldType.accepts_or_null_of_decode`).  So a shape's declaration is
true of the items its records are written to and read from (`mapper_agrees_with_descriptor`), and the checks that
builders make on keys go through for all of them.
-/
namespace ItemStore

open Outcome (bind_eq_ok mapError_eq_ok map_eq_ok ok_of_mem_mapM exists_of_mem_mapM)

/-! ## Values and kinds -/

namespace SetElement

theorem accepts_encodeSet : ∀ (e : SetElement) {xs : List e.Val}, xs ≠ [] → e.setKind.accepts (e.encodeSet xs) = true
  | text, _, h => by simpa [setKind, encodeSet, Kind.accepts] using h
  | numeral, _, h => by simpa [setKind, encodeSet, Kind.accepts] using h
  | binary, _, h => by simpa [setKind, encodeSet, Kind.accepts] using h
  | integer _, _, h => by simpa [setKind, encodeSet, Kind.accepts] using h

theorem not_isEmpty_of_nonEmpty {α : Type} {xs ys : List α} (h : nonEmpty xs = .ok ys) : (!xs.isEmpty) = true := by
  unfold nonEmpty at h
  split at h
  · cases h
  · next hne => simpa using hne

theorem accepts_of_decodeSet : ∀ {e : SetElement} {v : Value} {xs : List e.Val}, e.decodeSet v = .ok xs →
    e.setKind.accepts v = true
  | text, v, _, h => by
    cases v
    case stringSet => exact not_isEmpty_of_nonEmpty h
    all_goals cases h
  | numeral, v, _, h => by
    cases v
    case numberSet => exact not_isEmpty_of_nonEmpty h
    all_goals cases h
  | binary, v, _, h => by
    cases v
    case binarySet => exact not_isEmpty_of_nonEmpty h
    all_goals cases h
  | integer _, v, _, h => by
    cases v
    case numberSet =>
      obtain ⟨_, hnumerals, -⟩ := bind_eq_ok.1 h
      exact not_isEmpty_of_nonEmpty hnumerals
    all_goals cases h

end SetElement

namespace FieldType

/-- **What is written for a value has the kind of its type**, lists and maps with a null for an element that is written
as nothing. -/
theorem accepts_of_encode : ∀ (t : FieldType) {x : t.Val} {v : Value}, t.encode x = some v → t.kind.accepts v = true
  | .text, _, _, h => by cases h; rfl
  | .numeral, _, _, h => by cases h; rfl
  | .binary, _, _, h => by cases h; rfl
  | .flag, _, _, h => by cases h; rfl
  | .integer _, _, _, h => by cases h; rfl
  | .timestamp, _, _, h => by cases h; rfl
  | .date, _, _, h => by cases h; rfl
  | .uuid, _, _, h => by cases h; rfl
  | .option inner, _, _, h => by
    obtain ⟨_, -, hinner⟩ := Option.bind_eq_some_iff.1 h
    exact inner.accepts_of_encode hinner
  | .list element, xs, _, h => by
    cases h
    refine List.all_eq_true.2 fun v hv => ?_
    obtain ⟨x, -, rfl⟩ := List.mem_map.1 hv
    cases hx : element.encode x with
    | none => rfl
    | some v => exact Bool.or_eq_true_iff.2 (.inr (element.accepts_of_encode hx))
  | .map element, es, _, h => by
    cases h
    refine List.all_eq_true.2 fun e he => ?_
    obtain ⟨⟨name, x⟩, -, rfl⟩ := List.mem_map.1 he
    cases hx : element.encode x with
    | none => rfl
    | some v => exact Bool.or_eq_true_iff.2 (.inr (element.accepts_of_encode hx))
  | .set element, s, v, h => by
    rw [encode_set element s] at h
    split at h
    · cases h
    · next hne =>
      cases h
      exact element.accepts_encodeSet fun hnil => hne (List.isEmpty_iff.2 hnil)
  | .document _ _, _, _, h => by cases h; rfl

/-- **What is read had the kind of its type**, or was the null of a type that may be absent. -/
theorem accepts_or_null_of_decode : ∀ {v : Value} (t : FieldType) {x : t.Val}, t.decode v = .ok x →
    t.kind.accepts v = true ∨ v = .null ∧ t.isOptional = true
  | v, .text, _, h => by
    cases v
    case string => exact .inl rfl
    all_goals cases h
  | v, .numeral, _, h => by
    cases v
    case number => exact .inl rfl
    all_goals cases h
  | v, .binary, _, h => by
    cases v
    case binary => exact .inl rfl
    all_goals cases h
  | v, .flag, _, h => by
    cases v
    case boolean => exact .inl rfl
    all_goals cases h
  | v, .integer _, _, h => by
    cases v
    case number => exact .inl rfl
    all_goals cases h
  | v, .timestamp, _, h => by
    cases v
    case string => exact .inl rfl
    all_goals cases h
  | v, .date, _, h => by
    cases v
    case string => exact .inl rfl
    all_goals cases h
  | v, .uuid, _, h => by
    cases v
    case string => exact .inl rfl
    all_goals cases h
  | v, .option inner, _, h => by
    by_cases hnull : v = .null
    · exact .inr ⟨hnull, rfl⟩
    · obtain ⟨_, hinner, -⟩ := exists_of_decode_option hnull h
      exact .inl ((inner.accepts_or_null_of_decode hinner).resolve_right fun hinner => hnull hinner.1)
  | v, .list element, _, h => by
    cases v
    case list vs =>
      refine .inl (List.all_eq_true.2 fun v hv => ?_)
      obtain ⟨_, -, hread⟩ := ok_of_mem_mapM h v hv
      rcases element.accepts_or_null_of_decode hread with haccepts | ⟨rfl, -⟩
      · exact Bool.or_eq_true_iff.2 (.inr haccepts)
      · rfl
    all_goals cases h
  | v, .map element, _, h => by
    cases v
    case map vs =>
      obtain ⟨_, hread, -⟩ := bind_eq_ok.1 h
      refine .inl (List.all_eq_true.2 fun e he => ?_)
      obtain ⟨_, -, hentry⟩ := ok_of_mem_mapM hread e he
      obtain ⟨_, hread, -⟩ := bind_eq_ok.1 hentry
      rcases element.accepts_or_null_of_decode hread with haccepts | ⟨hnull, -⟩
      · exact Bool.or_eq_true_iff.2 (.inr haccepts)
      · rw [hnull]
        rfl
    all_goals cases h
  | v, .set element, _, h => by
    by_cases hnull : v = .null
    · exact .inr ⟨hnull, rfl⟩
    · rw [decode_set element hnull] at h
      obtain ⟨_, hread, -⟩ := map_eq_ok.1 h
      exact .inl (SetElement.accepts_of_decodeSet hread)
  | v, .document _ _, _, h => by
    cases v
    case map => exact .inl rfl
    all_goals cases h

theorem isOptional_of_decodeAbsent {t : FieldType} {name : String} {x : t.Val} (h : t.decodeAbsent name = .ok x) :
    t.isOptional = true := by
  cases t
  case option => rfl
  case set => rfl
  all_goals cases h

end FieldType

/-! ## Attributes of items -/

namespace Attribute
variable (a : Attribute) (item : Item)

/-- The item has a value of the attribute's kind. -/
def FilledIn : Prop := ∃ v, item.get? a.name = some v ∧ a.kind.accepts v = true

/-- The item has the attribute as it is written: filled, or else a null where nulls are written for nothing, and nothing
where they are not. -/
def WrittenIn : Prop :=
  a.FilledIn item ∨ a.optional = true ∧ item.get? a.name = if a.nullable then some .null else none

/-- The item has the attribute as it can be read: filled, or else nothing in either form. -/
def ReadableIn : Prop :=
  a.FilledIn item ∨ a.optional = true ∧ (item.get? a.name = some .null ∨ item.get? a.name = none)

variable {a item} in
theorem WrittenIn.readableIn (h : a.WrittenIn item) : a.ReadableIn item := by
  refine h.imp id fun hnothing => ⟨hnothing.1, ?_⟩
  have hvalue := hnothing.2
  split at hvalue
  · exact .inl hvalue
  · exact .inr hvalue

end Attribute

section
variable {f : FieldPart FieldType} {item : Item}

open ShapeParts (declared)

/-- Where nothing of its name is yet, an attribute is written as its field declares it. -/
theorem FieldPart.writtenIn_encodeAttribute (f : FieldPart FieldType) (x : f.type.Val)
    (hfresh : item.get? f.name = none) : (declared f).WrittenIn (encodeAttribute f.type f.name x f.nullable item) := by
  unfold encodeAttribute writeAttribute
  cases hx : f.type.encode x with
  | some v => exact .inl ⟨v, Entries.get?_put_self _ _ _, f.type.accepts_of_encode hx⟩
  | none =>
    refine .inr ⟨?_, ?_⟩
    · by_contra hrequired
      obtain ⟨v, hv⟩ := FieldType.exists_encode (Bool.not_eq_true _ ▸ hrequired : f.type.isOptional = false) x
      cases hx.symm.trans hv
    · show Entries.get? (if f.nullable then item.put f.name .null else item) f.name =
          if f.nullable then some .null else none
      cases f.nullable with
      | true => exact Entries.get?_put_self _ _ _
      | false => exact hfresh

/-- What is read as an attribute is as its field declares it. -/
theorem FieldPart.readableIn_of_decodeAttribute {y : f.type.Val} (h : decodeAttribute f.type f.name item = .ok y) :
    (declared f).ReadableIn item := by
  rcases readAttribute_eq_ok.1 h with ⟨v, hv, hread⟩ | ⟨habsent, hread⟩
  · rcases f.type.accepts_or_null_of_decode hread with haccepts | ⟨rfl, hoptional⟩
    · exact .inl ⟨v, hv, haccepts⟩
    · exact .inr ⟨hoptional, .inl hv⟩
  · exact .inr ⟨FieldType.isOptional_of_decodeAbsent hread, .inr habsent⟩

end

/-! ## Fields of records -/

/-- A stored field, as the mapper goes through it. -/
structure StoredField where
  name : String
  type : FieldType
  nullable : Bool

namespace FieldList

def storedFields : FieldList → List StoredField
  | nil => []
  | stored name type nullable rest => ⟨name, type, nullable⟩ :: rest.storedFields
  | skipped _ rest => rest.storedFields

theorem names_eq : ∀ fs : FieldList, fs.names = fs.storedFields.map (·.name)
  | nil => rfl
  | stored name _ _ rest => congrArg (name :: ·) rest.names_eq
  | skipped _ rest => rest.names_eq

/-- Nothing is written under other names. -/
theorem mem_encodeInto :
    ∀ (fs : FieldList) (r : fs.Val) {item : Item} {e : String × Value}, e ∈ fs.encodeInto r item →
    e.1 ∈ fs.names ∨ e ∈ item
  | nil, _, _, _, h => .inr h
  | stored name type nullable rest, (x, r), item, e, h => by
    rcases rest.mem_encodeInto r h with hrest | h
    · exact .inl (List.mem_cons_of_mem name hrest)
    · unfold writeAttribute at h
      have hput : ∀ {v : Value}, e ∈ item.put name v → e.1 ∈ (stored name type nullable rest).names ∨
          e ∈ item := by
        intro v hmem
        refine (Entries.mem_put hmem).imp (fun he => ?_) id
        rw [he]
        exact List.mem_cons_self
      split at h
      · exact hput h
      · split at h
        · exact hput h
        · exact .inr h
  | skipped _ rest, (_, r), _, _, h => rest.mem_encodeInto r h

/-- Each stored field is written once, as its own attribute. -/
theorem exists_encodeAttribute :
    ∀ (fs : FieldList), fs.names.Nodup → ∀ (r : fs.Val) (item : Item), ∀ f ∈ fs.storedFields,
    ∃ x : f.type.Val, (fs.encodeInto r item).get? f.name = (encodeAttribute f.type f.name x f.nullable item).get? f.name
  | nil, _, _, _, _, hf => nomatch hf
  | stored name type nullable rest, hnames, (x, r), item, f, hf => by
    obtain ⟨hfresh, hnames⟩ := List.nodup_cons.1 hnames
    rcases List.mem_cons.1 hf with rfl | hf
    · exact ⟨x, rest.get?_encodeInto r _ hfresh⟩
    · obtain ⟨y, hy⟩ := rest.exists_encodeAttribute hnames r (writeAttribute name nullable (type.encode x) item) f hf
      have hne : f.name ≠ name := fun heq => hfresh (heq ▸ rest.names_eq ▸ List.mem_map_of_mem hf)
      refine ⟨y, hy.trans ?_⟩
      -- what stands under another name makes no difference to what is written under this one
      unfold encodeAttribute writeAttribute
      cases f.type.encode y with
      | some v => simp only [Entries.get?_put_self]
      | none =>
        cases f.nullable with
        | true => simp only [if_true, Entries.get?_put_self]
        | false => exact writeAttribute_get?_of_ne nullable _ hne
  | skipped _ rest, hnames, (_, r), item, f, hf => rest.exists_encodeAttribute hnames r item f hf

/-- A record is read from what each of its stored fields is read from. -/
theorem exists_decodeAttribute : ∀ (fs : FieldList) {item : Item} {r : fs.Val}, fs.decode item = .ok r →
    ∀ f ∈ fs.storedFields, ∃ y, decodeAttribute f.type f.name item = .ok y
  | nil, _, _, _, _, hf => nomatch hf
  | stored name type nullable rest, item, r, h, f, hf => by
    obtain ⟨x, hx, h⟩ := bind_eq_ok.1 h
    obtain ⟨tail, htail, -⟩ := bind_eq_ok.1 h
    rcases List.mem_cons.1 hf with rfl | hf
    · exact ⟨x, hx⟩
    · exact rest.exists_decodeAttribute htail f hf
  | skipped type rest, item, r, h, f, hf => by
    obtain ⟨tail, htail, -⟩ := bind_eq_ok.1 h
    exact rest.exists_decodeAttribute htail f hf

end FieldList

theorem mem_storedFields_fieldListOf : ∀ {fs : List (FieldPart FieldType)} {f : FieldPart FieldType},
    f ∈ fs.filter (fun f => !f.skip) → ⟨f.name, f.type, f.nullable⟩ ∈ (fieldListOf fs).storedFields
  | g :: fs, f, h => by
    rw [List.filter_cons] at h
    rw [fieldListOf]
    cases hskip : g.skip with
    | true =>
      rw [hskip] at h
      exact mem_storedFields_fieldListOf h
    | false =>
      rw [hskip] at h
      rcases List.mem_cons.1 h with rfl | h
      · exact List.mem_cons_self
      · exact List.mem_cons_of_mem _ (mem_storedFields_fieldListOf h)

namespace ShapeParts
variable {s : ShapeParts FieldType} {item : Item}

/-- The item of a record has every attribute as it is declared. -/
theorem Checked.writtenIn_toItem (h : s.Checked) (r : s.recordType.Val) {f : FieldPart FieldType}
    (hf : f ∈ s.persisted) : (declared f).WrittenIn (s.recordType.toItem r) := by
  have hnames : s.recordType.fields.names.Nodup := (names_fieldListOf s.fields).symm ▸ h.names
  obtain ⟨x, hx⟩ := s.recordType.fields.exists_encodeAttribute hnames r [] _ (mem_storedFields_fieldListOf hf)
  have hwritten := f.writtenIn_encodeAttribute x (Entries.get?_nil f.name)
  unfold Attribute.WrittenIn Attribute.FilledIn at hwritten ⊢
  rwa [RecordType.toItem, show (declared f).name = f.name from rfl, hx]

/-- Each stored field of a record that can be read can be read. -/
theorem exists_decodeAttribute_of_ofItem {x : s.recordType.Val} (h : s.recordType.ofItem item = .ok x)
    {f : FieldPart FieldType} (hf : f ∈ s.persisted) : ∃ y, decodeAttribute f.type f.name item = .ok y :=
  s.recordType.fields.exists_decodeAttribute h _ (mem_storedFields_fieldListOf hf)

end ShapeParts

/-! ## Keys -/

namespace Descriptor
variable {d : Descriptor} {item : Item}

/-- The item has a value of its kind for every attribute of the key. -/
def KeyFilledIn (d : Descriptor) (item : Item) : Prop :=
  ∀ name ∈ d.key.names, ∃ a, d.attribute? name = some a ∧ a.FilledIn item

theorem mem_of_attribute? {name : String} {a : Attribute} (h : d.attribute? name = some a) :
    a ∈ d.attributes ∧ a.name = name :=
  ⟨List.mem_of_find?_eq_some h, beq_iff_eq.1 (List.find?_some (p := fun b : Attribute => b.name == name) h)⟩

theorem exists_takeKey : ∀ {names : List String} {key : Item},
    (∀ name ∈ names, ∃ a, d.attribute? name = some a ∧ a.FilledIn item) →
    ∃ out, d.takeKey item key names = .ok out
  | [], key, _ => ⟨key, rfl⟩
  | name :: names, key, h => by
    obtain ⟨⟨a, ha, v, hv, haccepts⟩, hrest⟩ := List.forall_mem_cons.1 h
    rw [(mem_of_attribute? ha).2] at hv
    rw [takeKey, hv]
    obtain ⟨out, hout⟩ : ∃ out, d.takeKey item (key.put name v) names = .ok out := exists_takeKey hrest
    exact ⟨out, bind_eq_ok.2 ⟨(), checkKeyValue_eq_ok.2 ⟨a, ha, haccepts⟩, hout⟩⟩

theorem KeyFilledIn.exists_key (h : d.KeyFilledIn item) : ∃ key, d.keyOfItem item = .ok key := exists_takeKey h

/-- Attributes of a compiled key are never nothing, so that they are filled where all attributes can be read. -/
theorem keyFilledIn_of_readableIn {decl : Declaration} (hd : decl.compile = .ok d)
    (h : ∀ a ∈ d.attributes, a.ReadableIn item) : d.KeyFilledIn item := by
  intro name hname
  obtain ⟨a, ha, hfits⟩ := (Declaration.compile_eq_ok_iff.1 hd).exists_keyAttribute hname
  refine ⟨a, ha, (h a (mem_of_attribute? ha).1).resolve_right fun hnothing => ?_⟩
  cases hfits.required.symm.trans hnothing.1

end Descriptor

/-! ## Requests without conditions -/

section
variable {d : Descriptor} {item : Item}

theorem Put.exists_build_iff (h : d.KeyFilledIn item) (image : ReturnValues) :
    (∃ p, ({ shape := d, returnValues := image, item } : Put).build = .ok p) ↔ image = .nothing ∨
    image = .allOld := by
  obtain ⟨key, hkey⟩ := h.exists_key
  rw [← @checkOldImage_eq_ok "put"]
  constructor
  · rintro ⟨p, hp⟩
    obtain ⟨_, -, -, himage, -⟩ := build_eq_ok_iff.1 hp
    exact himage
  · exact fun himage => ⟨_, build_eq_ok_iff.2 ⟨key, hkey, rfl, himage, rfl⟩⟩

theorem Delete.exists_build_iff (h : d.KeyFilledIn item) (image : ReturnValues) :
    (∃ p, ({ shape := d, returnValues := image, target := .item item } : Delete).build = .ok p) ↔
      image = .nothing ∨ image = .allOld := by
  obtain ⟨key, hkey⟩ := h.exists_key
  rw [← @checkOldImage_eq_ok "delete"]
  constructor
  · rintro ⟨p, hp⟩
    obtain ⟨_, -, -, himage, -⟩ := build_eq_ok_iff.1 hp
    exact himage
  · exact fun himage => ⟨_, build_eq_ok_iff.2 ⟨key, hkey, rfl, himage, rfl⟩⟩

/-- Puts of items that have their keys become the entries of a batch, with these keys. -/
theorem PendingWrite.exists_entries : ∀ {items : List Item}, (∀ item ∈ items, d.KeyFilledIn item) →
    ∃ keys, items.map d.keyOfItem = keys.map .ok ∧
      (items.map PendingWrite.put).mapM (PendingWrite.entry d) = .ok ((items.map BatchEntry.put).zip keys)
  | [], _ => ⟨[], rfl, rfl⟩
  | item :: items, h => by
    obtain ⟨hitem, hitems⟩ := List.forall_mem_cons.1 h
    obtain ⟨key, hkey⟩ := hitem.exists_key
    obtain ⟨keys, hkeys, hentries⟩ := exists_entries hitems
    refine ⟨key :: keys, ?_, Outcome.mapM_cons_eq_ok.2 ⟨_, _, bind_eq_ok.2 ⟨key, hkey, rfl⟩, hentries, rfl⟩⟩
    rw [List.map_cons, List.map_cons, hkey, hkeys]

/-- A batch of puts of items that have their keys is refused for nothing but a key that comes twice. -/
theorem BatchWrite.exists_build_iff {items : List Item} (hne : items ≠ []) (h : ∀ item ∈ items, d.KeyFilledIn item) :
    (∃ p, ({ shape := d, writes := items.map .put } : BatchWrite).build = .ok p) ↔ (items.map d.keyOfItem).Nodup := by
  obtain ⟨keys, hkeys, hentries⟩ := PendingWrite.exists_entries h
  have hlength : keys.length = items.length := by simpa using (congrArg List.length hkeys).symm
  have hsnd : ((items.map BatchEntry.put).zip keys).map Prod.snd = keys :=
    List.map_snd_zip (by rw [hlength, List.length_map])
  have hwrites : items.map PendingWrite.put ≠ [] := by simpa using hne
  rw [hkeys, List.nodup_map_iff fun _ _ => Except.ok.inj]
  constructor
  · rintro ⟨p, hp⟩
    obtain ⟨-, _, hmapM, hnodup, -⟩ := build_eq_ok_iff.1 hp
    rwa [Except.ok.inj (hmapM.symm.trans hentries), hsnd] at hnodup
  · exact fun hnodup => ⟨_, build_eq_ok_iff.2 ⟨hwrites, _, hentries, hsnd.symm ▸ hnodup, rfl⟩⟩

end

/-! ## Both directions -/

/-- **A mapper and its descriptor agree.**  The item of a record has attributes that are declared and no others.  Each
is there with a value of its kind, or it is optional and is there as a null, if it is nullable, or not at all, if it is
not; those of the key are there with a value of their kind.  Writes of records without conditions are therefore built:
puts and deletes with any image that they can answer with, batches if their keys differ.  And an item that a record is
read from has every attribute with a value of its kind, or it is optional and is there as a null or not at all; so its
key is taken from it. -/
theorem mapper_agrees_with_descriptor (definition : Definition FieldType) (s : ShapeParts FieldType) (d : Descriptor)
    (hs : definition.shape = .ok s) (hd : s.declaration.compile = .ok d) :
    (∀ r : s.recordType.Val, (∀ e ∈ s.recordType.toItem r, ∃ a ∈ d.attributes, a.name = e.1) ∧
      (∀ a ∈ d.attributes, a.WrittenIn (s.recordType.toItem r)) ∧ d.KeyFilledIn (s.recordType.toItem r) ∧
      ∀ image, ((∃ p, ({ shape := d, returnValues := image, item := s.recordType.toItem r } : Put).build = .ok p) ↔
          image = .nothing ∨ image = .allOld) ∧
        ((∃ p, ({ shape := d, returnValues := image, target := .item (s.recordType.toItem r) } : Delete).build =
          .ok p) ↔ image = .nothing ∨ image = .allOld)) ∧
    (∀ rs : List s.recordType.Val, rs ≠ [] →
      ((∃ p, ({ shape := d, writes := rs.map fun r => .put (s.recordType.toItem r) } : BatchWrite).build = .ok p) ↔
        (rs.map fun r => d.keyOfItem (s.recordType.toItem r)).Nodup)) ∧
    ∀ (item : Item) (x : s.recordType.Val), s.recordType.ofItem item = .ok x →
      (∀ a ∈ d.attributes, a.ReadableIn item) ∧ ∃ key, d.keyOfItem item = .ok key := by
  have hchecked := checked_of_shape hs
  have hattributes : d.attributes = s.persisted.map ShapeParts.declared :=
    (Declaration.compile_eq_ok_iff.1 hd).attributes
  have hwritten : ∀ r : s.recordType.Val, ∀ a ∈ d.attributes, a.WrittenIn (s.recordType.toItem r) := by
    intro r a ha
    rw [hattributes] at ha
    obtain ⟨f, hf, rfl⟩ := List.mem_map.1 ha
    exact hchecked.writtenIn_toItem r hf
  have hkey : ∀ r : s.recordType.Val, d.KeyFilledIn (s.recordType.toItem r) := fun r =>
    Descriptor.keyFilledIn_of_readableIn hd fun a ha => (hwritten r a ha).readableIn
  refine ⟨fun r => ⟨fun e he => ?_, hwritten r, hkey r, fun image => ⟨Put.exists_build_iff (hkey r) image,
    Delete.exists_build_iff (hkey r) image⟩⟩, fun rs hrs => ?_, fun item x hx => ?_⟩
  · rcases s.recordType.fields.mem_encodeInto r he with hname | he
    · rw [show s.recordType.fields.names = s.persisted.map (·.name) from names_fieldListOf s.fields] at hname
      obtain ⟨f, hf, hname⟩ := List.mem_map.1 hname
      exact ⟨ShapeParts.declared f, hattributes ▸ List.mem_map_of_mem hf, hname⟩
    · cases he
  · have hitems : rs.map s.recordType.toItem ≠ [] := fun hnil => hrs (List.map_eq_nil_iff.1 hnil)
    have hbatch := BatchWrite.exists_build_iff hitems (List.forall_mem_map.2 fun r _ => hkey r)
    rwa [List.map_map, List.map_map] at hbatch
  · have hreadable : ∀ a ∈ d.attributes, a.ReadableIn item := by
      intro a ha
      rw [hattributes] at ha
      obtain ⟨f, hf, rfl⟩ := List.mem_map.1 ha
      obtain ⟨y, hy⟩ := ShapeParts.exists_decodeAttribute_of_ofItem hx hf
      exact FieldPart.readableIn_of_decodeAttribute hy
    exact ⟨hreadable, (Descriptor.keyFilledIn_of_readableIn hd hreadable).exists_key⟩

/-- An order with nothing but what it needs, read and written again. -/
theorem mapper_agrees_with_descriptor_of_orders : ∃ s d, Samples.orderDefinition.shape = .ok s ∧
    s.declaration.compile = .ok d ∧ ∃ x : s.recordType.Val,
      s.recordType.ofItem (Samples.orderItem "A1" "2024-01-01" 5) = .ok x ∧
      (∀ a ∈ d.attributes, a.ReadableIn (Samples.orderItem "A1" "2024-01-01" 5)) ∧
      (∀ a ∈ d.attributes, a.WrittenIn (s.recordType.toItem x)) ∧
      (∃ p, ({ shape := d, returnValues := .allOld, item := s.recordType.toItem x } : Put).build = .ok p) ∧
      ∃ p, ({ shape := d, writes := [.put (s.recordType.toItem x)] } : BatchWrite).build = .ok p := by
  refine ⟨_, _, rfl, rfl, _, rfl, ?_⟩
  obtain ⟨hrecord, hbatch, hitem⟩ := mapper_agrees_with_descriptor Samples.orderDefinition _ _ rfl rfl
  obtain ⟨-, hwritten, -, hwrites⟩ := hrecord _
  exact ⟨(hitem _ _ rfl).1, hwritten, (hwrites .allOld).1.2 (.inr rfl), (hbatch [_] nofun).2 (List.nodup_singleton _)⟩

end ItemStore
