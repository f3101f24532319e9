import ItemStore.Record.Samples
import ItemStore.Proofs.Number.Digits
import ItemStore.Proofs.Outcome
import ItemStore.Proofs.Record.Shapes
import ItemStore.Proofs.Time.Text
import ItemStore.Proofs.Value.Entries
import ItemStore.Proofs.Value.SortedSet
import ItemStore.Proofs.Value.Uuid
/-!
# Fields are read back

What is written for a value is read as that value again, over all field types in which no option is taken of something
that may be absent itself.  Fields that are not stored start anew, also those of records inside of records.
-/
namespace ItemStore

open Outcome (bind_eq_ok mapM_map_eq_ok)

/-! ## Elements of sets -/

instance : Std.LawfulEqOrd Numeral where
  eq_of_compare {x y} h := by
    obtain ⟨s, _⟩ := x
    obtain ⟨t, _⟩ := y
    have htext : compare s t = .eq := h
    obtain rfl := Std.LawfulEqCmp.eq_of_compare htext
    rfl

instance {t : IntType} : Std.LawfulEqOrd (BoundedInt t) where
  eq_of_compare {x y} h := by
    obtain ⟨m, _⟩ := x
    obtain ⟨n, _⟩ := y
    have hval : compare m n = .eq := h
    obtain rfl := Std.LawfulEqCmp.eq_of_compare hval
    rfl

instance : ∀ e : SetElement, Std.LawfulEqOrd e.Val
  | .text => inferInstanceAs (Std.LawfulEqOrd String)
  | .numeral => inferInstanceAs (Std.LawfulEqOrd Numeral)
  | .binary => inferInstanceAs (Std.LawfulEqOrd (List UInt8))
  | .integer t => inferInstanceAs (Std.LawfulEqOrd (BoundedInt t))

theorem BoundedInt.read_ofInt {t : IntType} (n : BoundedInt t) : read t (Numeral.ofInt n.val) = .ok n :=
  bind_eq_ok.2 ⟨n.val, Numeral.toInteger_ofInt n.inRange, dif_pos n.inRange⟩

namespace SetElement

theorem nonEmpty_eq_ok_iff {α : Type} {xs ys : List α} : nonEmpty xs = .ok ys ↔ xs ≠ [] ∧ xs = ys := by
  rw [nonEmpty, Outcome.refused_eq_ok, List.isEmpty_iff, Except.ok.injEq]

theorem decodeSet_encodeSet : ∀ (e : SetElement) {xs : List e.Val}, xs ≠ [] → e.decodeSet (e.encodeSet xs) = .ok xs
  | text, _, h => nonEmpty_eq_ok_iff.2 ⟨h, rfl⟩
  | numeral, _, h => nonEmpty_eq_ok_iff.2 ⟨h, rfl⟩
  | binary, _, h => nonEmpty_eq_ok_iff.2 ⟨h, rfl⟩
  | integer t, xs, h => by
    have hread : (xs.map fun n => Numeral.ofInt n.val).mapM (BoundedInt.read t) = .ok (xs.map id) :=
      mapM_map_eq_ok fun n _ => BoundedInt.read_ofInt n
    rw [List.map_id] at hread
    exact bind_eq_ok.2 ⟨_, nonEmpty_eq_ok_iff.2 ⟨fun hnil => h (List.map_eq_nil_iff.1 hnil), rfl⟩, hread⟩

theorem encodeSet_ne_null : ∀ (e : SetElement) (xs : List e.Val), e.encodeSet xs ≠ .null
  | text, _ => nofun
  | numeral, _ => nofun
  | binary, _ => nofun
  | integer _, _ => nofun

end SetElement

/-! ## Types that tell their values apart -/

mutual

/-- No option is taken of an option or a set, and no record has two fields under one name. -/
def FieldType.unambiguous : FieldType → Bool
  | .option inner => !inner.isOptional && inner.unambiguous
  | .list element => element.unambiguous
  | .map element => element.unambiguous
  | .document _ fields => fields.unambiguous
  | _ => true

def FieldList.unambiguous : FieldList → Bool
  | .nil => true
  | .stored name type _ rest => decide (name ∉ rest.names) && type.unambiguous && rest.unambiguous
  | .skipped _ rest => rest.unambiguous

end

mutual

/-- All fields of all records in it are stored. -/
def FieldType.storesAll : FieldType → Bool
  | .option inner => inner.storesAll
  | .list element => element.storesAll
  | .map element => element.storesAll
  | .document _ fields => fields.storesAll
  | _ => true

def FieldList.storesAll : FieldList → Bool
  | .nil => true
  | .stored _ type _ rest => type.storesAll && rest.storesAll
  | .skipped _ _ => false

end

mutual

/-- The moments stored for a value are in years of four digits. -/
def FieldType.InYears : (t : FieldType) → t.Val → Prop
  | .timestamp, x => 0 ≤ Timestamp.year x ∧ Timestamp.year x ≤ 9999
  | .option inner, x => ∀ y, x = some y → inner.InYears y
  | .list element, xs => ∀ x : element.Val, List.Mem x xs → element.InYears x
  | .map element, es => ∀ e ∈ Named.entries es, element.InYears e.2
  | .document _ fields, r => fields.InYears r
  | _, _ => True

def FieldList.InYears : (fs : FieldList) → fs.Val → Prop
  | .nil, _ => True
  | .stored _ type _ rest, (x, r) => type.InYears x ∧ rest.InYears r
  | .skipped _ rest, (_, r) => rest.InYears r

end

mutual

/-- What is kept of a value: what is not stored starts anew. -/
def FieldType.kept : (t : FieldType) → t.Val → t.Val
  | .option inner, x => Option.map inner.kept x
  | .list element, xs => List.map element.kept xs
  | .map element, es => Named.map element.kept es
  | .document _ fields, r => fields.kept r
  | _, x => x

def FieldList.kept : (fs : FieldList) → fs.Val → fs.Val
  | .nil, _ => ()
  | .stored _ type _ rest, (x, r) => (type.kept x, rest.kept r)
  | .skipped type rest, (_, r) => (type.initial, rest.kept r)

end

mutual

/-- Where all is stored, all is kept. -/
theorem FieldType.kept_eq_self : ∀ (t : FieldType), t.storesAll = true → ∀ x : t.Val, t.kept x = x
  | .text, _, _ => rfl
  | .numeral, _, _ => rfl
  | .binary, _, _ => rfl
  | .flag, _, _ => rfl
  | .integer _, _, _ => rfl
  | .timestamp, _, _ => rfl
  | .date, _, _ => rfl
  | .uuid, _, _ => rfl
  | .set _, _, _ => rfl
  | .option inner, h, x =>
    (congrArg (Option.map · x) (funext (inner.kept_eq_self h) : inner.kept = id)).trans (congrFun Option.map_id x)
  | .list element, h, xs =>
    (congrArg (List.map · xs) (funext (element.kept_eq_self h) : element.kept = id)).trans (List.map_id xs)
  | .map element, h, es =>
    (congrArg (Named.map · es) (funext (element.kept_eq_self h) : element.kept = id)).trans (Named.map_id es)
  | .document _ fields, h, r => fields.kept_eq_self h r

theorem FieldList.kept_eq_self : ∀ (fs : FieldList), fs.storesAll = true → ∀ r : fs.Val, fs.kept r = r
  | .nil, _, _ => rfl
  | .stored _ type _ rest, h, (x, r) => by
    obtain ⟨htype, hrest⟩ := Bool.and_eq_true_iff.1 h
    exact Prod.ext (type.kept_eq_self htype x) (rest.kept_eq_self hrest r)

end

/-! ## What is written -/

namespace FieldType

/-- Nothing is written as a null of its own. -/
theorem encode_ne_null : ∀ (t : FieldType) (x : t.Val), t.encode x ≠ some .null
  | .text, _ => nofun
  | .numeral, _ => nofun
  | .binary, _ => nofun
  | .flag, _ => nofun
  | .integer _, _ => nofun
  | .timestamp, _ => nofun
  | .date, _ => nofun
  | .uuid, _ => nofun
  | .option inner, x => fun h => by
    obtain ⟨y, -, hy⟩ := Option.bind_eq_some_iff.1 h
    exact inner.encode_ne_null y hy
  | .list _, _ => nofun
  | .map _, _ => nofun
  | .set element, xs => fun h => by
    unfold encode at h
    split at h
    · cases h
    · exact element.encodeSet_ne_null _ (Option.some.inj h)
  | .document _ _, _ => nofun

/-- Only options and sets may be written as nothing. -/
theorem exists_encode {t : FieldType} (h : t.isOptional = false) (x : t.Val) : ∃ v, t.encode x = some v := by
  cases t
  case option => cases h
  case set => cases h
  all_goals exact ⟨_, rfl⟩

theorem encode_set (element : SetElement) (s : SortedSet element.Val) :
    (set element).encode s = if s.isEmpty then none else some (element.encodeSet s.elements) := rfl

theorem decode_option (inner : FieldType) {v : Value} (h : v ≠ .null) :
    (option inner).decode v = (inner.decode v).map (some : inner.Val → Option inner.Val) := by
  cases v
  case null => exact absurd rfl h
  all_goals rfl

theorem decode_set (element : SetElement) {v : Value} (h : v ≠ .null) :
    (set element).decode v = (element.decodeSet v).map SortedSet.ofList := by
  cases v
  case null => exact absurd rfl h
  all_goals rfl

/-- A set is read back from its elements in any order. -/
theorem decode_encodeSet {element : SetElement} {xs : List element.Val} {s : SortedSet element.Val}
    (h : xs.Perm s.elements) (hne : xs ≠ []) : (set element).decode (element.encodeSet xs) = .ok s := by
  rw [decode_set element (element.encodeSet_ne_null xs), element.decodeSet_encodeSet hne]
  exact congrArg Except.ok (SortedSet.ofList_of_perm h)

theorem encode_set_eq_none {element : SetElement} {s : SortedSet element.Val} (h : (set element).encode s = none) :
    s = SortedSet.empty := by
  rw [encode_set] at h
  split at h
  · next hempty => exact SortedSet.isEmpty_iff.1 hempty
  · cases h

theorem decode_encode_set (element : SetElement) (s : SortedSet element.Val) :
    (set element).decode (((set element).encode s).getD .null) = .ok s := by
  rw [encode_set]
  split
  · next hempty => exact congrArg Except.ok (SortedSet.isEmpty_iff.1 hempty).symm
  · next hsome => exact decode_encodeSet (.refl _) fun hnil => hsome (List.isEmpty_iff.2 hnil)

/-- What is written as nothing is read where nothing is. -/
theorem decodeAbsent_of_encode {t : FieldType} (ht : t.unambiguous = true) {x : t.Val} (h : t.encode x = none)
    (name : String) : t.decodeAbsent name = .ok (t.kept x) := by
  cases t
  case option inner =>
    cases x with
    | none => rfl
    | some y =>
      -- what is required inside the option is written as something
      have hrequired : inner.isOptional = false := by simpa using (Bool.and_eq_true_iff.1 ht).1
      obtain ⟨v, hv⟩ := exists_encode hrequired y
      exact absurd (hv.symm.trans h) nofun
  case set element =>
    exact congrArg Except.ok (encode_set_eq_none h).symm
  all_goals cases h

end FieldType

/-! ## What is read -/

section

variable {t : FieldType} {name : String} {item : Item}

theorem writeAttribute_get?_of_ne (nullable : Bool) (encoded : Option Value) {other : String} (h : other ≠ name) :
    (writeAttribute name nullable encoded item).get? other = item.get? other := by
  unfold writeAttribute
  split
  · exact Entries.get?_put_of_ne item _ h
  · split
    · exact Entries.get?_put_of_ne item _ h
    · rfl

theorem readAttribute_congr {α : Type} {present : Value → Except Error α} {absent : Except Error α} {item' : Item}
    (h : item'.get? name = item.get? name) :
    readAttribute name present absent item' = readAttribute name present absent item := by
  rw [readAttribute, h, readAttribute]

/-- An attribute is read back if its value is, be it written as a null or not at all. -/
theorem decodeAttribute_encodeAttribute_of {x : t.Val} (ht : t.unambiguous = true)
    (hback : t.decode ((t.encode x).getD .null) = .ok (t.kept x)) (nullable : Bool) (hfresh : item.get? name = none) :
    decodeAttribute t name (encodeAttribute t name x nullable item) = .ok (t.kept x) := by
  unfold decodeAttribute encodeAttribute readAttribute writeAttribute
  cases hencode : t.encode x with
  | some v =>
    rw [hencode, Option.getD_some] at hback
    simp only [Entries.get?_put_self, hback]
    rfl
  | none =>
    rw [hencode, Option.getD_none] at hback
    cases nullable with
    | true =>
      simp only [if_true, Entries.get?_put_self, hback]
      rfl
    | false =>
      simp only [Bool.false_eq_true, if_false, hfresh]
      exact FieldType.decodeAbsent_of_encode ht hencode name

end

theorem readText_eq_ok {α : Type} {what : String} {parse : String → Option α} {s : String} {x : α}
    (h : parse s = some x) : readText what parse s = .ok x := by
  rw [readText, h]

/-- Writing the fields of a record leaves what stands under other names. -/
theorem FieldList.get?_encodeInto {name : String} : ∀ (fs : FieldList) (r : fs.Val) (item : Item), name ∉ fs.names →
    (fs.encodeInto r item).get? name = item.get? name
  | .nil, _, _, _ => rfl
  | .stored other type nullable rest, (x, r), item, h => by
    obtain ⟨hne, hrest⟩ := List.ne_and_not_mem_of_not_mem_cons h
    rw [encodeInto, get?_encodeInto rest r _ hrest, writeAttribute_get?_of_ne nullable _ hne]
  | .skipped _ rest, (_, r), item, h => rest.get?_encodeInto r item h

-- On the type.  Lists and maps hold a null for an element that is written as nothing, so the induction is about the
-- null; that the attribute may also be absent needs no induction (`decodeAbsent_of_encode`).
mutual

/-- **A value is read back from what is written for it**, a null where nothing is written. -/
theorem FieldType.decode_encode : ∀ (t : FieldType) (x : t.Val), t.unambiguous = true → t.InYears x →
    t.decode ((t.encode x).getD .null) = .ok (t.kept x)
  | .text, _, _, _ => rfl
  | .numeral, _, _, _ => rfl
  | .binary, _, _, _ => rfl
  | .flag, _, _, _ => rfl
  | .integer _, n, _, _ => BoundedInt.read_ofInt n
  | .timestamp, _, _, h => readText_eq_ok (Timestamp.parse?_render h)
  | .date, x, _, _ => readText_eq_ok (Date.parse?_render x)
  | .uuid, x, _, _ => readText_eq_ok (Uuid.parse?_render x)
  | .option _, none, _, _ => rfl
  | .option inner, some y, ht, h => by
    obtain ⟨hrequired, hinner⟩ := Bool.and_eq_true_iff.1 ht
    obtain ⟨v, hv⟩ := FieldType.exists_encode (by simpa using hrequired) y
    have hback := inner.decode_encode y hinner (h y rfl)
    rw [hv, Option.getD_some] at hback
    have hne : v ≠ .null := fun hnull => inner.encode_ne_null y (hnull ▸ hv)
    have hencode : (FieldType.option inner).encode (some y) = some v := hv
    rw [hencode, Option.getD_some, FieldType.decode_option inner hne, hback]
    rfl
  | .list element, xs, ht, h => mapM_map_eq_ok fun x hx => element.decode_encode x ht (h x hx)
  | .map element, es, ht, h =>
    have hentry : ∀ e ∈ Named.entries es,
        (do return (e.1, ← element.decode ((element.encode e.2).getD .null))) = Except.ok (e.1, element.kept e.2) :=
      fun e he => bind_eq_ok.2 ⟨_, element.decode_encode e.2 ht (h e he), rfl⟩
    bind_eq_ok.2 ⟨_, mapM_map_eq_ok hentry, congrArg Except.ok (Named.ofList_entries (Named.map element.kept es))⟩
  | .set element, s, _, _ => FieldType.decode_encode_set element s
  | .document _ fields, r, ht, h => fields.decode_encodeInto r [] ht h fun _ _ => rfl

/-- A record is read back from the item its fields are written into. -/
theorem FieldList.decode_encodeInto : ∀ (fs : FieldList) (r : fs.Val) (item : Item), fs.unambiguous = true →
    fs.InYears r → (∀ name ∈ fs.names, item.get? name = none) → fs.decode (fs.encodeInto r item) = .ok (fs.kept r)
  | .nil, _, _, _, _, _ => rfl
  | .stored name type nullable rest, (x, r), item, hfs, h, hfresh => by
    obtain ⟨⟨hname, htype⟩, hrest⟩ := And.imp_left Bool.and_eq_true_iff.1 (Bool.and_eq_true_iff.1 hfs)
    have hunused : name ∉ rest.names := of_decide_eq_true hname
    -- the fields written later leave the attribute alone, and it leaves their names free
    have hx : decodeAttribute type name (rest.encodeInto r (writeAttribute name nullable (type.encode x) item)) =
        .ok (type.kept x) :=
      (readAttribute_congr (rest.get?_encodeInto r _ hunused)).trans (decodeAttribute_encodeAttribute_of htype
        (type.decode_encode x htype h.1) nullable (hfresh name List.mem_cons_self))
    have hfree : ∀ other ∈ rest.names,
        Entries.get? (writeAttribute name nullable (type.encode x) item) other = none := by
      intro other hother
      have hne : other ≠ name := fun heq => hunused (heq ▸ hother)
      rw [writeAttribute_get?_of_ne nullable _ hne]
      exact hfresh other (List.mem_cons_of_mem name hother)
    have hr := rest.decode_encodeInto r _ hrest h.2 hfree
    exact bind_eq_ok.2 ⟨_, hx, bind_eq_ok.2 ⟨_, hr, rfl⟩⟩
  | .skipped type rest, (_, r), item, hfs, h, hfresh =>
    bind_eq_ok.2 ⟨_, rest.decode_encodeInto r item hfs h hfresh, rfl⟩

end

/-! ## Records of definitions -/

theorem names_fieldListOf : ∀ fs : List (FieldPart FieldType),
    (fieldListOf fs).names = (fs.filter fun f => !f.skip).map (·.name)
  | [] => rfl
  | f :: fs => by
    rw [fieldListOf, List.filter_cons]
    cases hskip : f.skip with
    | true => exact names_fieldListOf fs
    | false => exact congrArg (f.name :: ·) (names_fieldListOf fs)

/-- Fields under distinct names make a record that is read back, if each of them is. -/
theorem unambiguous_fieldListOf :
    ∀ {fs : List (FieldPart FieldType)}, ((fs.filter fun f => !f.skip).map (·.name)).Nodup →
    (∀ f ∈ fs.filter fun f => !f.skip, f.type.unambiguous = true) → (fieldListOf fs).unambiguous = true
  | [], _, _ => rfl
  | f :: fs, hnames, htypes => by
    rw [fieldListOf]
    rw [List.filter_cons] at hnames htypes
    cases hskip : f.skip with
    | true =>
      rw [hskip] at hnames htypes
      exact unambiguous_fieldListOf hnames htypes
    | false =>
      rw [hskip] at hnames htypes
      obtain ⟨hfresh, hnames⟩ := List.nodup_cons.1 hnames
      obtain ⟨htype, htypes⟩ := List.forall_mem_cons.1 htypes
      rw [← names_fieldListOf] at hfresh
      simp only [Bool.false_eq_true, if_false, FieldList.unambiguous, hfresh, not_false_eq_true, decide_true, htype,
        unambiguous_fieldListOf hnames htypes, Bool.and_self]

/-- The record type of a definition of a shape or a document. -/
def Definition.Gives (d : Definition FieldType) (r : RecordParts FieldType) : Prop :=
  d.document = .ok r ∨ ∃ s, d.shape = .ok s ∧ s.toRecordParts = r

theorem Definition.Gives.names {d : Definition FieldType} {r : RecordParts FieldType} (h : d.Gives r) :
    (r.persisted.map (·.name)).Nodup := by
  rcases h with h | ⟨s, h, rfl⟩
  · obtain ⟨notes, hparts⟩ := parts_of_document h
    exact (parts_eq_ok hparts).2.2
  · exact (checked_of_shape h).names

/-! ## What is written is read back -/

/-- **What is written is read back.**  An attribute is, into an item that has none of its name, and no other attribute
changes; a record is from its item.  Only what is not stored of a record, be it inside of another value, starts anew.
The records that definitions give have distinct names, so that no more is asked of them than of the types of their
fields. -/
theorem written_values_are_read_back :
    (∀ (t : FieldType) (name : String) (x : t.Val) (nullable : Bool) (item : Item), t.unambiguous = true →
      t.InYears x → item.get? name = none →
      decodeAttribute t name (encodeAttribute t name x nullable item) = .ok (t.kept x) ∧
      (∀ other, other ≠ name → (encodeAttribute t name x nullable item).get? other = item.get? other) ∧
      (t.storesAll = true → t.kept x = x)) ∧
    (∀ (r : RecordType) (x : r.Val), r.fields.unambiguous = true → r.fields.InYears x →
      r.ofItem (r.toItem x) = .ok (r.fields.kept x)) ∧
    ∀ (d : Definition FieldType) (r : RecordParts FieldType) (x : r.recordType.Val), d.Gives r →
      (∀ f ∈ r.persisted, f.type.unambiguous = true) → r.recordType.fields.InYears x →
      r.recordType.ofItem (r.recordType.toItem x) = .ok (r.recordType.fields.kept x) := by
  have hrecord : ∀ (r : RecordType) (x : r.Val), r.fields.unambiguous = true → r.fields.InYears x →
      r.ofItem (r.toItem x) = .ok (r.fields.kept x) := fun r x hr hx =>
    r.fields.decode_encodeInto x [] hr hx fun _ _ => rfl
  refine ⟨fun t name x nullable item ht hx hfresh => ?_, hrecord, fun d r x hd htypes hx => ?_⟩
  · exact ⟨decodeAttribute_encodeAttribute_of ht (t.decode_encode x ht hx) nullable hfresh,
      fun other hne => writeAttribute_get?_of_ne nullable _ hne, fun hall => t.kept_eq_self hall x⟩
  · exact hrecord r.recordType x (unambiguous_fieldListOf hd.names htypes) hx

/-- A visit: when it was, what was answered, which rooms were seen, and notes that are not stored. -/
def visit : RecordType :=
  ⟨"Visit", .stored "at" .timestamp false (.stored "answers" (.option (.list (.option .flag))) true
    (.stored "rooms" (.set (.integer (.unsigned 8))) false (.skipped .text .nil)))⟩

theorem written_values_are_read_back_of_visits :
    decodeAttribute visit.type "visit" (encodeAttribute visit.type "visit"
      (Timestamp.epoch, some [some true, none], SortedSet.empty, "notes", ()) true []) =
        .ok (Timestamp.epoch, some [some true, none], SortedSet.empty, "", ()) ∧
    visit.ofItem (visit.toItem (Timestamp.epoch, none, SortedSet.empty, "notes", ())) =
        .ok (Timestamp.epoch, none, SortedSet.empty, "", ()) ∧
    ∃ r, Samples.customerDefinition.Gives r ∧
      ∀ x : r.recordType.Val, r.recordType.ofItem (r.recordType.toItem x) = .ok (r.recordType.fields.kept x) := by
  obtain ⟨hattribute, hrecord, hdefinition⟩ := written_values_are_read_back
  have hepoch : 0 ≤ Timestamp.epoch.year ∧ Timestamp.epoch.year ≤ 9999 := by decide
  have hgives : ∃ r, Samples.customerDefinition.Gives r ∧ (∀ f ∈ r.persisted, f.type.unambiguous = true) ∧
      ∀ x : r.recordType.Val, r.recordType.fields.InYears x := by
    refine ⟨_, .inr ⟨_, rfl, rfl⟩, by decide, fun x => ?_⟩
    exact ⟨trivial, trivial, fun _ _ => trivial, trivial, trivial⟩
  obtain ⟨r, hr, htypes, hyears⟩ := hgives
  refine ⟨(hattribute visit.type "visit" (Timestamp.epoch, some [some true, none], SortedSet.empty, "notes", ()) true []
      (by decide) ?_ rfl).1, hrecord visit (Timestamp.epoch, none, SortedSet.empty, "notes", ()) (by decide) ?_, r, hr,
      fun x => hdefinition _ r x hr htypes (hyears x)⟩
  · exact ⟨hepoch, fun _ _ _ _ _ _ => trivial, trivial, trivial⟩
  · exact ⟨hepoch, nofun, trivial, trivial⟩

end ItemStore
