import ItemStore.Proofs.Record.RoundTrip
/-!
# What is read is read again

Reading accepts more than writing makes: signs and zeros before numbers, repeated elements, nulls for nothing, moments
with any offset.  What has been read is nevertheless written in a form that is read as the same value, for every type
but one: a moment is, exactly if its year in universal time has four digits (`FieldType.decode_encode_iff`).

What reading gives (`FieldType.Settled`) needs no restriction on options of options or of sets: an option that holds
something was read from something that is not a null, and so is written as something again.
-/
namespace ItemStore

open Outcome (bind_eq_ok mapError_eq_ok map_eq_ok mapM_map_eq_ok_iff exists_of_mem_mapM)

/-! ## Moments -/

theorem takeDigits?_of_not_isDigit {least most : Nat} {c : Char} (hleast : 0 < least) (h : c.isDigit = false)
    (rest : List Char) : takeDigits? least most (c :: rest) = none := by
  have hnone : (c :: rest).takeWhile Char.isDigit = [] := endsDigits_cons h rest
  rw [takeDigits?, hnone]
  exact if_pos (by rwa [List.take_nil])

namespace Timestamp

/-- A year of more than four digits, or before the year 0, is written with a sign. -/
theorem exists_yearChars_signed {y : Int} (h : ¬(0 ≤ y ∧ y ≤ 9999)) :
    ∃ sign rest, yearChars y = sign :: rest ∧ sign.isDigit = false := by
  unfold yearChars
  split
  · exact ⟨'-', _, rfl, rfl⟩
  · rw [if_neg (by omega)]
    exact ⟨'+', _, rfl, rfl⟩

/-- **A moment is read back exactly if its year has four digits.** -/
theorem parse?_render_eq_some_iff {t t' : Timestamp} :
    parse? t.render = some t' ↔ t' = t ∧ 0 ≤ t.year ∧ t.year ≤ 9999 := by
  by_cases h : 0 ≤ t.year ∧ t.year ≤ 9999
  · rw [parse?_render h, Option.some_inj]
    exact ⟨fun heq => ⟨heq.symm, h⟩, fun heq => heq.1.symm⟩
  · obtain ⟨sign, rest, hyear, hsign⟩ := exists_yearChars_signed h
    have hnone : parse? t.render = none := by
      obtain ⟨tail, htail⟩ : ∃ tail, t.render.toList = yearChars t.year ++ tail := by
        simp only [render, year, String.toList_ofList, List.append_assoc]
        exact ⟨_, rfl⟩
      rw [parse?, htail, hyear, List.cons_append, takeDigits?_of_not_isDigit (by decide) hsign]
      rfl
    rw [hnone]
    exact iff_of_false (Option.some_ne_none t').symm fun heq => h heq.2

end Timestamp

/-! ## Types and values -/

mutual

/-- No record in it has two fields under one name. -/
def FieldType.namesApart : FieldType → Bool
  | .option inner => inner.namesApart
  | .list element => element.namesApart
  | .map element => element.namesApart
  | .document _ fields => fields.namesApart
  | _ => true

def FieldList.namesApart : FieldList → Bool
  | .nil => true
  | .stored name type _ rest => decide (name ∉ rest.names) && type.namesApart && rest.namesApart
  | .skipped _ rest => rest.namesApart

end

mutual

/-- What options hold is written as something, and what is not stored is as it starts. -/
def FieldType.Settled : (t : FieldType) → t.Val → Prop
  | .option inner, x => ∀ y, x = some y → (∃ v, inner.encode y = some v) ∧ inner.Settled y
  | .list element, xs => ∀ x : element.Val, List.Mem x xs → element.Settled x
  | .map element, es => ∀ e ∈ Named.entries es, element.Settled e.2
  | .document _ fields, r => fields.Settled r
  | _, _ => True

def FieldList.Settled : (fs : FieldList) → fs.Val → Prop
  | .nil, _ => True
  | .stored _ type _ rest, (x, r) => type.Settled x ∧ rest.Settled r
  | .skipped type rest, (x, r) => x = type.initial ∧ rest.Settled r

end

/-! ## What reading gives -/

theorem SetElement.ne_nil_of_nonEmpty {α : Type} {xs ys : List α} (h : nonEmpty xs = .ok ys) : ys ≠ [] := by
  obtain ⟨hne, rfl⟩ := nonEmpty_eq_ok_iff.1 h
  exact hne

theorem SetElement.ne_nil_of_decodeSet {e : SetElement} {v : Value} {xs : List e.Val} (h : e.decodeSet v = .ok xs) :
    xs ≠ [] := by
  unfold decodeSet at h
  split at h
  · exact ne_nil_of_nonEmpty h
  · exact ne_nil_of_nonEmpty h
  · exact ne_nil_of_nonEmpty h
  · obtain ⟨numerals, hnumerals, hread⟩ := bind_eq_ok.1 h
    have hlength := Outcome.length_of_mapM hread
    have hpos := List.length_pos_iff.2 (ne_nil_of_nonEmpty hnumerals)
    exact List.length_pos_iff.1 (hlength ▸ hpos)
  · cases h

namespace FieldType

theorem exists_of_decode_option {inner : FieldType} {v : Value} {x : Option inner.Val} (hne : v ≠ .null)
    (h : (option inner).decode v = .ok x) : ∃ y, inner.decode v = .ok y ∧ some y = x := by
  rw [decode_option inner hne] at h
  exact map_eq_ok.1 h

/-- What is read from something that is not a null is written as something. -/
theorem exists_encode_of_decode : ∀ (t : FieldType) {v : Value} {x : t.Val}, v ≠ .null → t.decode v = .ok x →
    ∃ v', t.encode x = some v'
  | .text, _, _, _, _ => ⟨_, rfl⟩
  | .numeral, _, _, _, _ => ⟨_, rfl⟩
  | .binary, _, _, _, _ => ⟨_, rfl⟩
  | .flag, _, _, _, _ => ⟨_, rfl⟩
  | .integer _, _, _, _, _ => ⟨_, rfl⟩
  | .timestamp, _, _, _, _ => ⟨_, rfl⟩
  | .date, _, _, _, _ => ⟨_, rfl⟩
  | .uuid, _, _, _, _ => ⟨_, rfl⟩
  | .option inner, _, _, hne, h => by
    obtain ⟨y, hy, rfl⟩ := exists_of_decode_option hne h
    exact inner.exists_encode_of_decode hne hy
  | .list _, _, _, _, _ => ⟨_, rfl⟩
  | .map _, _, _, _, _ => ⟨_, rfl⟩
  | .set element, _, _, hne, h => by
    rw [decode_set element hne] at h
    obtain ⟨xs, hxs, rfl⟩ := map_eq_ok.1 h
    obtain ⟨x, hx⟩ := List.exists_mem_of_ne_nil xs (SetElement.ne_nil_of_decodeSet hxs)
    have hmem := SortedSet.mem_ofList.2 hx
    refine ⟨_, (encode_set element _).trans (if_neg fun hempty => ?_)⟩
    rw [List.isEmpty_iff.1 hempty] at hmem
    cases hmem
  | .document _ _, _, _, _, _ => ⟨_, rfl⟩

theorem settled_of_decodeAbsent {t : FieldType} {name : String} {x : t.Val} (h : t.decodeAbsent name = .ok x) :
    t.Settled x := by
  cases t
  case option inner =>
    cases h
    nofun
  case set => trivial
  all_goals cases h

end FieldType

theorem readAttribute_eq_ok {α : Type} {name : String} {present : Value → Except Error α} {absent : Except Error α}
    {item : Item} {x : α} : readAttribute name present absent item = .ok x ↔
      (∃ v, item.get? name = some v ∧ present v = .ok x) ∨ item.get? name = none ∧ absent = .ok x := by
  unfold readAttribute
  cases item.get? name with
  | some v => simp [mapError_eq_ok]
  | none => simp

-- On the type, along its reader: what is inside a value has been read from what is inside the wire value.
mutual

theorem FieldType.settled_of_decode : ∀ (t : FieldType) {v : Value} {x : t.Val}, t.decode v = .ok x → t.Settled x
  | .text, _, _, _ => trivial
  | .numeral, _, _, _ => trivial
  | .binary, _, _, _ => trivial
  | .flag, _, _, _ => trivial
  | .integer _, _, _, _ => trivial
  | .timestamp, _, _, _ => trivial
  | .date, _, _, _ => trivial
  | .uuid, _, _, _ => trivial
  | .option inner, v, x, h => by
    by_cases hnull : v = .null
    · subst hnull
      cases h
      nofun
    · obtain ⟨y, hy, rfl⟩ := FieldType.exists_of_decode_option hnull h
      intro z hz
      cases hz
      exact ⟨inner.exists_encode_of_decode hnull hy, inner.settled_of_decode hy⟩
  | .list element, v, xs, h => by
    cases v
    case list vs =>
      intro x hx
      obtain ⟨_, -, hread⟩ := exists_of_mem_mapM h x hx
      exact element.settled_of_decode hread
    all_goals cases h
  | .map element, v, es, h => by
    cases v
    case map vs =>
      obtain ⟨read, hread, h⟩ := bind_eq_ok.1 h
      cases h
      intro e he
      obtain ⟨_, -, hentry⟩ := exists_of_mem_mapM hread e (Entries.mem_ofList he)
      obtain ⟨x, hx, hpair⟩ := bind_eq_ok.1 hentry
      cases hpair
      exact element.settled_of_decode hx
    all_goals cases h
  | .set _, _, _, _ => trivial
  | .document _ fields, v, r, h => by
    cases v
    case map vs => exact fields.settled_of_decode h
    all_goals cases h

theorem FieldList.settled_of_decode : ∀ (fs : FieldList) {item : Item} {r : fs.Val}, fs.decode item = .ok r →
    fs.Settled r
  | .nil, _, _, _ => trivial
  | .stored name type nullable rest, item, r, h => by
    obtain ⟨x, hx, h⟩ := bind_eq_ok.1 h
    obtain ⟨tail, htail, h⟩ := bind_eq_ok.1 h
    cases h
    refine ⟨?_, rest.settled_of_decode htail⟩
    rcases readAttribute_eq_ok.1 hx with ⟨v, -, hv⟩ | ⟨-, habsent⟩
    · exact type.settled_of_decode hv
    · exact FieldType.settled_of_decodeAbsent habsent
  | .skipped type rest, item, r, h => by
    obtain ⟨tail, htail, h⟩ := bind_eq_ok.1 h
    cases h
    exact ⟨rfl, rest.settled_of_decode htail⟩

end

/-! ## What is written for it -/

theorem ok_eq_iff {ε α : Type} {x y : α} : (Except.ok x : Except ε α) = .ok y ↔ y = x := by
  rw [Except.ok.injEq]
  exact eq_comm

theorem readText_eq_ok_iff {α : Type} {what : String} {parse : String → Option α} {s : String} {x : α} :
    readText what parse s = .ok x ↔ parse s = some x := by
  unfold readText
  cases parse s with
  | some y => rw [Except.ok.injEq, Option.some_inj]
  | none => exact iff_of_false nofun nofun

/-- A value that is written as nothing is read where nothing is. -/
theorem FieldType.decodeAbsent_eq_ok_iff {t : FieldType} {x : t.Val} (hx : t.Settled x) (h : t.encode x = none)
    (name : String) {y : t.Val} : t.decodeAbsent name = .ok y ↔ y = x ∧ t.InYears x := by
  cases t
  case option inner =>
    cases x with
    | none => exact ok_eq_iff.trans (and_iff_left nofun).symm
    | some z =>
      obtain ⟨v, hv⟩ := (hx z rfl).1
      exact absurd (hv.symm.trans h) nofun
  case set element =>
    rw [encode_set_eq_none h]
    exact ok_eq_iff.trans (and_iff_left trivial).symm
  all_goals cases h

/-- An attribute is read again if its value is, be it written as a null or not at all. -/
theorem decodeAttribute_eq_ok_iff_of {t : FieldType} {name : String} {item : Item} {x y : t.Val} (hx : t.Settled x)
    (hback : t.decode ((t.encode x).getD .null) = .ok y ↔ y = x ∧ t.InYears x) (nullable : Bool)
    (hfresh : item.get? name = none) :
    decodeAttribute t name (encodeAttribute t name x nullable item) = .ok y ↔ y = x ∧ t.InYears x := by
  unfold decodeAttribute encodeAttribute readAttribute writeAttribute
  cases hencode : t.encode x with
  | some v =>
    rw [hencode, Option.getD_some] at hback
    simp only [Entries.get?_put_self, mapError_eq_ok, hback]
  | none =>
    rw [hencode, Option.getD_none] at hback
    cases nullable with
    | true => simp only [if_true, Entries.get?_put_self, mapError_eq_ok, hback]
    | false =>
      simp only [Bool.false_eq_true, if_false, hfresh]
      exact FieldType.decodeAbsent_eq_ok_iff hx hencode name

-- On the type, and about the null that lists and maps hold for nothing, as for values that are read back.
mutual

/-- **A settled value is read again from what is written for it, and nothing else is, exactly if all of its moments are
in years of four digits.** -/
theorem FieldType.decode_encode_iff : ∀ (t : FieldType) {x : t.Val}, t.namesApart = true → t.Settled x →
    ∀ {y : t.Val},
    t.decode ((t.encode x).getD .null) = .ok y ↔ y = x ∧ t.InYears x
  | .text, _, _, _, _ => ok_eq_iff.trans (and_iff_left trivial).symm
  | .numeral, _, _, _, _ => ok_eq_iff.trans (and_iff_left trivial).symm
  | .binary, _, _, _, _ => ok_eq_iff.trans (and_iff_left trivial).symm
  | .flag, _, _, _, _ => ok_eq_iff.trans (and_iff_left trivial).symm
  | .integer t, n, _, _, y => by
    show BoundedInt.read t (Numeral.ofInt (BoundedInt.val n)) = .ok y ↔ _
    rw [BoundedInt.read_ofInt n]
    exact ok_eq_iff.trans (and_iff_left trivial).symm
  | .timestamp, _, _, _, _ => readText_eq_ok_iff.trans Timestamp.parse?_render_eq_some_iff
  | .date, x, _, _, y => by
    show readText "date" Date.parse? (Date.render x) = .ok y ↔ _
    rw [readText_eq_ok (Date.parse?_render x)]
    exact ok_eq_iff.trans (and_iff_left trivial).symm
  | .uuid, x, _, _, y => by
    show readText "uuid" Uuid.parse? (Uuid.render x) = .ok y ↔ _
    rw [readText_eq_ok (Uuid.parse?_render x)]
    exact ok_eq_iff.trans (and_iff_left trivial).symm
  | .option _, none, _, _, _ => ok_eq_iff.trans (and_iff_left nofun).symm
  | .option inner, some z, ht, hx, y => by
    obtain ⟨⟨v, hv⟩, hz⟩ := hx z rfl
    have hne : v ≠ .null := fun hnull => inner.encode_ne_null z (hnull ▸ hv)
    have hencode : (FieldType.option inner).encode (some z) = some v := hv
    have hback (y' : inner.Val) : inner.decode ((inner.encode z).getD .null) = .ok y' ↔ y' = z ∧ inner.InYears z :=
      inner.decode_encode_iff ht hz
    simp only [hv, Option.getD_some] at hback
    rw [hencode, Option.getD_some, FieldType.decode_option inner hne]
    refine map_eq_ok.trans ?_
    constructor
    · rintro ⟨y', hy', rfl⟩
      obtain ⟨rfl, hyears⟩ := (hback y').1 hy'
      refine ⟨rfl, fun z' hz' => ?_⟩
      cases hz'
      exact hyears
    · rintro ⟨rfl, hyears⟩
      exact ⟨z, (hback z).2 ⟨rfl, hyears z rfl⟩, rfl⟩
  | .list element, _, ht, hx, _ => mapM_map_eq_ok_iff fun x hmem _ => element.decode_encode_iff ht (hx x hmem)
  | .map element, es, ht, hx, y => by
    have hentry : ∀ e ∈ Named.entries es, ∀ e',
        (do return (e.1, ← element.decode ((element.encode e.2).getD .null))) = Except.ok (ε := Error) e' ↔
          e' = e ∧ element.InYears e.2 := by
      intro e he e'
      rw [bind_eq_ok]
      constructor
      · rintro ⟨x, hread, hpair⟩
        obtain ⟨rfl, hyears⟩ := (element.decode_encode_iff ht (hx e he)).1 hread
        cases hpair
        exact ⟨rfl, hyears⟩
      · rintro ⟨rfl, hyears⟩
        exact ⟨e'.2, (element.decode_encode_iff ht (hx e' he)).2 ⟨rfl, hyears⟩, rfl⟩
    refine bind_eq_ok.trans ?_
    constructor
    · rintro ⟨read, hread, hy⟩
      obtain ⟨rfl, hyears⟩ := (mapM_map_eq_ok_iff hentry).1 hread
      cases hy
      exact ⟨Named.ofList_entries es, hyears⟩
    · rintro ⟨rfl, hyears⟩
      exact ⟨_, (mapM_map_eq_ok_iff hentry).2 ⟨rfl, hyears⟩, congrArg Except.ok (Named.ofList_entries y)⟩
  | .set element, s, _, _, y => by
    rw [FieldType.decode_encode_set element s]
    exact ok_eq_iff.trans (and_iff_left trivial).symm
  | .document _ fields, r, ht, hr, _ => fields.decode_encodeInto_iff (r := r) [] ht hr fun _ _ => rfl

theorem FieldList.decode_encodeInto_iff : ∀ (fs : FieldList) {r : fs.Val} (item : Item), fs.namesApart = true →
    fs.Settled r → (∀ name ∈ fs.names, item.get? name = none) → ∀ {y : fs.Val},
    fs.decode (fs.encodeInto r item) = .ok y ↔ y = r ∧ fs.InYears r
  | .nil, _, _, _, _, _, _ => iff_of_true rfl ⟨rfl, trivial⟩
  | .stored name type nullable rest, (x, r), item, hfs, hr, hfresh, (x', r') => by
    obtain ⟨⟨hname, htype⟩, hrest⟩ := And.imp_left Bool.and_eq_true_iff.1 (Bool.and_eq_true_iff.1 hfs)
    have hunused : name ∉ rest.names := of_decide_eq_true hname
    -- the fields written later leave the attribute alone, and it leaves their names free
    have hx {y : type.Val} : decodeAttribute type name
        (rest.encodeInto r (writeAttribute name nullable (type.encode x) item)) = .ok y ↔ y = x ∧ type.InYears x := by
      rw [decodeAttribute, readAttribute_congr (rest.get?_encodeInto r _ hunused)]
      exact decodeAttribute_eq_ok_iff_of hr.1 (type.decode_encode_iff htype hr.1) nullable
        (hfresh name List.mem_cons_self)
    have hfree : ∀ other ∈ rest.names, (writeAttribute name nullable (type.encode x) item).get? other = none := by
      intro other hother
      have hne : other ≠ name := fun heq => hunused (heq ▸ hother)
      rw [writeAttribute_get?_of_ne nullable _ hne]
      exact hfresh other (List.mem_cons_of_mem name hother)
    have hr' {tail : rest.Val} := rest.decode_encodeInto_iff _ hrest hr.2 hfree (y := tail)
    refine bind_eq_ok.trans ?_
    constructor
    · rintro ⟨y, hy, h⟩
      obtain ⟨tail, htail, hpair⟩ := bind_eq_ok.1 h
      obtain ⟨hyx, hyears⟩ := hx.1 hy
      obtain ⟨htr, hyears'⟩ := hr'.1 htail
      rw [← Except.ok.inj hpair, hyx, htr]
      exact ⟨rfl, hyears, hyears'⟩
    · rintro ⟨heq, hyears, hyears'⟩
      rw [heq]
      exact ⟨x, hx.2 ⟨rfl, hyears⟩, bind_eq_ok.2 ⟨r, hr'.2 ⟨rfl, hyears'⟩, rfl⟩⟩
  | .skipped type rest, (x, r), item, hfs, hr, hfresh, (x', r') => by
    have hr' {tail : rest.Val} := rest.decode_encodeInto_iff item hfs hr.2 hfresh (y := tail)
    refine bind_eq_ok.trans ?_
    constructor
    · rintro ⟨tail, htail, hpair⟩
      obtain ⟨htr, hyears⟩ := hr'.1 htail
      rw [← Except.ok.inj hpair, htr, hr.1]
      exact ⟨rfl, hyears⟩
    · rintro ⟨heq, hyears⟩
      rw [heq, hr.1]
      exact ⟨r, hr'.2 ⟨rfl, hyears⟩, rfl⟩

end

/-! ## What is read is read again -/

/-- Fields under distinct names make a record with its names apart, if the types of the fields have theirs. -/
theorem namesApart_fieldListOf :
    ∀ {fs : List (FieldPart FieldType)}, ((fs.filter fun f => !f.skip).map (·.name)).Nodup →
    (∀ f ∈ fs.filter fun f => !f.skip, f.type.namesApart = true) → (fieldListOf fs).namesApart = true
  | [], _, _ => rfl
  | f :: fs, hnames, htypes => by
    rw [fieldListOf]
    rw [List.filter_cons] at hnames htypes
    cases hskip : f.skip with
    | true =>
      rw [hskip] at hnames htypes
      exact namesApart_fieldListOf hnames htypes
    | false =>
      rw [hskip] at hnames htypes
      obtain ⟨hfresh, hnames⟩ := List.nodup_cons.1 hnames
      obtain ⟨htype, htypes⟩ := List.forall_mem_cons.1 htypes
      rw [← names_fieldListOf] at hfresh
      simp only [Bool.false_eq_true, if_false, FieldList.namesApart, hfresh, not_false_eq_true, decide_true, htype,
        namesApart_fieldListOf hnames htypes, Bool.and_self]

/-- **What is read and written back is read again, exactly if all of its moments are in years of four digits.**  So it
is with an attribute, whether it was there or not, into an item that has none of its name and be it nullable or not, and
with a record.  The records that definitions give have distinct names. -/
theorem what_is_read_is_read_again_iff (item : Item) :
    (∀ (t : FieldType) (name : String) (x : t.Val), t.namesApart = true → decodeAttribute t name item = .ok x →
      ∀ (nullable : Bool) (item' : Item), item'.get? name = none → ∀ y,
        decodeAttribute t name (encodeAttribute t name x nullable item') = .ok y ↔ y = x ∧ t.InYears x) ∧
    (∀ (r : RecordType) (x : r.Val), r.fields.namesApart = true → r.ofItem item = .ok x → ∀ y,
      r.ofItem (r.toItem x) = .ok y ↔ y = x ∧ r.fields.InYears x) ∧
    ∀ (d : Definition FieldType) (r : RecordParts FieldType) (x : r.recordType.Val), d.Gives r →
      (∀ f ∈ r.persisted, f.type.namesApart = true) → r.recordType.ofItem item = .ok x → ∀ y,
      r.recordType.ofItem (r.recordType.toItem x) = .ok y ↔ y = x ∧ r.recordType.fields.InYears x := by
  have hrecord : ∀ (r : RecordType) (x : r.Val), r.fields.namesApart = true → r.ofItem item = .ok x → ∀ y,
      r.ofItem (r.toItem x) = .ok y ↔ y = x ∧ r.fields.InYears x := fun r x hr hread _ =>
    r.fields.decode_encodeInto_iff [] hr (r.fields.settled_of_decode hread) fun _ _ => rfl
  refine ⟨fun t name x ht hread nullable item' hfresh y => ?_, hrecord, fun d r x hd htypes hread => ?_⟩
  · have hx : t.Settled x := by
      rcases readAttribute_eq_ok.1 hread with ⟨v, -, hv⟩ | ⟨-, habsent⟩
      · exact t.settled_of_decode hv
      · exact FieldType.settled_of_decodeAbsent habsent
    exact decodeAttribute_eq_ok_iff_of hx (t.decode_encode_iff ht hx) nullable hfresh
  · exact hrecord r.recordType x (namesApart_fieldListOf hd.names htypes) hread

/-- A visit as another program has stored it: a moment off universal time with too many decimals, nothing for a null,
and a room with a sign and zeros before it that comes twice. -/
def foreignVisit : Item :=
  [("answers", .list [.boolean true, .null]), ("at", .string "2024-01-14t20:30:00.0000000001-02:00"),
    ("rooms", .numberSet [⟨"+007", rfl⟩, .ofInt 7])]

/-- What is read from it. -/
def foreignVisitRead : visit.Val :=
  ({ Timestamp.epoch with minute := 28421190 }, some [some true, none], ⟨[⟨7, by decide⟩], by simp⟩, "", ())

/-- A customer whose name is given and whose address is not. -/
def foreignCustomer : Item := [("id", .string "C1"), ("name", .string "Ann"), ("visits", .number ⟨"+007", rfl⟩)]

/-- That visit, as a field of a record and as a record, and that customer. -/
theorem what_is_read_is_read_again_of_visits :
    (visit.type.namesApart = true ∧ decodeAttribute visit.type "visit" [("visit", .map foreignVisit)] =
      .ok foreignVisitRead ∧
      decodeAttribute visit.type "visit" (encodeAttribute visit.type "visit" foreignVisitRead true []) =
        .ok foreignVisitRead) ∧
    (visit.ofItem foreignVisit = .ok foreignVisitRead ∧
      visit.ofItem (visit.toItem foreignVisitRead) = .ok foreignVisitRead) ∧
    ∃ r, Samples.customerDefinition.Gives r ∧ (∀ f ∈ r.persisted, f.type.namesApart = true) ∧
      ∃ c, r.recordType.ofItem foreignCustomer = .ok c ∧ r.recordType.ofItem (r.recordType.toItem c) = .ok c := by
  have hyears : visit.fields.InYears foreignVisitRead :=
    ⟨(by decide : 0 ≤ foreignVisitRead.1.year ∧ foreignVisitRead.1.year ≤ 9999),
      fun _ _ _ _ _ _ => trivial, trivial, trivial⟩
  have hread : visit.ofItem foreignVisit = .ok foreignVisitRead := rfl
  have hnested : decodeAttribute visit.type "visit" [("visit", .map foreignVisit)] = .ok foreignVisitRead := rfl
  have hcustomer : ∃ r, Samples.customerDefinition.Gives r ∧ (∀ f ∈ r.persisted, f.type.namesApart = true) ∧
      ∃ c, r.recordType.ofItem foreignCustomer = .ok c ∧ r.recordType.fields.InYears c :=
    ⟨_, .inr ⟨_, rfl, rfl⟩, by decide, _, rfl, trivial, trivial, fun _ _ => trivial, trivial, trivial⟩
  obtain ⟨r, hr, htypes, c, hc, hcyears⟩ := hcustomer
  exact ⟨⟨rfl, hnested,
    ((what_is_read_is_read_again_iff _).1 visit.type "visit" _ rfl hnested true [] rfl _).2 ⟨rfl, hyears⟩⟩,
    ⟨hread, ((what_is_read_is_read_again_iff _).2.1 visit _ rfl hread _).2 ⟨rfl, hyears⟩⟩,
    r, hr, htypes, c, hc, ((what_is_read_is_read_again_iff _).2.2 _ r c hr htypes hc c).2 ⟨rfl, hcyears⟩⟩

/-- A moment of the last minute of the year 9999, a minute west of universal time, is read and is written with a year of
five digits, which is not read. -/
theorem last_minute_is_not_read_again :
    ∃ x, decodeAttribute .timestamp "at" [("at", .string "9999-12-31T23:59:59-00:01")] = .ok x ∧
      decodeAttribute .timestamp "at" (encodeAttribute .timestamp "at" x false []) =
        .error (.malformedAttribute "invalid timestamp '+10000-01-01T00:00:59Z'") :=
  ⟨⟨4223371680, 59, 0⟩, rfl, rfl⟩

end ItemStore
