import ItemStore.Proofs.Shape.Compilation
import ItemStore.Proofs.Store.Keys
/-!
# Keys of requests and keys in the store

The key that a request is built with holds the key attributes of its item and nothing else (`Descriptor.KeyOf`).  Where
two of them differ, a table may still take them for one: exactly when they differ in nothing but how their numbers are
written (`sameKey_iff_respells`).
-/
namespace ItemStore

open Outcome (bind_eq_ok)

/-! ## Keys of a shape -/

namespace Descriptor

variable {d : Descriptor}

/-- The key attributes of an item, each with a value of its kind. -/
structure KeyOf (d : Descriptor) (item key : Item) : Prop where
  sorted : Entries.Sorted key
  agrees : ∀ name ∈ d.key.names, key.get? name = item.get? name
  bare : ∀ name ∉ d.key.names, key.get? name = none
  typed : ∀ name ∈ d.key.names, ∃ v a, key.get? name = some v ∧ d.attribute? name = some a ∧
    a.kind.accepts v = true

/-- A key is its own key. -/
theorem KeyOf.self {item key : Item} (h : d.KeyOf item key) : d.KeyOf key key :=
  ⟨h.sorted, fun _ _ => rfl, h.bare, h.typed⟩

theorem checkKeyValue_eq_ok {name : String} {v : Value} :
    d.checkKeyValue name v = .ok () ↔ ∃ a, d.attribute? name = some a ∧ a.kind.accepts v = true := by
  unfold checkKeyValue requireAttribute
  rw [bind_eq_ok]
  cases d.attribute? name with
  | none => simp
  | some a => cases hkind : a.kind.accepts v <;> simp [hkind]

theorem keyOf_of_keyItem {k : PrimaryKey} {key : Item} (h : d.keyItem k = .ok key) : d.KeyOf key key := by
  unfold keyItem at h
  obtain ⟨_, hpartition, h⟩ := bind_eq_ok.1 h
  obtain ⟨a, ha, haccepts⟩ := checkKeyValue_eq_ok.1 hpartition
  have hsorted : Entries.Sorted (Entries.put [] d.key.partition k.partition) := Entries.sorted_put .nil _ _
  split at h
  · next name v hsort _ =>
    obtain ⟨_, hvalue, h⟩ := bind_eq_ok.1 h
    obtain ⟨b, hb, hbaccepts⟩ := checkKeyValue_eq_ok.1 hvalue
    cases h
    have hnames : d.key.names = [d.key.partition, name] := by rw [KeySchema.names, hsort]; rfl
    refine ⟨Entries.sorted_put hsorted _ _, fun _ _ => rfl, fun other hother => ?_, fun other hother => ?_⟩
    · rw [hnames, List.mem_cons, List.mem_singleton, not_or] at hother
      rw [Entries.get?_put_of_ne _ _ hother.2, Entries.get?_put_of_ne _ _ hother.1, Entries.get?_nil]
    · by_cases hname : other = name
      · rw [hname, Entries.get?_put_self]
        exact ⟨v, b, rfl, hb, hbaccepts⟩
      · rw [hnames, List.mem_cons, List.mem_singleton] at hother
        rw [Entries.get?_put_of_ne _ _ hname, hother.resolve_right hname, Entries.get?_put_self]
        exact ⟨k.partition, a, rfl, ha, haccepts⟩
  · cases h
  · cases h
  · next hsort _ =>
    cases h
    have hnames : d.key.names = [d.key.partition] := by rw [KeySchema.names, hsort]; rfl
    refine ⟨hsorted, fun _ _ => rfl, fun other hother => ?_, fun other hother => ?_⟩
    · rw [hnames, List.mem_singleton] at hother
      rw [Entries.get?_put_of_ne _ _ hother, Entries.get?_nil]
    · rw [hnames, List.mem_singleton] at hother
      rw [hother, Entries.get?_put_self]
      exact ⟨k.partition, a, rfl, ha, haccepts⟩

theorem takeKey_spec {item : Item} : ∀ {names : List String} {key out : Item}, Entries.Sorted key →
    d.takeKey item key names = .ok out → Entries.Sorted out ∧
      (∀ name ∈ names, out.get? name = item.get? name ∧
        ∃ v a, out.get? name = some v ∧ d.attribute? name = some a ∧ a.kind.accepts v = true) ∧
      ∀ name ∉ names, out.get? name = key.get? name
  | [], key, out, hsorted, h => by
    cases h
    exact ⟨hsorted, fun _ hname => absurd hname List.not_mem_nil, fun _ _ => rfl⟩
  | name :: names, key, out, hsorted, h => by
    rw [takeKey] at h
    split at h
    · cases h
    · next v hvalue =>
      obtain ⟨_, hcheck, h⟩ := bind_eq_ok.1 h
      obtain ⟨a, ha, haccepts⟩ := checkKeyValue_eq_ok.1 hcheck
      obtain ⟨hout, htaken, hkept⟩ := takeKey_spec (Entries.sorted_put hsorted name v) h
      refine ⟨hout, fun other hother => ?_, fun other hother => ?_⟩
      · by_cases hlater : other ∈ names
        · exact htaken other hlater
        · obtain rfl : other = name := (List.mem_cons.1 hother).resolve_right hlater
          rw [hkept other hlater, Entries.get?_put_self, hvalue]
          exact ⟨rfl, v, a, rfl, ha, haccepts⟩
      · rw [List.mem_cons, not_or] at hother
        rw [hkept other hother.2, Entries.get?_put_of_ne _ _ hother.1]

theorem keyOf_of_keyOfItem {item key : Item} (h : d.keyOfItem item = .ok key) : d.KeyOf item key := by
  obtain ⟨hsorted, htaken, hkept⟩ := takeKey_spec .nil h
  exact ⟨hsorted, fun name hname => (htaken name hname).1, fun name hname => hkept name hname,
    fun name hname => (htaken name hname).2⟩

end Descriptor

/-! ## Being one key to the store -/

/-- A value of a scalar kind is a scalar. -/
theorem Kind.isScalar_of_accepts {k : Kind} {v : Value} (hk : k.isKeyScalar = true) (h : k.accepts v = true) :
    v.IsScalar := by
  cases k with
  | string => cases v <;> first | exact .inl rfl | cases h
  | number => cases v <;> first | exact .inr (.inl rfl) | cases h
  | binary => cases v <;> first | exact .inr (.inr rfl) | cases h
  | _ => cases hk

/-- The two have the same key but for the spelling of numbers, and some number is spelled in two ways. -/
def KeySchema.Respells (k : KeySchema) (x y : Item) : Prop :=
  (∀ name ∈ k.names, x.get? name = y.get? name ∨ Value.Respelled (x.get? name) (y.get? name)) ∧
    ∃ name ∈ k.names, x.get? name ≠ y.get? name

namespace Descriptor

variable {d : Descriptor} {item key : Item}

/-- The shape has come out of a declaration. -/
def Compiled (d : Descriptor) : Prop := ∃ decl : Declaration, decl.compile = .ok d

theorem KeyOf.scalar (h : d.KeyOf item key) (hd : d.Compiled) {name : String} (hname : name ∈ d.key.names) :
    ∃ v, key.get? name = some v ∧ item.get? name = some v ∧ v.IsScalar := by
  obtain ⟨decl, hdecl⟩ := hd
  obtain ⟨v, a, hv, ha, haccepts⟩ := h.typed name hname
  obtain ⟨b, hb, hfits⟩ := (Declaration.compile_eq_ok_iff.1 hdecl).exists_keyAttribute hname
  obtain rfl : a = b := Option.some.inj (ha.symm.trans hb)
  exact ⟨v, hv, (h.agrees name hname).symm.trans hv, Kind.isScalar_of_accepts hfits.scalar haccepts⟩

/-- **Items with different keys are one to the store exactly when their keys are respelled.** -/
theorem sameKey_iff_respells {d' : Descriptor} {item' key' : Item} {t : Table} (hd : d.Compiled) (hd' : d'.Compiled)
    (hkey : d.key = t.key) (hkey' : d'.key = t.key) (h : d.KeyOf item key) (h' : d'.KeyOf item' key')
    (hne : key ≠ key') : t.sameKey item item' = true ↔ t.key.Respells item item' := by
  have hlevel : ∀ name ∈ t.key.names, Value.attributeOrder (item.get? name) (item'.get? name) = .eq ↔
      item.get? name = item'.get? name ∨ Value.Respelled (item.get? name) (item'.get? name) := by
    intro name hname
    obtain ⟨v, -, hv, hscalar⟩ := h.scalar hd (hkey ▸ hname)
    obtain ⟨w, -, hw, hscalar'⟩ := h'.scalar hd' (hkey' ▸ hname)
    rw [hv, hw]
    exact Value.attributeOrder_eq_iff hscalar hscalar'
  have hdiffer : ∃ name ∈ t.key.names, item.get? name ≠ item'.get? name := by
    by_contra hsame
    push Not at hsame
    refine hne (Entries.eq_of_get?_eq h.sorted h'.sorted fun name => ?_)
    by_cases hname : name ∈ t.key.names
    · rw [h.agrees name (hkey ▸ hname), h'.agrees name (hkey' ▸ hname), hsame name hname]
    · rw [h.bare name (hkey ▸ hname), h'.bare name (hkey' ▸ hname)]
  rw [Table.sameKey_iff, itemOrder_eq_iff]
  constructor
  · intro hsame
    exact ⟨fun name hname => (hlevel name hname).1 (hsame name hname), hdiffer⟩
  · rintro ⟨hrespelled, -⟩ name hname
    exact (hlevel name hname).2 (hrespelled name hname)

end Descriptor
end ItemStore
