import ItemStore.Proofs.Text.Base64
import ItemStore.Proofs.Text.Json
import ItemStore.Proofs.Value.Entries
import ItemStore.Value.Written
/-!
# Values there and back

A map has no order, so a value may be written with the entries of its maps in any (`Value.Listing`).  However they are
listed, what is written is read as the value, with all of them in order (`Value.ofJson?_toJson`).
-/
namespace ItemStore

/-! ## Values in order, and listed in any -/

namespace Value

mutual

/-- The entries of maps are in order of their names, at every level. -/
def Orderly : Value → Prop
  | list xs => OrderlyAll xs
  | map es => Entries.Sorted es ∧ OrderlyEach es
  | string _ | number _ | binary _ | boolean _ | null | stringSet _ | numberSet _ | binarySet _ => True

def OrderlyAll : List Value → Prop
  | [] => True
  | x :: xs => Orderly x ∧ OrderlyAll xs

def OrderlyEach : List (String × Value) → Prop
  | [] => True
  | (_, x) :: es => Orderly x ∧ OrderlyEach es

end

mutual

/-- The second value is the first with the entries of its maps, at every level, listed in some order. -/
inductive Listing : Value → Value → Prop where
  | plain {v : Value} : v.wireType ≠ .list → v.wireType ≠ .map → Listing v v
  | list {xs ys : List Value} : ListingAll xs ys → Listing (.list xs) (.list ys)
  | map {es fs gs : List (String × Value)} : es.Perm fs → ListingEach fs gs → Listing (.map es) (.map gs)

inductive ListingAll : List Value → List Value → Prop where
  | nil : ListingAll [] []
  | cons {x y : Value} {xs ys : List Value} : Listing x y → ListingAll xs ys → ListingAll (x :: xs) (y :: ys)

inductive ListingEach : List (String × Value) → List (String × Value) → Prop where
  | nil : ListingEach [] []
  | cons {name : String} {x y : Value} {es fs : List (String × Value)} : Listing x y → ListingEach es fs →
      ListingEach ((name, x) :: es) ((name, y) :: fs)

end

theorem orderlyEach_iff : ∀ {es : List (String × Value)}, OrderlyEach es ↔ ∀ e ∈ es, e.2.Orderly
  | [] => iff_of_true trivial (List.forall_mem_nil _)
  | (_, x) :: es => by
    rw [List.forall_mem_cons, ← orderlyEach_iff]
    rfl

end Value

/-- The entries of the item are in order, and so are those of the maps in it. -/
def Item.Orderly (item : Item) : Prop := Value.Orderly (.map item)

/-- The entries of the item are listed in some order, and so are those of the maps in it. -/
def Item.Listing (item listed : Item) : Prop := Value.Listing (.map item) (.map listed)

theorem Numeral.parse_text (n : Numeral) : Numeral.parse n.text = .ok n := by
  unfold Numeral.parse
  split
  · next h =>
    have := n.valid
    rw [h] at this
    cases this
  · next p h =>
    have := n.valid
    rw [h, Option.any_some] at this
    rw [dif_pos this]

namespace Value

/-! ## What is written is text -/

theorem textualAll_map_str {α : Type} (f : α → String) : ∀ as : List α, Json.TextualAll (as.map fun a => .str (f a))
  | [] => trivial
  | _ :: as => ⟨trivial, textualAll_map_str f as⟩

mutual

theorem textual_toJson : ∀ v : Value, v.toJson.Textual
  | string _ | number _ | binary _ | boolean _ | null => ⟨trivial, trivial⟩
  | stringSet xs => ⟨textualAll_map_str id xs, trivial⟩
  | numberSet xs => ⟨textualAll_map_str Numeral.text xs, trivial⟩
  | binarySet xs => ⟨textualAll_map_str (fun b => String.ofList (Text.Base64.standard.encode b)) xs, trivial⟩
  | list xs => ⟨textual_toJsonList xs, trivial⟩
  | map es => ⟨textual_toJsonEntries es, trivial⟩

theorem textual_toJsonList : ∀ xs : List Value, Json.TextualAll (toJsonList xs)
  | [] => trivial
  | x :: xs => ⟨textual_toJson x, textual_toJsonList xs⟩

theorem textual_toJsonEntries : ∀ es : List (String × Value), Json.TextualMembers (toJsonEntries es)
  | [] => trivial
  | (_, x) :: es => ⟨textual_toJson x, textual_toJsonEntries es⟩

end

/-! ## Reading what has been written -/

theorem mapM_map_of_eq_some {α β : Type} {f : α → β} {g : β → Option α} (h : ∀ a, g (f a) = some a)
    (as : List α) : (as.map f).mapM g = some as := by
  have hcomp : g ∘ f = fun a => pure a := funext h
  rw [List.mapM_map, hcomp, List.mapM_pure, List.map_id']
  rfl

theorem readNumeral?_text (n : Numeral) : readNumeral? (.str n.text) = some n := by
  rw [readNumeral?, n.parse_text]
  rfl

theorem readBytes?_encode (b : Bytes) : readBytes? (.str (String.ofList (Text.Base64.standard.encode b))) = some b := by
  rw [readBytes?, String.toList_ofList, Text.Base64.decode?_encode Text.Base64.lawful_standard]

mutual

/-- **However the entries of a value's maps are listed, what is written is read as the value.** -/
theorem ofJson?_toJson : ∀ {v : Value} (w : Value), v.Orderly → Listing v w → ofJson? w.toJson = some v
  | _, string _, _, .plain _ _ | _, boolean _, _, .plain _ _ | _, null, _, .plain _ _ => rfl
  | _, number n, _, .plain _ _ => congrArg (Option.map number) (readNumeral?_text n)
  | _, binary b, _, .plain _ _ => congrArg (Option.map binary) (readBytes?_encode b)
  | _, stringSet xs, _, .plain _ _ =>
    congrArg (Option.map stringSet) (mapM_map_of_eq_some (f := Json.str) (g := readString?) (fun _ => rfl) xs)
  | _, numberSet xs, _, .plain _ _ => congrArg (Option.map numberSet) (mapM_map_of_eq_some readNumeral?_text xs)
  | _, binarySet xs, _, .plain _ _ => congrArg (Option.map binarySet) (mapM_map_of_eq_some readBytes?_encode xs)
  | _, list ys, hv, h => by
    cases h with
    | plain hlist _ => exact absurd rfl hlist
    | list hxs => exact congrArg (Option.map list) (ofJsonList?_toJsonList ys hv hxs)
  | _, map gs, hv, h => by
    cases h with
    | plain _ hmap => exact absurd rfl hmap
    | @map es fs _ hperm heach =>
      have hfs : OrderlyEach fs := orderlyEach_iff.2 fun e he => orderlyEach_iff.1 hv.2 e (hperm.mem_iff.2 he)
      show (ofJsonMembers? (toJsonEntries gs)).map _ = _
      rw [ofJsonMembers?_toJsonEntries gs hfs heach, Option.map_some, Entries.ofList_of_perm hv.1 hperm]

theorem ofJsonList?_toJsonList : ∀ {xs : List Value} (ys : List Value), OrderlyAll xs → ListingAll xs ys →
    ofJsonList? (toJsonList ys) = some xs
  | _, [], _, .nil => rfl
  | _, y :: ys, hv, h => by
    cases h with
    | cons hx hxs =>
      rw [toJsonList, ofJsonList?, ofJson?_toJson y hv.1 hx, ofJsonList?_toJsonList ys hv.2 hxs]
      rfl

theorem ofJsonMembers?_toJsonEntries : ∀ {es : List (String × Value)} (fs : List (String × Value)), OrderlyEach es →
    ListingEach es fs → ofJsonMembers? (toJsonEntries fs) = some es
  | _, [], _, .nil => rfl
  | _, (name, y) :: fs, hv, h => by
    cases h with
    | cons hx hes =>
      rw [toJsonEntries, ofJsonMembers?, ofJson?_toJson y hv.1 hx, ofJsonMembers?_toJsonEntries fs hv.2 hes]
      rfl

end

end Value

theorem Item.ofJson?_toJson {item listed : Item} (hitem : item.Orderly) (h : item.Listing listed) :
    ofJson? (toJson listed) = some item := by
  have hread : (Value.ofJsonMembers? (Value.toJsonEntries listed)).map (fun es => Value.map (Entries.ofList es)) =
      some (.map item) := Value.ofJson?_toJson _ hitem h
  obtain ⟨es, hes, heq⟩ := Option.map_eq_some_iff.1 hread
  cases heq
  exact congrArg (Option.map Entries.ofList) hes

end ItemStore
