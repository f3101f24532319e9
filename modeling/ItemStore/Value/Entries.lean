/-!
# Named entries

An item, and a map inside one, is a list of named entries in strictly increasing order of
names.  `put` and `remove` keep that order, so two lists built by them hold the same
entries exactly when they are equal, and `get?` after each of them is the law of a finite
map.
-/
namespace ItemStore

abbrev Entries (α : Type) := List (String × α)

namespace Entries

variable {α : Type}

def get? : Entries α → String → Option α
  | [], _ => none
  | (other, a) :: rest, name => if name = other then some a else get? rest name

def has (es : Entries α) (name : String) : Bool := (es.get? name).isSome

/-- Writes one entry at its place, over the entry of that name if there is one. -/
def put : Entries α → String → α → Entries α
  | [], name, a => [(name, a)]
  | (other, b) :: rest, name, a =>
    if name = other then (name, a) :: rest
    else if name < other then (name, a) :: (other, b) :: rest
    else (other, b) :: put rest name a

def remove : Entries α → String → Entries α
  | [], _ => []
  | (other, a) :: rest, name =>
    if name = other then remove rest name else (other, a) :: remove rest name

/-- Of two entries with one name the later counts. -/
def ofList (es : List (String × α)) : Entries α := es.foldl (fun acc e => put acc e.1 e.2) []

/-- The entries with these names only. -/
def restrict (es : Entries α) (names : List String) : Entries α := es.filter fun e => e.1 ∈ names

/-! ## What each operation does to `get?` -/

@[simp] theorem get?_nil (name : String) : get? ([] : Entries α) name = none := rfl

@[simp] theorem get?_put_self : ∀ (es : Entries α) (name : String) (a : α),
    get? (put es name a) name = some a
  | [], name, a => by simp [put, get?]
  | (other, b) :: rest, name, a => by
    by_cases h : name = other
    · simp [put, h, get?]
    · by_cases hlt : name < other
      · simp [put, h, hlt, get?]
      · simp [put, h, hlt, get?, get?_put_self rest name a]

theorem get?_put_of_ne : ∀ (es : Entries α) {name other : String} (a : α), other ≠ name →
    get? (put es name a) other = get? es other
  | [], name, other, a, h => by simp [put, get?, h]
  | (key, b) :: rest, name, other, a, h => by
    by_cases hk : name = key
    · subst hk; simp [put, get?, h]
    · by_cases hlt : name < key
      · simp [put, hk, hlt, get?, h]
      · simp [put, hk, hlt, get?, get?_put_of_ne rest a h]

@[simp] theorem get?_remove_self : ∀ (es : Entries α) (name : String),
    get? (remove es name) name = none
  | [], _ => rfl
  | (key, b) :: rest, name => by
    by_cases hk : name = key
    · simp [remove, hk, get?_remove_self rest]
    · simp [remove, hk, get?, get?_remove_self rest]

theorem get?_remove_of_ne : ∀ (es : Entries α) {name other : String}, other ≠ name →
    get? (remove es name) other = get? es other
  | [], _, _, _ => rfl
  | (key, b) :: rest, name, other, h => by
    by_cases hk : name = key
    · subst hk; simp [remove, get?, h, get?_remove_of_ne rest h]
    · simp [remove, hk, get?, get?_remove_of_ne rest h]

/-! ## The order of names -/

/-- Names increase strictly, so each stands once. -/
def Sorted (es : Entries α) : Prop := es.Pairwise fun a b => a.1 < b.1

theorem mem_put : ∀ {es : Entries α} {name : String} {a : α} {e : String × α},
    e ∈ put es name a → e = (name, a) ∨ e ∈ es
  | [], _, _, _, h => by simpa [put] using h
  | (key, b) :: rest, name, a, e, h => by
    by_cases hk : name = key
    · simp only [put, hk, if_true, List.mem_cons] at h ⊢
      exact h.imp id Or.inr
    · by_cases hlt : name < key
      · simpa [put, hk, hlt] using h
      · simp only [put, hk, hlt, if_false, List.mem_cons] at h ⊢
        exact h.elim (fun he => .inr (.inl he)) fun hm => (mem_put hm).imp id .inr

theorem sorted_put : ∀ {es : Entries α}, Sorted es → ∀ (name : String) (a : α),
    Sorted (put es name a)
  | [], _, name, a => List.pairwise_singleton _ _
  | (key, b) :: rest, h, name, a => by
    have ⟨hhead, htail⟩ := List.pairwise_cons.1 h
    by_cases hk : name = key
    · subst hk
      simp only [put, if_true]
      exact List.pairwise_cons.2 ⟨hhead, htail⟩
    · by_cases hlt : name < key
      · simp only [put, hk, hlt, if_false, if_true]
        refine List.pairwise_cons.2 ⟨fun e he => ?_, h⟩
        rcases List.mem_cons.1 he with rfl | he
        · exact hlt
        · exact String.lt_trans hlt (hhead e he)
      · simp only [put, hk, hlt, if_false]
        refine List.pairwise_cons.2 ⟨fun e he => ?_, sorted_put htail name a⟩
        rcases mem_put he with rfl | he
        · exact Decidable.byContradiction fun hn =>
            hk (String.le_antisymm (String.not_lt.1 hn) (String.not_lt.1 hlt))
        · exact hhead e he

theorem sorted_foldl_put (es : List (String × α)) : ∀ {acc : Entries α}, Sorted acc →
    Sorted (es.foldl (fun acc e => put acc e.1 e.2) acc) := by
  induction es with
  | nil => exact fun h => h
  | cons e rest ih => exact fun h => ih (sorted_put h e.1 e.2)

theorem sorted_ofList (es : List (String × α)) : Sorted (ofList es) :=
  sorted_foldl_put es List.Pairwise.nil

end Entries

/-- A finite map from names. -/
structure Named (α : Type) where
  entries : Entries α
  sorted : entries.Sorted

namespace Named

def empty {α : Type} : Named α := ⟨[], List.Pairwise.nil⟩

def ofList {α : Type} (es : List (String × α)) : Named α := ⟨Entries.ofList es, Entries.sorted_ofList es⟩

end Named
end ItemStore
