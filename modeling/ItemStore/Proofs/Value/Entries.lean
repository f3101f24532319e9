import ItemStore.Value.Entries
/-!
# Entries as finite maps

Entries in order are told apart by what they hold under each name (`eq_of_get?_eq`), so that an equation between items
needs no more than the laws of `get?`.
-/
namespace ItemStore
namespace Entries

variable {α : Type}

instance (es : Entries α) : Decidable es.Sorted := inferInstanceAs (Decidable (List.Pairwise _ es))

theorem get?_eq_none_of_lt : ∀ {es : Entries α} {name : String}, (∀ e ∈ es, name < e.1) → es.get? name = none
  | [], _, _ => rfl
  | (other, a) :: rest, name, h => by
    have hlt : name < other := h _ List.mem_cons_self
    have hne : name ≠ other := fun he => String.lt_irrefl other (he ▸ hlt)
    rw [get?, if_neg hne]
    exact get?_eq_none_of_lt fun e he => h e (List.mem_cons_of_mem _ he)

theorem get?_cons_of_lt {es : Entries α} {name other : String} {a : α} (hlt : name < other)
    (h : ∀ e ∈ es, other < e.1) : get? ((other, a) :: es) name = none :=
  get?_eq_none_of_lt fun e he => by
    rcases List.mem_cons.1 he with rfl | he
    · exact hlt
    · exact String.lt_trans hlt (h e he)

theorem get?_cons_self (es : Entries α) (name : String) (a : α) : get? ((name, a) :: es) name = some a := by
  rw [get?, if_pos rfl]

/-- **Entries in order that hold the same under every name are the same.** -/
theorem eq_of_get?_eq :
    ∀ {es fs : Entries α}, es.Sorted → fs.Sorted → (∀ name, es.get? name = fs.get? name) → es = fs
  | [], [], _, _, _ => rfl
  | [], (n, b) :: fs, _, _, h => by
    have := h n
    rw [get?_cons_self] at this
    cases this
  | (m, a) :: es, [], _, _, h => by
    have := h m
    rw [get?_cons_self] at this
    cases this
  | (m, a) :: es, (n, b) :: fs, hs, ht, h => by
    obtain ⟨hhead, htail⟩ := List.pairwise_cons.1 hs
    obtain ⟨hhead', htail'⟩ := List.pairwise_cons.1 ht
    have hmn : ¬m < n := fun hlt => by
      have := h m
      rw [get?_cons_self, get?_cons_of_lt hlt hhead'] at this
      cases this
    have hnm : ¬n < m := fun hlt => by
      have := h n
      rw [get?_cons_self, get?_cons_of_lt hlt hhead] at this
      cases this
    obtain rfl : m = n := String.le_antisymm (String.not_lt.1 hnm) (String.not_lt.1 hmn)
    have hab := h m
    rw [get?_cons_self, get?_cons_self] at hab
    cases hab
    have hrest : es = fs := eq_of_get?_eq htail htail' fun name => by
      by_cases hname : name = m
      · rw [hname, get?_eq_none_of_lt hhead, get?_eq_none_of_lt hhead']
      · have := h name
        rwa [get?, get?, if_neg hname, if_neg hname] at this
    rw [hrest]

theorem get?_put_comm (es : Entries α) {m n : String} (hne : m ≠ n) (a b : α) (name : String) :
    ((es.put m a).put n b).get? name = ((es.put n b).put m a).get? name := by
  by_cases hm : name = m
  · rw [hm, get?_put_of_ne _ b hne, get?_put_self, get?_put_self]
  · by_cases hn : name = n
    · rw [hn, get?_put_self, get?_put_of_ne _ a hne.symm, get?_put_self]
    · rw [get?_put_of_ne _ b hn, get?_put_of_ne _ a hm, get?_put_of_ne _ a hm, get?_put_of_ne _ b hn]

/-- In entries in order, an entry is what is found under its name. -/
theorem mem_iff_get? : ∀ {es : Entries α}, es.Sorted → ∀ {name : String} {a : α}, (name, a) ∈ es ↔
    es.get? name = some a
  | [], _, _, _ => by simp
  | (other, b) :: rest, h, name, a => by
    obtain ⟨hhead, htail⟩ := List.pairwise_cons.1 h
    rw [List.mem_cons, get?]
    split
    · next heq =>
      subst heq
      have hfresh : (name, a) ∉ rest := fun hmem => String.lt_irrefl name (hhead _ hmem)
      simp [hfresh, eq_comm]
    · next hne =>
      rw [← mem_iff_get? htail]
      simp [hne]

/-! ## Entries from lists -/

/-- An entry with a greater name than all others is put at the end. -/
theorem put_of_lt : ∀ {es : Entries α} {name : String} (a : α), (∀ e ∈ es, e.1 < name) →
    es.put name a = es ++ [(name, a)]
  | [], _, _, _ => rfl
  | (other, b) :: rest, name, a, h => by
    obtain ⟨hother, hrest⟩ := List.forall_mem_cons.1 h
    have hne : name ≠ other := fun he => String.lt_irrefl other (he ▸ hother)
    have hnlt : ¬name < other := fun hlt => String.lt_irrefl other (String.lt_trans hother hlt)
    rw [put, if_neg hne, if_neg hnlt, put_of_lt a hrest, List.cons_append]

theorem foldl_put_of_sorted : ∀ {es acc : Entries α}, (acc ++ es).Sorted →
    es.foldl (fun acc e => acc.put e.1 e.2) acc = acc ++ es
  | [], acc, _ => (List.append_nil acc).symm
  | e :: es, acc, h => by
    have hlast : ∀ e' ∈ acc, e'.1 < e.1 := fun e' he' => (List.pairwise_append.1 h).2.2 e' he' e List.mem_cons_self
    have happend : acc ++ e :: es = acc ++ [(e.1, e.2)] ++ es := List.append_cons acc e es
    rw [List.foldl_cons, put_of_lt e.2 hlast, happend]
    exact foldl_put_of_sorted (happend ▸ h)

/-- Entries in order are what a list of them is made into. -/
theorem ofList_of_sorted {es : Entries α} (h : es.Sorted) : ofList es = es := foldl_put_of_sorted h

theorem put_perm_of_absent : ∀ {es : Entries α} {name : String} (a : α), (∀ e ∈ es, e.1 ≠ name) →
    (es.put name a).Perm ((name, a) :: es)
  | [], _, _, _ => .refl _
  | (other, b) :: rest, name, a, h => by
    obtain ⟨hother, hrest⟩ := List.forall_mem_cons.1 h
    rw [put, if_neg (Ne.symm hother)]
    split
    · exact .refl _
    · exact ((put_perm_of_absent a hrest).cons _).trans (.swap ..)

theorem foldl_put_perm : ∀ {es acc : Entries α}, (es ++ acc).Pairwise (fun a b => a.1 ≠ b.1) →
    (es.foldl (fun acc e => acc.put e.1 e.2) acc).Perm (es ++ acc)
  | [], _, _ => .refl _
  | (name, a) :: es, acc, h => by
    obtain ⟨hhead, htail⟩ := List.pairwise_cons.1 h
    -- the name is new each time, so that nothing is put over anything
    have hput : (acc.put name a).Perm ((name, a) :: acc) :=
      put_perm_of_absent a fun e he => (hhead e (List.mem_append_right es he)).symm
    have hmove : (es ++ acc.put name a).Perm ((name, a) :: (es ++ acc)) :=
      (hput.append_left es).trans List.perm_middle
    have hdistinct : (es ++ acc.put name a).Pairwise fun a b => a.1 ≠ b.1 :=
      (hmove.pairwise_iff fun hne => hne.symm).2 h
    exact (foldl_put_perm hdistinct).trans hmove

theorem Sorted.names_ne {es : Entries α} (h : es.Sorted) : es.Pairwise fun a b => a.1 ≠ b.1 :=
  h.imp fun hlt => String.ne_of_lt hlt

/-- **Entries in order are what any listing of them is made into.** -/
theorem ofList_of_perm {es fs : Entries α} (h : es.Sorted) (hperm : es.Perm fs) : ofList fs = es := by
  have happend : (fs ++ []).Perm es := by rwa [List.append_nil, List.perm_comm]
  have hdistinct : (fs ++ []).Pairwise fun a b : String × α => a.1 ≠ b.1 :=
    (happend.pairwise_iff fun hne => hne.symm).2 h.names_ne
  have hlisted : (ofList fs).Perm es := (foldl_put_perm hdistinct).trans happend
  have hantisymm : ∀ a b : String × α, a.1 < b.1 → b.1 < a.1 → a = b := fun a b hab hba =>
    absurd (String.lt_trans hab hba) (String.lt_irrefl _)
  exact hlisted.eq_of_pairwise (fun a b _ _ => hantisymm a b) (sorted_ofList fs) h

theorem mem_foldl_put : ∀ {es acc : Entries α} {e : String × α}, e ∈ es.foldl (fun acc e => acc.put e.1 e.2) acc →
    e ∈ es ∨ e ∈ acc
  | [], _, _, h => .inr h
  | e' :: es, acc, e, h => by
    rw [List.foldl_cons] at h
    rcases mem_foldl_put h with h | h
    · exact .inl (List.mem_cons_of_mem e' h)
    · rcases mem_put h with rfl | h
      · exact .inl List.mem_cons_self
      · exact .inr h

theorem mem_ofList {es : Entries α} {e : String × α} (h : e ∈ ofList es) : e ∈ es :=
  (mem_foldl_put h).resolve_right List.not_mem_nil

/-! ## Taking entries out -/

theorem mem_of_mem_remove : ∀ {es : Entries α} {name : String} {e : String × α}, e ∈ es.remove name → e ∈ es
  | [], _, _, h => h
  | (other, a) :: rest, name, e, h => by
    rw [remove] at h
    split at h
    · exact List.mem_cons_of_mem _ (mem_of_mem_remove h)
    · rcases List.mem_cons.1 h with rfl | h
      · exact List.mem_cons_self
      · exact List.mem_cons_of_mem _ (mem_of_mem_remove h)

theorem sorted_remove : ∀ {es : Entries α}, es.Sorted → ∀ name : String, (es.remove name).Sorted
  | [], _, _ => List.Pairwise.nil
  | (other, a) :: rest, h, name => by
    obtain ⟨hhead, htail⟩ := List.pairwise_cons.1 h
    rw [remove]
    split
    · exact sorted_remove htail name
    · exact List.pairwise_cons.2 ⟨fun e he => hhead e (mem_of_mem_remove he), sorted_remove htail name⟩

/-- Nothing goes with a name that is not there. -/
theorem remove_of_absent : ∀ {es : Entries α} {name : String}, es.get? name = none → es.remove name = es
  | [], _, _ => rfl
  | (other, a) :: rest, name, h => by
    rw [get?] at h
    split at h
    · cases h
    · next hne => rw [remove, if_neg hne, remove_of_absent h]

/-! ## Some of the names only -/

theorem get?_restrict {names : List String} {name : String} (h : name ∈ names) : ∀ es : Entries α,
    (es.restrict names).get? name = es.get? name
  | [] => rfl
  | (other, a) :: rest => by
    have ih := get?_restrict h rest
    unfold restrict at ih ⊢
    rw [List.filter_cons]
    split
    · rw [get?, get?, ih]
    · next hother =>
      have hne : name ≠ other := fun he => hother (decide_eq_true (he ▸ h))
      rw [get?, if_neg hne, ih]

end Entries

namespace Named

variable {α β : Type}

/-- The same names with other values. -/
def map (f : α → β) (m : Named α) : Named β where
  entries := m.entries.map fun e => (e.1, f e.2)
  sorted := List.pairwise_map.2 (m.sorted.imp id)

theorem map_id (m : Named α) : map id m = m := by
  obtain ⟨entries, sorted⟩ := m
  unfold map
  congr 1
  exact List.map_id entries

theorem ofList_entries (m : Named α) : ofList m.entries = m := by
  obtain ⟨entries, sorted⟩ := m
  unfold ofList
  congr 1
  exact Entries.ofList_of_sorted sorted

end Named
end ItemStore
