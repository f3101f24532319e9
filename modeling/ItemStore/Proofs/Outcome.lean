/-!
# Steps that may fail

When a chain of steps ends well, each of its steps has ended well.
-/
namespace ItemStore
namespace Outcome

variable {ε ε' α β : Type}

theorem bind_eq_ok {x : Except ε α} {f : α → Except ε β} {b : β} :
    (x >>= f) = .ok b ↔ ∃ a, x = .ok a ∧ f a = .ok b := by
  cases x with
  | error e =>
    constructor
    · intro h
      cases h
    · rintro ⟨a, ha, _⟩
      cases ha
  | ok a =>
    constructor
    · intro h
      exact ⟨a, rfl, h⟩
    · rintro ⟨a', ha, h⟩
      cases ha
      exact h

theorem bind_ok (x : Except ε α) : (x >>= Except.ok) = x := bind_pure x

theorem map_eq_ok {x : Except ε α} {f : α → β} {b : β} : x.map f = .ok b ↔ ∃ a, x = .ok a ∧ f a = b := by
  cases x with
  | error e =>
    constructor
    · intro h
      cases h
    · rintro ⟨a, ha, -⟩
      cases ha
  | ok a =>
    constructor
    · intro h
      cases h
      exact ⟨a, rfl, rfl⟩
    · rintro ⟨a', ha, rfl⟩
      cases ha
      rfl

theorem mapError_eq_ok {x : Except ε α} {g : ε → ε'} {a : α} : x.mapError g = .ok a ↔ x = .ok a := by
  cases x with
  | error e =>
    constructor
    · intro h
      cases h
    · intro h
      cases h
  | ok b =>
    constructor
    · intro h
      cases h
      rfl
    · intro h
      cases h
      rfl

theorem bind_eq_error {x : Except ε α} {f : α → Except ε β} {e : ε} :
    (x >>= f) = .error e ↔ x = .error e ∨ ∃ a, x = .ok a ∧ f a = .error e := by
  cases x with
  | error e' =>
    constructor
    · intro h
      cases h
      exact .inl rfl
    · rintro (h | ⟨a, ha, -⟩)
      · cases h
        rfl
      · cases ha
  | ok a =>
    constructor
    · intro h
      exact .inr ⟨a, rfl, h⟩
    · rintro (h | ⟨a', ha, h⟩)
      · cases h
      · cases ha
        exact h

theorem mapError_eq_error {x : Except ε α} {g : ε → ε'} {e : ε'} :
    x.mapError g = .error e ↔ ∃ e', x = .error e' ∧ g e' = e := by
  cases x with
  | error e' =>
    constructor
    · intro h
      cases h
      exact ⟨e', rfl, rfl⟩
    · rintro ⟨_, h, rfl⟩
      cases h
      rfl
  | ok a =>
    constructor
    · intro h
      cases h
    · rintro ⟨_, h, -⟩
      cases h

theorem map_eq_error {x : Except ε α} {f : α → β} {e : ε} : x.map f = .error e ↔ x = .error e := by
  cases x <;> simp [Except.map]

theorem guard_eq_ok {p : Prop} [Decidable p] {x : Except ε α} {fault : ε} {a : α} :
    (if p then x else .error fault) = .ok a ↔ p ∧ x = .ok a := by
  split <;> simp [*]

theorem refused_eq_ok {p : Prop} [Decidable p] {x : Except ε α} {fault : ε} {a : α} :
    (if p then .error fault else x) = .ok a ↔ ¬p ∧ x = .ok a := by
  split <;> simp [*]

/-- A check has nothing to give but that it went through. -/
theorem exists_check {x : Except ε Unit} {q : Prop} : (∃ u, x = .ok u ∧ q) ↔ x = .ok () ∧ q := by
  constructor
  · rintro ⟨_, h⟩
    exact h
  · exact fun h => ⟨(), h⟩

theorem toOption_eq_some {x : Except ε α} {a : α} : x.toOption = some a ↔ x = .ok a := by
  cases x <;> simp [Except.toOption]

theorem isSome_toOption_iff {x : Except ε α} : x.toOption.isSome = true ↔ ∃ a, x = .ok a := by
  cases x <;> simp [Except.toOption]

theorem not_exists_ok (e : ε) : ¬∃ a, (.error e : Except ε α) = .ok a := by
  rintro ⟨a, h⟩
  cases h

/-! ## Lists that go through step by step -/

theorem mapM_cons_eq_ok {f : α → Except ε β} {x : α} {xs : List α} {ys : List β} :
    (x :: xs).mapM f = .ok ys ↔ ∃ y rest, f x = .ok y ∧ xs.mapM f = .ok rest ∧ ys = y :: rest := by
  rw [List.mapM_cons, bind_eq_ok]
  constructor
  · rintro ⟨y, hy, h⟩
    obtain ⟨rest, hrest, h⟩ := bind_eq_ok.1 h
    cases h
    exact ⟨y, rest, hy, hrest, rfl⟩
  · rintro ⟨y, rest, hy, hrest, rfl⟩
    exact ⟨y, hy, bind_eq_ok.2 ⟨rest, hrest, rfl⟩⟩

theorem ok_of_mem_mapM {f : α → Except ε β} : ∀ {xs : List α} {ys : List β}, xs.mapM f = .ok ys →
    ∀ x ∈ xs, ∃ y ∈ ys, f x = .ok y
  | [], _, _, _, hx => nomatch hx
  | x :: xs, ys, h, z, hz => by
    obtain ⟨y, rest, hy, hrest, rfl⟩ := mapM_cons_eq_ok.1 h
    rcases List.mem_cons.1 hz with rfl | hz
    · exact ⟨y, List.mem_cons_self, hy⟩
    · obtain ⟨y', hy', hok⟩ := ok_of_mem_mapM hrest z hz
      exact ⟨y', List.mem_cons_of_mem y hy', hok⟩

theorem exists_of_mem_mapM {f : α → Except ε β} : ∀ {xs : List α} {ys : List β}, xs.mapM f = .ok ys →
    ∀ y ∈ ys, ∃ x ∈ xs, f x = .ok y
  | [], _, h, _, hy => by
    cases h
    cases hy
  | x :: xs, ys, h, z, hz => by
    obtain ⟨y, rest, hy, hrest, rfl⟩ := mapM_cons_eq_ok.1 h
    rcases List.mem_cons.1 hz with rfl | hz
    · exact ⟨x, List.mem_cons_self, hy⟩
    · obtain ⟨x', hx', hok⟩ := exists_of_mem_mapM hrest z hz
      exact ⟨x', List.mem_cons_of_mem x hx', hok⟩

/-- Steps of which each goes through go through together. -/
theorem exists_mapM {f : α → Except ε β} :
    ∀ {xs : List α}, (∀ x ∈ xs, ∃ y, f x = .ok y) → ∃ ys, xs.mapM f = .ok ys
  | [], _ => ⟨[], rfl⟩
  | x :: xs, h => by
    obtain ⟨⟨y, hy⟩, hxs⟩ := List.forall_mem_cons.1 h
    obtain ⟨ys, hys⟩ := exists_mapM hxs
    exact ⟨y :: ys, mapM_cons_eq_ok.2 ⟨y, ys, hy, hys, rfl⟩⟩

theorem length_of_mapM {f : α → Except ε β} :
    ∀ {xs : List α} {ys : List β}, xs.mapM f = .ok ys → ys.length = xs.length
  | [], _, h => by
    cases h
    rfl
  | x :: xs, _, h => by
    obtain ⟨y, rest, -, hrest, rfl⟩ := mapM_cons_eq_ok.1 h
    rw [List.length_cons, List.length_cons, length_of_mapM hrest]

theorem mapM_map_eq_ok {γ : Type} {f : α → γ} {g : γ → Except ε β} {k : α → β} : ∀ {xs : List α},
    (∀ x ∈ xs, g (f x) = .ok (k x)) → (xs.map f).mapM g = .ok (xs.map k)
  | [], _ => rfl
  | x :: xs, h => by
    obtain ⟨hx, hxs⟩ := List.forall_mem_cons.1 h
    exact mapM_cons_eq_ok.2 ⟨k x, xs.map k, hx, mapM_map_eq_ok hxs, rfl⟩

theorem mapM_append_eq_ok {f : α → Except ε β} {xs xs' : List α} {ys ys' : List β} (h : xs.mapM f = .ok ys)
    (h' : xs'.mapM f = .ok ys') : (xs ++ xs').mapM f = .ok (ys ++ ys') := by
  rw [List.mapM_append, h, h']
  rfl

/-- What the results of steps that go through have in common with what they were made from. -/
theorem map_eq_of_mapM {γ : Type} {f : α → Except ε β} {g : α → γ} {k : β → γ}
    (hg : ∀ x y, f x = .ok y → g x = k y) :
    ∀ {xs : List α} {ys : List β}, xs.mapM f = .ok ys → xs.map g = ys.map k
  | [], _, h => by
    cases h
    rfl
  | x :: xs, _, h => by
    obtain ⟨y, rest, hy, hrest, rfl⟩ := mapM_cons_eq_ok.1 h
    rw [List.map_cons, List.map_cons, hg x y hy, map_eq_of_mapM hg hrest]

/-- If each step gives a known result, on a condition, then so do the steps together, on all the conditions. -/
theorem mapM_eq_ok_map_iff {f : α → Except ε β} {k : α → β} {P : α → Prop} : ∀ {xs : List α} {ys : List β},
    (∀ x ∈ xs, ∀ y, f x = .ok y ↔ y = k x ∧ P x) → (xs.mapM f = .ok ys ↔ ys = xs.map k ∧ ∀ x ∈ xs, P x)
  | [], ys, _ => by
    constructor
    · intro h
      cases h
      exact ⟨rfl, nofun⟩
    · rintro ⟨rfl, -⟩
      rfl
  | x :: xs, ys, h => by
    obtain ⟨hx, hxs⟩ := List.forall_mem_cons.1 h
    rw [mapM_cons_eq_ok, List.forall_mem_cons]
    constructor
    · rintro ⟨y, rest, hy, hrest, rfl⟩
      obtain ⟨rfl, hP⟩ := (hx y).1 hy
      obtain ⟨rfl, hPs⟩ := (mapM_eq_ok_map_iff hxs).1 hrest
      exact ⟨rfl, hP, hPs⟩
    · rintro ⟨rfl, hP, hPs⟩
      exact ⟨k x, xs.map k, (hx _).2 ⟨rfl, hP⟩, (mapM_eq_ok_map_iff hxs).2 ⟨rfl, hPs⟩, rfl⟩

/-- If each step gives back what it was made from, on a condition, then so do the steps together, on all the
conditions. -/
theorem mapM_map_eq_ok_iff {γ : Type} {f : α → γ} {g : γ → Except ε α} {P : α → Prop} {xs ys : List α}
    (h : ∀ x ∈ xs, ∀ y, g (f x) = .ok y ↔ y = x ∧ P x) :
    (xs.map f).mapM g = .ok ys ↔ ys = xs ∧ ∀ x ∈ xs, P x := by
  rw [List.mapM_map, mapM_eq_ok_map_iff (f := g ∘ f) (k := id) h, List.map_id]

/-- Steps that go through map each element, and so they do for any of the elements. -/
theorem exists_map_of_mapM [Inhabited β] {f : α → Except ε β} {xs : List α} {ys : List β} (h : xs.mapM f = .ok ys) :
    ∃ k : α → β, ys = xs.map k ∧ ∀ zs : List α, zs ⊆ xs → zs.mapM f = .ok (zs.map k) := by
  have hk : ∀ x ∈ xs, ∀ y, f x = .ok y ↔ y = (f x).toOption.getD default ∧ True := by
    intro x hx y
    obtain ⟨z, -, hz⟩ := ok_of_mem_mapM h x hx
    simp [hz, Except.toOption, eq_comm]
  refine ⟨_, ((mapM_eq_ok_map_iff hk).1 h).1, fun zs hzs => ?_⟩
  exact (mapM_eq_ok_map_iff fun x hx => hk x (hzs hx)).2 ⟨rfl, fun _ _ => trivial⟩

theorem forM_eq_ok {f : α → Except ε Unit} : ∀ {xs : List α}, xs.forM f = .ok () ↔ ∀ x ∈ xs, f x = .ok ()
  | [] => iff_of_true rfl fun _ hx => nomatch hx
  | x :: xs => by
    rw [List.forM, bind_eq_ok, List.forall_mem_cons]
    constructor
    · rintro ⟨_, hx, hxs⟩
      exact ⟨hx, forM_eq_ok.1 hxs⟩
    · rintro ⟨hx, hxs⟩
      exact ⟨(), hx, forM_eq_ok.2 hxs⟩

/-- What every step keeps, the steps together keep. -/
theorem foldlM_invariant {f : β → α → Except ε β} {P : β → Prop}
    (hstep : ∀ b a b', P b → f b a = .ok b' → P b') :
    ∀ {xs : List α} {b b' : β}, P b → xs.foldlM f b = .ok b' → P b'
  | [], _, _, hb, h => by
    cases h
    exact hb
  | x :: xs, b, b', hb, h => by
    rw [List.foldlM_cons] at h
    obtain ⟨next, hnext, h⟩ := bind_eq_ok.1 h
    exact foldlM_invariant hstep (hstep b x next hb hnext) h

/-! ## Answers that may fail -/

/-- The answer is there, and it is yes. -/
def yes : Except ε Bool → Bool
  | .ok b => b
  | .error _ => false

theorem yes_iff {x : Except ε Bool} : yes x = true ↔ x = .ok true := by
  cases x with
  | error e => simp [yes]
  | ok b => cases b <;> simp [yes]

theorem filterAuxM_eq_ok {f : α → Except ε Bool} : ∀ {xs acc ys : List α}, xs.filterAuxM f acc = .ok ys →
    ys = (xs.filter fun x => yes (f x)).reverse ++ acc
  | [], acc, _, h => by
    cases h
    rfl
  | x :: xs, acc, ys, h => by
    rw [List.filterAuxM] at h
    obtain ⟨b, hb, h⟩ := bind_eq_ok.1 h
    have hrest := filterAuxM_eq_ok h
    cases b with
    | false => rw [hrest, List.filter_cons_of_neg (by rw [hb]; exact Bool.false_ne_true), cond_false]
    | true =>
      rw [hrest, List.filter_cons_of_pos (by rw [hb]; rfl), cond_true, List.reverse_cons, List.append_assoc]
      rfl

/-- What a filter that asks answers lets through. -/
theorem filterM_eq_ok {f : α → Except ε Bool} {xs ys : List α} (h : xs.filterM f = .ok ys) :
    ys = xs.filter fun x => yes (f x) := by
  rw [List.filterM] at h
  obtain ⟨zs, hzs, h⟩ := bind_eq_ok.1 h
  cases h
  rw [filterAuxM_eq_ok hzs, List.append_nil, List.reverse_reverse]

theorem exists_filterAuxM {f : α → Except ε Bool} (h : ∀ x, ∃ b, f x = .ok b) : ∀ xs acc : List α,
    ∃ ys, xs.filterAuxM f acc = .ok ys
  | [], acc => ⟨acc, rfl⟩
  | x :: xs, acc => by
    obtain ⟨b, hb⟩ := h x
    obtain ⟨ys, hys⟩ := exists_filterAuxM h xs (cond b (x :: acc) acc)
    exact ⟨ys, bind_eq_ok.2 ⟨b, hb, hys⟩⟩

/-- A filter that always has an answer goes through. -/
theorem exists_filterM {f : α → Except ε Bool} (h : ∀ x, ∃ b, f x = .ok b) (xs : List α) :
    ∃ ys, xs.filterM f = .ok ys := by
  obtain ⟨ys, hys⟩ := exists_filterAuxM h xs []
  exact ⟨ys.reverse, bind_eq_ok.2 ⟨ys, hys, rfl⟩⟩

end Outcome
end ItemStore
