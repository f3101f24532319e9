import ItemStore.Proofs.Shape.Compilation
import ItemStore.Proofs.Value.Entries
import ItemStore.Request.Samples
import ItemStore.Shape.Registry
/-!
# A registry only grows

A registry keeps two maps, the open one and the published one, and goes over from the one to the other when it is
sealed.  From outside it is one map, to which shapes are added until it is sealed and from which nothing is ever taken
(`registry_only_grows`).  A call changes nothing, or seals, or adds a shape under a name that was free
(`Registry.answer_cases`); what all of them keep up is that the published map is the open one (`Registry.Kept`).
-/
namespace ItemStore

open Outcome (bind_eq_ok)

namespace Registry

/-! ## Calls and what they are answered -/

inductive Call where
  | register (c : CompiledShape)
  | registerShape (d : Declaration) (typeName : String)
  | close
  | lookup (name : String)
  | table (name typeName : String)
  | shapes

inductive Answer where
  | entry (found : Except Error CompiledShape)
  | names (names : List String)
  | closed

/-- The name of the shape that a call asks for. -/
def Call.name? : Call → Option String
  | register c => some c.descriptor.name
  | registerShape d _ => some d.name
  | lookup name | table name _ => some name
  | close | shapes => none

/-- The answer to a call, and the registry after it. -/
def answer (r : Registry) : Call → Answer × Registry
  | .register c => (.entry (r.register c).1, (r.register c).2)
  | .registerShape d typeName => (.entry (r.registerShape d typeName).1, (r.registerShape d typeName).2)
  | .close => (.closed, r.close)
  | .lookup name => (.entry (r.lookup name), r)
  | .table name typeName => (.entry (r.table name typeName), r)
  | .shapes => (.names r.names, r)

/-- The registry after calls, one after the other. -/
def after (r : Registry) (calls : List Call) : Registry := calls.foldl (fun r call => (r.answer call).2) r

/-- What calls, one after the other, are answered. -/
def answers (r : Registry) : List Call → List Answer
  | [] => []
  | call :: calls => (r.answer call).1 :: (r.answer call).2.answers calls

theorem after_cons (r : Registry) (call : Call) (calls : List Call) :
    r.after (call :: calls) = (r.answer call).2.after calls := rfl

theorem lookup_eq_ok {r : Registry} {name : String} {c : CompiledShape} :
    r.lookup name = .ok c ↔ r.shapes.get? name = some c := by
  unfold lookup
  cases r.shapes.get? name <;> simp

/-! ## One call -/

section Step
variable {r : Registry} {c : CompiledShape}

theorem register_of_sealed (h : r.isSealed = true) (c : CompiledShape) :
    r.register c = (.error (.registryClosed c.descriptor.name), r) := by
  simp [register, h]

theorem register_of_taken {existing : CompiledShape} (h : r.isSealed = false)
    (htaken : r.opened.get? c.descriptor.name = some existing) :
    r.register c = (if existing = c then .ok existing else .error (.duplicateShape c.descriptor.name), r) := by
  simp [register, h, htaken]

theorem register_of_free (h : r.isSealed = false) (hfree : r.opened.get? c.descriptor.name = none) :
    r.register c = (.ok c, { r with opened := r.opened.put c.descriptor.name c }) := by
  simp [register, h, hfree]

/-- **What registering does**: it fails, or the shape is there already, or it is added under a free name. -/
theorem register_cases (r : Registry) (c : CompiledShape) :
    (∃ e, r.register c = (.error e, r)) ∨
      r.isSealed = false ∧ r.opened.get? c.descriptor.name = some c ∧ r.register c = (.ok c, r) ∨
      r.isSealed = false ∧ r.opened.get? c.descriptor.name = none ∧
        r.register c = (.ok c, { r with opened := r.opened.put c.descriptor.name c }) := by
  cases hsealed : r.isSealed with
  | true => exact .inl ⟨_, register_of_sealed hsealed c⟩
  | false =>
    cases hget : r.opened.get? c.descriptor.name with
    | none => exact .inr (.inr ⟨rfl, rfl, register_of_free hsealed hget⟩)
    | some existing =>
      have heq := register_of_taken hsealed hget
      by_cases he : existing = c
      · subst he
        exact .inr (.inl ⟨rfl, rfl, by rw [heq, if_pos rfl]⟩)
      · exact .inl ⟨_, by rw [heq, if_neg he]⟩

/-- The entry that is answered is the one that was handed in. -/
theorem eq_of_register {entry : CompiledShape} (h : (r.register c).1 = .ok entry) : entry = c := by
  rcases register_cases r c with ⟨e, heq⟩ | ⟨-, -, heq⟩ | ⟨-, -, heq⟩ <;> rw [heq] at h <;> cases h <;> rfl

/-- A declaration that compiles is registered as its descriptor is: the type of the entry is never the wrong one. -/
theorem registerShape_of_compile {d : Declaration} {s : Descriptor} (h : d.compile = .ok s) (typeName : String) :
    r.registerShape d typeName = r.register ⟨s, ⟨typeName⟩⟩ := by
  have heq : r.registerShape d typeName =
      ((r.register ⟨s, ⟨typeName⟩⟩).1.bind (·.forType typeName), (r.register ⟨s, ⟨typeName⟩⟩).2) := by
    simp [registerShape, h]
  rw [heq]
  cases hentry : (r.register ⟨s, ⟨typeName⟩⟩).1 with
  | error e => exact Prod.ext hentry.symm rfl
  | ok entry =>
    obtain rfl := eq_of_register hentry
    have htype : CompiledShape.forType ⟨s, ⟨typeName⟩⟩ typeName = .ok ⟨s, ⟨typeName⟩⟩ := by
      simp [CompiledShape.forType, Mapper.maps]
    exact Prod.ext (htype.trans hentry.symm) rfl

theorem registerShape_of_fault {d : Declaration} {e : Error} (h : d.compile = .error e) (typeName : String) :
    r.registerShape d typeName = (.error e, r) := by
  simp [registerShape, h]

/-- **What a call does**: nothing, or it seals, or it adds a shape under a free name and answers it. -/
theorem answer_cases (r : Registry) (call : Call) :
    (r.answer call).2 = r ∨ call = .close ∧ (r.answer call).2 = r.close ∨
      ∃ c, r.isSealed = false ∧ r.opened.get? c.descriptor.name = none ∧
        r.answer call = (.entry (.ok c), { r with opened := r.opened.put c.descriptor.name c }) := by
  have hregister {c : CompiledShape} (hcall : r.answer call = (.entry (r.register c).1, (r.register c).2)) :
      (r.answer call).2 = r ∨ ∃ c, r.isSealed = false ∧ r.opened.get? c.descriptor.name = none ∧
        r.answer call = (.entry (.ok c), { r with opened := r.opened.put c.descriptor.name c }) := by
    rcases register_cases r c with ⟨e, heq⟩ | ⟨-, -, heq⟩ | ⟨hsealed, hfree, heq⟩
    · exact .inl (by rw [hcall, heq])
    · exact .inl (by rw [hcall, heq])
    · exact .inr ⟨c, hsealed, hfree, by rw [hcall, heq]⟩
  cases call with
  | register c => exact (hregister rfl).imp_right .inr
  | registerShape d typeName =>
    cases hcompile : d.compile with
    | error e => exact .inl (by rw [answer, registerShape_of_fault hcompile])
    | ok s => exact (hregister (by rw [answer, registerShape_of_compile hcompile])).imp_right .inr
  | close => exact .inr (.inl ⟨rfl, rfl⟩)
  | lookup name => exact .inl rfl
  | table name typeName => exact .inl rfl
  | shapes => exact .inl rfl

/-- A call that fails leaves the registry as it was. -/
theorem answer_of_error {call : Call} {e : Error} (h : (r.answer call).1 = .entry (.error e)) :
    (r.answer call).2 = r := by
  rcases answer_cases r call with hsame | ⟨rfl, -⟩ | ⟨c, -, -, heq⟩
  · exact hsame
  · cases h
  · rw [heq] at h
    cases h

end Step

/-! ## What calls keep up -/

/-- Every entry stands under its own name, and what is published is what is open. -/
structure Kept (r : Registry) : Prop where
  sorted : r.opened.Sorted
  named : ∀ {name : String} {c : CompiledShape}, r.opened.get? name = some c → c.descriptor.name = name
  published : ∀ {shapes : Entries CompiledShape}, r.snapshot = some shapes → shapes = r.opened

/-- What was found is still found. -/
def Grows (r r' : Registry) : Prop := ∀ name c, r.lookup name = .ok c → r'.lookup name = .ok c

section Kept
variable {r : Registry} {c : CompiledShape}

theorem kept_empty : empty.Kept := ⟨List.Pairwise.nil, nofun, nofun⟩

/-- The two maps look like one. -/
theorem Kept.shapes_eq (h : r.Kept) : r.shapes = r.opened := by
  unfold shapes
  cases hs : r.snapshot with
  | none => rfl
  | some shapes => exact h.published hs

theorem Kept.lookup_iff (h : r.Kept) {name : String} : r.lookup name = .ok c ↔ r.opened.get? name = some c := by
  rw [lookup_eq_ok, h.shapes_eq]

theorem Kept.name_of_lookup (h : r.Kept) {name : String} (hc : r.lookup name = .ok c) : c.descriptor.name = name :=
  h.named (h.lookup_iff.1 hc)

theorem Kept.close (h : r.Kept) : r.close.Kept := by
  unfold Registry.close
  by_cases hsealed : r.isSealed = true
  · simpa [hsealed] using h
  · rw [if_neg hsealed]
    exact ⟨h.sorted, h.named, fun hs => (Option.some.inj hs).symm⟩

theorem Kept.add (h : r.Kept) (hsealed : r.isSealed = false) (c : CompiledShape) :
    Kept { r with opened := r.opened.put c.descriptor.name c } where
  sorted := Entries.sorted_put h.sorted _ _
  named {name c'} hc' := by
    by_cases hname : name = c.descriptor.name
    · subst hname
      rw [Entries.get?_put_self] at hc'
      cases hc'
      rfl
    · rw [Entries.get?_put_of_ne _ _ hname] at hc'
      exact h.named hc'
  published {shapes} hs := by
    have hnone : r.snapshot = none := by simpa [isSealed] using hsealed
    cases hnone.symm.trans hs

theorem Kept.answer (h : r.Kept) (call : Call) : (r.answer call).2.Kept := by
  rcases answer_cases r call with hsame | ⟨-, hclose⟩ | ⟨c, hsealed, -, heq⟩
  · rwa [hsame]
  · rw [hclose]
    exact h.close
  · rw [heq]
    exact h.add hsealed c

/-- Calls keep it up, one after the other. -/
theorem Kept.after : ∀ {r : Registry}, r.Kept → ∀ calls : List Call, (r.after calls).Kept
  | _, h, [] => h
  | _, h, call :: calls => (h.answer call).after calls

theorem isSealed_close (r : Registry) : r.close.isSealed = true := by
  unfold close
  by_cases h : r.isSealed = true <;> simp_all [isSealed]

@[simp] theorem opened_close (r : Registry) : r.close.opened = r.opened := by
  unfold close
  split <;> rfl

theorem Kept.lookup_close (h : r.Kept) (name : String) : r.close.lookup name = r.lookup name := by
  rw [lookup, lookup, h.close.shapes_eq, h.shapes_eq, opened_close]

theorem Kept.grows (h : r.Kept) (call : Call) : r.Grows (r.answer call).2 := by
  intro name c' hc'
  rcases answer_cases r call with hsame | ⟨-, hclose⟩ | ⟨c, hsealed, hfree, heq⟩
  · rwa [hsame]
  · rwa [hclose, h.lookup_close]
  · rw [heq, (h.add hsealed c).lookup_iff]
    rw [h.lookup_iff] at hc'
    have hne : name ≠ c.descriptor.name := by
      rintro rfl
      cases hfree.symm.trans hc'
    exact (Entries.get?_put_of_ne _ _ hne).trans hc'

/-- **What is found once is found ever after.** -/
theorem Kept.grows_after : ∀ {r : Registry}, r.Kept → ∀ calls : List Call, r.Grows (r.after calls)
  | _, _, [], _, _, hc => hc
  | _, h, call :: calls, name, c, hc => (h.answer call).grows_after calls name c (h.grows call name c hc)

/-- What a call answers is found under its name afterwards. -/
theorem Kept.lookup_of_answer (h : r.Kept) {call : Call} (hc : (r.answer call).1 = .entry (.ok c)) :
    call.name? = some c.descriptor.name ∧ (r.answer call).2.lookup c.descriptor.name = .ok c := by
  have hregister {c' : CompiledShape} (hc' : (r.register c').1 = .ok c) :
      c = c' ∧ (r.register c').2.lookup c'.descriptor.name = .ok c := by
    obtain rfl := eq_of_register hc'
    refine ⟨rfl, ?_⟩
    rcases register_cases r c with ⟨e, heq⟩ | ⟨-, hget, heq⟩ | ⟨hsealed, -, heq⟩
    · rw [heq] at hc'
      cases hc'
    · rw [heq, h.lookup_iff, hget]
    · rw [heq, (h.add hsealed c).lookup_iff]
      exact Entries.get?_put_self _ _ _
  cases call with
  | register c' =>
    obtain ⟨rfl, hfound⟩ := hregister (Answer.entry.inj hc)
    exact ⟨rfl, hfound⟩
  | registerShape d typeName =>
    cases hcompile : d.compile with
    | error e =>
      rw [Registry.answer, registerShape_of_fault hcompile] at hc
      cases hc
    | ok s =>
      rw [Registry.answer, registerShape_of_compile hcompile] at hc ⊢
      obtain ⟨rfl, hfound⟩ := hregister (Answer.entry.inj hc)
      exact ⟨congrArg some (Declaration.compile_eq_ok_iff.1 hcompile).name.symm, hfound⟩
  | close => cases hc
  | lookup name =>
    have hfound : r.lookup name = .ok c := Answer.entry.inj hc
    obtain rfl := h.name_of_lookup hfound
    exact ⟨rfl, hfound⟩
  | table name typeName =>
    obtain ⟨c', hfound, htype⟩ := bind_eq_ok.1 (Answer.entry.inj hc)
    obtain rfl : c' = c := by
      unfold CompiledShape.forType at htype
      by_cases hm : c'.mapper.maps typeName = true <;> simp_all
    obtain rfl := h.name_of_lookup hfound
    exact ⟨rfl, hfound⟩
  | shapes => cases hc

end Kept

/-! ## Sealing -/

theorem isSealed_answer (r : Registry) {call : Call} (hcall : call ≠ .close) :
    (r.answer call).2.isSealed = r.isSealed := by
  rcases answer_cases r call with hsame | ⟨hseal, -⟩ | ⟨c, -, -, heq⟩
  · rw [hsame]
  · exact absurd hseal hcall
  · rw [heq]
    rfl

/-- Only sealing seals, and once is enough. -/
theorem isSealed_after_iff : ∀ (calls : List Call) (r : Registry),
    (r.after calls).isSealed = true ↔ r.isSealed = true ∨ .close ∈ calls
  | [], r => by simp [after]
  | call :: calls, r => by
    rw [after_cons, isSealed_after_iff calls]
    by_cases hcall : call = .close
    · subst hcall
      simp [answer, isSealed_close]
    · rw [isSealed_answer r hcall]
      simp [Ne.symm hcall]

/-! ## Names -/

/-- The names are those of the open map, in order and each once. -/
theorem Kept.names {r : Registry} (h : r.Kept) :
    r.names.Pairwise (· < ·) ∧ ∀ name, name ∈ r.names ↔ ∃ c, r.lookup name = .ok c := by
  rw [Registry.names, h.shapes_eq]
  refine ⟨List.pairwise_map.2 h.sorted, fun name => ?_⟩
  simp only [h.lookup_iff, List.mem_map, Prod.exists, ← Entries.mem_iff_get? h.sorted]
  constructor
  · rintro ⟨_, c, hmem, rfl⟩
    exact ⟨c, hmem⟩
  · rintro ⟨c, hmem⟩
    exact ⟨name, c, hmem, rfl⟩

end Registry

open Registry in
/-- **A registry is a map that only grows, until it is sealed.**  After any calls: an entry that a call answers is found
under its name ever after; as long as nothing has sealed the registry, a shape is added under a free name, is answered
again if it is there already and refused if another one is; once it has been sealed, no shape is added; a type is
registered as the shape it compiles to; a call that fails changes no later answer; and the names are those of the shapes
that are found, in order. -/
theorem registry_only_grows (before : List Call) : let r := Registry.empty.after before
    (∀ call c, (r.answer call).1 = .entry (.ok c) → call.name? = some c.descriptor.name ∧
      ∀ later, (r.after (call :: later)).lookup c.descriptor.name = .ok c) ∧
    (.close ∉ before → ∀ c : CompiledShape,
      (∀ existing, r.lookup c.descriptor.name = .ok existing → r.answer (.register c) =
        (.entry (if existing = c then .ok existing else .error (.duplicateShape c.descriptor.name)), r)) ∧
      ((∀ existing, r.lookup c.descriptor.name ≠ .ok existing) → (r.answer (.register c)).1 = .entry (.ok c))) ∧
    (.close ∈ before → ∀ c : CompiledShape,
      (r.answer (.register c)).1 = .entry (.error (.registryClosed c.descriptor.name))) ∧
    (∀ d typeName, r.answer (.registerShape d typeName) =
      match d.compile with
      | .ok s => r.answer (.register ⟨s, ⟨typeName⟩⟩)
      | .error e => (.entry (.error e), r)) ∧
    (∀ call e, (r.answer call).1 = .entry (.error e) → ∀ later, (r.answer call).2.answers later = r.answers later) ∧
    r.names.Pairwise (· < ·) ∧ ∀ name, name ∈ r.names ↔ ∃ c, r.lookup name = .ok c := by
  intro r
  have hkept : r.Kept := kept_empty.after before
  have hsealed : r.isSealed = true ↔ .close ∈ before := (isSealed_after_iff before _).trans (by simp [isSealed, empty])
  refine ⟨fun call c hc => ?_, fun hopen c => ?_, fun hclosed c => ?_, fun d typeName => ?_, fun call e he later => ?_,
    hkept.names⟩
  · obtain ⟨hname, hfound⟩ := hkept.lookup_of_answer hc
    exact ⟨hname, fun later => (hkept.answer call).grows_after later _ c hfound⟩
  · have hopen' : r.isSealed = false := Bool.eq_false_iff.2 (mt hsealed.1 hopen)
    refine ⟨fun existing hexisting => ?_, fun hfree => ?_⟩
    · simp [answer, register_of_taken hopen' (hkept.lookup_iff.1 hexisting)]
    · have hnone : r.opened.get? c.descriptor.name = none :=
        Option.eq_none_iff_forall_ne_some.2 fun existing he => hfree existing (hkept.lookup_iff.2 he)
      simp [answer, register_of_free hopen' hnone]
  · simp [answer, register_of_sealed (hsealed.2 hclosed)]
  · cases hcompile : d.compile with
    | error e => simp [answer, registerShape_of_fault hcompile]
    | ok s => simp [answer, registerShape_of_compile hcompile]
  · rw [answer_of_error he]

namespace Samples

def orderShape : CompiledShape := ⟨orders, ⟨"Order"⟩⟩

def impostor : CompiledShape := ⟨orders, ⟨"Impostor"⟩⟩

end Samples

open Registry Samples in
/-- Orders are registered twice, an impostor in vain, and after sealing only look-ups go through. -/
theorem registry_only_grows_of_orders : let r := Registry.empty.after [.register orderShape]
    (r.answer (.register orderShape)).1 = .entry (.ok orderShape) ∧
    (r.answer (.register impostor)).1 = .entry (.error (.duplicateShape "Order")) ∧
    (r.answer (.table "Order" "Impostor")).2.answers [.lookup "Order"] = r.answers [.lookup "Order"] ∧
    (r.after [.lookup "Order", .close, .register impostor]).lookup "Order" = .ok orderShape ∧
    ((r.after [.close]).answer (.register impostor)).1 = .entry (.error (.registryClosed "Order")) := by
  obtain ⟨hfound, hopen, -, -, hfail, -⟩ := registry_only_grows [.register orderShape]
  obtain ⟨-, -, hclosed, -⟩ := registry_only_grows [.register orderShape, .close]
  have hlookup : (Registry.empty.after [.register orderShape]).lookup "Order" = .ok orderShape := rfl
  have hpresent := (hopen (by simp) orderShape).1 orderShape hlookup
  have htaken := (hopen (by simp) impostor).1 orderShape hlookup
  refine ⟨?_, ?_, ?_, ?_, ?_⟩
  · exact congrArg Prod.fst hpresent
  · exact congrArg Prod.fst htaken
  · exact hfail (.table "Order" "Impostor") (.duplicateShape "'Order' is registered for Order") rfl [.lookup "Order"]
  · exact (hfound (.lookup "Order") orderShape (congrArg Answer.entry hlookup)).2 [.close, .register impostor]
  · exact hclosed (by simp) impostor

end ItemStore
