import ItemStore.Proofs.Outcome
import ItemStore.Proofs.Value.Entries
import ItemStore.Record.Definition
/-!
# Which indexes the fields form

Each annotation of a field puts one attribute into one index (`IndexPart`).  The indexes collected from all fields are
exactly what their parts say, one index for each name that is used (`collectIndexes_spec`).
-/
namespace ItemStore

open Outcome (bind_ok bind_eq_ok)

/-! ## Parts -/

/-- An attribute's place in an index. -/
structure IndexPart where
  index : String
  kind : IndexKind
  role : KeyRole
  name : String

def FieldPart.indexParts {τ : Type} (f : FieldPart τ) : List IndexPart :=
  (f.gsiPartition.map fun index => ⟨index, .global, .partition, f.name⟩).toList ++
    (f.gsiSort.map fun index => ⟨index, .global, .sort, f.name⟩).toList ++
    (f.lsi.map fun index => ⟨index, .local, .sort, f.name⟩).toList

def addPart (indexes : Entries IndexDeclaration) (p : IndexPart) : Except DefinitionFault (Entries IndexDeclaration) :=
  addToIndex indexes p.index p.kind p.role p.name

theorem addIndexes_eq {τ : Type} (indexes : Entries IndexDeclaration) (f : FieldPart τ) :
    addIndexes indexes f = f.indexParts.foldlM addPart indexes := by
  have hstep : ∀ (o : Option String) (kind : IndexKind) (role : KeyRole) (indexes : Entries IndexDeclaration),
      (o.map fun index => (⟨index, kind, role, f.name⟩ : IndexPart)).toList.foldlM addPart indexes =
        o.elim (.ok indexes) fun index => addToIndex indexes index kind role f.name := by
    intro o kind role indexes
    cases o with
    | none => rfl
    | some index => exact bind_ok _
  rw [FieldPart.indexParts, List.foldlM_append, List.foldlM_append, hstep, bind_assoc]
  simp only [hstep]
  unfold addIndexes
  cases f.gsiPartition <;> cases f.gsiSort <;> cases f.lsi <;> rfl

theorem foldlM_addIndexes {τ : Type} : ∀ (fields : List (FieldPart τ)) (indexes : Entries IndexDeclaration),
    fields.foldlM addIndexes indexes = (fields.flatMap (·.indexParts)).foldlM addPart indexes
  | [], _ => rfl
  | f :: fields, indexes => by
    rw [List.foldlM_cons, List.flatMap_cons, List.foldlM_append, addIndexes_eq]
    exact congrArg _ (funext (foldlM_addIndexes fields))

/-- No part of a local index is a partition key. -/
theorem FieldPart.mem_indexParts {τ : Type} {f : FieldPart τ} {p : IndexPart} : p ∈ f.indexParts ↔ p.name = f.name ∧
    (p.kind = .global ∧ p.role = .partition ∧ f.gsiPartition = some p.index ∨
      p.kind = .global ∧ p.role = .sort ∧ f.gsiSort = some p.index ∨
      p.kind = .local ∧ p.role = .sort ∧ f.lsi = some p.index) := by
  obtain ⟨index, kind, role, name⟩ := p
  simp only [indexParts, List.mem_append, Option.mem_toList, Option.map_eq_some_iff, IndexPart.mk.injEq]
  constructor
  · rintro ((⟨_, h, rfl, rfl, rfl, rfl⟩ | ⟨_, h, rfl, rfl, rfl, rfl⟩) | ⟨_, h, rfl, rfl, rfl, rfl⟩)
    · exact ⟨rfl, .inl ⟨rfl, rfl, h⟩⟩
    · exact ⟨rfl, .inr (.inl ⟨rfl, rfl, h⟩)⟩
    · exact ⟨rfl, .inr (.inr ⟨rfl, rfl, h⟩)⟩
  · rintro ⟨rfl, ⟨rfl, rfl, h⟩ | ⟨rfl, rfl, h⟩ | ⟨rfl, rfl, h⟩⟩
    · exact .inl (.inl ⟨index, h, rfl, rfl, rfl, rfl⟩)
    · exact .inl (.inr ⟨index, h, rfl, rfl, rfl, rfl⟩)
    · exact .inr ⟨index, h, rfl, rfl, rfl, rfl⟩

/-! ## What one index has from them -/

/-- The index is of the kind that all its parts say, and has the keys that they name. -/
structure IndexDeclaration.FormedBy (parts : List IndexPart) (x : IndexDeclaration) : Prop where
  kind : ∀ p ∈ parts, p.index = x.name → p.kind = x.kind
  partition : ∀ name, x.partition = some name ↔ ⟨x.name, x.kind, .partition, name⟩ ∈ parts
  sort : ∀ name, x.sort = some name ↔ ⟨x.name, x.kind, .sort, name⟩ ∈ parts

namespace IndexDeclaration.FormedBy

variable {parts : List IndexPart} {p : IndexPart} {x : IndexDeclaration}

theorem blank {index : String} (kind : IndexKind) (h : ∀ p ∈ parts, p.index ≠ index) :
    FormedBy parts ⟨index, kind, none, none⟩ :=
  ⟨fun p hp hindex => absurd hindex (h p hp), fun _ => ⟨nofun, fun hmem => absurd rfl (h _ hmem)⟩,
    fun _ => ⟨nofun, fun hmem => absurd rfl (h _ hmem)⟩⟩

/-- A part of another index does nothing to this one. -/
theorem other (h : FormedBy parts x) (hindex : p.index ≠ x.name) : FormedBy (parts ++ [p]) x := by
  have hmem : ∀ role name, (⟨x.name, x.kind, role, name⟩ : IndexPart) ∈ parts ++ [p] ↔
      ⟨x.name, x.kind, role, name⟩ ∈ parts := by
    intro role name
    rw [List.mem_append, List.mem_singleton]
    exact or_iff_left fun he => hindex (he ▸ rfl)
  refine ⟨fun q hq hname => ?_, fun name => ?_, fun name => ?_⟩
  · rcases List.mem_append.1 hq with hq | hq
    · exact h.kind q hq hname
    · exact absurd (List.mem_singleton.1 hq ▸ hname) hindex
  · rw [hmem, h.partition]
  · rw [hmem, h.sort]

theorem kind_append (h : FormedBy parts x) (hkind : x.kind = p.kind) :
    ∀ q ∈ parts ++ [p], q.index = x.name → q.kind = x.kind := by
  intro q hq hname
  rcases List.mem_append.1 hq with hq | hq
  · exact h.kind q hq hname
  · rw [List.mem_singleton.1 hq, hkind]

theorem withPartition (h : FormedBy parts x) (hindex : p.index = x.name) (hkind : x.kind = p.kind)
    (hrole : p.role = .partition) (hfree : x.partition = none) :
    FormedBy (parts ++ [p]) { x with partition := some p.name } := by
  obtain ⟨index, kind, role, name⟩ := p
  obtain ⟨rfl, rfl, rfl⟩ : index = x.name ∧ x.kind = kind ∧ role = .partition := ⟨hindex, hkind, hrole⟩
  refine ⟨h.kind_append rfl, fun other => ?_, fun other => ?_⟩
  · rw [List.mem_append, ← h.partition, hfree]
    simp [eq_comm]
  · rw [List.mem_append, ← h.sort]
    simp

theorem withSort (h : FormedBy parts x) (hindex : p.index = x.name) (hkind : x.kind = p.kind)
    (hrole : p.role = .sort) (hfree : x.sort = none) : FormedBy (parts ++ [p]) { x with sort := some p.name } := by
  obtain ⟨index, kind, role, name⟩ := p
  obtain ⟨rfl, rfl, rfl⟩ : index = x.name ∧ x.kind = kind ∧ role = .sort := ⟨hindex, hkind, hrole⟩
  refine ⟨h.kind_append rfl, fun other => ?_, fun other => ?_⟩
  · rw [List.mem_append, ← h.partition]
    simp
  · rw [List.mem_append, ← h.sort, hfree]
    simp [eq_comm]

end IndexDeclaration.FormedBy

/-! ## All indexes -/

/-- The indexes are those that the parts form, under their names. -/
structure Collected (parts : List IndexPart) (indexes : Entries IndexDeclaration) : Prop where
  sorted : indexes.Sorted
  found : ∀ index x, indexes.get? index = some x → x.name = index ∧ x.FormedBy parts ∧
    ∃ p ∈ parts, p.index = index
  missing : ∀ index, indexes.get? index = none → ∀ p ∈ parts, p.index ≠ index

/-- A part goes into the index of its name, at a place that is free there. -/
theorem addPart_eq_ok {indexes indexes' : Entries IndexDeclaration} {p : IndexPart}
    (h : addPart indexes p = .ok indexes') (hrole : p.role ≠ .none) :
    let found := (indexes.get? p.index).getD ⟨p.index, p.kind, none, none⟩
    found.kind = p.kind ∧
      (p.role = .partition ∧ found.partition = none ∧
          indexes' = indexes.put p.index { found with partition := some p.name } ∨
        p.role = .sort ∧ found.sort = none ∧ indexes' = indexes.put p.index { found with sort := some p.name }) := by
  intro found
  replace h : (if found.kind ≠ p.kind then Except.error (DefinitionFault.mixedIndex p.index)
      else if p.role = .partition then
        if found.partition.isSome then Except.error (DefinitionFault.secondIndexKey p.index p.role)
        else .ok (indexes.put p.index { found with partition := some p.name })
      else if found.sort.isSome then Except.error (DefinitionFault.secondIndexKey p.index p.role)
      else .ok (indexes.put p.index { found with sort := some p.name })) = .ok indexes' := h
  split at h
  · cases h
  · next hkind =>
    refine ⟨Decidable.not_not.1 hkind, ?_⟩
    split at h
    · next hpartition =>
      split at h
      · cases h
      · next hfree =>
        cases h
        exact .inl ⟨hpartition, Option.not_isSome_iff_eq_none.1 hfree, rfl⟩
    · next hpartition =>
      split at h
      · cases h
      · next hfree =>
        cases h
        refine .inr ⟨?_, Option.not_isSome_iff_eq_none.1 hfree, rfl⟩
        cases hp : p.role with
        | none => exact absurd hp hrole
        | partition => exact absurd hp hpartition
        | sort => rfl

namespace Collected

variable {parts : List IndexPart} {indexes indexes' : Entries IndexDeclaration} {p : IndexPart}

theorem nil : Collected [] [] :=
  ⟨.nil, fun _ _ h => (nomatch h), fun _ _ _ hp => absurd hp List.not_mem_nil⟩

theorem put (h : Collected parts indexes) {x : IndexDeclaration} (hname : x.name = p.index)
    (hx : x.FormedBy (parts ++ [p])) : Collected (parts ++ [p]) (indexes.put p.index x) := by
  have hself : p ∈ parts ++ [p] := List.mem_append_right parts (List.mem_singleton_self p)
  refine ⟨Entries.sorted_put h.sorted _ _, fun index y hy => ?_, fun index hmissing => ?_⟩
  · by_cases hindex : index = p.index
    · rw [hindex, Entries.get?_put_self] at hy
      cases hy
      exact ⟨hname.trans hindex.symm, hx, p, hself, hindex.symm⟩
    · rw [Entries.get?_put_of_ne _ _ hindex] at hy
      obtain ⟨rfl, hformed, q, hq, hqindex⟩ := h.found index y hy
      exact ⟨rfl, hformed.other (Ne.symm hindex), q, List.mem_append_left _ hq, hqindex⟩
  · by_cases hindex : index = p.index
    · rw [hindex, Entries.get?_put_self] at hmissing
      cases hmissing
    · rw [Entries.get?_put_of_ne _ _ hindex] at hmissing
      intro q hq
      rcases List.mem_append.1 hq with hq | hq
      · exact h.missing index hmissing q hq
      · rw [List.mem_singleton.1 hq]
        exact Ne.symm hindex

theorem addPart (h : Collected parts indexes) (hrole : p.role ≠ .none) (hadd : addPart indexes p = .ok indexes') :
    Collected (parts ++ [p]) indexes' := by
  obtain ⟨hkind, hput⟩ := addPart_eq_ok hadd hrole
  obtain ⟨hname, hformed⟩ : ((indexes.get? p.index).getD ⟨p.index, p.kind, none, none⟩).name = p.index ∧
      ((indexes.get? p.index).getD ⟨p.index, p.kind, none, none⟩).FormedBy parts := by
    cases hfind : indexes.get? p.index with
    | none => exact ⟨rfl, .blank p.kind (h.missing p.index hfind)⟩
    | some x => exact ⟨(h.found p.index x hfind).1, (h.found p.index x hfind).2.1⟩
  rcases hput with ⟨hpartition, hfree, rfl⟩ | ⟨hsort, hfree, rfl⟩
  · exact h.put hname (hformed.withPartition hname.symm hkind hpartition hfree)
  · exact h.put hname (hformed.withSort hname.symm hkind hsort hfree)

theorem foldlM : ∀ {parts seen : List IndexPart} {indexes indexes' : Entries IndexDeclaration}, Collected seen indexes →
    (∀ p ∈ parts, p.role ≠ .none) → parts.foldlM ItemStore.addPart indexes = .ok indexes' →
    Collected (seen ++ parts) indexes'
  | [], seen, _, _, h, _, hfold => by
    cases hfold
    rwa [List.append_nil]
  | p :: parts, seen, _, _, h, hroles, hfold => by
    obtain ⟨hrole, hroles⟩ := List.forall_mem_cons.1 hroles
    rw [List.foldlM_cons] at hfold
    obtain ⟨next, hnext, hfold⟩ := bind_eq_ok.1 hfold
    have hrest := (h.addPart hrole hnext).foldlM hroles hfold
    rwa [List.append_assoc, List.singleton_append] at hrest

end Collected

/-- The indexes of a record are those its fields form; the local ones have no partition key of their own. -/
structure IndexesOf {τ : Type} (fields : List (FieldPart τ)) (indexes : List IndexDeclaration) : Prop where
  names : (indexes.map (·.name)).Nodup
  formed : ∀ x ∈ indexes, x.FormedBy (fields.flatMap (·.indexParts))
  complete : ∀ p ∈ fields.flatMap (·.indexParts), ∃ x ∈ indexes, x.name = p.index
  globalKey : ∀ x ∈ indexes, x.kind = .global → x.partition.isSome = true
  localKey : ∀ x ∈ indexes, x.kind = .local → x.partition = none ∧ x.sort.isSome = true

section

variable {τ : Type} {fields : List (FieldPart τ)}

theorem role_of_mem_indexParts {p : IndexPart} (h : p ∈ fields.flatMap (·.indexParts)) :
    p.role ≠ .none ∧ (p.kind = .local → p.role = .sort) := by
  obtain ⟨f, -, hf⟩ := List.mem_flatMap.1 h
  rcases (FieldPart.mem_indexParts.1 hf).2 with ⟨hkind, hrole, -⟩ | ⟨-, hrole, -⟩ | ⟨-, hrole, -⟩
  · rw [hkind, hrole]
    exact ⟨nofun, nofun⟩
  · rw [hrole]
    exact ⟨nofun, fun _ => rfl⟩
  · rw [hrole]
    exact ⟨nofun, fun _ => rfl⟩

theorem IndexDeclaration.FormedBy.localKey {x : IndexDeclaration} (h : x.FormedBy (fields.flatMap (·.indexParts)))
    (hkind : x.kind = .local) {p : IndexPart} (hp : p ∈ fields.flatMap (·.indexParts)) (hindex : p.index = x.name) :
    x.partition = none ∧ x.sort.isSome = true := by
  have hlocal : p.kind = .local := (h.kind p hp hindex).trans hkind
  have hsort : p.role = .sort := (role_of_mem_indexParts hp).2 hlocal
  refine ⟨Option.eq_none_iff_forall_ne_some.2 fun name hname => ?_, ?_⟩
  · have hrole := (role_of_mem_indexParts ((h.partition name).1 hname)).2 hkind
    cases hrole
  · obtain ⟨index, kind, role, name⟩ := p
    obtain ⟨rfl, rfl, rfl⟩ : index = x.name ∧ kind = .local ∧ role = .sort := ⟨hindex, hlocal, hsort⟩
    exact Option.isSome_iff_exists.2 ⟨name, (h.sort name).2 (hkind ▸ hp)⟩

/-- **The indexes of a record are those its fields form.** -/
theorem collectIndexes_spec {indexes : List IndexDeclaration} (h : collectIndexes fields = .ok indexes) :
    IndexesOf fields indexes := by
  unfold collectIndexes at h
  obtain ⟨entries, hentries, h⟩ := bind_eq_ok.1 h
  rw [foldlM_addIndexes] at hentries
  have hcollected := Collected.nil.foldlM (fun p hp => (role_of_mem_indexParts hp).1) hentries
  obtain ⟨hsorted, hfound, hmissing⟩ := List.nil_append _ ▸ hcollected
  have hentry : ∀ e ∈ entries, e.2.name = e.1 ∧ e.2.FormedBy (fields.flatMap (·.indexParts)) ∧
      ∃ p ∈ fields.flatMap (·.indexParts), p.index = e.1 :=
    fun e he => hfound e.1 e.2 ((Entries.mem_iff_get? hsorted).1 he)
  dsimp only at h
  split at h
  · cases h
  · next hglobal =>
    cases h
    refine ⟨?_, fun x hx => ?_, fun p hp => ?_, fun x hx hkind => ?_, fun x hx hkind => ?_⟩
    · rw [List.map_map, List.Nodup, List.pairwise_map]
      refine hsorted.imp_of_mem fun {e e'} he he' hlt heq => ?_
      rw [Function.comp_apply, Function.comp_apply, (hentry e he).1, (hentry e' he').1] at heq
      exact String.lt_irrefl _ (heq ▸ hlt)
    · obtain ⟨e, he, rfl⟩ := List.mem_map.1 hx
      exact (hentry e he).2.1
    · cases hfind : entries.get? p.index with
      | none => exact absurd rfl (hmissing p.index hfind p hp)
      | some x => exact ⟨x, List.mem_map.2 ⟨_, (Entries.mem_iff_get? hsorted).2 hfind, rfl⟩,
          (hfound p.index x hfind).1⟩
    · have hnot := List.find?_eq_none.1 hglobal x hx
      rw [hkind] at hnot
      simpa [Option.isSome_iff_ne_none] using hnot
    · obtain ⟨e, he, rfl⟩ := List.mem_map.1 hx
      obtain ⟨hname, hformed, p, hp, hindex⟩ := hentry e he
      exact hformed.localKey hkind hp (hindex.trans hname.symm)

end
end ItemStore
