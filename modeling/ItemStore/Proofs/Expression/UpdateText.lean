import ItemStore.Proofs.Expression.Placeholders
import ItemStore.Proofs.Expression.UpdateEffect
import ItemStore.Proofs.Expression.UpdateGrammar
import ItemStore.Proofs.Parts
/-!
# The texts of updates

Each action is written as one change of one clause, and that change does to an item what the action does.  Gathering the
changes under their clauses takes the actions in another order, which is none that matters: they are on different
attributes.
-/
namespace ItemStore
namespace Writer

open Token (Scans)
open Formula (IsPath)

/-- An action with the clause and the text it is written as, and the change that the text is read as. -/
structure Piece where
  action : UpdateAction
  clause : Clause
  text : String
  change : Change

/-- Under the bindings of this state and of every later one, the change does what the action does, so long as the update
has not touched the attribute before. -/
structure Piece.Sound (w : Writer) (p : Piece) : Prop where
  spells : ∃ ts, Scans p.text.toList ts ∧ p.change.Spelled p.clause ts
  named : ∀ {w'}, Extends w w' → w'.bindings.name p.change.path = .ok p.action.name
  means : ∀ {w'}, Extends w w' → ∀ {before item : Item}, item.get? p.action.name = before.get? p.action.name →
    p.change.apply w'.bindings before item = p.action.apply item

theorem Piece.Sound.later {w w' : Writer} {p : Piece} (h : p.Sound w) (he : Extends w w') : p.Sound w' :=
  ⟨h.spells, fun he' => h.named (he.trans he'), fun he' => h.means (he.trans he')⟩

/-! ## One action -/

section Actions

variable {w w' : Writer} {n p a : String} {v : Value}

theorem NameAs.eval (hn : NameAs w n a) (he : Extends w w') {before item : Item} (h : item.get? a = before.get? a) :
    (Term.path n).eval w'.bindings before = UpdateAction.oldValue item a := by
  rw [Term.eval, hn.bound he]
  simp only [bind, Except.bind, UpdateAction.oldValue, h]
  cases before.get? a <;> rfl

theorem ValueAs.eval (hp : ValueAs w p v) (he : Extends w w') (item : Item) :
    (Term.value p).eval w'.bindings item = .ok v := by
  rw [Term.eval, hp.bound he]

theorem apply_set {x : Term} (hn : NameAs w n a) (he : Extends w w') (before item : Item) :
    (Change.set n x).apply w'.bindings before item =
      (x.eval w'.bindings before).map fun v => Entries.write item a (some v) := by
  unfold Change.apply
  rw [Change.path, hn.bound he]
  simp only [bind, Except.bind, pure, Except.pure]
  cases x.eval w'.bindings before <;> rfl

theorem sound_set (hn : NameAs w n a) (hp : ValueAs w p v) :
    Piece.Sound w ⟨.set a v, .set, s!"{n} = {p}", .set n (.value p)⟩ where
  spells := by
    refine ⟨_, ?_, .set (.name n) (.operand (.value p))⟩
    have htext : s!"{n} = {p}".toList = n.toList ++ ' ' :: (Comparator.eq.symbol.toList ++ ' ' :: p.toList) := by
      simp [toString, Comparator.symbol]
    rw [htext]
    exact hn.scans.comparison .eq hp.scans
  named he := hn.bound he
  means he before item _ := by
    rw [apply_set hn he, hp.eval he, UpdateAction.apply_eq_map]
    rfl

/-- The tokens of `n = n + p`, with a sign for a `+` or a `-`. -/
theorem scans_setSum {c : Char} {t : Token} (hc : Scans [c] [t]) (hn : NameAs w n a) (hp : ValueAs w p v)
    {text : String} (htext : text.toList =
      n.toList ++ ' ' :: ('=' :: ' ' :: (n.toList ++ ' ' :: (c :: ' ' :: p.toList)))) :
    Scans text.toList (.name n :: .compare .eq :: ([.name n] ++ t :: [.value p])) := by
  rw [htext]
  exact hn.scans.comparison .eq (hn.scans.spaced (hc.spaced hp.scans))

theorem sound_increment {x : Numeral} (hn : NameAs w n a) (hp : ValueAs w p (.number x)) :
    Piece.Sound w ⟨.increment a x, .set, s!"{n} = {n} + {p}", .set n (.plus (.path n) (.value p))⟩ where
  spells := ⟨_, scans_setSum Token.scans_plus hn hp (by simp [toString]),
    .set (.name n) (.plus (.path (.name n)) (.value p))⟩
  named he := hn.bound he
  means he before item h := by
    rw [apply_set hn he, Term.eval, hn.eval he h, hp.eval he, UpdateAction.apply_eq_map, UpdateAction.newValue]
    cases UpdateAction.oldValue item a with
    | error fault => rfl
    | ok old => simp only [bind, Except.bind]; cases Value.arithmetic false old (.number x) <;> rfl

theorem sound_decrement {x : Numeral} (hn : NameAs w n a) (hp : ValueAs w p (.number x)) :
    Piece.Sound w ⟨.decrement a x, .set, s!"{n} = {n} - {p}", .set n (.minus (.path n) (.value p))⟩ where
  spells := ⟨_, scans_setSum Token.scans_minus hn hp (by simp [toString]),
    .set (.name n) (.minus (.path (.name n)) (.value p))⟩
  named he := hn.bound he
  means he before item h := by
    rw [apply_set hn he, Term.eval, hn.eval he h, hp.eval he, UpdateAction.apply_eq_map, UpdateAction.newValue]
    cases UpdateAction.oldValue item a with
    | error fault => rfl
    | ok old => simp only [bind, Except.bind]; cases Value.arithmetic true old (.number x) <;> rfl

theorem sound_append (hn : NameAs w n a) (hp : ValueAs w p v) :
    Piece.Sound w ⟨.append a v, .set, s!"{n} = list_append({n}, {p})", .set n (.append (.path n) (.value p))⟩ where
  spells := by
    refine ⟨_, ?_, .set (.name n) (.operand (.append (.path (.name n)) (.value p)))⟩
    have hf : Scans "list_append".toList [.keyword .listAppend] := Token.scans_keywordText (by decide) (by decide)
    have htext : s!"{n} = list_append({n}, {p})".toList = n.toList ++ ' ' :: (Comparator.eq.symbol.toList ++
        ' ' :: ("list_append".toList ++ ('(' :: (n.toList ++ ',' :: ' ' :: p.toList) ++ [')']))) := by
      simp [toString, Comparator.symbol]
    rw [htext]
    exact hn.scans.comparison .eq (hf.call (hn.scans.listed hp.scans))
  named he := hn.bound he
  means he before item h := by
    rw [apply_set hn he, Term.eval, hn.eval he h, hp.eval he, UpdateAction.apply_eq_map, UpdateAction.newValue]
    cases UpdateAction.oldValue item a with
    | error fault => rfl
    | ok old => simp only [bind, Except.bind]; cases old.append v <;> rfl

theorem sound_remove (hn : NameAs w n a) : Piece.Sound w ⟨.remove a, .remove, n, .remove n⟩ where
  spells := ⟨_, hn.scans, .remove (.name n)⟩
  named he := hn.bound he
  means he before item _ := by
    unfold Change.apply
    rw [Change.path, hn.bound he, UpdateAction.apply_eq_map]
    rfl

theorem scans_nameValue (hn : NameAs w n a) (hp : ValueAs w p v) :
    Scans s!"{n} {p}".toList [.name n, .value p] := by
  have htext : s!"{n} {p}".toList = n.toList ++ ' ' :: p.toList := by simp [toString]
  rw [htext]
  exact hn.scans.spaced hp.scans

theorem sound_add (hn : NameAs w n a) (hp : ValueAs w p v) :
    Piece.Sound w ⟨.add a v, .add, s!"{n} {p}", .add n (.value p)⟩ where
  spells := ⟨_, scans_nameValue hn hp, .add (.name n) (.value p)⟩
  named he := hn.bound he
  means he before item _ := by
    unfold Change.apply
    rw [Change.path, hn.bound he, UpdateAction.apply_eq_map, UpdateAction.newValue]
    simp only [bind, Except.bind, hp.eval he]
    cases Value.add (item.get? a) v <;> rfl

/-- A DELETE leaves an item as it is that lacks the attribute; so does taking the attribute away. -/
theorem sound_delete (hn : NameAs w n a) (hp : ValueAs w p v) :
    Piece.Sound w ⟨.delete a v, .delete, s!"{n} {p}", .delete n (.value p)⟩ where
  spells := ⟨_, scans_nameValue hn hp, .delete (.name n) (.value p)⟩
  named he := hn.bound he
  means he before item _ := by
    unfold Change.apply
    rw [Change.path, hn.bound he, UpdateAction.apply_eq_map, UpdateAction.newValue]
    simp only [bind, Except.bind, hp.eval he]
    cases hget : item.get? a with
    | none =>
      show Except.ok item = .ok (item.remove a)
      rw [Entries.remove_of_absent hget]
    | some old => cases hold : old.delete v <;> simp only [hold] <;> rfl

end Actions

/-- **Every action is written as a piece that does what it does.** -/
theorem exists_piece (w : Writer) (u : UpdateAction) : ∃ p : Piece, p.Sound (w.action u).2.2 ∧ p.action = u ∧
    (p.clause, p.text) = ((w.action u).1, (w.action u).2.1) := by
  cases u with
  | set a v => exact ⟨_, sound_set (nameAs_nameValue w a v) (valueAs_nameValue w a v), rfl, rfl⟩
  | remove a => exact ⟨_, sound_remove (nameAs_name w a), rfl, rfl⟩
  | increment a x => exact ⟨_, sound_increment (nameAs_nameValue w a _) (valueAs_nameValue w a _), rfl, rfl⟩
  | decrement a x => exact ⟨_, sound_decrement (nameAs_nameValue w a _) (valueAs_nameValue w a _), rfl, rfl⟩
  | add a v => exact ⟨_, sound_add (nameAs_nameValue w a v) (valueAs_nameValue w a v), rfl, rfl⟩
  | delete a v => exact ⟨_, sound_delete (nameAs_nameValue w a v) (valueAs_nameValue w a v), rfl, rfl⟩
  | append a v => exact ⟨_, sound_append (nameAs_nameValue w a v) (valueAs_nameValue w a v), rfl, rfl⟩

theorem exists_pieces (w : Writer) : ∀ us : List UpdateAction, ∃ ps : List Piece,
    (∀ p ∈ ps, p.Sound (w.actionList us).2) ∧ ps.map Piece.action = us ∧
    ps.map (fun p => (p.clause, p.text)) = (w.actionList us).1
  | [] => ⟨[], fun _ h => by (cases h), rfl, rfl⟩
  | u :: us => by
    obtain ⟨p, hp, haction, htext⟩ := exists_piece w u
    obtain ⟨ps, hps, hactions, htexts⟩ := exists_pieces (w.action u).2.2 us
    refine ⟨p :: ps, ?_, ?_, ?_⟩
    · intro q hq
      rcases List.mem_cons.1 hq with rfl | hq
      · exact hp.later (extends_actionList _ us)
      · exact hps q hq
    · rw [List.map_cons, haction, hactions]
    · rw [List.map_cons, htext, htexts]
      rfl

/-! ## Clauses -/

def gathered (ps : List Piece) (k : Clause) : List Piece := ps.filter fun p => p.clause == k

theorem clause_of_mem_gathered {ps : List Piece} {k : Clause} {p : Piece} (h : p ∈ gathered ps k) :
    p ∈ ps ∧ p.clause = k := by
  obtain ⟨hp, hk⟩ := List.mem_filter.1 h
  exact ⟨hp, beq_iff_eq.1 hk⟩

theorem Clause.mem_all (k : Clause) : k ∈ Clause.all := by cases k <;> decide

/-- What is gathered under its clauses is the same pieces, in another order. -/
theorem gathered_perm (ps : List Piece) : (Clause.all.flatMap (gathered ps)).Perm ps :=
  perm_flatMap_filter Piece.clause (by decide) fun p _ => p.clause.mem_all

/-- The text is that of a clause with these changes. -/
def SpellsClause (text : String) (k : Clause) (cs : List Change) : Prop :=
  ∃ ts, Scans text.toList (k.token :: ts) ∧ Change.AllSpelled k cs ts

/-- The texts of clauses, with blanks between them, are that of an update with these changes. -/
def SpellsUpdate : List String → List Change → Prop
  | [], cs => cs = []
  | text :: texts, cs => ∃ k, SpellsClause (" ".intercalate (text :: texts)) k cs

theorem SpellsClause.update {text : String} {k : Clause} {cs : List Change} (h : SpellsClause text k cs) :
    ∀ {texts : List String} {ds : List Change}, SpellsUpdate texts ds → SpellsUpdate (text :: texts) (cs ++ ds)
  | [], ds, hd => by
    rw [show ds = [] from hd, List.append_nil]
    exact ⟨k, h⟩
  | next :: texts, ds, hd => by
    obtain ⟨ts, hscan, hspell⟩ := h
    obtain ⟨k', us, hscan', hspell'⟩ := hd
    refine ⟨k, ts ++ k'.token :: us, ?_, hspell.append hspell'⟩
    rw [String.toList_intercalate] at hscan' ⊢
    exact hscan.spaced hscan'

theorem spells_commas {k : Clause} : ∀ {p : Piece} {ps : List Piece},
    (∀ q ∈ p :: ps, ∃ ts, Scans q.text.toList ts ∧ q.change.Spelled k ts) →
    ∃ ts, Scans (", ".intercalate (p.text :: ps.map Piece.text)).toList ts ∧
      Change.AllSpelled k (p.change :: ps.map Piece.change) ts
  | p, [], h => by
    obtain ⟨ts, hscan, hspell⟩ := h p List.mem_cons_self
    refine ⟨ts, ?_, .last hspell⟩
    rw [List.map_nil, String.toList_intercalate, List.map_cons, List.map_nil, List.intercalate_singleton]
    exact hscan
  | p, q :: ps, h => by
    obtain ⟨ts, hscan, hspell⟩ := h p List.mem_cons_self
    obtain ⟨us, hscan', hspell'⟩ := spells_commas fun r hr => h r (List.mem_cons_of_mem p hr)
    refine ⟨ts ++ .comma :: us, ?_, .comma hspell hspell'⟩
    rw [String.toList_intercalate] at hscan' ⊢
    exact hscan.listed hscan'

theorem scans_clauseKeyword (k : Clause) : Scans k.keyword.toList [k.token] := by
  cases k <;> exact Token.scans_keywordText (by decide) (by decide)

/-- The texts of some clauses spell the changes that are gathered under them. -/
theorem spellsUpdate_clauses {w : Writer} {ps : List Piece} (h : ∀ p ∈ ps, p.Sound w) : ∀ ks : List Clause,
    SpellsUpdate (ks.filterMap (clauseText? (ps.map fun p => (p.clause, p.text))))
      ((ks.flatMap (gathered ps)).map Piece.change)
  | [] => rfl
  | k :: ks => by
    have hrest := spellsUpdate_clauses h ks
    have htexts : ((ps.map fun p => (p.clause, p.text)).filter fun q => q.1 == k).map Prod.snd =
        (gathered ps k).map Piece.text := by
      rw [List.filter_map, List.map_map]
      rfl
    rw [List.flatMap_cons, List.map_append]
    cases hps : gathered ps k with
    | nil =>
      have hnone : clauseText? (ps.map fun p => (p.clause, p.text)) k = none := by
        rw [clauseText?, htexts, hps]
        rfl
      rw [List.filterMap_cons_none hnone]
      exact hrest
    | cons p more =>
      have hsome : clauseText? (ps.map fun p => (p.clause, p.text)) k =
          some (k.keyword ++ " " ++ ", ".intercalate (p.text :: more.map Piece.text)) := by
        rw [clauseText?, htexts, hps]
        rfl
      have hspells : ∀ q ∈ p :: more, ∃ ts, Scans q.text.toList ts ∧ q.change.Spelled k ts := by
        intro q hq
        rw [← hps] at hq
        obtain ⟨hmem, rfl⟩ := clause_of_mem_gathered hq
        exact (h q hmem).spells
      obtain ⟨ts, hscan, hspell⟩ := spells_commas hspells
      rw [List.filterMap_cons_some hsome]
      refine SpellsClause.update ⟨ts, ?_, hspell⟩ hrest
      rw [String.toList_append, String.toList_append, List.append_assoc]
      exact (scans_clauseKeyword k).spaced hscan

theorem SpellsUpdate.parse : ∀ {texts : List String} {cs : List Change}, SpellsUpdate texts cs → cs ≠ [] →
    Change.parse (" ".intercalate texts) = .ok cs
  | [], _, h, hne => absurd h hne
  | text :: texts, cs, h, _ => by
    obtain ⟨k, ts, hscan, hspell⟩ := h
    rw [Change.parse, hscan.scan_eq]
    exact Change.ofTokens_of_spelled hspell

/-! ## Whole updates -/

/-- The changes of pieces on different attributes, each on what the ones before have made, are the actions one after
the other: none of them has touched an attribute that a later one reads. -/
theorem applyAll_changes {w w' : Writer} (he : Extends w w') : ∀ {ps : List Piece}, (∀ p ∈ ps, p.Sound w) →
    (ps.map fun p => p.action.name).Nodup → ∀ {before item : Item},
    (∀ p ∈ ps, item.get? p.action.name = before.get? p.action.name) →
    (ps.map Piece.change).foldlM (Change.apply w'.bindings before) item =
      UpdateAction.applyAll item (ps.map Piece.action)
  | [], _, _, _, _, _ => rfl
  | p :: ps, hps, hd, before, item, hsame => by
    obtain ⟨hnot, hd'⟩ := List.nodup_cons.1 hd
    rw [List.map_cons, List.map_cons, List.foldlM_cons, UpdateAction.applyAll_cons,
      (hps p List.mem_cons_self).means he (hsame p List.mem_cons_self)]
    cases happ : p.action.apply item with
    | error fault => rfl
    | ok next =>
      refine applyAll_changes he (fun q hq => hps q (List.mem_cons_of_mem p hq)) hd' fun q hq => ?_
      -- SET reads the item as it was, the others what has been made of it; on this attribute the two are the same.
      have hne : q.action.name ≠ p.action.name := fun h => hnot (List.mem_map.2 ⟨q, hq, h⟩)
      rw [UpdateAction.get?_apply_of_ne happ hne]
      exact hsame q (List.mem_cons_of_mem p hq)

/-- The pieces of an update, and the changes that its text is read as. -/
theorem exists_changes (w : Writer) {us : List UpdateAction} (hne : us ≠ []) : ∃ ps : List Piece,
    (∀ p ∈ ps, p.Sound (w.update us).2) ∧ ps.map Piece.action = us ∧
    Change.parse (w.update us).1 = .ok ((Clause.all.flatMap (gathered ps)).map Piece.change) := by
  obtain ⟨ps, hps, rfl, htexts⟩ := exists_pieces w us
  refine ⟨ps, hps, rfl, ?_⟩
  have hspells := spellsUpdate_clauses hps Clause.all
  rw [htexts] at hspells
  refine hspells.parse fun hnil => hne ?_
  rw [List.map_eq_nil_iff] at hnil ⊢
  exact (hnil ▸ gathered_perm ps).nil_eq.symm

/-- The changes of an update name the attributes of its actions. -/
theorem update_names (w : Writer) {us : List UpdateAction} (hne : us ≠ []) {w' : Writer}
    (he : Extends (w.update us).2 w') {cs : List Change} (hcs : Change.parse (w.update us).1 = .ok cs) :
    ∃ names, cs.mapM (fun c => w'.bindings.name c.path) = .ok names ∧ names.Perm (us.map UpdateAction.name) := by
  obtain ⟨ps, hps, rfl, hparse⟩ := exists_changes w hne
  obtain rfl : cs = _ := Except.ok.inj (hcs.symm.trans hparse)
  have hperm := gathered_perm ps
  refine ⟨_, Outcome.mapM_map_eq_ok fun p hp => (hps p (hperm.mem_iff.1 hp)).named he, ?_⟩
  rw [List.map_map]
  exact hperm.map _

/-- The changes of an update do what its actions do, taken in the order of their clauses. -/
theorem exists_taken (w : Writer) {us : List UpdateAction} (hne : us ≠ []) (hd : (us.map UpdateAction.name).Nodup)
    {w' : Writer} (he : Extends (w.update us).2 w') {cs : List Change} (hcs : Change.parse (w.update us).1 = .ok cs)
    (item : Item) : ∃ taken : List UpdateAction, taken.Perm us ∧
      Change.applyAll w'.bindings item cs = UpdateAction.applyAll item taken := by
  obtain ⟨ps, hps, rfl, hparse⟩ := exists_changes w hne
  obtain rfl : cs = _ := Except.ok.inj (hcs.symm.trans hparse)
  have hperm := gathered_perm ps
  have hd' : ((Clause.all.flatMap (gathered ps)).map fun p => p.action.name).Nodup := by
    rw [List.map_map] at hd
    exact (hperm.map _).nodup_iff.2 hd
  exact ⟨_, hperm.map _, applyAll_changes he (fun p hp => hps p (hperm.mem_iff.1 hp)) hd' fun _ _ => rfl⟩

/-- What is written for some actions on different attributes is read as changes that do what the actions do. -/
theorem update_spec (w : Writer) {us : List UpdateAction} (hne : us ≠ []) (hd : (us.map UpdateAction.name).Nodup) :
    ∃ cs, Change.parse (w.update us).1 = .ok cs ∧ ∀ {w'}, Extends (w.update us).2 w' →
      ∀ {item : Item}, item.Sorted →
      (Change.applyAll w'.bindings item cs).toOption = (UpdateAction.applyAll item us).toOption := by
  obtain ⟨_, -, -, hparse⟩ := exists_changes w hne
  refine ⟨_, hparse, fun he item hs => ?_⟩
  obtain ⟨taken, hperm, heq⟩ := exists_taken w hne hd he hparse item
  rw [heq]
  exact UpdateAction.applyAll_perm hperm hd hs

/-- If the changes of an update do not go through, then one of its actions is blocked by the item as it was. -/
theorem exists_blocked (w : Writer) {us : List UpdateAction} (hne : us ≠ []) (hd : (us.map UpdateAction.name).Nodup)
    {w' : Writer} (he : Extends (w.update us).2 w') {cs : List Change} (hcs : Change.parse (w.update us).1 = .ok cs)
    {item : Item} {fault : ExpressionFault} (h : Change.applyAll w'.bindings item cs = .error fault) :
    ∃ u ∈ us, u.BlockedOn item fault := by
  obtain ⟨taken, hperm, heq⟩ := exists_taken w hne hd he hcs item
  obtain ⟨u, hu, hblocked⟩ := UpdateAction.exists_blocked_of_applyAll ((hperm.map _).nodup_iff.2 hd) (heq.symm.trans h)
  exact ⟨u, hperm.mem_iff.1 hu, hblocked⟩

end Writer

namespace UpdateAction

theorem nodup_of_validateAfter {shape : Descriptor} : ∀ {us : List UpdateAction} {seen : List String},
    validateAfter shape seen us = .ok () → (us.map name).Nodup ∧ ∀ u ∈ us, u.name ∉ seen
  | [], _, _ => ⟨List.nodup_nil, fun _ h => by cases h⟩
  | u :: us, seen, h => by
    rw [validateAfter] at h
    obtain ⟨_, _, h⟩ := Outcome.bind_eq_ok.1 h
    split at h
    · cases h
    · next hnot =>
      obtain ⟨hd, hseen⟩ := nodup_of_validateAfter h
      refine ⟨List.nodup_cons.2 ⟨fun hmem => ?_, hd⟩, fun v hv => ?_⟩
      · obtain ⟨v, hv, hname⟩ := List.mem_map.1 hmem
        exact hseen v hv (hname ▸ List.mem_cons_self)
      · rcases List.mem_cons.1 hv with rfl | hv
        · exact hnot
        · exact fun hmem => hseen v hv (List.mem_cons_of_mem _ hmem)

/-- A valid update has actions, and they are on different attributes. -/
theorem distinct_of_validateAll {shape : Descriptor} {us : List UpdateAction} (h : validateAll shape us = .ok ()) :
    us ≠ [] ∧ (us.map name).Nodup := by
  unfold validateAll at h
  split at h
  · cases h
  · next hne => exact ⟨hne, (nodup_of_validateAfter h).1⟩

end UpdateAction
/-- **Written updates do as they are meant, in whatever order.**  From any state of a writer, the text of actions on
different attributes can be read, and what is read does to an item what the actions do one after the other: it fails
where they do and gives the same item otherwise, under the bindings of the writer then or after any further calls.  The
actions in another order come to the same, written or not. -/
theorem written_updates_do_as_meant (w : Writer) {us : List UpdateAction} (hne : us ≠ [])
    (hd : (us.map UpdateAction.name).Nodup) {vs : List UpdateAction} (hperm : vs.Perm us) :
    ∃ cs, Change.parse (w.update vs).1 = .ok cs ∧ ∀ item : Named Value,
      (UpdateAction.applyAll item.entries vs).toOption = (UpdateAction.applyAll item.entries us).toOption ∧
      ∀ later : List Writer.Call,
        (Change.applyAll ((w.update vs).2.run later).bindings item.entries cs).toOption =
          (UpdateAction.applyAll item.entries us).toOption := by
  have hne' : vs ≠ [] := fun hnil => hne (hnil ▸ hperm).nil_eq.symm
  have hd' : (vs.map UpdateAction.name).Nodup := (hperm.map _).nodup_iff.2 hd
  obtain ⟨cs, hparse, hdo⟩ := Writer.update_spec w hne' hd'
  refine ⟨cs, hparse, fun item => ?_⟩
  have hsame := UpdateAction.applyAll_perm hperm hd item.sorted
  refine ⟨hsame, fun later => ?_⟩
  rw [hdo (Writer.extends_run later _) item.sorted, hsame]

/-- A payment as the shape allows it, written after a condition: the clauses come in another order than the actions. -/
theorem written_updates_do_as_meant_of_payment :
    let w := Writer.empty.run [.condition (.present "total")]
    let attributes : List Attribute :=
      [⟨"id", .string, false, false, .partition⟩, ⟨"total", .number, false, false, .none⟩,
        ⟨"tags", .stringSet, true, false, .none⟩, ⟨"note", .string, true, false, .none⟩]
    let shape : Descriptor := ⟨"Order", "orders", attributes, ⟨"id", none⟩, []⟩
    let us : List UpdateAction :=
      [.delete "tags" (.stringSet ["open"]), .remove "note", .decrement "total" (.ofInt 5)]
    UpdateAction.validateAll shape us = .ok () ∧ us ≠ [] ∧ (us.map UpdateAction.name).Nodup ∧ us.reverse.Perm us ∧
    ∃ cs, Change.parse (w.update us.reverse).1 = .ok cs ∧ ∀ item : Named Value,
      (UpdateAction.applyAll item.entries us.reverse).toOption = (UpdateAction.applyAll item.entries us).toOption ∧
      ∀ later : List Writer.Call,
        (Change.applyAll ((w.update us.reverse).2.run later).bindings item.entries cs).toOption =
          (UpdateAction.applyAll item.entries us).toOption := by
  intro w attributes shape us
  have hvalid : UpdateAction.validateAll shape us = .ok () := rfl
  obtain ⟨hne, hd⟩ := UpdateAction.distinct_of_validateAll hvalid
  exact ⟨hvalid, hne, hd, List.reverse_perm us, written_updates_do_as_meant w hne hd (List.reverse_perm us)⟩

end ItemStore
