import ItemStore.Proofs.Expression.Mentions
import ItemStore.Proofs.Request.Acceptance
import ItemStore.Request.Samples
/-!
# Bindings made for their texts

What a writer binds at the end is what its texts have used: no placeholder stands for two things, a name has one only,
and the placeholders in the texts are those that are bound, of a value once (`Wrote.fitFor`).  A builder starts a
writer, writes all texts of its plan with it and takes the bindings, so the same holds of every plan (`Built.recorded`).
-/
namespace ItemStore

open Token (placeholders)

/-! ## Texts and bindings -/

/-- The bindings are those of the placeholders in these texts. -/
structure Bindings.FitFor (b : Bindings) (texts : List (Option String)) : Prop where
  /-- The store can split every text into tokens. -/
  scans : ∀ text, some text ∈ texts → ∃ ts, Token.scan text.toList = .ok ts
  /-- A placeholder stands for one name, and a name has one placeholder. -/
  names_nodup : (b.names.map Prod.fst).Nodup ∧ (b.names.map Prod.snd).Nodup
  values_nodup : (b.values.map Prod.fst).Nodup
  /-- The placeholders of names in the texts are those that are bound. -/
  mem_names : ∀ p, .name p ∈ texts.flatMap placeholders ↔ p ∈ b.names.map Prod.fst
  /-- A placeholder of a value is in the texts once if it is bound, and not at all if it is not. -/
  count_values : ∀ p, (texts.flatMap placeholders).count (.value p) = if p ∈ b.values.map Prod.fst then 1 else 0

/-- What a placeholder is bound to. -/
def Bindings.mention? (b : Bindings) : Token → Option Mention
  | .name p => (b.names.get? p).map .name
  | .value p => (b.values.get? p).map .value
  | _ => none

namespace Writer

/-! ## All that a writer has written -/

/-- From one state to the other the writer has written these texts, in this order, for these mentions. -/
def Wrote (w w' : Writer) (texts : List (Option String)) (mss : List (List Mention)) : Prop :=
  ∃ uss : List (List Use), (∀ text, some text ∈ texts → ∃ ts, Token.scan text.toList = .ok ts) ∧
    texts.map placeholders = uss.map (List.map Use.token) ∧ Hands w w' uss.flatten ∧
    uss.map (List.map Use.mention) = mss

section Wrote
variable {w w' w'' : Writer} {text : String} {texts texts' : List (Option String)} {ms : List Mention}
  {mss mss' : List (List Mention)}

theorem Records.wrote (h : Records w w' text ms) : Wrote w w' [some text] [ms] := by
  obtain ⟨us, hholds, hhands, rfl⟩ := h
  refine ⟨[us], fun text' htext => ?_, ?_, ?_, rfl⟩
  · obtain ⟨ts, hscan, -⟩ := hholds
    cases List.mem_singleton.1 htext
    exact ⟨ts, hscan.scan_eq⟩
  · rw [List.map_singleton, hholds.placeholders_eq, List.map_singleton]
  · rwa [List.flatten_singleton]

/-- What is not asked for is not written. -/
theorem Wrote.absent (w : Writer) : Wrote w w [none] [[]] := ⟨[[]], by simp, rfl, .refl w, rfl⟩

theorem Wrote.nil (w : Writer) : Wrote w w [] [] := ⟨[], by simp, rfl, .refl w, rfl⟩

theorem Wrote.append (h : Wrote w w' texts mss) (h' : Wrote w' w'' texts' mss') :
    Wrote w w'' (texts ++ texts') (mss ++ mss') := by
  obtain ⟨uss, hscans, htokens, hhands, rfl⟩ := h
  obtain ⟨vss, hscans', htokens', hhands', rfl⟩ := h'
  refine ⟨uss ++ vss, fun text htext => ?_, ?_, ?_, List.map_append⟩
  · exact (List.mem_append.1 htext).elim (hscans text) (hscans' text)
  · rw [List.map_append, htokens, htokens', List.map_append]
  · rw [List.flatten_append]
    exact hhands.trans hhands'

end Wrote

theorem wrote_conjunction (w : Writer) : ∀ cs : List Condition,
    Wrote w (w.conjunction cs).2 [(w.conjunction cs).1] [cs.flatMap Condition.mentions]
  | [] => .absent w
  | [c] => by
    rw [List.flatMap_singleton]
    exact (records_condition w c).wrote
  | c :: d :: cs => (records_joined (recordsAll_conditionList w (c :: d :: cs))).wrote

theorem wrote_projection? (w : Writer) (names : List String) :
    Wrote w (w.projection? names).2 [(w.projection? names).1] [names.map .name] := by
  by_cases hnames : names = []
  · rw [projection?, if_pos hnames, hnames]
    exact .absent w
  · rw [projection?, if_neg hnames]
    exact (records_projection w names).wrote

/-! ## Runs of calls -/

/-- The text that a call writes. -/
def text (w : Writer) : Call → Option String
  | .name a => some (w.name a).1
  | .value v => some (w.value v).1
  | .condition c => some (w.condition c).1
  | .conjunction cs => (w.conjunction cs).1
  | .update us => some (w.update us).1
  | .projection names => some (w.projection names).1

/-- The texts that calls write, one after the other. -/
def texts (w : Writer) : List Call → List (Option String)
  | [] => []
  | c :: calls => w.text c :: (w.call c).texts calls

/-- What a call is handed. -/
def Call.mentions : Call → List Mention
  | name a => [.name a]
  | value v => [.value v]
  | condition c => c.mentions
  | conjunction cs => cs.flatMap Condition.mentions
  | update us => UpdateAction.mentionsAll us
  | projection names => names.map .name

theorem wrote_call (w : Writer) (c : Call) : Wrote w (w.call c) [w.text c] [c.mentions] := by
  cases c with
  | name a => exact (records_name w a).wrote
  | value v => exact (records_value w v).wrote
  | condition c => exact (records_condition w c).wrote
  | conjunction cs => exact wrote_conjunction w cs
  | update us => exact (records_update w us).wrote
  | projection names => exact (records_projection w names).wrote

theorem wrote_run : ∀ (calls : List Call) (w : Writer), Wrote w (w.run calls) (w.texts calls) (calls.map Call.mentions)
  | [], w => .nil w
  | c :: calls, w => (wrote_call w c).append (wrote_run calls (w.call c))

/-! ## What has been bound in the end -/

theorem map_fst_boundNames (w : Writer) :
    w.boundNames.map Prod.fst = (List.range w.names.length).map namePlaceholder := by
  rw [boundNames, List.map_map, List.range_eq_range', ← List.zipIdx_map_snd 0 w.names, List.map_map]
  rfl

theorem map_snd_boundNames (w : Writer) : w.boundNames.map Prod.snd = w.names := by
  rw [boundNames, List.map_map]
  exact List.zipIdx_map_fst 0 w.names

theorem map_fst_boundValues (w : Writer) :
    w.boundValues.map Prod.fst = (List.range w.values.length).map valuePlaceholder := by
  rw [boundValues, List.map_map, List.range_eq_range', ← List.zipIdx_map_snd 0 w.values, List.map_map]
  rfl

theorem nodup_fst_boundNames (w : Writer) : (w.boundNames.map Prod.fst).Nodup := by
  rw [map_fst_boundNames]
  exact List.nodup_range.map fun _ _ => namePlaceholder_injective

theorem nodup_fst_boundValues (w : Writer) : (w.boundValues.map Prod.fst).Nodup := by
  rw [map_fst_boundValues]
  exact List.nodup_range.map fun _ _ => valuePlaceholder_injective

theorem Use.StandsIn.mention?_token {w : Writer} :
    ∀ {u : Use}, u.StandsIn w → w.bindings.mention? u.token = some u.mention
  | .name i _, h => congrArg (Option.map Mention.name) ((get?_boundNames w i).trans h)
  | .value i _, h => congrArg (Option.map Mention.value) ((get?_boundValues w i).trans h)

/-- The placeholders of values among all, by their numbers. -/
theorem count_value (p : String) : ∀ us : List Use, (us.map Use.token).count (.value p) =
    ((us.filterMap Use.valueNumber?).map valuePlaceholder).count p
  | [] => rfl
  | .name i a :: us => by
    have hne : (Use.name i a).token ≠ .value p := fun h => by cases h
    rw [List.map_cons, List.count_cons_of_ne hne, count_value p us]
    rfl
  | .value i v :: us => by
    have hnumber : (Use.value i v :: us).filterMap Use.valueNumber? = i :: us.filterMap Use.valueNumber? := rfl
    rw [List.map_cons, List.count_cons, count_value p us, hnumber, List.map_cons, List.count_cons]
    congr 2
    simp [Use.token]

section Finished
variable {w : Writer} {us : List Use} {texts : List (Option String)} {mss : List (List Mention)}

/-- The placeholders of names that have been used are those of the names there are. -/
theorem Hands.name_mem_tokens (h : Hands empty w us) (p : String) :
    .name p ∈ us.map Use.token ↔ p ∈ w.boundNames.map Prod.fst := by
  rw [map_fst_boundNames, List.mem_map, List.mem_map]
  constructor
  · rintro ⟨u, hu, htoken⟩
    cases u with
    | value i v => cases htoken
    | name i a =>
      cases htoken
      exact ⟨i, List.mem_range.2 (List.getElem?_eq_some_iff.1 (h.stands _ hu)).1, rfl⟩
  · rintro ⟨i, hi, rfl⟩
    -- the name with that number was mentioned, and it has no other number
    have hi := List.mem_range.1 hi
    have hmentioned := ((h.mem_names w.names[i]).1 (List.getElem_mem hi)).resolve_left List.not_mem_nil
    obtain ⟨u, hu, hmention⟩ := List.mem_map.1 hmentioned
    cases u with
    | value j v => cases hmention
    | name j a =>
      obtain ⟨hj, ha⟩ := List.getElem?_eq_some_iff.1 (h.stands _ hu)
      have hsame : j = i :=
        (List.Nodup.getElem_inj_iff (h.nodup List.nodup_nil)).1 (ha.trans (Mention.name.inj hmention))
      exact ⟨_, hu, hsame ▸ rfl⟩

/-- The placeholder of each value there is has been used once. -/
theorem Hands.count_value_tokens (h : Hands empty w us) (p : String) :
    (us.map Use.token).count (.value p) = if p ∈ w.boundValues.map Prod.fst then 1 else 0 := by
  obtain ⟨n, hn, hperm⟩ := h.values
  have hlength : w.values.length = n := by simpa [empty] using hn
  have hperm : (us.filterMap Use.valueNumber?).Perm (List.range w.values.length) := by
    rw [hlength, List.range_eq_range']
    exact hperm
  rw [count_value, (hperm.map valuePlaceholder).count_eq, ← map_fst_boundValues, w.nodup_fst_boundValues.count]

theorem Wrote.mem_names (h : Wrote empty w texts mss) (a : String) : a ∈ w.names ↔ .name a ∈ mss.flatten := by
  obtain ⟨uss, -, -, hhands, rfl⟩ := h
  rw [hhands.mem_names, ← List.map_flatten]
  simp [empty]

/-- Each placeholder is bound to what it was written for. -/
theorem Wrote.mentions_eq (h : Wrote empty w texts mss) :
    texts.map (fun text => (placeholders text).map w.bindings.mention?) = mss.map (List.map some) := by
  obtain ⟨uss, -, htokens, hhands, rfl⟩ := h
  have hcomp : (fun text => (placeholders text).map w.bindings.mention?) =
      List.map w.bindings.mention? ∘ placeholders := rfl
  rw [hcomp, ← List.map_map, htokens, List.map_map, List.map_map]
  refine List.map_congr_left fun us hus => ?_
  rw [Function.comp, Function.comp, List.map_map, List.map_map]
  exact List.map_congr_left fun u hu => (hhands.stands u (List.mem_flatten.2 ⟨us, hus, hu⟩)).mention?_token

/-- **What is bound is what the texts have used.** -/
theorem Wrote.fitFor (h : Wrote empty w texts mss) : w.bindings.FitFor texts := by
  obtain ⟨uss, hscans, htokens, hhands, -⟩ := h
  have hall : texts.flatMap placeholders = uss.flatten.map Use.token := by
    rw [List.flatMap_def, htokens, List.map_flatten]
  refine ⟨hscans, ⟨w.nodup_fst_boundNames, ?_⟩, w.nodup_fst_boundValues, fun p => ?_, fun p => ?_⟩
  · exact w.map_snd_boundNames.symm ▸ hhands.nodup List.nodup_nil
  · rw [hall]
    exact hhands.name_mem_tokens p
  · rw [hall]
    exact hhands.count_value_tokens p

end Finished
end Writer

/-! ## Plans -/

/-- The text that is part of an operation. -/
def Operation.text? : Operation → Option String
  | query keyCondition => some keyCondition
  | update _ text => some text
  | _ => none

namespace PlanOf

/-- All texts of a plan. -/
def texts (p : Plan) : List (Option String) :=
  [p.operation.text?, p.expressions.filter, p.expressions.condition, p.expressions.projection]

/-- The plans that a transaction is made of. -/
def parts (p : Plan) : List Plan :=
  match p.operation with
  | .transaction writes _ => writes
  | _ => []

/-- A builder has made the plan. -/
inductive Built (p : Plan) : Prop where
  | read (r : ReadRequest) : r.build = .ok p → Built p
  | write (w : SingleWrite) : w.build = .ok p → Built p
  | several (r : SeveralItems) : r.build = .ok p → Built p

/-- A writer has written the texts of the plan, and these are its bindings. -/
def Recorded (p : Plan) : Prop := ∃ w mss, Writer.Wrote .empty w p.texts mss ∧ w.bindings = p.expressions.bindings

theorem Recorded.fitFor {p : Plan} (h : p.Recorded) : p.expressions.bindings.FitFor p.texts := by
  obtain ⟨w, mss, hwrote, hbindings⟩ := h
  exact hbindings ▸ hwrote.fitFor

end PlanOf

open PlanOf (Recorded)

section Builders
variable {w : Writer} {p : Plan} {ms : List Mention}

/-- A paged read writes its filters and its projection behind what is written already. -/
theorem PagedRead.recorded_plan (r : PagedRead) (op : Operation) (h : Writer.Wrote .empty w [op.text?] [ms]) :
    (r.plan op w).Recorded := by
  have hfilter := w.wrote_conjunction r.filters
  have hprojection := (w.conjunction r.filters).2.wrote_projection? r.projection
  exact ⟨_, _, h.append (hfilter.append ((Writer.Wrote.absent _).append hprojection)), rfl⟩

/-- A write writes its conditions behind what is written already. -/
theorem ItemWrite.recorded_plan (r : ItemWrite) (op : Operation) (h : Writer.Wrote .empty w [op.text?] [ms]) :
    (r.plan op w).Recorded := by
  have hcondition := w.wrote_conjunction r.conditions
  exact ⟨_, _, h.append ((Writer.Wrote.absent w).append (hcondition.append (.absent _))), rfl⟩

/-- Where nothing but a projection is asked for, there is no other text. -/
theorem PlanOf.recorded_projecting {p : Plan} (names : List String) (hop : p.operation.text? = none)
    (he : p.expressions = .projecting names) : p.Recorded := by
  have habsent := Writer.Wrote.absent .empty
  have hwrote := habsent.append (habsent.append (habsent.append (Writer.empty.wrote_projection? names)))
  exact ⟨_, _, by rw [texts, hop, he]; exact hwrote, (congrArg Expressions.bindings he).symm⟩

/-- The two parts of a key condition are written one behind the other. -/
theorem Query.wrote_writeKeyCondition (w : Writer) (partition : Condition) (sort : Option Condition) :
    ∃ ms, Writer.Wrote w (writeKeyCondition w partition sort).2 [some (writeKeyCondition w partition sort).1] [ms] := by
  cases sort with
  | none => exact ⟨_, (w.records_condition partition).wrote⟩
  | some c =>
    obtain ⟨us, hpartition, hhands, -⟩ := w.records_condition partition
    obtain ⟨vs, hsort, hhands', -⟩ := (w.condition partition).2.records_condition c
    have htext (a b : String) : s!"{a} AND {b}".toList = a.toList ++ ' ' :: ("AND".toList ++ ' ' :: b.toList) := by
      simp [toString]
    have hholds := hpartition.spaced (Writer.holds_and.spaced hsort)
    rw [← htext, List.nil_append, ← List.map_append] at hholds
    exact ⟨_, Writer.Records.wrote ⟨us ++ vs, hholds, hhands.trans hhands', rfl⟩⟩

theorem ReadRequest.recorded_of_build {r : ReadRequest} (h : r.build = .ok p) : p.Recorded ∧ p.parts = [] := by
  cases r with
  | get g =>
    obtain ⟨_, -, -, rfl⟩ := Get.build_eq_ok_iff.1 h
    exact ⟨PlanOf.recorded_projecting g.projection rfl rfl, rfl⟩
  | query q =>
    obtain ⟨key, partition, sort, -, -, -, -, rfl⟩ := Query.exists_of_build h
    obtain ⟨ms, hwrote⟩ := Query.wrote_writeKeyCondition .empty partition sort
    exact ⟨q.recorded_plan (.query _) hwrote, rfl⟩
  | scan q =>
    obtain ⟨_, -, -, -, -, -, -, rfl⟩ := Scan.build_eq_ok_iff.1 h
    exact ⟨q.recorded_plan .scan (.absent .empty), rfl⟩

theorem SingleWrite.recorded_of_build {s : SingleWrite} (h : s.build = .ok p) : p.Recorded ∧ p.parts = [] := by
  cases s with
  | put w =>
    obtain ⟨_, -, -, -, rfl⟩ := Put.build_eq_ok_iff.1 h
    exact ⟨w.recorded_plan (.put _) (.absent .empty), rfl⟩
  | update u =>
    obtain ⟨_, -, -, -, rfl⟩ := Update.build_eq_ok_iff.1 h
    exact ⟨u.recorded_plan (.update _ _) (Writer.empty.records_update u.actions).wrote, rfl⟩
  | delete d =>
    obtain ⟨_, -, -, -, rfl⟩ := Delete.build_eq_ok_iff.1 h
    exact ⟨d.recorded_plan (.delete _) (.absent .empty), rfl⟩

/-- A batch of writes and a transaction have no texts, but the members of a transaction do. -/
theorem SeveralItems.recorded_of_build {r : SeveralItems} (h : r.build = .ok p) :
    p.Recorded ∧ ∀ m ∈ p.parts, m.Recorded := by
  cases r with
  | reads b =>
    obtain ⟨-, _, -, -, -, rfl⟩ := BatchGet.build_eq_ok_iff.1 h
    exact ⟨PlanOf.recorded_projecting b.projection rfl rfl, List.forall_mem_nil _⟩
  | writes b =>
    obtain ⟨-, _, -, -, rfl⟩ := BatchWrite.build_eq_ok_iff.1 h
    exact ⟨PlanOf.recorded_projecting [] rfl rfl, List.forall_mem_nil _⟩
  | transaction tx =>
    obtain ⟨-, -, -, members, hmembers, -, rfl⟩ := Transaction.build_eq_ok_iff.1 h
    refine ⟨PlanOf.recorded_projecting [] rfl rfl, fun m hm => ?_⟩
    obtain ⟨member, hmember, rfl⟩ := List.mem_map.1 hm
    obtain ⟨s, -, hs⟩ := Outcome.exists_of_mem_mapM hmembers member hmember
    exact (s.recorded_of_build (SingleWrite.build_of_member hs).1).1

theorem PlanOf.Built.recorded (h : p.Built) : ∀ m ∈ p :: p.parts, m.Recorded := by
  have halone : p.Recorded ∧ p.parts = [] → ∀ m ∈ p :: p.parts, m.Recorded := by
    rintro ⟨hp, hparts⟩
    rw [hparts]
    simpa using hp
  cases h with
  | read r h => exact halone (ReadRequest.recorded_of_build h)
  | write w h => exact halone (SingleWrite.recorded_of_build h)
  | several r h => exact List.forall_mem_cons.2 (SeveralItems.recorded_of_build h)

end Builders

/-- **What is bound is what the texts use.**  Whatever calls there are on a writer, in the end each name that was
mentioned has one placeholder and each placeholder one name; each placeholder in the texts is bound to what it was
written for, that of a value is in the texts once, and no other placeholder is bound.  So it is with the plan of every
builder, and with each member of a transaction. -/
theorem bindings_are_what_texts_use :
    (∀ calls : List Writer.Call,
      let w := Writer.empty.run calls
      let texts := Writer.empty.texts calls
      w.bindings.FitFor texts ∧
      (∀ a, a ∈ w.bindings.names.map Prod.snd ↔ .name a ∈ calls.flatMap Writer.Call.mentions) ∧
      texts.map (fun text => (placeholders text).map w.bindings.mention?) = calls.map fun c => c.mentions.map some) ∧
    ∀ p : Plan, p.Built → ∀ m ∈ p :: p.parts, m.expressions.bindings.FitFor m.texts := by
  constructor
  · intro calls w texts
    have hwrote := Writer.wrote_run calls .empty
    refine ⟨hwrote.fitFor, fun a => ?_, ?_⟩
    · rw [List.flatMap_def, ← hwrote.mem_names, ← w.map_snd_boundNames]
      rfl
    · rw [hwrote.mentions_eq, List.map_map]
      rfl
  · intro p hp m hm
    exact (hp.recorded m hm).fitFor

/-- A payment speaks of the total in its update and in its condition, and compares it with a value of its own. -/
theorem bindings_are_what_texts_use_of_payment :
    ∃ p, (Samples.payOrder "7" "2024-05-01" 5).build = .ok p ∧ p.Built ∧ p.expressions.bindings.FitFor p.texts ∧
      p.texts = [some "SET #n0 = #n0 - :v0, #n1 = list_append(#n1, :v1), #n3 = :v3, #n4 = :v4 ADD #n2 :v2", none,
        some "#n0 >= :v5", none] ∧
      p.expressions.bindings.names.map Prod.snd = ["total", "history", "tags", "note", "coupon"] := by
  have hbuilt : (Samples.payOrder "7" "2024-05-01" 5).build = .ok _ := rfl
  have h := PlanOf.Built.write (.update _) hbuilt
  exact ⟨_, hbuilt, h, bindings_are_what_texts_use.2 _ h _ List.mem_cons_self, rfl, rfl⟩

end ItemStore
