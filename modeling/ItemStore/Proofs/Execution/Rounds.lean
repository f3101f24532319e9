import Mathlib.Data.List.Forall2
import Mathlib.Data.List.Perm.Subperm
import ItemStore.Execution.Batches
import ItemStore.Proofs.Execution.Conversation
/-!
# The rounds of a batch

Each part of a batch is submitted in rounds: the entries that a round has left undone are those of the next, unless the
round has failed or no more may follow (`batchRounds_talks`).  The parts go one after the other, whatever becomes of
them (`batchRuns_talks`).
-/
namespace ItemStore

/-! ## Parts of a list -/

section Chunks
variable {α : Type} (n : Nat)

theorem flatten_chunks (xs : List α) : (chunks n xs).flatten = xs := by
  fun_induction chunks n xs with
  | case1 => rfl
  | case2 x xs ih => rw [List.flatten_cons, ih, List.cons_append, List.take_append_drop]

theorem ne_nil_of_mem_chunks {xs part : List α} (h : part ∈ chunks n xs) : part ≠ [] := by
  fun_induction chunks n xs with
  | case1 => cases h
  | case2 x xs ih =>
    rcases List.mem_cons.1 h with rfl | h
    · exact List.cons_ne_nil x _
    · exact ih h

theorem length_le_of_mem_chunks {n : Nat} (hn : 0 < n) {xs part : List α} (h : part ∈ chunks n xs) :
    part.length ≤ n := by
  fun_induction chunks n xs with
  | case1 => cases h
  | case2 x xs ih =>
    rcases List.mem_cons.1 h with rfl | h
    · have htake : (xs.take (n - 1)).length ≤ n - 1 := List.length_take_le _ _
      rw [List.length_cons]
      omega
    · exact ih h

end Chunks

section Parts
variable {α : Type} {size : Nat} {good : α → Prop}

/-- Entries that make a part of a batch, none of them one that the store refuses. -/
structure FitFor (size : Nat) (good : α → Prop) (entries : List α) : Prop where
  ne_nil : entries ≠ []
  length_le : entries.length ≤ size
  good : ∀ e ∈ entries, good e

theorem FitFor.of_sublist {entries rest : List α} (h : FitFor size good entries) (hsub : rest.Sublist entries)
    (hne : rest ≠ []) : FitFor size good rest :=
  ⟨hne, Nat.le_trans hsub.length_le h.length_le, fun e he => h.good e (hsub.subset he)⟩

theorem FitFor.of_mem_chunks {n : Nat} {xs part : List α} (hn : 0 < n) (hmost : n ≤ size) (hgood : ∀ x ∈ xs, good x)
    (hpart : part ∈ chunks n xs) : FitFor size good part where
  ne_nil := ne_nil_of_mem_chunks n hpart
  length_le := Nat.le_trans (length_le_of_mem_chunks hn hpart) hmost
  good := fun x hx => hgood x (flatten_chunks n xs ▸ List.mem_flatten_of_mem hpart hx)

theorem Table.sizeFits_of_fitFor {entries : List α} (h : FitFor size good entries) : sizeFits size entries = true := by
  simp [sizeFits, h.ne_nil, h.length_le]

end Parts

/-! ## Rounds -/

variable {ε : Type}

/-- The request of a round. -/
def BatchKind.request (kind : BatchKind ε) (base : Request) (entries : List ε) : Request :=
  { base with operation := kind.operation entries }

/-- What one round sends, and how often. -/
structure Round (ε : Type) where
  entries : List ε
  times : Nat

/-- The requests of a round. -/
def Round.requests (kind : BatchKind ε) (base : Request) (round : Round ε) : List Request :=
  List.replicate round.times (kind.request base round.entries)

/-- If the exchange is a round of a batch that is answered, then what is left undone is a part of what was sent. -/
def BatchKind.LeavesPart (kind : BatchKind ε) (e : Exchange) : Prop :=
  ∀ sent response, e.1.operation = kind.operation sent → e.2 = .ok response → (kind.undone response).Subperm sent

/-- What is said in the rounds of one part, up to `left` of them after the first, and how they go. -/
inductive Rounds (x : Executor) (kind : BatchKind ε) (base : Request) :
    Nat → List ε → List (List Exchange) → BatchRun ε → Prop where
  | failed {left : Nat} {entries : List ε} {talk : List Exchange} {e : Error} :
      Submission (kind.request base entries) 0 x.retries talk (.error e) →
      Rounds x kind base left entries [talk] { failed := entries.map fun entry => (entry, e) }
  | answered {left : Nat} {entries : List ε} {talk : List Exchange} {response : Response} :
      Submission (kind.request base entries) 0 x.retries talk (.ok response) →
      (kind.undone response = [] ∨ left = 0) →
      Rounds x kind base left entries [talk] { answered := [(entries, response)], undone := kind.undone response }
  | again {left : Nat} {entries : List ε} {talk : List Exchange} {response : Response} {talks : List (List Exchange)}
      {run : BatchRun ε} :
      Submission (kind.request base entries) 0 x.retries talk (.ok response) → kind.undone response ≠ [] →
      Rounds x kind base left (kind.undone response) talks run →
      Rounds x kind base (left + 1) entries (talk :: talks)
        { run with answered := (entries, response) :: run.answered }

section Rounds
variable {x : Executor} {kind : BatchKind ε} {base : Request} {left : Nat} {entries : List ε}

theorem Submission.round {talk : List Exchange} {result : Except Error Response}
    (h : Submission (kind.request base entries) 0 x.retries talk result) :
    talk.map Prod.fst = Round.requests kind base ⟨entries, talk.length⟩ ∧ 1 ≤ talk.length ∧
      talk.length ≤ x.retry.totalAttempts := by
  obtain ⟨hrequests, hleast, hmost⟩ := h.requests
  exact ⟨hrequests, hleast, x.retries_succ ▸ hmost⟩

theorem Submission.leaves_part {talk : List Exchange} {response : Response}
    (h : Submission (kind.request base entries) 0 x.retries talk (.ok response))
    (hparts : ∀ e ∈ talk, kind.LeavesPart e) : (kind.undone response).Subperm entries := by
  obtain ⟨failing, rfl, -⟩ := h.of_ok
  exact hparts _ (List.mem_append_right _ List.mem_cons_self) entries response rfl rfl

/-- The rounds of a part: the first sends all of it, and no more than `left` follow.  All have something to send, but no
more than `size` entries, and send it until it is not throttled or may not be sent again. -/
structure SentIn (x : Executor) (left size : Nat) (entries : List ε) (rounds : List (Round ε)) : Prop where
  first : rounds.head?.map (·.entries) = some entries
  few : rounds.length ≤ left + 1
  fit : ∀ round ∈ rounds, round.entries ≠ [] ∧ round.entries.length ≤ size
  times : ∀ round ∈ rounds, 1 ≤ round.times ∧ round.times ≤ x.retry.totalAttempts

/-- A part that is not submitted again has had one round. -/
theorem Submission.exists_sentIn {talk : List Exchange} {result : Except Error Response}
    (h : Submission (kind.request base entries) 0 x.retries talk result) {size : Nat}
    (hfit : entries ≠ [] ∧ entries.length ≤ size) : ∃ rounds, SentIn x left size entries rounds ∧
      [talk].flatten.map Prod.fst = rounds.flatMap (Round.requests kind base) := by
  obtain ⟨hrequests, htimes⟩ := h.round
  refine ⟨[⟨entries, talk.length⟩], ⟨rfl, Nat.le_add_left 1 left, List.forall_mem_singleton.2 hfit,
    List.forall_mem_singleton.2 htimes⟩, ?_⟩
  rw [List.flatten_singleton, hrequests, List.flatMap_singleton]

/-- If no round leaves more undone than it was to do, then all of them are of the size of the first. -/
theorem Rounds.exists_sentIn {talks : List (List Exchange)} {run : BatchRun ε} {size : Nat}
    (h : Rounds x kind base left entries talks run) (hparts : ∀ e ∈ talks.flatten, kind.LeavesPart e)
    (hfit : entries ≠ [] ∧ entries.length ≤ size) :
    ∃ rounds, SentIn x left size entries rounds ∧
      talks.flatten.map Prod.fst = rounds.flatMap (Round.requests kind base) := by
  induction h with
  | failed h => exact h.exists_sentIn hfit
  | answered h _ => exact h.exists_sentIn hfit
  | @again left entries talk response talks run h hundone _ ih =>
    rw [List.flatten_cons, List.forall_mem_append] at hparts
    have hsize := Nat.le_trans (h.leaves_part hparts.1).length_le hfit.2
    obtain ⟨rounds, hrounds, hlater⟩ := ih hparts.2 ⟨hundone, hsize⟩
    obtain ⟨hrequests, htimes⟩ := h.round
    refine ⟨⟨entries, talk.length⟩ :: rounds, ⟨rfl, Nat.succ_le_succ hrounds.few,
      List.forall_mem_cons.2 ⟨hfit, hrounds.fit⟩, List.forall_mem_cons.2 ⟨htimes, hrounds.times⟩⟩, ?_⟩
    rw [List.flatten_cons, List.map_append, hrequests, hlater, List.flatMap_cons]

end Rounds

/-! ## All parts -/

/-- One part of a batch, with what was said in each of its rounds and how they have gone. -/
structure PartTalk (ε : Type) where
  entries : List ε
  talks : List (List Exchange)
  run : BatchRun ε

/-- If no round leaves more undone than it was to do, then each part is sent in rounds of its size. -/
theorem exists_sentIn_of_steps {x : Executor} {kind : BatchKind ε} {base : Request} {left size : Nat} :
    ∀ {steps : List (PartTalk ε)}, (∀ s ∈ steps, Rounds x kind base left s.entries s.talks s.run) →
    (∀ s ∈ steps, s.entries ≠ [] ∧ s.entries.length ≤ size) →
    (∀ e ∈ steps.flatMap (·.talks.flatten), kind.LeavesPart e) →
    ∃ rounds, List.Forall₂ (SentIn x left size) (steps.map (·.entries)) rounds ∧
      (steps.flatMap (·.talks.flatten)).map Prod.fst = rounds.flatten.flatMap (Round.requests kind base)
  | [], _, _, _ => ⟨[], .nil, rfl⟩
  | s :: steps, hsteps, hfit, hparts => by
    rw [List.flatMap_cons, List.forall_mem_append] at hparts
    obtain ⟨hs, hsteps⟩ := List.forall_mem_cons.1 hsteps
    obtain ⟨hsfit, hfit⟩ := List.forall_mem_cons.1 hfit
    obtain ⟨part, hpart, hrequests⟩ := hs.exists_sentIn hparts.1 hsfit
    obtain ⟨rounds, hrounds, hlater⟩ := exists_sentIn_of_steps hsteps hfit hparts.2
    refine ⟨part :: rounds, .cons hpart hrounds, ?_⟩
    rw [List.flatMap_cons, List.map_append, hrequests, hlater, List.flatten_cons, List.flatMap_append]

namespace Executor
variable {σ : Type} [Client σ] (x : Executor) (kind : BatchKind ε) (base : Request)

/-- **What is left undone is submitted again, unless a round has failed or no more may follow.** -/
theorem batchRounds_talks (made left : Nat) (entries : List ε) (w : World σ) :
    ∃ talks, Talks w.client talks.flatten (x.batchRounds kind base made left entries w).2.client ∧
      Rounds x kind base left entries talks (x.batchRounds kind base made left entries w).1 := by
  fun_induction batchRounds x kind base made left entries w with
  | case1 made left entries w e w' hsubmit =>
    obtain ⟨talk, htalk, h⟩ := x.submit_talks hsubmit
    exact ⟨[talk], List.flatten_singleton ▸ htalk, .failed h⟩
  | case2 made left entries w response w' hsubmit hnone =>
    obtain ⟨talk, htalk, h⟩ := x.submit_talks hsubmit
    have hrounds : Rounds x kind base left entries [talk] ⟨[(entries, response)], kind.undone response, []⟩ :=
      .answered h (.inl hnone)
    rw [hnone] at hrounds
    exact ⟨[talk], List.flatten_singleton ▸ htalk, hrounds⟩
  | case3 made entries w response w' hsubmit _ =>
    obtain ⟨talk, htalk, h⟩ := x.submit_talks hsubmit
    exact ⟨[talk], List.flatten_singleton ▸ htalk, .answered h (.inr rfl)⟩
  | case4 made entries w response w' hsubmit left run w'' hundone hrun ih =>
    obtain ⟨talk, htalk, h⟩ := x.submit_talks hsubmit
    obtain ⟨talks, htalks, hrounds⟩ := ih
    rw [hrun] at htalks hrounds
    exact ⟨talk :: talks, htalk.append htalks, .again h hundone hrounds⟩

/-- **The parts are submitted one after the other, whatever becomes of them.** -/
theorem batchRuns_talks : ∀ (parts : List (List ε)) (w : World σ),
    ∃ steps : List (PartTalk ε), steps.map (·.entries) = parts ∧
      steps.map (·.run) = (x.batchRuns kind base parts w).1 ∧
      Talks w.client (steps.flatMap (·.talks.flatten)) (x.batchRuns kind base parts w).2.client ∧
      ∀ s ∈ steps, Rounds x kind base x.retry.maxAttempts s.entries s.talks s.run
  | [], w => ⟨[], rfl, rfl, .silence w.client, List.forall_mem_nil _⟩
  | part :: parts, w => by
    obtain ⟨talks, htalks, hrounds⟩ := x.batchRounds_talks kind base 0 x.retry.maxAttempts part w
    obtain ⟨steps, hentries, hruns, hrest, hall⟩ :=
      batchRuns_talks parts (x.batchRounds kind base 0 x.retry.maxAttempts part w).2
    exact ⟨⟨part, talks, _⟩ :: steps, congrArg (part :: ·) hentries, congrArg (_ :: ·) hruns, htalks.append hrest,
      List.forall_mem_cons.2 ⟨hrounds, hall⟩⟩

end Executor

/-- An executor that cuts batches into parts of two and retries once. -/
def Samples.pairs : Executor := ⟨{ retry := .quick 1, batchGetSize := 2, batchWriteSize := 2 }, rfl⟩

end ItemStore
