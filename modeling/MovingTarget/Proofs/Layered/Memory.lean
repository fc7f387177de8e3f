import Mathlib.Data.List.Dedup
import MovingTarget.Proofs.Layered.Epoch
/-!
# What a run remembers

The memory of the layered policy is a function of the epochs since the last reset, and its
parameters are those of the calls that configured it: `run_parameters`, `run_lastShuffle` and
`run_history` hold after every run.
-/
namespace MovingTarget

/-- The mean scores of a domain in the epochs that it took part in, oldest first. -/
def averages {σ α : Type} [Scalar α] (es : List (Epoch σ α)) (d : DomainId) : List α :=
  es.filterMap fun e => (e.snapshot.summaries.find? d).map (·.meanScore)

theorem Snapshot.mem_keys_iff_summary {α : Type} [Scalar α] {s : Snapshot α} {d : DomainId} :
    d ∈ s.domains.keys ↔ ∃ m, s.summaries.find? d = some m := by
  rw [← Table.mem_keys_iff, Snapshot.summaries, Table.keys_mapValues]

theorem averages_concat {σ α : Type} [Scalar α] (es : List (Epoch σ α)) (e : Epoch σ α)
    (d : DomainId) :
    averages (es ++ [e]) d =
      averages es d ++ ((e.snapshot.summaries.find? d).map (·.meanScore)).toList := by
  rw [averages, List.filterMap_append]
  cases h : e.snapshot.summaries.find? d <;> simp [averages, h]

theorem averages_map {σ τ α : Type} [Scalar α] (f : σ → τ) (es : List (Epoch σ α)) (d : DomainId) :
    averages (es.map (Epoch.map f)) d = averages es d := by
  rw [averages, List.filterMap_map]
  rfl

/-- The domains of some epochs, each of them once. -/
def seen {σ α : Type} (es : List (Epoch σ α)) : List DomainId :=
  (es.flatMap fun e => e.snapshot.domains.keys).dedup

theorem mem_seen_iff {σ α : Type} [Scalar α] {es : List (Epoch σ α)} {d : DomainId} :
    d ∈ seen es ↔ averages es d ≠ [] := by
  rw [seen, List.mem_dedup, List.mem_flatMap, averages, Ne, List.filterMap_eq_nil_iff, not_forall]
  refine exists_congr fun e => ?_
  rw [Snapshot.mem_keys_iff_summary, Classical.not_imp, Option.map_eq_none_iff,
    ← Option.isSome_iff_exists, Option.isSome_iff_ne_none]

namespace Layered
variable {α : Type} [Scalar α]

omit [Scalar α] in
/-- A policy that has not run yet. -/
def fresh (threshold : α) (pace : Pace α) (level : RiskLevel) : Layered α :=
  ⟨threshold, pace, level, ∅, ∅, false⟩

/-- Running changes no parameter. -/
theorem run_parameters (p : Layered α) (calls : List (Call α)) :
    (run p calls).state.threshold = (configured p calls).threshold ∧
      (run p calls).state.pace = (configured p calls).pace ∧
      (run p calls).state.isolationLevel = (configured p calls).isolationLevel := by
  induction calls using List.reverseRecOn with
  | nil => exact ⟨rfl, rfl, rfl⟩
  | append_singleton calls c ih =>
    obtain ⟨ht, hp, hl⟩ := ih
    rw [run_concat, state_after, configured_concat]
    cases c with
    | evaluate s =>
      obtain ⟨ht', hp', hl'⟩ := evaluate_parameters (run p calls).state s
      exact ⟨ht'.trans ht, hp'.trans hp, hl'.trans hl⟩
    | configure given =>
      refine ⟨?_, ?_, hl⟩
      · change given.or _ _ = given.or _ _
        rw [ht]
      · change Pace.configure _ given = Pace.configure _ given
        rw [hp]
    | reset => exact ⟨ht, hp, hl⟩
    | event e => exact ⟨ht, hp, hl⟩

/-- The last shuffle of a domain is the last one that an epoch returned. -/
theorem run_lastShuffle (threshold : α) (pace : Pace α) (level : RiskLevel)
    (calls : List (Call α)) (d : DomainId) :
    let r := run (fresh threshold pace level) calls
    r.state.lastShuffle.find? d =
      (lastShuffling? r.epochs d .scoreDriven).map (·.snapshot.seconds) := by
  refine run_induction (motive := fun (p : Layered α) es => p.lastShuffle.find? d =
      (lastShuffling? es d .scoreDriven).map (·.snapshot.seconds))
    rfl ?_ (fun _ _ _ ih => ih) (fun _ _ _ ih => ih) (fun _ _ _ => rfl) calls
  intro p es s _ ih
  have hs : (⟨p, s⟩ : Epoch (Layered α) α).shuffles d .scoreDriven =
      (s.summaries.find? d).any (p.shuffleDue s.seconds d) :=
    evaluate_shuffles_scoreDriven p s d
  change (p.evaluate s).next.lastShuffle.find? d = _
  rw [evaluate_lastShuffle, lastShuffling?_concat, hs, ih]
  split <;> rfl

omit [Scalar α] in
theorem take_cons_take (n : Nat) (x : α) (l : List α) :
    (x :: l.take n).take n = (x :: l).take n := by
  cases n with
  | zero => rfl
  | succ n =>
    rw [List.take_succ_cons, List.take_succ_cons, List.take_take, Nat.min_eq_left (Nat.le_succ n)]

/-- Of the mean scores of a domain the newest are kept. -/
theorem run_history (threshold : α) (pace : Pace α) (level : RiskLevel)
    (calls : List (Call α)) (d : DomainId) :
    let r := run (fresh threshold pace level) calls
    r.state.history.find? d =
      if (averages r.epochs d).isEmpty then none
      else some ((averages r.epochs d).reverse.take historyCapacity) := by
  refine run_induction (motive := fun (p : Layered α) es => p.history.find? d =
      if (averages es d).isEmpty then none
      else some ((averages es d).reverse.take historyCapacity))
    rfl ?_ (fun _ _ _ ih => ih) (fun _ _ _ ih => ih) (fun _ _ _ => rfl) calls
  intro p es s _ ih
  change (p.evaluate s).next.history.find? d = _
  rw [evaluate_history, averages_concat]
  cases h : s.summaries.find? d with
  | none => simpa using ih
  | some m =>
    have hw : p.scores d = (averages es d).reverse.take historyCapacity := by
      rw [scores, ih]
      cases averages es d <;> simp
    -- The new score in front of the window pushes out what was pushed out of all scores.
    simp [window, hw, take_cons_take]

theorem run_scores (threshold : α) (pace : Pace α) (level : RiskLevel) (calls : List (Call α))
    (d : DomainId) :
    let r := run (fresh threshold pace level) calls
    r.state.scores d = (averages r.epochs d).reverse.take historyCapacity := by
  intro r
  rw [scores, run_history]
  cases averages r.epochs d <;> simp

/-! ## The newest scores are enough

The trend looks at five scores and the spike at three, so what the window drops is never missed.
-/

theorem trend?_take (l : List α) : trend? (l.take historyCapacity) = trend? l := by
  rcases l with _ | ⟨_, _ | ⟨_, _ | ⟨_, _ | ⟨_, _ | ⟨_, _⟩⟩⟩⟩⟩ <;> rfl

theorem spiked_take (l : List α) : spiked (l.take historyCapacity) = spiked l := by
  rcases l with _ | ⟨_, _ | ⟨_, _ | ⟨_, _⟩⟩⟩ <;> rfl

/-- A spike compares the last score of a domain with the one two before it. -/
theorem spiked_reverse_iff {l : List α} :
    spiked l.reverse = true ↔ ∃ older x y z, l = older ++ [x, y, z] ∧ spike < z - x := by
  obtain ⟨r, rfl⟩ : ∃ r, l = r.reverse := ⟨l.reverse, l.reverse_reverse.symm⟩
  rw [List.reverse_reverse]
  constructor
  · intro h
    rcases r with _ | ⟨z, _ | ⟨y, _ | ⟨x, rest⟩⟩⟩
    · cases h
    · cases h
    · cases h
    · exact ⟨rest.reverse, x, y, z, by simp, of_decide_eq_true h⟩
  · rintro ⟨older, x, y, z, he, h⟩
    have hr : r = z :: y :: x :: older.reverse := by
      rw [← List.reverse_reverse r, he]
      simp
    rw [hr]
    exact decide_eq_true h

end Layered
end MovingTarget
