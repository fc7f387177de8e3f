import MovingTarget.Proofs.Layered.Memory
import MovingTarget.Proofs.Snapshots
/-!
# The cooldown between two shuffles

A domain is shuffled for its score exactly when its mean score exceeds the threshold and its last
such shuffle, wherever in the run it was, is longer ago than the shortest interval. So two such
shuffles in a row are never as close together as the interval in force at the second.
-/
namespace MovingTarget

/-- When a domain was last shuffled for its score, in seconds; zero if it never was. -/
def lastShuffled {σ α : Type} [Scalar α] [Policy σ α] (es : List (Epoch σ α)) (d : DomainId) : α :=
  ((lastShuffling? es d .scoreDriven).map (·.snapshot.seconds)).getD 0.0

namespace Layered
variable {α : Type} [Scalar α]

/-- An epoch at the end of a run shuffles a domain for its score when the domain is hot and has
cooled down. -/
theorem shuffles_iff (threshold : α) (pace : Pace α) (level : RiskLevel) (calls : List (Call α))
    (s : Snapshot α) (d : DomainId) :
    let r := run (fresh threshold pace level) calls
    (r.state.evaluate s).decisions.any (·.shuffles d .scoreDriven) = true ↔
      ∃ x, s.domains.find? d = some x ∧ ¬ (x.summary s).meanScore ≤ r.state.threshold ∧
        ¬ s.seconds - lastShuffled r.epochs d ≤ r.state.pace.min := by
  intro r
  rw [evaluate_shuffles_scoreDriven, s.find?_summaries, Option.any_map, Option.any_eq_true]
  refine exists_congr fun x => and_congr_right fun _ => ?_
  have hl : r.state.lastShuffleTime d = lastShuffled r.epochs d := by
    rw [lastShuffleTime, run_lastShuffle, lastShuffled]
  rw [shuffleDue, hl, Bool.and_eq_true, Bool.not_eq_true', Bool.not_eq_true',
    decide_eq_false_iff_not, decide_eq_false_iff_not]

/-- Over a whole run, with domains that come and go and parameters that change, an epoch shuffles a
domain for its score exactly when the mean score exceeds the threshold and the last such shuffle
since the reset is longer ago than the shortest interval. Two such shuffles in a row are never as
close together as that. -/
theorem shuffled_iff_hot_and_cooled_down (threshold : α) (pace : Pace α) (level : RiskLevel)
    (calls : List (Call α)) (d : DomainId) :
    let r := run (fresh threshold pace level) calls
    let current := configured (fresh threshold pace level) calls
    (∀ s : Snapshot α,
      (∃ reason, .triggerShuffle d .scoreDriven reason ∈ (r.state.evaluate s).decisions) ↔
        ∃ x, s.domains.find? d = some x ∧ ¬ (x.summary s).meanScore ≤ current.threshold ∧
          ¬ s.seconds - lastShuffled r.epochs d ≤ current.pace.min) ∧
    ¬ ∃ before e₁ between e₂ after, r.epochs = before ++ e₁ :: between ++ e₂ :: after ∧
      e₁.shuffles d .scoreDriven = true ∧ e₂.shuffles d .scoreDriven = true ∧
      (∀ e ∈ between, e.shuffles d .scoreDriven = false) ∧
      e₂.snapshot.seconds - e₁.snapshot.seconds ≤ e₂.before.pace.min := by
  intro r current
  obtain ⟨ht, hp, -⟩ := run_parameters (fresh threshold pace level) calls
  refine ⟨fun s => ?_, ?_⟩
  · rw [← any_shuffles_iff, ← ht, ← hp]
    exact shuffles_iff threshold pace level calls s d
  · rintro ⟨before, e₁, between, e₂, after, hr, h₁, h₂, hb, hclose⟩
    -- The second shuffle fell at the end of a shorter run, whose last shuffle is the first one.
    obtain ⟨calls', hs, he⟩ := exists_run_of_epoch hr
    have hdue := (shuffles_iff threshold pace level calls' e₂.snapshot d).1 (hs ▸ h₂)
    obtain ⟨m, -, -, hfar⟩ := hdue
    have hlast : lastShuffling? (before ++ e₁ :: between) d .scoreDriven = some e₁ :=
      lastShuffling?_eq_some_iff.2 ⟨before, between, rfl, h₁, hb⟩
    rw [hs, he, lastShuffled, hlast] at hfar
    exact hfar hclose

end Layered
end MovingTarget
