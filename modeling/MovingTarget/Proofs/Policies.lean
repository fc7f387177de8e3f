import MovingTarget.Policy.Catalogue
import MovingTarget.Proofs.Layered.Memory
/-!
# The built-in policies and their counters

A policy that has not run yet has its parameters and nothing else. Three of the policies count
what they propose; the count is that of the epochs since the last reset.
-/
namespace MovingTarget
variable {α : Type} [Scalar α]

namespace ScoreThreshold

omit [Scalar α] in
/-- A policy that has not run yet. -/
def fresh (threshold : α) : ScoreThreshold α := ⟨threshold, 0, 0⟩

theorem tallies_evaluations : Tallies (fun p : ScoreThreshold α => p.evaluations) fun _ => 1 :=
  ⟨fun _ _ => rfl, fun _ _ => rfl, fun _ _ => rfl, fun _ => rfl⟩

theorem tallies_shuffles :
    Tallies (fun p : ScoreThreshold α => p.shuffles) fun x => x.decisions.length where
  evaluate p s := by
    change p.shuffles + (p.exceeding s).length =
      p.shuffles + ((p.exceeding s).map p.decision).length
    rw [List.length_map]
  configure _ _ := rfl
  event _ _ := rfl
  reset _ := rfl

theorem find?_statistics (p : ScoreThreshold α) :
    (Policy.statistics p).find? "shuffles_triggered" = some (Scalar.ofCount p.shuffles) ∧
      (Policy.statistics p).find? "evaluations" = some (Scalar.ofCount p.evaluations) :=
  ⟨Table.find?_ofList _ _, Table.find?_ofList _ _⟩

end ScoreThreshold

namespace AdaptiveInterval

omit [Scalar α] in
/-- A policy that has not run yet. -/
def fresh (pace : Pace α) : AdaptiveInterval α := ⟨pace, 0⟩

theorem tallies_adjustments :
    Tallies (fun p : AdaptiveInterval α => p.adjustments) fun x => x.decisions.length where
  evaluate p s := by
    change p.adjustments + (p.mistimed s).length =
      p.adjustments + ((p.mistimed s).map p.decision).length
    rw [List.length_map]
  configure _ _ := rfl
  event _ _ := rfl
  reset _ := rfl

theorem find?_statistics (p : AdaptiveInterval α) :
    (Policy.statistics p).find? "frequency_adjustments" = some (Scalar.ofCount p.adjustments) :=
  Table.find?_ofList _ _

end AdaptiveInterval

namespace Isolation

omit [Scalar α] in
/-- A policy that has not run yet. -/
def fresh (domainName : String) : Isolation α := ⟨domainName, none, 0⟩

omit [Scalar α] in
theorem evaluate_domainName (p : Isolation α) (s : Snapshot α) :
    (p.evaluate s).next.domainName = p.domainName := by
  unfold evaluate
  dsimp only
  split <;> rfl

theorem tallies_migrations :
    Tallies (fun p : Isolation α => p.migrations) fun x => x.decisions.length where
  evaluate p s := by
    change (p.evaluate s).next.migrations = p.migrations + (p.evaluate s).decisions.length
    unfold evaluate
    dsimp only
    split
    · rfl
    · rw [List.length_map]
  configure _ _ := rfl
  event _ _ := rfl
  reset _ := rfl

theorem find?_statistics (p : Isolation α) :
    (Policy.statistics p).find? "users_isolated" = some (Scalar.ofCount p.migrations) := by
  refine (Table.find?_ofList _ _).trans ?_
  cases p.domain <;> rfl

end Isolation
end MovingTarget
