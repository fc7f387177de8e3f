import MovingTarget.Proofs.Engine.Runs
import MovingTarget.Proofs.Tables
/-!
# What an engine publishes

The statistics of an engine hold its counters under names of their own and, under names that never
meet those, whatever its policy publishes.
-/
namespace MovingTarget.Engine

variable {σ α : Type} [Scalar α]

/-- The name under which an engine publishes a figure of its policy. -/
def policyFigure (name : String) : String := s!"algorithm.{name}"

theorem policyFigure_injective : policyFigure.Injective :=
  fun _ _ h => (String.append_right_inj "algorithm.").1 h

/-- What an engine has to say for itself. -/
def ownFigures (e : Engine σ α) : List (String × α) := [
  ("total_evaluations", Scalar.ofCount e.evaluations),
  ("total_decisions", Scalar.ofCount e.decisions),
  ("truncated_decisions", Scalar.ofCount e.dropped),
  ("avg_decisions_per_eval", e.meanDecisions)]

theorem nodup_ownFigures (e : Engine σ α) : (e.ownFigures.map (·.1)).Nodup := by
  simp [ownFigures]

theorem policyFigure_ne (e : Engine σ α) (name : String) :
    ∀ f ∈ e.ownFigures, policyFigure name ≠ f.1 := by
  have hlist : (policyFigure name).toList = "algorithm.".toList ++ name.toList :=
    String.toList_append
  simp [ownFigures, ← String.toList_inj, hlist]

variable [Policy σ α]

theorem find?_statistics_eq (e : Engine σ α) (name : String) :
    e.statistics.find? name =
      (((Policy.statistics e.policy).entries.map fun f => (policyFigure f.1, f.2)).reverse.lookup
        name).or (e.ownFigures.reverse.lookup name) := by
  rw [statistics, Table.find?_ofList, List.reverse_append, List.lookup_append]
  rfl

/-- No figure of the policy hides one of the engine. -/
theorem find?_statistics_own (e : Engine σ α) {name : String}
    (h : name ∈ e.ownFigures.map (·.1)) :
    e.statistics.find? name = e.ownFigures.lookup name := by
  obtain ⟨f, hf, rfl⟩ := List.mem_map.1 h
  have hpolicy : ((Policy.statistics e.policy).entries.map
      fun f => (policyFigure f.1, f.2)).reverse.lookup f.1 = none := by
    refine List.lookup_eq_none_iff.2 fun g hg => bne_iff_ne.2 fun hname => ?_
    obtain ⟨k, -, rfl⟩ := List.mem_map.1 (List.mem_reverse.1 hg)
    exact e.policyFigure_ne k.1 f hf hname.symm
  rw [find?_statistics_eq, hpolicy, Option.none_or, Table.lookup_reverse e.nodup_ownFigures]

/-- The counters are published as they are. -/
theorem find?_statistics (e : Engine σ α) :
    e.statistics.find? "total_evaluations" = some (Scalar.ofCount e.evaluations) ∧
    e.statistics.find? "total_decisions" = some (Scalar.ofCount e.decisions) ∧
    e.statistics.find? "truncated_decisions" = some (Scalar.ofCount e.dropped) ∧
    e.statistics.find? "avg_decisions_per_eval" = some e.meanDecisions :=
  ⟨e.find?_statistics_own (by simp [ownFigures]), e.find?_statistics_own (by simp [ownFigures]),
    e.find?_statistics_own (by simp [ownFigures]), e.find?_statistics_own (by simp [ownFigures])⟩

/-- A figure of the policy is published as the policy has it. -/
theorem find?_statistics_policy (e : Engine σ α) (name : String) :
    e.statistics.find? (policyFigure name) = (Policy.statistics e.policy).find? name := by
  have hown : e.ownFigures.reverse.lookup (policyFigure name) = none :=
    List.lookup_eq_none_iff.2 fun f hf =>
      bne_iff_ne.2 (e.policyFigure_ne name f (List.mem_reverse.1 hf))
  rw [find?_statistics_eq, hown, Option.or_none, ← List.map_reverse,
    Table.lookup_map_key policyFigure_injective, Table.lookup_reverse (Table.nodup_keys _)]
  rfl

end MovingTarget.Engine
