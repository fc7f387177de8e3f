import MovingTarget.Engine.Basic
import MovingTarget.Proofs.Decimal.Exact
/-!
# Scores that are shown, kept and classified

A score is brought into the unit interval by the scorer, and once more by the update that carries
it. The second time changes nothing, whatever the arithmetic made of weights and signals
(`unit_next`): this takes comparisons only, and what is no number ends at zero. So one score is what
the scorer comes to, what the update carries, what its reason shows and what its level is found for,
in every update of a chain (`rescoreAll_eq`).
-/
namespace MovingTarget
open Scalar

section Chains
variable {σ α : Type} [Scalar α]

omit [Scalar α] in
/-- The score that an update carries. -/
def Decision.score? : Decision α → Option α
  | .updateScore _ score _ => some score
  | _ => none

namespace Engine

/-- The engine with this scorer. -/
def withScorer (e : Engine σ α) (k : Scorer α) : Engine σ α :=
  { e with tools := { e.tools with score := fun _ => k.next } }

/-- Score one observation after the other, each time from the score that the last update carries. -/
def rescoreAll (e : Engine σ α) (current : α) : List (UserId × Observation α) → List (Decision α)
  | [] => []
  | (u, o) :: rest =>
    let update := e.rescore u o current
    update :: e.rescoreAll (update.score?.getD current) rest

end Engine

namespace Scorer

/-- The scores that a scorer comes to by itself, each of them from the one before. -/
def trail (k : Scorer α) (current : α) : List (UserId × Observation α) → List α
  | [] => []
  | (_, o) :: rest => k.next o current :: k.trail (k.next o current) rest

theorem length_trail (k : Scorer α) (current : α) (calls : List (UserId × Observation α)) :
    (k.trail current calls).length = calls.length := by
  induction calls generalizing current with
  | nil => rfl
  | cons call rest ih => exact congrArg (· + 1) (ih _)

end Scorer

/-- Why a score is updated: what it is now, and the level that this is. -/
def rescoredTo (score : α) (level : RiskLevel) : String :=
  s!"Rescored to {fixed 3 score} ({Vocabulary.name level})"

/-- The reason tells the levels apart. -/
theorem rescoredTo_inj {score : α} {level level' : RiskLevel} :
    rescoredTo score level = rescoredTo score level' ↔ level = level' := by
  refine ⟨fun h => ?_, fun h => h ▸ rfl⟩
  have hnames : Vocabulary.name level = Vocabulary.name level' :=
    (String.append_right_inj _).1 ((String.append_left_inj _).1 h)
  revert hnames
  cases level <;> cases level' <;> decide

/-! ## One update -/

section Comparisons
variable (h : Comparable α) (hunit : (0.0 : α) ≤ 1.0)
include h hunit

theorem Scorer.next_mem (k : Scorer α) (o : Observation α) (current : α) :
    0.0 ≤ k.next o current ∧ k.next o current ≤ 1.0 := h.unit_mem hunit _

/-- What a scorer comes to is in the unit interval already. -/
theorem Scorer.unit_next (k : Scorer α) (o : Observation α) (current : α) :
    unit (k.next o current) = k.next o current := by
  obtain ⟨hzero, hone⟩ := k.next_mem h hunit o current
  exact h.unit_of_mem hzero hone

theorem Engine.rescore_withScorer (e : Engine σ α) (k : Scorer α) (u : UserId) (o : Observation α)
    (current : α) :
    (e.withScorer k).rescore u o current =
      .updateScore u (k.next o current)
        (rescoredTo (k.next o current) (e.tools.classify u (k.next o current))) := by
  have hrescore : (e.withScorer k).rescore u o current =
      .updateScore u (unit (k.next o current))
        (rescoredTo (k.next o current) (e.tools.classify u (k.next o current))) := rfl
  rw [hrescore, k.unit_next h hunit]

/-! ## All updates -/

theorem Scorer.mem_trail {k : Scorer α} {current score : α}
    {calls : List (UserId × Observation α)} (hscore : score ∈ k.trail current calls) :
    0.0 ≤ score ∧ score ≤ 1.0 := by
  induction calls generalizing current with
  | nil => cases hscore
  | cons call rest ih =>
    rcases List.mem_cons.1 hscore with rfl | hrest
    · exact k.next_mem h hunit _ _
    · exact ih hrest

/-- The updates carry the scores that the scorer comes to by itself. -/
theorem Engine.rescoreAll_eq (e : Engine σ α) (k : Scorer α) (start : α)
    (calls : List (UserId × Observation α)) :
    (e.withScorer k).rescoreAll start calls =
      List.zipWith (fun call score =>
        .updateScore call.1 score (rescoredTo score (e.tools.classify call.1 score)))
        calls (k.trail start calls) := by
  induction calls generalizing start with
  | nil => rfl
  | cons call rest ih =>
    obtain ⟨u, o⟩ := call
    have hupdate := e.rescore_withScorer h hunit k u o start
    rw [rescoreAll, hupdate, Scorer.trail, List.zipWith_cons_cons]
    exact congrArg _ (ih (k.next o start))

end Comparisons
end Chains

/-- Whatever the smoothing and the weights of the scorer, the observations and the score to start
from, numbers or not: in a chain of updates, each scored from the one before, the updates are about
the users that were observed, one after the other, and carry the scores that the scorer comes to by
itself. Every one of these is a number in the unit interval. The reason shows that same score and
names the level that the engine finds for that user and that score, and no other level. -/
theorem rescored_consistently {σ : Type} (e : Engine σ Float) (k : Scorer Float) (start : Float)
    (calls : List (UserId × Observation Float)) :
    let e := e.withScorer k
    let scores := k.trail start calls
    e.rescoreAll start calls =
      List.zipWith (fun call score =>
        .updateScore call.1 score (rescoredTo score (e.tools.classify call.1 score)))
        calls scores ∧
    scores.length = calls.length ∧
    (∀ score ∈ scores, ¬ score.isNaN ∧ 0.0 ≤ score ∧ score ≤ 1.0) ∧
    ∀ (score : Float) (level level' : RiskLevel),
      rescoredTo score level = rescoredTo score level' ↔ level = level' := by
  intro e' scores
  have h := comparable_float
  have hunit : (0.0 : Float) ≤ 1.0 := by decide +kernel
  refine ⟨e.rescoreAll_eq h hunit k start calls, k.length_trail start calls, fun score hs => ?_,
    fun score level level' => rescoredTo_inj⟩
  obtain ⟨hzero, hone⟩ := Scorer.mem_trail h hunit hs
  exact ⟨Decimal.isNumber_iff.1 (h.numbers_of_le _ _ hone).1, hzero, hone⟩

/-- The start and the first signal are no numbers, and the second blend overflows. -/
example :
    let k : Scorer Float := ⟨0.5, 1e308, 1e308, 0.0⟩
    let e : Engine Unit Float := .withScorer (.fresh () .standard 0) k
    let missing := { Observation.quiet with rateAnomaly := 0.0 / 0.0 }
    let alarming := { Observation.quiet with rateAnomaly := 1.0, patternAnomaly := 7.0 }
    e.rescoreAll (0.0 / 0.0) [(3, missing), (3, alarming), (4, .quiet)] =
      [.updateScore 3 0.0 "Rescored to 0.000 (LOW)",
        .updateScore 3 1.0 "Rescored to 1.000 (CRITICAL)",
        .updateScore 4 0.5 "Rescored to 0.500 (MEDIUM)"] := by
  decide +kernel

end MovingTarget
