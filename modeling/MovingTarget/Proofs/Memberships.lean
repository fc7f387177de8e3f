import Mathlib
import MovingTarget.Proofs.Snapshots
/-!
# Who is counted at high risk

A summary counts the users at high risk that one domain lists, as often as it lists them. So the
summaries of a snapshot count every membership of a user at high risk once, whoever is listed where
and how often (`sum_highRisk`).
-/
namespace MovingTarget

/-! ## Counting pairs -/

section Counting
variable {β : Type} [DecidableEq β]

/-- Equal pairs from two lists are counted along either of them. -/
theorem sum_map_count_comm (as bs : List β) : (as.map bs.count).sum = (bs.map as.count).sum := by
  induction as with
  | nil => simp
  | cons a as ih =>
    have hsingle : (bs.map fun b => if a = b then 1 else 0).sum = bs.count a := by
      rw [List.sum_map_eq_nsmul_single a _ fun b hb _ => if_neg hb.symm, if_pos rfl]
      exact Nat.mul_one _
    simp only [List.map_cons, List.sum_cons, ih, List.count_cons, beq_iff_eq, List.sum_map_add,
      hsingle, Nat.add_comm]

theorem sum_map_count {bs : List β} (h : bs.Nodup) (as : List β) :
    (as.map bs.count).sum = as.countP (· ∈ bs) := by
  induction as with
  | nil => rfl
  | cons a as ih =>
    rw [List.map_cons, List.sum_cons, ih, h.count, List.countP_cons, Nat.add_comm]
    simp only [decide_eq_true_eq]

end Counting

variable {α : Type}

namespace Snapshot

/-- What the domains list, one after the other. -/
def listed (s : Snapshot α) : List UserId := s.domains.values.flatMap (·.users)

theorem domainOf?_ne_none_iff {s : Snapshot α} {u : UserId} :
    s.domainOf? u ≠ none ↔ u ∈ s.listed := by
  rw [Ne, domainOf?_eq_none_iff, ← forall_mem_values_iff, listed, List.mem_flatMap]
  simp only [not_forall, not_not, exists_prop]

end Snapshot

section Summaries
variable [Scalar α]

/-- The members with a score, those at high risk among them. -/
theorem Domain.highRisk_summary_le (x : Domain α) (s : Snapshot α) :
    (x.summary s).highRisk ≤ x.users.countP fun u => (s.scores.find? u).isSome := by
  rw [s.highRisk_summary]
  refine List.countP_mono_left fun u _ hu => ?_
  obtain ⟨r, hr, -⟩ := s.mem_usersAtLeast.1 (of_decide_eq_true hu)
  rw [hr]
  rfl

theorem Snapshot.sum_highRisk (s : Snapshot α) :
    (s.summaries.values.map (·.highRisk)).sum = s.listed.countP (· ∈ s.usersAtLeast .high) := by
  have hvalues : s.summaries.values = s.domains.values.map (·.summary s) := by
    simp only [summaries, Table.values, Table.entries_mapValues, List.map_map]
    rfl
  rw [hvalues, listed, List.countP_flatMap, List.map_map]
  exact congrArg List.sum (List.map_congr_left fun x _ => s.highRisk_summary x)

/-- The numbers of users at high risk in the summaries of all domains add up to the number of times
that the domains list a user at high risk, counted user by user. If no user is listed twice, that is
the number of users at high risk who are located somewhere. In the summary of a domain the users at
high risk are at most the members with a score, and these are at most the users. -/
theorem Snapshot.memberships_counted_once (s : Snapshot α) :
    let atRisk := s.usersAtLeast .high
    let total := (s.summaries.values.map (·.highRisk)).sum
    total = (atRisk.map fun u => (s.domains.values.flatMap (·.users)).count u).sum ∧
    (s.ListsOnce → total = atRisk.countP fun u => s.domainOf? u ≠ none) ∧
    ∀ d x, s.domains.find? d = some x → ∃ m, s.summaries.find? d = some m ∧
      m.highRisk ≤ (x.users.countP fun u => (s.scores.find? u).isSome) ∧
      (x.users.countP fun u => (s.scores.find? u).isSome) ≤ m.users := by
  intro atRisk total
  have htotal : total = (atRisk.map s.listed.count).sum := by
    rw [sum_map_count_comm, sum_map_count (s.nodup_usersAtLeast .high)]
    exact s.sum_highRisk
  refine ⟨htotal, fun honce => ?_, fun d x hx => ⟨x.summary s, ?_, x.highRisk_summary_le s, ?_⟩⟩
  · have hnodup : s.listed.Nodup := honce
    rw [htotal, sum_map_count hnodup]
    exact List.countP_congr fun u _ => by simp only [domainOf?_ne_none_iff]
  · rw [find?_summaries, hx, Option.map_some]
  · exact List.countP_le_length

end Summaries

/-- User 1 is listed once and user 2 three times, user 3 is not at high risk, and user 4 is not
listed. -/
example :
    let s : Snapshot Float :=
      { Snapshot.empty 0 with
        domains := .ofList [(1, ⟨1, "", [], [1, 2, 2], 0.0, 30.0⟩),
          (2, ⟨2, "", [], [2, 3, 5], 0.0, 30.0⟩)]
        scores := .ofList [(1, ⟨1, 0.5, .high, 0⟩), (2, ⟨2, 0.5, .critical, 0⟩),
          (3, ⟨3, 0.5, .medium, 0⟩), (4, ⟨4, 0.5, .high, 0⟩)] }
    s.summaries.values.map (·.highRisk) = [3, 1] := by decide +kernel

end MovingTarget
