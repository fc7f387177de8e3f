import MovingTarget.Proofs.Policies
import MovingTarget.Proofs.Snapshots
/-!
# Isolation over whole runs

The policy holds the id that its domain had when a snapshot last had one (`run_domain`), also while
later snapshots leave the domain out or give its name to another record. An epoch moves there
everybody at high risk who is located elsewhere or nowhere (`mem_atLarge`), and nobody before the
domain has been seen.
-/
namespace MovingTarget

/-! ## The record that bears a name -/

section Naming
variable {α : Type}

/-- The first record with this name, in key order, carries this id. -/
def Snapshot.FirstNamed (s : Snapshot α) (name : String) (d : DomainId) : Prop :=
  ∃ k x, s.domains.find? k = some x ∧ x.name = name ∧ x.id = d ∧
    ∀ j y, s.domains.find? j = some y → y.name = name → k ≤ j

/-- No record has this name. -/
def Snapshot.Lacks (s : Snapshot α) (name : String) : Prop :=
  ∀ k x, s.domains.find? k = some x → x.name ≠ name

theorem Isolation.namedDomain?_eq_some_iff {p : Isolation α} {s : Snapshot α} {d : DomainId} :
    p.namedDomain? s = some d ↔ s.FirstNamed p.domainName d := by
  simp only [namedDomain?, Snapshot.map_id_find?_eq_some_iff, beq_iff_eq, Snapshot.FirstNamed]

theorem Isolation.namedDomain?_eq_none_iff {p : Isolation α} {s : Snapshot α} :
    p.namedDomain? s = none ↔ s.Lacks p.domainName := by
  simp only [namedDomain?, Snapshot.map_id_find?_eq_none_iff, beq_iff_eq, Snapshot.Lacks, ne_eq]

/-- The last of some epochs whose snapshot has a record with this name; the first such record
carries this id. -/
def LastNamed {σ : Type} (es : List (Epoch σ α)) (name : String) (d : DomainId) : Prop :=
  ∃ before e after, es = before ++ e :: after ∧ e.snapshot.FirstNamed name d ∧
    ∀ f ∈ after, f.snapshot.Lacks name

theorem lastNamed_concat {σ : Type} {es : List (Epoch σ α)} {e : Epoch σ α} {name : String}
    {d : DomainId} :
    LastNamed (es ++ [e]) name d ↔
      e.snapshot.FirstNamed name d ∨ e.snapshot.Lacks name ∧ LastNamed es name d := by
  constructor
  · rintro ⟨before, f, after, hsplit, hf, hafter⟩
    rcases concat_eq_append_cons_iff.1 hsplit with ⟨-, rfl, -⟩ | ⟨after', rfl, hes⟩
    · exact .inl hf
    · rw [List.forall_mem_append, List.forall_mem_singleton] at hafter
      exact .inr ⟨hafter.2, before, f, after', hes, hf, hafter.1⟩
  · rintro (he | ⟨he, before, f, after, rfl, hf, hafter⟩)
    · exact ⟨es, e, [], rfl, he, nofun⟩
    · refine ⟨before, f, after ++ [e], by simp, hf, ?_⟩
      rw [List.forall_mem_append, List.forall_mem_singleton]
      exact ⟨hafter, he⟩

end Naming

namespace Isolation
variable {α : Type}

/-! ## What one epoch does -/

/-- A snapshot that has the domain settles where it is, any other leaves it where it was. -/
theorem evaluate_domain (p : Isolation α) (s : Snapshot α) :
    (p.evaluate s).next.domain = (p.namedDomain? s).or p.domain := by
  unfold evaluate
  dsimp only
  split <;> rfl

theorem evaluate_decisions (p : Isolation α) (s : Snapshot α) :
    (p.evaluate s).decisions =
      (p.evaluate s).next.domain.elim [] fun d => (atLarge s d).map (decision d) := by
  rw [evaluate_domain]
  unfold evaluate
  dsimp only
  split <;> simp [*]

theorem ascending_atLarge (s : Snapshot α) (d : DomainId) : (atLarge s d).Pairwise (· < ·) :=
  (s.ascending_usersAtLeast .high).sublist List.filter_sublist

/-- Whoever is at high risk and not located in the domain is at large. -/
theorem mem_atLarge {s : Snapshot α} {d : DomainId} {u : UserId} :
    u ∈ atLarge s d ↔ ∃ x, s.scores.find? u = some x ∧ (x.level = .high ∨ x.level = .critical) ∧
      s.domainOf? u ≠ some d := by
  rw [atLarge, List.mem_filter, s.mem_usersAtLeast, decide_eq_true_eq]
  simp only [RiskLevel.high_le_iff, ← and_assoc, exists_and_right]

/-! ## Whole runs -/

variable [Scalar α]

theorem run_domainName (name : String) (calls : List (Call α)) :
    (run (fresh name : Isolation α) calls).state.domainName = name :=
  run_induction (motive := fun (p : Isolation α) _ => p.domainName = name) rfl
    (fun p _ s _ ih => (p.evaluate_domainName s).trans ih) (fun _ _ _ ih => ih)
    (fun _ _ _ ih => ih) (fun _ _ ih => ih) calls

/-- The domain held after a run is that of the last snapshot that had one. -/
theorem run_domain (name : String) (calls : List (Call α)) (d : DomainId) :
    let r := run (fresh name : Isolation α) calls
    r.state.domain = some d ↔ LastNamed r.epochs name d := by
  have hnone : ¬ LastNamed ([] : List (Epoch (Isolation α) α)) name d := by
    rintro ⟨before, e, after, h, -⟩
    simp at h
  refine run_induction (motive := fun (p : Isolation α) es =>
    p.domain = some d ↔ LastNamed es name d) (iff_of_false (Option.some_ne_none d).symm hnone) ?_
    (fun _ _ _ ih => ih) (fun _ _ _ ih => ih)
    (fun _ _ _ => iff_of_false (Option.some_ne_none d).symm hnone) calls
  rintro p es s ⟨calls, rfl, -⟩ ih
  have hname := run_domainName name calls
  change (evaluate _ s).next.domain = some d ↔ _
  rw [evaluate_domain, lastNamed_concat, Option.or_eq_some_iff, namedDomain?_eq_some_iff,
    namedDomain?_eq_none_iff, hname, ih]

/-- No domain is held as long as no snapshot had one. -/
theorem run_domain_eq_none_iff (name : String) (calls : List (Call α)) :
    let r := run (fresh name : Isolation α) calls
    r.state.domain = none ↔ ∀ e ∈ r.epochs, e.snapshot.Lacks name := by
  refine run_induction (motive := fun (p : Isolation α) es =>
    p.domain = none ↔ ∀ e ∈ es, e.snapshot.Lacks name) (iff_of_true rfl nofun) ?_
    (fun _ _ _ ih => ih) (fun _ _ _ ih => ih) (fun _ _ _ => iff_of_true rfl nofun) calls
  rintro p es s ⟨calls, rfl, -⟩ ih
  have hname := run_domainName name calls
  change (evaluate _ s).next.domain = none ↔ _
  rw [evaluate_domain, Option.or_eq_none_iff, namedDomain?_eq_none_iff, hname, ih,
    List.forall_mem_append, List.forall_mem_singleton, and_comm]

/-- After every epoch of a run the policy holds the domain of the last snapshot since the reset that
had one with its name, the first of them if there were several. The epoch moves nobody if there has
been none, and otherwise everybody who is at high risk and not located in that domain, in ascending
order, and nobody else. A user is located by the first record that lists them. Since the reset, the
policy counts whom it moved. -/
theorem isolated_iff_at_large (name : String) (calls : List (Call α)) (s : Snapshot α) :
    let before := run (fresh name : Isolation α) calls
    let r := run (fresh name : Isolation α) (calls ++ [.evaluate s])
    let returned := (Policy.evaluate before.state s).decisions
    (∀ d, r.state.domain = some d ↔ LastNamed r.epochs name d) ∧
    (r.state.domain = none ↔ ∀ e ∈ r.epochs, e.snapshot.Lacks name) ∧
    (r.state.domain = none → returned = []) ∧
    (∀ d, r.state.domain = some d → ∃ users : List UserId, users.Pairwise (· < ·) ∧
      (∀ u, u ∈ users ↔ ∃ x, s.scores.find? u = some x ∧
        (x.level = .high ∨ x.level = .critical) ∧ s.domainOf? u ≠ some d) ∧
      returned = users.map fun u => .migrateUser u d s!"Isolating high-risk user {u}") ∧
    (∀ u home, s.domainOf? u = some home ↔ s.FirstListing u home) ∧
    (Policy.statistics r.state).find? "users_isolated" =
      some (Scalar.ofCount (r.epochs.map (·.decisions.length)).sum) := by
  intro before r returned
  have hstate : r.state = (evaluate before.state s).next := by
    change (run _ (calls ++ [.evaluate s])).state = _
    rw [run_concat, state_after]
    rfl
  have hreturned : returned =
      r.state.domain.elim [] fun d => (atLarge s d).map (decision d) := by
    rw [hstate]
    exact evaluate_decisions before.state s
  refine ⟨run_domain name _, run_domain_eq_none_iff name _, fun h => ?_, fun d h => ?_,
    fun _ _ => Snapshot.domainOf?_eq_some_iff, ?_⟩
  · rw [hreturned, h]
    rfl
  · refine ⟨atLarge s d, ascending_atLarge s d, fun u => mem_atLarge, ?_⟩
    rw [hreturned, h]
    rfl
  · rw [find?_statistics, tallies_migrations.run_eq rfl]

end Isolation
end MovingTarget
