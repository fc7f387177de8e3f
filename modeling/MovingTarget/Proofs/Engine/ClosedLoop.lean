import Mathlib.Logic.Function.Iterate
import MovingTarget.Engine.Basic
import MovingTarget.Proofs.Settling
/-!
# The loop of engine and host

The host carries out whatever it is returned, changes nothing else, and asks again. If the policy
proposes what is left of what it proposed first (`Settles`), the cap only spreads the first list
over the rounds: every proposal is returned once and in its place (`Drains`).
-/
namespace MovingTarget.Engine
variable {σ α : Type} [Scalar α] [Policy σ α]

/-- One round of the loop: the engine looks at the network, the host carries out what it returns. -/
def round (r : Engine σ α × Snapshot α) : Engine σ α × Snapshot α :=
  ((r.1.evaluate r.2).next, r.2.carryOutAll (r.1.evaluate r.2).decisions)

/-- What round `i` of the loop returns, counted from zero. -/
def returned (e : Engine σ α) (s : Snapshot α) (i : Nat) : List (Decision α) :=
  ((round^[i] (e, s)).1.evaluate (round^[i] (e, s)).2).decisions

/-- The loop returns the first list of proposals slice by slice, and nothing once it is through. -/
structure Drains (e : Engine σ α) (s : Snapshot α) : Prop where
  slice : ∀ i, e.returned s i = (Policy.evaluate e.policy s).decisions.extract (i * e.cap)
    (min ((i + 1) * e.cap) (Policy.evaluate e.policy s).decisions.length)
  delivered : ∀ r, ((Policy.evaluate e.policy s).decisions.length + e.cap - 1) / e.cap ≤ r →
    (List.range r).flatMap (e.returned s) = (Policy.evaluate e.policy s).decisions
  silent : ∀ r, ((Policy.evaluate e.policy s).decisions.length + e.cap - 1) / e.cap ≤ r →
    e.returned s r = []

/-- In states like these, a policy makes proposals that a good snapshot determines, and sheds those
that are carried out. -/
structure Settles (like : σ → Prop) (good : Snapshot α → Prop)
    (proposal : Snapshot α → List (Decision α)) : Prop extends Sheds good proposal where
  decisions : ∀ {p s}, like p → good s → (Policy.evaluate p s).decisions = proposal s
  next : ∀ {p} s, like p → like (Policy.evaluate p s).next

variable {like : σ → Prop} {good : Snapshot α → Prop} {proposal : Snapshot α → List (Decision α)}
  {e : Engine σ α} {s : Snapshot α}

/-- After some rounds the policy proposes what has not been returned yet. -/
theorem Settles.after_rounds (h : Settles like good proposal) (hp : like e.policy) (hs : good s)
    (i : Nat) :
    let r := round^[i] (e, s)
    r.1.cap = e.cap ∧ like r.1.policy ∧ good r.2 ∧
      proposal r.2 = (proposal s).drop (i * e.cap) := by
  induction i with
  | zero => exact ⟨rfl, hp, hs, by rw [Nat.zero_mul]; rfl⟩
  | succ i ih =>
    obtain ⟨hcap, hlike, hgood, hleft⟩ := ih
    rw [Function.iterate_succ_apply']
    -- From here on only what is known of the state after `i` rounds counts.
    generalize round^[i] (e, s) = r at hcap hlike hgood hleft
    have hreturned : (r.1.evaluate r.2).decisions = (proposal r.2).take e.cap := by
      rw [← h.decisions hlike hgood, ← hcap]
      rfl
    have hshed := h.carryOutAll_take hgood e.cap
    rw [← hreturned] at hshed
    refine ⟨hcap, h.next r.2 hlike, hshed.1, hshed.2.trans ?_⟩
    rw [hleft, List.drop_drop, Nat.succ_mul]

theorem Settles.returned_eq (h : Settles like good proposal) (hp : like e.policy) (hs : good s)
    (i : Nat) : e.returned s i = ((proposal s).drop (i * e.cap)).take e.cap := by
  obtain ⟨hcap, hlike, hgood, hleft⟩ := h.after_rounds hp hs i
  rw [← hleft, ← h.decisions hlike hgood, ← hcap]
  rfl

/-- The slices put together are the front of the list. -/
theorem flatMap_slices {β : Type} (l : List β) (c r : Nat) :
    ((List.range r).flatMap fun i => (l.drop (i * c)).take c) = l.take (r * c) := by
  induction r with
  | zero => rw [Nat.zero_mul]; rfl
  | succ r ih =>
    rw [List.range_succ, List.flatMap_append, ih, List.flatMap_singleton, Nat.succ_mul,
      List.take_add]

theorem length_le_mul_of_ceil {n c r : Nat} (hc : 1 ≤ c) (h : (n + c - 1) / c ≤ r) : n ≤ r * c := by
  have hle := Nat.lt_mul_of_div_lt (Nat.lt_succ_of_le h) hc
  rw [Nat.succ_mul] at hle
  omega

theorem Settles.drains (h : Settles like good proposal) (hp : like e.policy) (hs : good s)
    (hc : 1 ≤ e.cap) : Drains e s := by
  have hproposal := h.decisions hp hs
  have hreturned := h.returned_eq hp hs
  rw [← hproposal] at hreturned
  generalize hl : (Policy.evaluate e.policy s).decisions = l at hreturned
  refine ⟨fun i => ?_, fun r hr => ?_, fun r hr => ?_⟩
  · -- Beyond the end of the list it does not matter where a slice stops.
    rw [hreturned, hl, List.extract_eq_take_drop, List.take_eq_take_iff, List.length_drop,
      Nat.succ_mul]
    omega
  · rw [hl] at hr ⊢
    rw [funext hreturned, flatMap_slices, List.take_of_length_le (length_le_mul_of_ceil hc hr)]
  · rw [hl] at hr
    rw [hreturned, List.drop_of_length_le (length_le_mul_of_ceil hc hr), List.take_nil]

/-! ## Policies that settle -/

theorem settles_adaptiveInterval (hα : Scalar.Cancelling α) (pace : Pace α) :
    Settles (fun p : AdaptiveInterval α => p.pace = pace) (fun _ => True) fun s =>
      ((AdaptiveInterval.fresh pace).mistimed s).map (AdaptiveInterval.fresh pace).decision where
  toSheds := AdaptiveInterval.sheds hα _
  decisions hp _ := by rw [AdaptiveInterval.decisions_of_pace, hp]
  next _ hp := hp

theorem settles_isolation (p : Isolation α) (t : DomainId) :
    Settles (fun q : Isolation α => q.domainName = p.domainName)
      (fun s => s.Keyed ∧ p.namedDomain? s = some t) fun s =>
        (Isolation.atLarge s t).map (Isolation.decision t) where
  toSheds := Isolation.sheds p t
  decisions {q s} hq hs := by
    refine Isolation.decisions_of_namedDomain? ?_
    rw [Isolation.namedDomain?, hq]
    exact hs.2
  next {q} s hq := by
    change (q.evaluate s).next.domainName = p.domainName
    unfold Isolation.evaluate
    dsimp only
    split <;> exact hq

/-- The loop drains what the policy proposes first, whatever the cap and the state of the engine:
over any snapshot if intervals are set by the risk, and over one that has the isolation domain and
keeps records under their ids if users are isolated. -/
theorem closed_loop_drains (hα : Scalar.Cancelling α) :
    (∀ (e : Engine (AdaptiveInterval α) α) (s : Snapshot α), 1 ≤ e.cap → Drains e s) ∧
    ∀ (e : Engine (Isolation α) α) (s : Snapshot α), 1 ≤ e.cap → s.Keyed →
      (∃ k x, s.domains.find? k = some x ∧ x.name = e.policy.domainName) → Drains e s := by
  refine ⟨fun e s hc => ?_, fun e s hc hs hnamed => ?_⟩
  · exact (settles_adaptiveInterval hα e.policy.pace).drains rfl trivial hc
  · obtain ⟨k, x, hx, hname⟩ := hnamed
    cases ht : e.policy.namedDomain? s with
    | none =>
      exact absurd hname (Isolation.namedDomain?_eq_none_iff.1 ht k x hx)
    | some t => exact (settles_isolation e.policy t).drains rfl ⟨hs, ht⟩ hc

/-- Three domains with intervals far from what their risk asks for, and three users at high risk
outside the isolation domain. -/
def unsettled : Snapshot Float :=
  let network := (((Snapshot.empty 1000000000).addDomain
    ⟨1, "isolation", [], [], 0.0, 60.0⟩).addDomain
    ⟨2, "", [], [1, 2], 0.0, 10.0⟩).addDomain ⟨3, "", [], [5], 0.0, 90.0⟩
  [1, 2, 5].foldl (fun s u => s.addScore ⟨u, 0.5, .high, 0⟩) network

/-- With room for two decisions a round, both loops are through after two rounds. -/
theorem closed_loop_drains_unsettled :
    let timing : Engine (AdaptiveInterval Float) Float := fresh .standard .standard 2
    let isolating : Engine (Isolation Float) Float := fresh .standard .standard 2
    Scalar.Cancelling Float ∧ 1 ≤ timing.cap ∧ 1 ≤ isolating.cap ∧ unsettled.Keyed ∧
    unsettled.domains.find? 1 = some ⟨1, "isolation", [], [], 0.0, 60.0⟩ ∧
    Drains timing unsettled ∧ Drains isolating unsettled ∧
    (List.range 4).map (fun i => (timing.returned unsettled i).length) = [2, 1, 0, 0] ∧
    (List.range 4).map (fun i => (isolating.returned unsettled i).length) = [2, 1, 0, 0] := by
  intro timing isolating
  have hα : Scalar.Cancelling Float := Scalar.cancelling_float
  have hkeyed : unsettled.Keyed := by decide +kernel
  have hfound : unsettled.domains.find? 1 = some ⟨1, "isolation", [], [], 0.0, 60.0⟩ := by
    decide +kernel
  refine ⟨hα, by decide, by decide, hkeyed, hfound, ?_, ?_, by decide +kernel, by decide +kernel⟩
  · exact (closed_loop_drains hα).1 timing unsettled (by decide)
  · exact (closed_loop_drains hα).2 isolating unsettled (by decide) hkeyed ⟨1, _, hfound, rfl⟩

end MovingTarget.Engine
