import MovingTarget.Proofs.Engine.Runs
import MovingTarget.Proofs.Layered.Alarm
/-!
# Commitments and the cap

The layered policy commits itself while it proposes: it raises its alarm and starts a cooldown
whether or not the engine returns the shuffle. What a commitment stands for was proposed since the
reset, and was returned exactly when the cap left room for it.
-/
namespace MovingTarget

section Rank
variable {σ α : Type} [Scalar α] [Policy σ α]

/-- How many decisions were proposed in an epoch before the first shuffle of a domain in a mode. -/
def Epoch.rank (e : Epoch (Engine σ α) α) (d : DomainId) (mode : ShuffleMode) : Nat :=
  e.proposed.findIdx (·.shuffles d mode)

/-- A proposed shuffle is returned when fewer decisions than the cap stand before it. -/
theorem returned_iff_rank_lt {e : Engine σ α} {calls : List (Call α)} {x : Epoch (Engine σ α) α}
    {d : DomainId} {mode : ShuffleMode} (hx : x ∈ (run e calls).epochs)
    (h : ∃ reason, .triggerShuffle d mode reason ∈ x.proposed) :
    (∃ reason, .triggerShuffle d mode reason ∈ x.decisions) ↔ x.rank d mode < e.cap := by
  have hlt : x.rank d mode < x.proposed.length := by
    rw [← any_shuffles_iff, List.any_eq_true] at h
    exact List.findIdx_lt_length.2 h
  have htake : (∃ y ∈ x.proposed.take e.cap, y.shuffles d mode = true) ↔
      min e.cap (x.rank d mode) < min e.cap x.proposed.length := by
    rw [← List.findIdx_lt_length, List.findIdx_take, List.length_take]
    rfl
  rw [← any_shuffles_iff, Engine.decisions_eq_take_proposed hx, List.any_eq_true, htake]
  omega

end Rank

namespace Engine

section Layered
variable {α : Type} [Scalar α]

/-- The shuffle away from attackers is proposed where the attack pattern first holds. -/
theorem proposes_avoid_iff {threshold : α} {pace : Pace α} {level : RiskLevel}
    {tools : Toolkit α} {cap : Nat} {calls : List (Call α)} {i : Nat}
    {e : Epoch (Engine (Layered α) α) α} {d : DomainId}
    (h : (run (fresh (Layered.fresh threshold pace level) tools cap) calls).epochs[i]? = some e) :
    (∃ reason, .triggerShuffle d .attackerAvoid reason ∈ e.proposed) ↔
      FirstAttackAt (run (Layered.fresh threshold pace level) calls).epochs i d := by
  have hi : (run (Layered.fresh threshold pace level) calls).epochs[i]? =
      some (e.map Engine.policy) := by
    rw [epochs_policy _ tools cap, List.getElem?_map, h]
    rfl
  rw [← Layered.avoids_iff_firstAttackAt rfl]
  constructor
  · rintro ⟨reason, hr⟩
    exact ⟨_, reason, hi, hr⟩
  · rintro ⟨e', reason, he', hr⟩
    rw [hi] at he'
    obtain rfl := Option.some.inj he'
    exact ⟨reason, hr⟩

/-- A standing alarm was proposed in an epoch, and returned if the cap left room for it. -/
theorem alarm_returned_iff (threshold : α) (pace : Pace α) (level : RiskLevel)
    (tools : Toolkit α) (cap : Nat) (calls : List (Call α)) :
    let r := run (fresh (Layered.fresh threshold pace level) tools cap) calls
    r.state.policy.alarmed = true → ∃ e ∈ r.epochs, ∃ d,
      (∃ reason, .triggerShuffle d .attackerAvoid reason ∈ e.proposed) ∧
      ((∃ f ∈ r.epochs, ∃ k reason, .triggerShuffle k .attackerAvoid reason ∈ f.decisions) ↔
        e.rank d .attackerAvoid < cap) := by
  intro r halarm
  have hp := Layered.alarmed_iff_avoided threshold pace level calls
  simp only [state_policy (Layered.fresh threshold pace level) tools cap,
    epochs_policy (Layered.fresh threshold pace level) tools cap] at hp
  obtain ⟨x, hx, y, hy, hmode⟩ := hp.1 halarm
  obtain ⟨e, he, rfl⟩ := List.mem_map.1 hx
  have hy' : ∃ d reason, y = .triggerShuffle d .attackerAvoid reason := by
    cases y <;> simp only [Decision.mode?, Option.some.injEq, reduceCtorEq] at hmode
    exact ⟨_, _, by rw [hmode]⟩
  obtain ⟨d, reason, rfl⟩ := hy'
  have hd : ∃ reason, .triggerShuffle d .attackerAvoid reason ∈ e.proposed := ⟨reason, hy⟩
  refine ⟨e, he, d, hd, Iff.trans ?_ (returned_iff_rank_lt he hd)⟩
  constructor
  · rintro ⟨f, hf, k, reason', h⟩
    -- Only one epoch proposes it, and for one domain.
    obtain ⟨i, hi⟩ := List.mem_iff_getElem?.1 he
    obtain ⟨j, hj⟩ := List.mem_iff_getElem?.1 hf
    have hk : .triggerShuffle k .attackerAvoid reason' ∈ f.proposed := by
      rw [decisions_eq_take_proposed hf] at h
      exact List.mem_of_mem_take h
    obtain ⟨rfl, rfl⟩ :=
      ((proposes_avoid_iff hi).1 hd).unique ((proposes_avoid_iff hj).1 ⟨_, hk⟩)
    obtain rfl : e = f := Option.some.inj (hi.symm.trans hj)
    exact ⟨reason', h⟩
  · rintro ⟨reason', h⟩
    exact ⟨e, he, d, reason', h⟩

/-- The time kept for a domain is that of the last epoch that proposed to shuffle it for its score,
and the shuffle was returned if the cap left room for it. -/
theorem shuffle_returned_iff (threshold : α) (pace : Pace α) (level : RiskLevel)
    (tools : Toolkit α) (cap : Nat) (calls : List (Call α)) (d : DomainId) (t : α) :
    let r := run (fresh (Layered.fresh threshold pace level) tools cap) calls
    r.state.policy.lastShuffle.find? d = some t →
      ∃ before e after, r.epochs = before ++ e :: after ∧ e.snapshot.seconds = t ∧
        (∃ reason, .triggerShuffle d .scoreDriven reason ∈ e.proposed) ∧
        (∀ f ∈ after, ∀ reason, .triggerShuffle d .scoreDriven reason ∉ f.proposed) ∧
        ((∃ reason, .triggerShuffle d .scoreDriven reason ∈ e.decisions) ↔
          e.rank d .scoreDriven < cap) := by
  intro r ht
  have hp := Layered.run_lastShuffle threshold pace level calls d
  simp only [state_policy (Layered.fresh threshold pace level) tools cap,
    epochs_policy (Layered.fresh threshold pace level) tools cap] at hp
  -- The last shuffle of the policy's own run is found again in the run of the engine.
  obtain ⟨x, hx, rfl⟩ := Option.map_eq_some_iff.1 (hp.symm.trans ht)
  obtain ⟨before', after', hsplit, hshuffles, hafter⟩ := lastShuffling?_eq_some_iff.1 hx
  obtain ⟨before, rest, hr, rfl, hrest⟩ := List.map_eq_append_iff.1 hsplit
  obtain ⟨e, after, rfl, rfl, rfl⟩ := List.map_eq_cons_iff.1 hrest
  have he : e ∈ r.epochs := by
    rw [hr]
    simp
  have hd : ∃ reason, .triggerShuffle d .scoreDriven reason ∈ e.proposed :=
    any_shuffles_iff.1 hshuffles
  refine ⟨before, e, after, hr, rfl, hd, fun f hf reason h => ?_, returned_iff_rank_lt he hd⟩
  have hno := hafter _ (List.mem_map_of_mem hf)
  rw [Bool.eq_false_iff] at hno
  exact hno (any_shuffles_iff.2 ⟨reason, h⟩)

/-- In every run of an engine over the layered policy, a standing alarm was proposed since the
reset and has been returned if the cap left room for it. The last shuffle of a domain for its score
is the last one proposed, with its time, and was returned if the cap left room for it. So no
commitment is lost while nothing is dropped. -/
theorem commitment_returned_within_cap (threshold : α) (pace : Pace α) (level : RiskLevel)
    (tools : Toolkit α) (cap : Nat) (calls : List (Call α)) :
    let r := run (fresh (Layered.fresh threshold pace level) tools cap) calls
    (r.state.policy.alarmed = true → ∃ e ∈ r.epochs, ∃ d,
      (∃ reason, .triggerShuffle d .attackerAvoid reason ∈ e.proposed) ∧
      ((∃ f ∈ r.epochs, ∃ k reason, .triggerShuffle k .attackerAvoid reason ∈ f.decisions) ↔
        e.rank d .attackerAvoid < cap)) ∧
    (∀ d t, r.state.policy.lastShuffle.find? d = some t →
      ∃ before e after, r.epochs = before ++ e :: after ∧ e.snapshot.seconds = t ∧
        (∃ reason, .triggerShuffle d .scoreDriven reason ∈ e.proposed) ∧
        (∀ f ∈ after, ∀ reason, .triggerShuffle d .scoreDriven reason ∉ f.proposed) ∧
        ((∃ reason, .triggerShuffle d .scoreDriven reason ∈ e.decisions) ↔
          e.rank d .scoreDriven < cap)) ∧
    (r.state.dropped = 0 →
      (r.state.policy.alarmed = true → ∃ e ∈ r.epochs, ∃ d reason,
        .triggerShuffle d .attackerAvoid reason ∈ e.decisions) ∧
      ∀ d t, r.state.policy.lastShuffle.find? d = some t → ∃ e ∈ r.epochs,
        e.snapshot.seconds = t ∧
          ∃ reason, .triggerShuffle d .scoreDriven reason ∈ e.decisions) := by
  intro r
  have halarm := alarm_returned_iff threshold pace level tools cap calls
  have hshuffle := shuffle_returned_iff threshold pace level tools cap calls
  refine ⟨halarm, hshuffle, fun hdropped => ⟨fun h => ?_, fun d t h => ?_⟩⟩
  · obtain ⟨e, he, d, ⟨reason, hr⟩, -⟩ := halarm h
    exact ⟨e, he, d, reason, decisions_eq_proposed he hdropped ▸ hr⟩
  · obtain ⟨before, e, after, hsplit, ht, ⟨reason, hr⟩, -⟩ := hshuffle d t h
    have he : e ∈ r.epochs := by
      change e ∈ (run _ calls).epochs
      rw [hsplit]
      simp
    exact ⟨e, he, ht, reason, decisions_eq_proposed he hdropped ▸ hr⟩

end Layered

/-! ## A cap that cuts commitments off -/

/-- Two domains at risk while a detector is sure of an attack, ten seconds into the run. -/
def onslaught : Snapshot Float :=
  let hot (d : DomainId) (s : Snapshot Float) : Snapshot Float :=
    (s.addDomain ⟨d, "", [], [d], 0.0, 30.0⟩).addScore ⟨d, 0.9, .low, 0⟩
  (hot 2 (hot 1 (.empty 10000000000))).addObservation 1 ⟨0.9, 0.0, 0.0, 0.0, .dos, 0.9, 0⟩

/-- An engine with room for one decision per epoch. -/
def narrow : Engine (Layered Float) Float := fresh .standard .standard 1

/-- An engine with room for one decision returns the shuffle of the first domain only. Its policy
has raised the alarm and started the cooldown of the second domain all the same. -/
theorem cap_cuts_commitments_off :
    let r := run narrow [.evaluate onslaught]
    1 ≤ narrow.cap ∧
    (r.state.policy.alarmed = true ∧
      ¬ ∃ e ∈ r.epochs, ∃ d reason, .triggerShuffle d .attackerAvoid reason ∈ e.decisions) ∧
    (r.state.policy.lastShuffle.find? 2 = some 10.0 ∧
      ¬ ∃ e ∈ r.epochs, ∃ reason, .triggerShuffle 2 .scoreDriven reason ∈ e.decisions) := by
  have hreturned : ∀ e ∈ (run narrow [.evaluate onslaught]).epochs,
      e.decisions.all (·.shuffles 1 .scoreDriven) = true := by
    decide +kernel
  refine ⟨Nat.le_refl 1, ⟨by decide +kernel, ?_⟩, by decide +kernel, ?_⟩
  · rintro ⟨e, he, d, reason, h⟩
    have := List.all_eq_true.1 (hreturned e he) _ h
    simp [Decision.shuffles] at this
  · rintro ⟨e, he, reason, h⟩
    have := List.all_eq_true.1 (hreturned e he) _ h
    simp [Decision.shuffles] at this

end Engine
end MovingTarget
