import MovingTarget.Proofs.Layered.Memory
/-!
# The alarm

Between two resets the alarm is raised at most once: in the first epoch, and there at the first
domain in key order, at which the attack pattern holds. `alarmed_iff` says that the alarm stands
from then on, `alarm_count` that the decision is returned as often as the alarm stands.
-/
namespace MovingTarget

section Pattern
variable {σ α : Type} [Scalar α]

/-- The attack pattern holds at a domain of an epoch: a detector is sure of an attack, or the
domain took part in three epochs at least and its mean score rose over the last two steps. -/
def AttackAt (es : List (Epoch σ α)) (i : Nat) (d : DomainId) : Prop :=
  ∃ e, es[i]? = some e ∧ d ∈ e.snapshot.domains.keys ∧
    ((∃ o ∈ e.snapshot.observations.values, 0.8 < o.confidence ∧ 0.7 < o.rateAnomaly) ∨
      ∃ older x y z, averages (es.take (i + 1)) d = older ++ [x, y, z] ∧ 0.3 < z - x)

/-- The first place at which the attack pattern holds, by epoch and then by domain. -/
def FirstAttackAt (es : List (Epoch σ α)) (i : Nat) (d : DomainId) : Prop :=
  AttackAt es i d ∧ ∀ j k, AttackAt es j k → i < j ∨ i = j ∧ d ≤ k

/-- There is one first place at most. -/
theorem FirstAttackAt.unique {es : List (Epoch σ α)} {i j : Nat} {d k : DomainId}
    (h : FirstAttackAt es i d) (h' : FirstAttackAt es j k) : i = j ∧ d = k := by
  rcases h.2 j k h'.1 with hij | ⟨rfl, hdk⟩
  · rcases h'.2 i d h.1 with hji | ⟨rfl, -⟩ <;> omega
  · rcases h'.2 i d h.1 with hii | ⟨-, hkd⟩
    · exact absurd hii (Nat.lt_irrefl i)
    · exact ⟨rfl, Std.le_antisymm hdk hkd⟩

theorem AttackAt.lt {es : List (Epoch σ α)} {i : Nat} {d : DomainId} (h : AttackAt es i d) :
    i < es.length := by
  obtain ⟨e, he, -⟩ := h
  exact (List.getElem?_eq_some_iff.1 he).1

/-- Whether the pattern holds in an epoch does not depend on later ones. -/
theorem attackAt_take {es : List (Epoch σ α)} {j n : Nat} {d : DomainId} (h : j < n) :
    AttackAt (es.take n) j d ↔ AttackAt es j d := by
  rw [AttackAt, AttackAt, List.getElem?_take, if_pos h, List.take_take, Nat.min_eq_left h]

end Pattern

namespace Layered
variable {α : Type} [Scalar α]

theorem attackObserved_iff {s : Snapshot α} :
    attackObserved s = true ↔
      ∃ o ∈ s.observations.values, 0.8 < o.confidence ∧ 0.7 < o.rateAnomaly := by
  rw [attackObserved, List.any_eq_true]
  refine exists_congr fun o => and_congr_right fun _ => ?_
  rw [Bool.and_eq_true, decide_eq_true_eq, decide_eq_true_eq]
  rfl

/-- The signs of an attack that the policy sees after a run are the attack pattern. -/
theorem attacked_iff (threshold : α) (pace : Pace α) (level : RiskLevel) (calls : List (Call α))
    (s : Snapshot α) (d : DomainId) :
    let r := run (fresh threshold pace level) calls
    (∃ m, s.summaries.find? d = some m ∧ r.state.attacked s (d, m) = true) ↔
      AttackAt (r.epochs ++ [⟨r.state, s⟩]) r.epochs.length d := by
  intro r
  -- The window with the score of this epoch in front ends where the averages end.
  have hw : ∀ m, s.summaries.find? d = some m →
      (spiked (r.state.window (d, m)) = true ↔
        ∃ older x y z, averages (r.epochs ++ [⟨r.state, s⟩]) d = older ++ [x, y, z] ∧
          spike < z - x) := by
    intro m hm
    have ha : averages (r.epochs ++ [⟨r.state, s⟩]) d = averages r.epochs d ++ [m.meanScore] := by
      rw [averages_concat]
      simp [hm]
    rw [window, run_scores, take_cons_take, spiked_take, ← spiked_reverse_iff, ha,
      List.reverse_append]
    rfl
  have hat : AttackAt (r.epochs ++ [⟨r.state, s⟩]) r.epochs.length d ↔
      d ∈ s.domains.keys ∧ ((∃ o ∈ s.observations.values, 0.8 < o.confidence ∧
        0.7 < o.rateAnomaly) ∨ ∃ older x y z,
          averages (r.epochs ++ [⟨r.state, s⟩]) d = older ++ [x, y, z] ∧ 0.3 < z - x) := by
    simp [AttackAt, List.take_of_length_le]
  rw [hat, Snapshot.mem_keys_iff_summary]
  constructor
  · rintro ⟨m, hm, h⟩
    rw [attacked, Bool.or_eq_true, attackObserved_iff, hw m hm] at h
    exact ⟨⟨m, hm⟩, h⟩
  · rintro ⟨⟨m, hm⟩, h⟩
    refine ⟨m, hm, ?_⟩
    rw [attacked, Bool.or_eq_true, attackObserved_iff, hw m hm]
    exact h

theorem firstAttacked?_eq_some_iff {p : Layered α} {s : Snapshot α} {d : DomainId} :
    p.firstAttacked? s s.summaries.entries = some d ↔
      p.alarmed = false ∧ (∃ m, s.summaries.find? d = some m ∧ p.attacked s (d, m) = true) ∧
        ∀ k, (∃ m, s.summaries.find? k = some m ∧ p.attacked s (k, m) = true) → d ≤ k := by
  unfold firstAttacked?
  cases p.alarmed with
  | true => simp
  | false =>
    rw [if_neg Bool.false_ne_true, Option.map_eq_some_iff]
    constructor
    · rintro ⟨⟨d, m⟩, hf, rfl⟩
      obtain ⟨hm, ha, hleast⟩ := Table.find?_entries_iff.1 hf
      exact ⟨rfl, ⟨m, hm, ha⟩, fun k ⟨m', hm', ha'⟩ => hleast k m' hm' ha'⟩
    · rintro ⟨-, ⟨m, hm, ha⟩, hleast⟩
      exact ⟨(d, m), Table.find?_entries_iff.2 ⟨hm, ha, fun k m' hm' ha' =>
        hleast k ⟨m', hm', ha'⟩⟩, rfl⟩

theorem isSome_firstAttacked? (p : Layered α) (s : Snapshot α)
    (es : List (DomainId × DomainSummary α)) :
    (p.firstAttacked? s es).isSome = (!p.alarmed && es.any (p.attacked s)) := by
  unfold firstAttacked?
  cases p.alarmed with
  | true => rfl
  | false => rw [if_neg Bool.false_ne_true, Option.isSome_map, List.isSome_find?]; rfl

theorem any_attacked_iff {p : Layered α} {s : Snapshot α} :
    s.summaries.entries.any (p.attacked s) = true ↔
      ∃ d m, s.summaries.find? d = some m ∧ p.attacked s (d, m) = true := by
  rw [List.any_eq_true]
  constructor
  · rintro ⟨⟨d, m⟩, hm, h⟩
    exact ⟨d, m, Table.find?_eq_some_iff.2 hm, h⟩
  · rintro ⟨d, m, hm, h⟩
    exact ⟨(d, m), Table.find?_eq_some_iff.1 hm, h⟩

/-- The alarm stands once the attack pattern has held anywhere. -/
theorem alarmed_iff (threshold : α) (pace : Pace α) (level : RiskLevel) (calls : List (Call α)) :
    let r := run (fresh threshold pace level) calls
    r.state.alarmed = true ↔ ∃ i d, AttackAt r.epochs i d := by
  have hnone : ¬ ∃ i d, AttackAt ([] : List (Epoch (Layered α) α)) i d := by
    rintro ⟨i, d, h⟩
    exact absurd h.lt (Nat.not_lt_zero i)
  refine run_induction (motive := fun (p : Layered α) es =>
    p.alarmed = true ↔ ∃ i d, AttackAt es i d)
    (iff_of_false Bool.false_ne_true hnone) ?_ (fun _ _ _ ih => ih) (fun _ _ _ ih => ih)
    (fun _ _ _ => iff_of_false Bool.false_ne_true hnone) calls
  intro p es s ⟨calls, hp, hes⟩ ih
  subst hp hes
  change ((run (fresh threshold pace level) calls).state.evaluate s).next.alarmed = true ↔ _
  rw [evaluate_alarmed, Bool.or_eq_true, ih, any_attacked_iff]
  simp only [attacked_iff]
  -- The pattern holds in the new epoch, or in an older one, which the new one does not touch.
  constructor
  · rintro (⟨i, d, h⟩ | ⟨d, h⟩)
    · refine ⟨i, d, (attackAt_take h.lt).1 ?_⟩
      rw [List.take_left]
      exact h
    · exact ⟨_, d, h⟩
  · rintro ⟨i, d, h⟩
    rcases Nat.lt_succ_iff_lt_or_eq.1 (by simpa using h.lt) with hi | hi
    · have := (attackAt_take hi).2 h
      rw [List.take_left] at this
      exact .inl ⟨i, d, this⟩
    · exact .inr ⟨d, hi ▸ h⟩

/-- The alarm is returned once if it stands, and not at all if it does not. -/
theorem alarm_count (threshold : α) (pace : Pace α) (level : RiskLevel) (calls : List (Call α)) :
    let r := run (fresh threshold pace level) calls
    (r.epochs.flatMap Epoch.decisions).countP (fun x => x.mode? = some .attackerAvoid) =
      if r.state.alarmed then 1 else 0 := by
  refine run_induction (motive := fun (p : Layered α) es =>
    (es.flatMap Epoch.decisions).countP (fun x => x.mode? = some .attackerAvoid) =
      if p.alarmed then 1 else 0)
    rfl ?_ (fun _ _ _ ih => ih) (fun _ _ _ ih => ih) (fun _ _ _ => rfl) calls
  intro p es s _ ih
  have hd : (⟨p, s⟩ : Epoch (Layered α) α).decisions = (p.evaluate s).decisions := rfl
  have hlen : ∀ o : Option DomainId, (o.toList.map (avoid (α := α))).length =
      if o.isSome then 1 else 0 := by
    intro o
    cases o <;> rfl
  change _ = if (p.evaluate s).next.alarmed then 1 else 0
  rw [List.flatMap_append, List.countP_append, ih, List.flatMap_singleton, hd,
    List.countP_eq_length_filter, evaluate_alarms, hlen, isSome_firstAttacked?, evaluate_alarmed]
  cases p.alarmed <;> cases s.summaries.entries.any (p.attacked s) <;> rfl

/-- The state that an epoch of a run met shows the signs of an attack where the pattern holds, and
the alarm stands in it if the pattern held in an earlier epoch. -/
theorem epoch_iff {threshold : α} {pace : Pace α} {level : RiskLevel} {calls : List (Call α)}
    {es : List (Epoch (Layered α) α)} {i : Nat} {e : Epoch (Layered α) α}
    (hes : (run (fresh threshold pace level) calls).epochs = es) (h : es[i]? = some e) :
    (∀ d, (∃ m, e.snapshot.summaries.find? d = some m ∧
      e.before.attacked e.snapshot (d, m) = true) ↔ AttackAt es i d) ∧
    (e.before.alarmed = true ↔ ∃ j d, j < i ∧ AttackAt es j d) := by
  subst hes
  obtain ⟨q, s⟩ := e
  obtain ⟨calls', hs, hes, hlast⟩ := exists_run_of_getElem? h
  have hi := (List.getElem?_eq_some_iff.1 h).1
  have hlen : (run (fresh threshold pace level) calls').epochs.length = i := by
    rw [hes, List.length_take, Nat.min_eq_left (Nat.le_of_lt hi)]
  constructor
  · intro d
    have ha := attacked_iff threshold pace level calls' s d
    simp only [hs, hlast, hlen, attackAt_take (Nat.lt_succ_self i)] at ha
    exact ha
  · have ha := alarmed_iff threshold pace level calls'
    simp only [hs, hes] at ha
    rw [ha]
    refine exists_congr fun j => exists_congr fun d => ⟨fun h => ?_, fun ⟨hj, h⟩ => ?_⟩
    · have hj : j < i := by simpa using Nat.lt_of_lt_of_le h.lt (List.length_take_le _ _)
      exact ⟨hj, (attackAt_take hj).1 h⟩
    · exact (attackAt_take hj).2 h

/-- An epoch shuffles away from attackers where the attack pattern first holds. -/
theorem avoids_iff_firstAttackAt {threshold : α} {pace : Pace α} {level : RiskLevel}
    {calls : List (Call α)} {es : List (Epoch (Layered α) α)} {i : Nat} {d : DomainId}
    (hes : (run (fresh threshold pace level) calls).epochs = es) :
    (∃ e reason, es[i]? = some e ∧ .triggerShuffle d .attackerAvoid reason ∈ e.decisions) ↔
      FirstAttackAt es i d := by
  constructor
  · rintro ⟨e, reason, he, h⟩
    obtain ⟨hat, halarm⟩ := epoch_iff hes he
    obtain ⟨hq, hd, hleast⟩ := firstAttacked?_eq_some_iff.1 (avoids_iff.1 ⟨reason, h⟩)
    refine ⟨(hat d).1 hd, fun j k hk => ?_⟩
    rcases Nat.lt_trichotomy i j with hij | rfl | hij
    · exact .inl hij
    · exact .inr ⟨rfl, hleast k ((hat k).2 hk)⟩
    · -- An earlier place would have raised the alarm before this epoch.
      have := halarm.2 ⟨j, k, hij, hk⟩
      rw [hq] at this
      cases this
  · rintro ⟨h, hfirst⟩
    obtain ⟨e, he, -⟩ := id h
    obtain ⟨hat, halarm⟩ := epoch_iff hes he
    have hq : e.before.alarmed = false := by
      rw [Bool.eq_false_iff, Ne, halarm]
      rintro ⟨j, k, hj, hk⟩
      rcases hfirst j k hk with hij | ⟨rfl, -⟩ <;> omega
    have hleast : ∀ k, (∃ m, e.snapshot.summaries.find? k = some m ∧
        e.before.attacked e.snapshot (k, m) = true) → d ≤ k := by
      intro k hk
      rcases hfirst i k ((hat k).1 hk) with hii | ⟨-, hdk⟩
      · exact absurd hii (Nat.lt_irrefl i)
      · exact hdk
    obtain ⟨reason, hmem⟩ :=
      avoids_iff.2 (firstAttacked?_eq_some_iff.2 ⟨hq, (hat d).2 h, hleast⟩)
    exact ⟨e, reason, he, hmem⟩

/-- The alarm stands once a shuffle away from attackers has been returned. -/
theorem alarmed_iff_avoided (threshold : α) (pace : Pace α) (level : RiskLevel)
    (calls : List (Call α)) :
    let r := run (fresh threshold pace level) calls
    r.state.alarmed = true ↔ ∃ e ∈ r.epochs, ∃ x ∈ e.decisions, x.mode? = some .attackerAvoid := by
  intro r
  have hpos : r.state.alarmed = true ↔ 0 < (r.epochs.flatMap Epoch.decisions).countP
      (fun x => x.mode? = some .attackerAvoid) := by
    rw [alarm_count]
    change r.state.alarmed = true ↔ 0 < if r.state.alarmed then 1 else 0
    cases r.state.alarmed <;> simp
  rw [hpos, List.countP_pos_iff]
  constructor
  · rintro ⟨x, hx, hmode⟩
    obtain ⟨e, he, hx⟩ := List.mem_flatMap.1 hx
    exact ⟨e, he, x, hx, of_decide_eq_true hmode⟩
  · rintro ⟨e, he, x, hx, hmode⟩
    exact ⟨x, List.mem_flatMap.2 ⟨e, he, hx⟩, decide_eq_true hmode⟩

/-- Between two resets a shuffle away from attackers is returned at most once, namely where the
attack pattern first holds, by epoch and then by domain; it names that domain. The alarm stands
exactly when it has been returned. -/
theorem alarm_raised_at_first_attack (threshold : α) (pace : Pace α) (level : RiskLevel)
    (calls : List (Call α)) :
    let r := run (fresh threshold pace level) calls
    (r.epochs.flatMap Epoch.decisions).countP (fun x => x.mode? = some .attackerAvoid) ≤ 1 ∧
    (∀ i d, (∃ e reason, r.epochs[i]? = some e ∧
        .triggerShuffle d .attackerAvoid reason ∈ e.decisions) ↔ FirstAttackAt r.epochs i d) ∧
    (r.state.alarmed = true ↔
      ∃ e ∈ r.epochs, ∃ x ∈ e.decisions, x.mode? = some .attackerAvoid) := by
  intro r
  refine ⟨?_, fun i d => avoids_iff_firstAttackAt rfl,
    alarmed_iff_avoided threshold pace level calls⟩
  rw [alarm_count]
  split <;> omega

end Layered
end MovingTarget
