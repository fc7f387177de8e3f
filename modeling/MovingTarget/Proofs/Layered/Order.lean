import Mathlib.Algebra.Order.BigOperators.Group.List
import Mathlib.Algebra.Order.Ring.Nat
import MovingTarget.Engine.Basic
import MovingTarget.Proofs.Layered.Destinations
/-!
# The order of an epoch's decisions

An epoch decides about the domains first, one after the other in key order, and then about the
users. The share of a domain is cut from three decisions in a fixed order (`agenda`), and the alarm
is in one share at most. What the host can rely on follows from this form alone (`InOrder`): no
decision about a domain comes twice, nobody is moved twice, and the list cannot grow beyond a bound
set by the number of domains. An engine hands on a list that starts the same way.
-/
namespace MovingTarget
variable {α : Type}

/-- What tells decisions about domains apart. -/
def Decision.label (x : Decision α) : Action × Option ShuffleMode × Option DomainId :=
  (x.action, x.mode?, x.domain?)

namespace Layered

/-- Everything that an epoch can decide about a domain, in order. -/
def agenda (k : DomainId) (interval : α) (hot paced attacked : String) : List (Decision α) :=
  [.triggerShuffle k .scoreDriven hot, .changeFrequency k interval paced,
    .triggerShuffle k .attackerAvoid attacked]

/-- Some domains have shares in the decisions of an epoch, and then users are moved. -/
structure InOrder (keys : List DomainId) (share : DomainId → List (Decision α))
    (moves : List (Decision α)) : Prop where
  /-- A share leaves out what is not called for, and keeps the order. -/
  sublist_agenda : ∀ k ∈ keys, ∃ interval hot paced attacked,
    (share k).Sublist (agenda k interval hot paced attacked)
  /-- The alarm is raised once at most. -/
  alarms_le : (keys.flatMap share ++ moves).countP (·.mode? = some .attackerAvoid) ≤ 1
  action_moves : ∀ x ∈ moves, x.action = .migrateUser
  ascending : (moves.filterMap (·.user?)).Pairwise (· < ·)

/-! ## What follows from the order -/

theorem mem_agenda {k : DomainId} {interval : α} {hot paced attacked : String} {x : Decision α}
    (hx : x ∈ agenda k interval hot paced attacked) :
    (x.action = .triggerShuffle ∨ x.action = .changeFrequency) ∧ x.domain? = some k := by
  simp only [agenda, List.mem_cons, List.not_mem_nil, or_false] at hx
  rcases hx with rfl | rfl | rfl
  · exact ⟨.inl rfl, rfl⟩
  · exact ⟨.inr rfl, rfl⟩
  · exact ⟨.inl rfl, rfl⟩

theorem nodup_label_agenda (k : DomainId) (interval : α) (hot paced attacked : String) :
    ((agenda k interval hot paced attacked).map (·.label)).Nodup := by
  simp [agenda, Decision.label, Decision.action, Decision.mode?]

namespace InOrder
variable {keys : List DomainId} {share : DomainId → List (Decision α)} {moves : List (Decision α)}

theorem of_mem_share (h : InOrder keys share moves) {k : DomainId} (hk : k ∈ keys) {x : Decision α}
    (hx : x ∈ share k) :
    (x.action = .triggerShuffle ∨ x.action = .changeFrequency) ∧ x.domain? = some k := by
  obtain ⟨_, _, _, _, hsub⟩ := h.sublist_agenda k hk
  exact mem_agenda (hsub.subset hx)

theorem action_ne_of_mem_shares (h : InOrder keys share moves) {x : Decision α}
    (hx : x ∈ keys.flatMap share) : x.action ≠ .migrateUser := by
  obtain ⟨k, hk, hx⟩ := List.mem_flatMap.1 hx
  rcases (h.of_mem_share hk hx).1 with ha | ha <;> simp [ha]

theorem action_of_mem (h : InOrder keys share moves) {x : Decision α}
    (hx : x ∈ keys.flatMap share ++ moves) :
    x.action = .triggerShuffle ∨ x.action = .changeFrequency ∨ x.action = .migrateUser := by
  rcases List.mem_append.1 hx with hx | hx
  · obtain ⟨k, hk, hx⟩ := List.mem_flatMap.1 hx
    rcases (h.of_mem_share hk hx).1 with ha | ha
    · exact .inl ha
    · exact .inr (.inl ha)
  · exact .inr (.inr (h.action_moves x hx))

theorem filter_shares (h : InOrder keys share moves) :
    (keys.flatMap share ++ moves).filter (·.action ≠ .migrateUser) = keys.flatMap share := by
  have hshares : (keys.flatMap share).filter (·.action ≠ .migrateUser) = keys.flatMap share :=
    List.filter_eq_self.2 fun x hx => decide_eq_true (h.action_ne_of_mem_shares hx)
  have hmoves : moves.filter (·.action ≠ .migrateUser) = [] :=
    List.filter_eq_nil_iff.2 fun x hx => by simp [h.action_moves x hx]
  rw [List.filter_append, hshares, hmoves, List.append_nil]

theorem filter_moves (h : InOrder keys share moves) :
    (keys.flatMap share ++ moves).filter (·.action = .migrateUser) = moves := by
  have hshares : (keys.flatMap share).filter (·.action = .migrateUser) = [] :=
    List.filter_eq_nil_iff.2 fun x hx => by simp [h.action_ne_of_mem_shares hx]
  have hmoves : moves.filter (·.action = .migrateUser) = moves :=
    List.filter_eq_self.2 fun x hx => decide_eq_true (h.action_moves x hx)
  rw [List.filter_append, hshares, hmoves, List.nil_append]

/-- Nothing is decided twice about a domain. -/
theorem nodup_label (h : InOrder keys share moves) (hkeys : keys.Nodup) :
    (((keys.flatMap share ++ moves).filter (·.action ≠ .migrateUser)).map (·.label)).Nodup := by
  rw [h.filter_shares, List.map_flatMap, List.nodup_flatMap]
  constructor
  · intro k hk
    obtain ⟨_, _, _, _, hsub⟩ := h.sublist_agenda k hk
    exact (nodup_label_agenda k _ _ _ _).sublist (hsub.map _)
  · -- Labels from the shares of different domains differ in the domain.
    have hlabel : ∀ k ∈ keys, ∀ l ∈ (share k).map (·.label), l.2.2 = some k := by
      intro k hk l hl
      obtain ⟨x, hx, rfl⟩ := List.mem_map.1 hl
      exact (h.of_mem_share hk hx).2
    refine hkeys.imp_of_mem fun {j k} hj hk hne => ?_
    intro l hlj hlk
    exact hne (Option.some.inj ((hlabel j hj l hlj).symm.trans (hlabel k hk l hlk)))

/-- Nobody is moved twice. -/
theorem nodup_users (h : InOrder keys share moves) :
    (((keys.flatMap share ++ moves).filter (·.action = .migrateUser)).map (·.user?)).Nodup := by
  rw [h.filter_moves, List.Nodup, List.pairwise_map]
  refine (List.pairwise_filterMap.1 h.ascending).imp_of_mem fun {x y} hx _ hless heq => ?_
  obtain ⟨u, d, reason, rfl⟩ := Decision.eq_migrateUser (h.action_moves x hx)
  exact Std.lt_irrefl (hless u rfl u heq.symm)

/-- Beside the alarm there are two decisions about a domain at most. -/
theorem length_le (h : InOrder keys share moves) :
    (keys.flatMap share ++ moves).length ≤ 2 * keys.length + moves.length + 1 := by
  let routine (x : Decision α) : Bool := ¬ x.mode? = some .attackerAvoid
  have hshare : ∀ n ∈ keys.map (List.countP routine ∘ share), n ≤ 2 := by
    intro n hn
    obtain ⟨k, hk, rfl⟩ := List.mem_map.1 hn
    obtain ⟨_, _, _, _, hsub⟩ := h.sublist_agenda k hk
    exact hsub.countP_le
  have hshares : (keys.flatMap share).countP routine ≤ keys.length * 2 := by
    have hsum := List.sum_le_card_nsmul _ _ hshare
    rwa [List.length_map, ← List.countP_flatMap] at hsum
  have hmoves : moves.countP routine ≤ moves.length := List.countP_le_length
  have hsplit : (keys.flatMap share ++ moves).length =
      (keys.flatMap share ++ moves).countP (·.mode? = some .attackerAvoid) +
        (keys.flatMap share ++ moves).countP routine := by
    rw [List.length_eq_countP_add_countP (·.mode? = some .attackerAvoid)]
    simp only [routine, decide_eq_true_eq]
  have halarms := h.alarms_le
  rw [List.countP_append (p := routine)] at hsplit
  omega

end InOrder

/-! ## The decisions of an epoch -/

variable [Scalar α]

theorem verdict_sublist (p : Layered α) (s : Snapshot α) (first : Option DomainId)
    (e : DomainId × DomainSummary α) :
    ∃ interval hot paced attacked,
      (p.verdict s first e).Sublist (agenda e.1 interval hot paced attacked) := by
  have hcut : ∀ (c : Prop) [Decidable c] (x : Decision α), (if c then [x] else []).Sublist [x] := by
    intro c _ x
    split
    · exact List.Sublist.refl _
    · exact List.nil_sublist _
  rw [verdict, routine, shuffle_decisions, adjust_decisions]
  exact ⟨_, _, _, _, ((hcut _ _).append (hcut _ _)).append (hcut _ _)⟩

/-- What an epoch decides about a domain. -/
def share (p : Layered α) (s : Snapshot α) (k : DomainId) : List (Decision α) :=
  (s.summaries.find? k).elim [] fun m =>
    p.verdict s (p.firstAttacked? s s.summaries.entries) (k, m)

theorem flatMap_share (p : Layered α) (s : Snapshot α) :
    s.domains.keys.flatMap (p.share s) =
      s.summaries.entries.flatMap (p.verdict s (p.firstAttacked? s s.summaries.entries)) := by
  have hkeys : s.domains.keys = s.summaries.entries.map (·.1) := (Table.keys_mapValues _ _).symm
  rw [hkeys, List.flatMap_map]
  refine List.flatMap_congr fun e he => ?_
  have hfind : s.summaries.find? e.1 = some e.2 := Table.find?_eq_some_iff.2 he
  rw [share, hfind, Option.elim_some]

theorem ascending_spread (s : Snapshot α) (p : Layered α) :
    ((spread s s.summaries p).decisions.filterMap (·.user?)).Pairwise (· < ·) := by
  have husers := (s.ascending_usersAtLeast p.isolationLevel).sublist
    (List.take_sublist isolationsPerEpoch _)
  rw [spread_decisions, List.filterMap_filterMap]
  refine husers.filterMap _ fun u v hless a ha b hb => ?_
  obtain ⟨x, hx, hau⟩ := Option.bind_eq_some_iff.1 ha
  obtain ⟨y, hy, hbv⟩ := Option.bind_eq_some_iff.1 hb
  obtain ⟨_, _, -, -, rfl⟩ := eq_migrateUser_of_relocation? hx
  obtain ⟨_, _, -, -, rfl⟩ := eq_migrateUser_of_relocation? hy
  obtain rfl : u = a := Option.some.inj hau
  obtain rfl : v = b := Option.some.inj hbv
  exact hless

/-- Users are moved to domains of the snapshot. -/
theorem domain_of_mem_spread {s : Snapshot α} {p : Layered α} {x : Decision α}
    (hx : x ∈ (spread s s.summaries p).decisions) : ∃ k ∈ s.domains.keys, x.domain? = some k := by
  rw [spread_decisions] at hx
  obtain ⟨u, -, hu⟩ := List.mem_filterMap.1 hx
  obtain ⟨home, k, -, hk, rfl⟩ := eq_migrateUser_of_relocation? hu
  obtain ⟨y, hy, -⟩ := (destination?_summaries.1 hk).takesIn
  exact ⟨k, Table.mem_keys_iff.2 ⟨y, hy⟩, rfl⟩

theorem evaluate_inOrder (p : Layered α) (s : Snapshot α) :
    (p.evaluate s).decisions =
        s.domains.keys.flatMap (p.share s) ++ (spread s s.summaries p).decisions ∧
      InOrder s.domains.keys (p.share s) (spread s s.summaries p).decisions := by
  have hds : (p.evaluate s).decisions =
      s.domains.keys.flatMap (p.share s) ++ (spread s s.summaries p).decisions := by
    rw [evaluate_decisions, flatMap_share]
  refine ⟨hds, ?_, ?_, ?_, p.ascending_spread s⟩
  · intro k hk
    obtain ⟨x, hx⟩ := Table.mem_keys_iff.1 hk
    rw [share, s.find?_summaries, hx, Option.map_some, Option.elim_some]
    exact p.verdict_sublist s _ _
  · rw [← hds, List.countP_eq_length_filter, evaluate_alarms, List.length_map]
    cases p.firstAttacked? s s.summaries.entries <;> simp
  · intro x hx
    obtain ⟨u, d, reason, rfl⟩ := mem_spread hx
    rfl

/-- An epoch decides about the domains in key order, on each of them at most a shuffle for its
score, then a change of its interval, then a shuffle away from attackers, which comes once in the
whole list at most; then it moves users, in ascending order. So nothing else is ever decided,
nothing is decided twice about a domain, nobody is moved twice, every domain named is one of the
snapshot, there are at most two decisions for every domain and six more, and none without domains.
An engine hands on a list that starts the same way. -/
theorem epoch_in_order (p : Layered α) (s : Snapshot α) :
    let keys := s.domains.keys
    let ds := (p.evaluate s).decisions
    keys.Pairwise (· < ·) ∧
    (∃ share moves, ds = keys.flatMap share ++ moves ∧ InOrder keys share moves) ∧
    (∀ x ∈ ds, x.action = .triggerShuffle ∨ x.action = .changeFrequency ∨
      x.action = .migrateUser) ∧
    ((ds.filter (·.action ≠ .migrateUser)).map (·.label)).Nodup ∧
    ((ds.filter (·.action = .migrateUser)).map (·.user?)).Nodup ∧
    (∀ x ∈ ds, ∃ k ∈ keys, x.domain? = some k) ∧
    ds.length ≤ 2 * keys.length + 6 ∧
    (keys = [] → ds = []) ∧
    ∀ e : Engine (Layered α) α, e.policy = p → (e.evaluate s).decisions <+: ds := by
  intro keys ds
  obtain ⟨hds, horder⟩ := p.evaluate_inOrder s
  have hkeys : keys.Pairwise (· < ·) := List.pairwise_map.2 s.domains.ascending
  have hdomain : ∀ x ∈ ds, ∃ k ∈ keys, x.domain? = some k := by
    intro x hx
    have hx : x ∈ (p.evaluate s).decisions := hx
    rw [hds, List.mem_append] at hx
    rcases hx with hx | hx
    · obtain ⟨k, hk, hx⟩ := List.mem_flatMap.1 hx
      exact ⟨k, hk, (horder.of_mem_share hk hx).2⟩
    · exact domain_of_mem_spread hx
  have hlabel := horder.nodup_label hkeys.nodup
  have husers := horder.nodup_users
  have hlength := horder.length_le
  have hmoves : (spread s s.summaries p).decisions.length ≤ 5 := length_spread_le s p
  have hbound : 2 * keys.length + (spread s s.summaries p).decisions.length + 1 ≤
      2 * keys.length + 6 := by omega
  have haction := fun x => horder.action_of_mem (x := x)
  rw [← hds] at hlabel husers hlength haction
  refine ⟨hkeys, ⟨_, _, hds, horder⟩, haction, hlabel, husers, hdomain, ?_, fun hnone => ?_, ?_⟩
  · exact hlength.trans hbound
  · refine List.eq_nil_iff_forall_not_mem.2 fun x hx => ?_
    obtain ⟨k, hk, -⟩ := hdomain x hx
    rw [hnone] at hk
    cases hk
  · rintro e rfl
    exact List.take_prefix _ _

end Layered
end MovingTarget
