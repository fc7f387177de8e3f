import Mathlib.Data.Prod.Lex
import MovingTarget.Proofs.Layered.Epoch
import MovingTarget.Proofs.Snapshots
/-!
# The choice of a destination

The search for a destination walks the domains in key order and keeps the best one so far, so it
ends at the least of those that may be moved to, first by their members at high risk and then by
their keys (`search_cases`). An epoch moves the first five users at the isolation level or above to
their destinations; a user who has none keeps the place all the same (`migrates_to_best`).
-/
namespace MovingTarget
variable {α : Type}

/-! ## What is asked of a destination -/

/-- How often a domain lists a user at high risk. -/
def Domain.timesAtRisk (x : Domain α) (s : Snapshot α) : Nat :=
  x.users.countP fun u => (s.scores.find? u).any fun r => r.level = .high ∨ r.level = .critical

namespace Snapshot

/-- How often the domain under a key lists a user at high risk. -/
def timesAtRisk (s : Snapshot α) (k : DomainId) : Nat :=
  (s.domains.find? k).elim 0 (·.timesAtRisk s)

/-- The domain under key `k` is another one than `home` and has room. -/
def TakesIn (s : Snapshot α) (home k : DomainId) : Prop :=
  ∃ x, s.domains.find? k = some x ∧ k ≠ home ∧ x.users.length < 500

/-- Of the domains that take in a user from `home`, the one under key `k` lists users at high risk
least often, and of several such it is the first in key order. -/
structure BestFor (s : Snapshot α) (home k : DomainId) : Prop where
  takesIn : s.TakesIn home k
  least : ∀ j, s.TakesIn home j → toLex (s.timesAtRisk k, k) ≤ toLex (s.timesAtRisk j, j)

end Snapshot

namespace Layered

/-! ## The search -/

/-- A domain that a user from `home` may be moved to. -/
def Open (home : DomainId) (e : DomainId × DomainSummary α) : Prop :=
  e.1 ≠ home ∧ e.2.users < domainCapacity

/-- What domains are compared by. -/
def rank (e : DomainId × DomainSummary α) : Nat ×ₗ DomainId := toLex (e.2.highRisk, e.1)

/-- One of some domains is open, and no other open one has a lower rank. -/
structure Leads (home : DomainId) (es : List (DomainId × DomainSummary α))
    (e : DomainId × DomainSummary α) : Prop where
  mem : e ∈ es
  isOpen : Open home e
  least : ∀ f ∈ es, Open home f → rank e ≤ rank f

theorem rank_le_iff {e f : DomainId × DomainSummary α} :
    rank e ≤ rank f ↔ e.2.highRisk < f.2.highRisk ∨ e.2.highRisk = f.2.highRisk ∧ e.1 ≤ f.1 :=
  Prod.Lex.toLex_le_toLex

theorem rank_refl (e : DomainId × DomainSummary α) : rank e ≤ rank e :=
  rank_le_iff.2 (.inr ⟨rfl, Std.le_refl _⟩)

theorem rank_trans {e f g : DomainId × DomainSummary α} (hef : rank e ≤ rank f)
    (hfg : rank f ≤ rank g) : rank e ≤ rank g := by
  rw [rank_le_iff] at hef hfg ⊢
  rcases hef with hless | ⟨heq, hle⟩ <;> rcases hfg with hless' | ⟨heq', hle'⟩
  · exact .inl (hless.trans hless')
  · exact .inl (heq' ▸ hless)
  · exact .inl (heq ▸ hless')
  · exact .inr ⟨heq.trans heq', Std.le_trans hle hle'⟩

/-- There is at most one leader. -/
theorem Leads.key_eq {home : DomainId} {es : List (DomainId × DomainSummary α)}
    {e f : DomainId × DomainSummary α} (he : Leads home es e) (hf : Leads home es f) :
    e.1 = f.1 := by
  have hef := rank_le_iff.1 (he.least f hf.mem hf.isOpen)
  have hfe := rank_le_iff.1 (hf.least e he.mem he.isOpen)
  -- Neither lists users at high risk less often, so their keys decide.
  have hkeys : e.1 ≤ f.1 ∧ f.1 ≤ e.1 := by
    rcases hef with hless | ⟨heq, hle⟩
    · omega
    · rcases hfe with hless | ⟨-, hge⟩
      · omega
      · exact ⟨hle, hge⟩
  exact Std.le_antisymm hkeys.1 hkeys.2

theorem roomier_of_not_open {home : DomainId} {e : DomainId × DomainSummary α}
    (h : ¬ Open home e) (best : Option (DomainId × Nat)) : roomier home best e = best := by
  rw [Open, not_and_or, not_not, Nat.not_lt] at h
  unfold roomier
  rw [if_pos h]

theorem roomier_of_open {home : DomainId} {e : DomainId × DomainSummary α} (h : Open home e)
    (best : Option (DomainId × Nat)) :
    roomier home best e =
      if ∀ b ∈ best, e.2.highRisk < b.2 then some (e.1, e.2.highRisk) else best := by
  have hopen : ¬ (e.1 = home ∨ domainCapacity ≤ e.2.users) := by
    rw [not_or, Nat.not_le]
    exact h
  unfold roomier
  rw [if_neg hopen]
  cases best <;> simp

/-- Among domains in key order the search finds the leader, or nothing if none is open. -/
theorem search_cases (home : DomainId) {es : List (DomainId × DomainSummary α)}
    (hes : es.Pairwise fun e f => e.1 < f.1) :
    (es.foldl (roomier home) none = none ∧ ∀ e ∈ es, ¬ Open home e) ∨
      ∃ e, es.foldl (roomier home) none = some (e.1, e.2.highRisk) ∧ Leads home es e := by
  have hmeet : ∀ e f : DomainId × DomainSummary α, e.1 < f.1 → Open home e → Open home f →
      roomier home (some (e.1, e.2.highRisk)) f = some (e.1, e.2.highRisk) ∧ rank e ≤ rank f ∨
        roomier home (some (e.1, e.2.highRisk)) f = some (f.1, f.2.highRisk) ∧
          rank f ≤ rank e := by
    intro e f hkeys _ hf
    rw [roomier_of_open hf]
    simp only [Option.mem_def, Option.some.injEq, forall_eq']
    rcases Nat.lt_trichotomy f.2.highRisk e.2.highRisk with hless | heq | hmore
    · exact .inr ⟨if_pos hless, rank_le_iff.2 (.inl hless)⟩
    · -- On a tie the earlier key stays in the lead.
      exact .inl ⟨if_neg (by omega), rank_le_iff.2 (.inr ⟨heq.symm, Std.le_of_lt hkeys⟩)⟩
    · exact .inl ⟨if_neg (by omega), rank_le_iff.2 (.inl hmore)⟩
  have hstart : ∀ e : DomainId × DomainSummary α, Open home e →
      roomier home none e = some (e.1, e.2.highRisk) :=
    fun e he => (roomier_of_open he none).trans (if_pos nofun)
  rcases foldl_best_cases (fun best e he => roomier_of_not_open he best) hstart
    (hes.imp (hmeet _ _)) (fun e _ => rank_refl e) (fun _ _ _ => rank_trans) with
    hnone | ⟨e, hfold, hmem, hopen, hleast⟩
  · exact .inl hnone
  · exact .inr ⟨e, hfold, hmem, hopen, hleast⟩

theorem destination?_eq_some_iff {ms : Table DomainId (DomainSummary α)} {home t : DomainId} :
    destination? ms home = some t ↔ ∃ m, Leads home ms.entries (t, m) := by
  rw [destination?]
  rcases search_cases home ms.ascending with ⟨hfold, hclosed⟩ | ⟨e, hfold, he⟩
  · rw [hfold]
    refine iff_of_false nofun ?_
    rintro ⟨m, hm⟩
    exact hclosed _ hm.mem hm.isOpen
  · rw [hfold, Option.map_some, Option.some_inj]
    constructor
    · rintro rfl
      exact ⟨e.2, he⟩
    · rintro ⟨m, hm⟩
      exact he.key_eq hm

theorem destination?_eq_some {ms : Table DomainId (DomainSummary α)} {home d : DomainId}
    (h : destination? ms home = some d) :
    d ≠ home ∧ ∃ m, ms.find? d = some m ∧ m.users < domainCapacity := by
  obtain ⟨m, hm⟩ := destination?_eq_some_iff.1 h
  exact ⟨hm.isOpen.1, m, Table.find?_eq_some_iff.2 hm.mem, hm.isOpen.2⟩

theorem destination?_eq_none_iff {ms : Table DomainId (DomainSummary α)} {home : DomainId} :
    destination? ms home = none ↔ ∀ e ∈ ms.entries, ¬ Open home e := by
  rw [destination?]
  rcases search_cases home ms.ascending with ⟨hfold, hclosed⟩ | ⟨e, hfold, he⟩
  · rw [hfold]
    exact iff_of_true rfl hclosed
  · rw [hfold]
    exact iff_of_false nofun fun hclosed => hclosed e he.mem he.isOpen

/-! ## The destination in terms of the snapshot -/

variable [Scalar α]

theorem highRisk_eq_timesAtRisk (s : Snapshot α) (x : Domain α) :
    (x.summary s).highRisk = x.timesAtRisk s := by
  rw [s.highRisk_summary, Domain.timesAtRisk]
  refine List.countP_congr fun u _ => ?_
  simp only [decide_eq_true_eq, s.mem_usersAtLeast, RiskLevel.high_le_iff, Option.any_eq_true]

theorem open_iff_takesIn {s : Snapshot α} {home : DomainId} {e : DomainId × DomainSummary α}
    (he : e ∈ s.summaries.entries) : Open home e ↔ s.TakesIn home e.1 := by
  obtain ⟨x, hx, hm⟩ := Snapshot.mem_summaries_iff.1 he
  rw [Open, Snapshot.TakesIn, hx, ← hm]
  simp only [Option.some.injEq, exists_eq_left']
  rfl

theorem rank_summary {s : Snapshot α} {e : DomainId × DomainSummary α}
    (he : e ∈ s.summaries.entries) : rank e = toLex (s.timesAtRisk e.1, e.1) := by
  obtain ⟨x, hx, hm⟩ := Snapshot.mem_summaries_iff.1 he
  rw [rank, Snapshot.timesAtRisk, hx, ← hm, highRisk_eq_timesAtRisk]
  rfl

theorem leads_iff_bestFor {s : Snapshot α} {home t : DomainId} :
    (∃ m, Leads home s.summaries.entries (t, m)) ↔ s.BestFor home t := by
  constructor
  · rintro ⟨m, hm⟩
    refine ⟨(open_iff_takesIn hm.mem).1 hm.isOpen, fun j hj => ?_⟩
    have ⟨y, hy, _⟩ := hj
    have hmem : (j, y.summary s) ∈ s.summaries.entries := Snapshot.mem_summaries_iff.2 ⟨y, hy, rfl⟩
    have hle := hm.least _ hmem ((open_iff_takesIn hmem).2 hj)
    rwa [rank_summary hm.mem, rank_summary hmem] at hle
  · rintro ⟨htakes, hleast⟩
    have ⟨x, hx, _⟩ := htakes
    have hmem : (t, x.summary s) ∈ s.summaries.entries := Snapshot.mem_summaries_iff.2 ⟨x, hx, rfl⟩
    refine ⟨x.summary s, hmem, (open_iff_takesIn hmem).2 htakes, fun f hf hopen => ?_⟩
    rw [rank_summary hmem, rank_summary hf]
    exact hleast f.1 ((open_iff_takesIn hf).1 hopen)

theorem destination?_summaries {s : Snapshot α} {home t : DomainId} :
    destination? s.summaries home = some t ↔ s.BestFor home t :=
  destination?_eq_some_iff.trans leads_iff_bestFor

theorem destination?_summaries_eq_none_iff {s : Snapshot α} {home : DomainId} :
    destination? s.summaries home = none ↔ ∀ k, ¬ s.TakesIn home k := by
  rw [destination?_eq_none_iff]
  constructor
  · intro hclosed k hk
    have ⟨x, hx, _⟩ := hk
    have hmem : (k, x.summary s) ∈ s.summaries.entries := Snapshot.mem_summaries_iff.2 ⟨x, hx, rfl⟩
    exact hclosed _ hmem ((open_iff_takesIn hmem).2 hk)
  · exact fun hnone e he hopen => hnone e.1 ((open_iff_takesIn he).1 hopen)

/-! ## The migrations of an epoch -/

theorem length_spread_le (s : Snapshot α) (p : Layered α) :
    (spread s s.summaries p).decisions.length ≤ isolationsPerEpoch := by
  rw [spread_decisions]
  exact (List.length_filterMap_le _ _).trans (List.length_take_le _ _)

/-- An epoch moves the users that are spread, and nobody else. -/
theorem evaluate_migrations (p : Layered α) (s : Snapshot α) :
    (p.evaluate s).decisions.filter (·.action = .migrateUser) =
      ((s.usersAtLeast p.isolationLevel).take isolationsPerEpoch).filterMap
        (relocation? s s.summaries) := by
  have hv : ∀ first, ∀ e : DomainId × DomainSummary α,
      (p.verdict s first e).filter (·.action = .migrateUser) = [] := by
    intro first e
    rw [verdict, routine, List.filter_append, List.filter_append, shuffle_decisions,
      adjust_decisions]
    repeat' split
    all_goals rfl
  have hs : (spread s s.summaries p).decisions.filter (·.action = .migrateUser) =
      (spread s s.summaries p).decisions := by
    refine List.filter_eq_self.2 fun x hx => ?_
    obtain ⟨u, d, reason, rfl⟩ := mem_spread hx
    rfl
  have hverdicts : (s.summaries.entries.flatMap fun e =>
      (p.verdict s (p.firstAttacked? s s.summaries.entries) e).filter
        (·.action = .migrateUser)) = [] :=
    List.flatMap_eq_nil_iff.2 fun e _ => hv _ e
  rw [evaluate_decisions, List.filter_append, List.filter_flatMap, hs, spread_decisions, hverdicts,
    List.nil_append]

/-- An epoch looks at the first five users at the isolation level or above, in ascending order. Each
of them who is located in a domain is moved to the best other domain that has room; whoever is in no
domain, or for whom no other domain has room, stays, and nobody else takes their turn. A user is
located by the first record that lists them. -/
theorem migrates_to_best (p : Layered α) (s : Snapshot α) :
    ∃ (users : List UserId) (target? : UserId → Option DomainId),
      users.Pairwise (· < ·) ∧
      (∀ u, u ∈ users ↔ ∃ x, s.scores.find? u = some x ∧ p.isolationLevel ≤ x.level) ∧
      (∀ u home, s.domainOf? u = some home ↔ s.FirstListing u home) ∧
      (∀ u k, target? u = some k ↔ ∃ home, s.domainOf? u = some home ∧ s.BestFor home k) ∧
      (∀ u, target? u = none ↔ ∀ home, s.domainOf? u = some home → ∀ k, ¬ s.TakesIn home k) ∧
      (p.evaluate s).decisions.filter (·.action = .migrateUser) =
        (users.take 5).filterMap fun u => (target? u).map fun k =>
          .migrateUser u k s!"Distributing high-risk user {u}" := by
  refine ⟨s.usersAtLeast p.isolationLevel, fun u => (s.domainOf? u).bind (destination? s.summaries),
    s.ascending_usersAtLeast _, fun u => s.mem_usersAtLeast,
    fun _ _ => Snapshot.domainOf?_eq_some_iff, fun u k => ?_, fun u => ?_, ?_⟩
  · simp only [Option.bind_eq_some_iff, destination?_summaries]
  · simp only [Option.bind_eq_none_iff, destination?_summaries_eq_none_iff]
  · rw [evaluate_migrations]
    refine List.filterMap_congr fun u _ => ?_
    rw [relocation?, Option.map_bind]
    rfl

end Layered
end MovingTarget
