import Mathlib.Data.List.Pairwise
import MovingTarget.Decision.Basic
import MovingTarget.DomainSummary
import MovingTarget.Proofs.Tables
/-!
# Snapshots, and what decisions do to them

A search for a record ends at the first of its kind, in key order (`map_id_find?_eq_some_iff`). So a
user is located by the first record that lists them (`domainOf?_eq_some_iff`).

Then what a snapshot shows once a host has done what it was told. A decision leaves ids and names
alone, so records are found as before (`map_id_find?_carryOut`); a migration changes where one user
is located and nobody else. A list of migrations that moves nobody twice changes the size of a
domain by those it sends there and those it takes away (`length_users_foldl_revised`).
-/
namespace MovingTarget
variable {α : Type}

theorem RiskLevel.high_le_iff {l : RiskLevel} : RiskLevel.high ≤ l ↔ l = .high ∨ l = .critical := by
  cases l <;> decide

namespace Snapshot

/-- Every record carries the id that it is kept under. -/
def Keyed (s : Snapshot α) : Prop := ∀ k x, s.domains.find? k = some x → x.id = k

/-- No user is listed in two domains. -/
def ListsApart (s : Snapshot α) : Prop :=
  ∀ j k x y, s.domains.find? j = some x → s.domains.find? k = some y →
    ∀ u ∈ x.users, u ∈ y.users → j = k

/-- Every user is listed at most once over all domains. -/
def ListsOnce (s : Snapshot α) : Prop := (s.domains.values.flatMap (·.users)).Nodup

theorem mem_values_iff {s : Snapshot α} {x : Domain α} :
    x ∈ s.domains.values ↔ ∃ k, s.domains.find? k = some x := by
  constructor
  · intro h
    obtain ⟨⟨k, y⟩, he, rfl⟩ := List.mem_map.1 h
    exact ⟨k, Table.find?_eq_some_iff.2 he⟩
  · rintro ⟨k, h⟩
    exact List.mem_map.2 ⟨(k, x), Table.find?_eq_some_iff.1 h, rfl⟩

theorem forall_mem_values_iff {s : Snapshot α} {P : Domain α → Prop} :
    (∀ x ∈ s.domains.values, P x) ↔ ∀ k x, s.domains.find? k = some x → P x := by
  simp only [mem_values_iff, forall_exists_index]
  exact forall_comm

instance (s : Snapshot α) : Decidable s.Keyed :=
  decidable_of_iff (∀ e ∈ s.domains.entries, e.2.id = e.1)
    ⟨fun h k x hx => h (k, x) (Table.find?_eq_some_iff.1 hx),
      fun h e he => h e.1 e.2 (Table.find?_eq_some_iff.2 he)⟩

instance (s : Snapshot α) : Decidable s.ListsOnce := inferInstanceAs (Decidable (List.Nodup _))

theorem ListsOnce.nodup {s : Snapshot α} (h : s.ListsOnce) {k : DomainId} {x : Domain α}
    (hx : s.domains.find? k = some x) : x.users.Nodup :=
  (List.nodup_flatMap.1 h).1 x (mem_values_iff.2 ⟨k, hx⟩)

theorem ListsOnce.apart {s : Snapshot α} (h : s.ListsOnce) : s.ListsApart := by
  intro j k x y hx hy u hux huy
  have hp : s.domains.entries.Pairwise fun a b => List.Disjoint a.2.users b.2.users := by
    have hvalues := (List.nodup_flatMap.1 h).2
    rw [Table.values, List.pairwise_map] at hvalues
    exact hvalues
  have : Std.Symm fun a b : DomainId × Domain α => List.Disjoint a.2.users b.2.users :=
    ⟨fun _ _ hab _ hb ha => hab ha hb⟩
  by_contra hne
  exact hp.forall (Table.find?_eq_some_iff.1 hx) (Table.find?_eq_some_iff.1 hy)
    (fun he => hne (congrArg Prod.fst he)) hux huy

theorem ascending_usersAtLeast (s : Snapshot α) (level : RiskLevel) :
    (s.usersAtLeast level).Pairwise (· < ·) := by
  have hkeys : s.scores.keys.Pairwise (· < ·) := List.pairwise_map.2 s.scores.ascending
  exact hkeys.sublist (List.filter_sublist.map _)

theorem mem_usersAtLeast (s : Snapshot α) {level : RiskLevel} {u : UserId} :
    u ∈ s.usersAtLeast level ↔ ∃ x, s.scores.find? u = some x ∧ level ≤ x.level := by
  rw [usersAtLeast, Table.mem_keys_filter_iff]
  simp only [decide_eq_true_eq]

theorem nodup_usersAtLeast (s : Snapshot α) (level : RiskLevel) : (s.usersAtLeast level).Nodup :=
  (s.ascending_usersAtLeast level).nodup

theorem find?_summaries [Scalar α] (s : Snapshot α) (d : DomainId) :
    s.summaries.find? d = (s.domains.find? d).map (·.summary s) := Table.find?_mapValues _ _ _

/-- The summaries of a snapshot are those of its domains. -/
theorem mem_summaries_iff [Scalar α] {s : Snapshot α} {e : DomainId × DomainSummary α} :
    e ∈ s.summaries.entries ↔ ∃ x, s.domains.find? e.1 = some x ∧ x.summary s = e.2 := by
  have hentry : s.summaries.find? e.1 = some e.2 ↔ e ∈ s.summaries.entries :=
    Table.find?_eq_some_iff
  rw [← hentry, find?_summaries, Option.map_eq_some_iff]

/-- A summary counts the users at high risk as often as the domain lists them. -/
theorem highRisk_summary [Scalar α] (s : Snapshot α) (x : Domain α) :
    (x.summary s).highRisk = x.users.countP (· ∈ s.usersAtLeast .high) := by
  change (x.users.filterMap s.scores.find?).countP (·.level.isHighRisk) = _
  rw [List.countP_filterMap]
  refine List.countP_congr fun u _ => ?_
  rw [decide_eq_true_eq, s.mem_usersAtLeast]
  cases s.scores.find? u with
  | none => simp
  | some r => simp [RiskLevel.isHighRisk]

/-! ## The first record of a kind -/

/-- The first record, in key order, that lists the user carries this id. -/
def FirstListing (s : Snapshot α) (u : UserId) (d : DomainId) : Prop :=
  ∃ k x, s.domains.find? k = some x ∧ u ∈ x.users ∧ x.id = d ∧
    ∀ j y, s.domains.find? j = some y → u ∈ y.users → k ≤ j

/-- A search for a record ends at the first of its kind, and the answer is the id in it. -/
theorem map_id_find?_eq_some_iff {s : Snapshot α} {test : Domain α → Bool} {d : DomainId} :
    (s.domains.values.find? test).map (·.id) = some d ↔
      ∃ k x, s.domains.find? k = some x ∧ test x = true ∧ x.id = d ∧
        ∀ j y, s.domains.find? j = some y → test y = true → k ≤ j := by
  simp only [Option.map_eq_some_iff, Table.find?_values_eq_some_iff]
  constructor
  · rintro ⟨x, ⟨k, hk, hx, hleast⟩, hid⟩
    exact ⟨k, x, hk, hx, hid, hleast⟩
  · rintro ⟨k, x, hk, hx, hid, hleast⟩
    exact ⟨x, ⟨k, hk, hx, hleast⟩, hid⟩

theorem map_id_find?_eq_none_iff {s : Snapshot α} {test : Domain α → Bool} :
    (s.domains.values.find? test).map (·.id) = none ↔
      ∀ k x, s.domains.find? k = some x → ¬ test x = true := by
  rw [Option.map_eq_none_iff, List.find?_eq_none, forall_mem_values_iff]

/-- A user is located by the first record that lists them. -/
theorem domainOf?_eq_some_iff {s : Snapshot α} {u : UserId} {d : DomainId} :
    s.domainOf? u = some d ↔ s.FirstListing u d := by
  simp only [domainOf?, map_id_find?_eq_some_iff, Domain.hasUser, List.contains_iff_mem,
    FirstListing]

theorem domainOf?_eq_none_iff {s : Snapshot α} {u : UserId} :
    s.domainOf? u = none ↔ ∀ k x, s.domains.find? k = some x → u ∉ x.users := by
  simp only [domainOf?, map_id_find?_eq_none_iff, Domain.hasUser, List.contains_iff_mem]

end Snapshot

/-- What becomes of the domain under key `k` when a decision is carried out: a user who moves leaves
every domain and joins the end of the new one, or the domain gets its new interval. Nothing else
that a policy proposes shows in the record. -/
def Domain.revised (k : DomainId) (x : Domain α) : Decision α → Domain α
  | .migrateUser u d _ =>
    { x with users := x.users.filter (· ≠ u) ++ if k = d then [u] else [] }
  | .changeFrequency d interval _ => if k = d then { x with interval } else x
  | _ => x

namespace Snapshot

/-- The network once a decision has been carried out. -/
def carryOut (s : Snapshot α) (d : Decision α) : Snapshot α :=
  { s with domains := s.domains.mapEntries fun k x => x.revised k d }

/-- Carry decisions out one after the other. -/
def carryOutAll (s : Snapshot α) (ds : List (Decision α)) : Snapshot α := ds.foldl carryOut s

theorem find?_carryOut (s : Snapshot α) (d : Decision α) (k : DomainId) :
    (s.carryOut d).domains.find? k = (s.domains.find? k).map (·.revised k d) :=
  Table.find?_mapEntries _ _ _

theorem find?_carryOutAll (s : Snapshot α) (ds : List (Decision α)) (k : DomainId) :
    (s.carryOutAll ds).domains.find? k = (s.domains.find? k).map (ds.foldl (Domain.revised k)) := by
  induction ds generalizing s with
  | nil => exact Option.map_id'.symm
  | cons d ds ih =>
    rw [carryOutAll, List.foldl_cons, ← carryOutAll, ih, find?_carryOut, Option.map_map]
    rfl

theorem values_carryOut (s : Snapshot α) (d : Decision α) :
    (s.carryOut d).domains.values = s.domains.entries.map fun e => e.2.revised e.1 d :=
  List.map_map

end Snapshot

/-! ## Where records and users are -/

theorem revised_frame (k : DomainId) (x : Domain α) (d : Decision α) :
    (x.revised k d).id = x.id ∧ (x.revised k d).name = x.name := by
  unfold Domain.revised
  split
  · exact ⟨rfl, rfl⟩
  · split <;> exact ⟨rfl, rfl⟩
  · exact ⟨rfl, rfl⟩

theorem mem_users_revised (k t : DomainId) {x : Domain α} (u : UserId) (reason : String)
    {v : UserId} :
    v ∈ (x.revised k (.migrateUser u t reason)).users ↔ if v = u then k = t else v ∈ x.users := by
  simp only [Domain.revised]
  split <;> split <;> simp_all

namespace Snapshot

/-- A search for a record by what a decision leaves alone ends at the same id. -/
theorem map_id_find?_carryOut (s : Snapshot α) (d : Decision α) {test : Domain α → Bool}
    (h : ∀ k x, test (x.revised k d) = test x) :
    ((s.carryOut d).domains.values.find? test).map (·.id) =
      (s.domains.values.find? test).map (·.id) := by
  rw [values_carryOut, Table.values]
  induction s.domains.entries with
  | nil => rfl
  | cons e rest ih =>
    rw [List.map_cons, List.map_cons, List.find?_cons, List.find?_cons, h]
    cases test e.2 with
    | false => exact ih
    | true => exact congrArg some (revised_frame e.1 e.2 d).1

theorem Keyed.carryOut {s : Snapshot α} (h : s.Keyed) (d : Decision α) : (s.carryOut d).Keyed := by
  intro k x hx
  rw [find?_carryOut] at hx
  obtain ⟨y, hy, rfl⟩ := Option.map_eq_some_iff.1 hx
  rw [(revised_frame k y d).1]
  exact h k y hy

/-- Whoever does not move stays located where they were. -/
theorem domainOf?_carryOut_other (s : Snapshot α) {u v : UserId} (hne : v ≠ u) (t : DomainId)
    (reason : String) : (s.carryOut (.migrateUser u t reason)).domainOf? v = s.domainOf? v := by
  refine s.map_id_find?_carryOut _ fun k x => ?_
  rw [Domain.hasUser, Domain.hasUser, Bool.eq_iff_iff, List.contains_iff_mem, List.contains_iff_mem,
    mem_users_revised, if_neg hne]

/-- Whoever moves is located in the new domain. -/
theorem domainOf?_carryOut_self {s : Snapshot α} (hs : s.Keyed) {t : DomainId} {x : Domain α}
    (hx : s.domains.find? t = some x) (u : UserId) (reason : String) :
    (s.carryOut (.migrateUser u t reason)).domainOf? u = some t := by
  have hmoved : (s.carryOut (.migrateUser u t reason)).domains.find? t =
      some (x.revised t (.migrateUser u t reason)) := by
    rw [find?_carryOut, hx, Option.map_some]
  have hlisted : u ∈ (x.revised t (.migrateUser u t reason)).users :=
    (mem_users_revised t t u reason).2 (by rw [if_pos rfl])
  cases hd : (s.carryOut (.migrateUser u t reason)).domainOf? u with
  | none =>
    exact absurd hlisted (domainOf?_eq_none_iff.1 hd _ _ hmoved)
  | some d =>
    -- No other record than that of the new domain lists the user.
    obtain ⟨k, y, hy, hu, rfl, -⟩ := domainOf?_eq_some_iff.1 hd
    have hid : y.id = k := hs.carryOut _ k y hy
    rw [find?_carryOut] at hy
    obtain ⟨z, hz, rfl⟩ := Option.map_eq_some_iff.1 hy
    have hkt : k = t := by simpa only [mem_users_revised, if_pos] using hu
    rw [hid, hkt]

end Snapshot

/-! ## The size of a domain -/

theorem Decision.eq_migrateUser {d : Decision α} (h : d.action = .migrateUser) :
    ∃ u t reason, d = .migrateUser u t reason := by
  cases d <;> first | exact ⟨_, _, _, rfl⟩ | cases h

/-- Whether a decision moves one of some users. -/
def Decision.moves (users : List UserId) (d : Decision α) : Bool := d.user?.any (· ∈ users)

section Migration
variable (k t : DomainId) {x : Domain α} (u : UserId) (reason : String)

theorem nodup_users_revised (h : x.users.Nodup) :
    (x.revised k (.migrateUser u t reason)).users.Nodup := by
  refine (h.filter _).append ?_ ?_
  · split <;> simp
  · split <;> simp [List.Disjoint]

/-- A migration takes one user away from the domain it stood in and adds one to the new domain. -/
theorem length_users_revised (h : x.users.Nodup) :
    (x.revised k (.migrateUser u t reason)).users.length + (if u ∈ x.users then 1 else 0) =
      x.users.length + if t = k then 1 else 0 := by
  have hcount := List.Nodup.count h (a := u)
  rw [List.count_eq_countP] at hcount
  have hsplit := List.length_eq_countP_add_countP (· == u) (l := x.users)
  have hfilter : (x.users.filter (· ≠ u)).length = x.users.countP fun v => ¬(v == u) = true := by
    rw [List.countP_eq_length_filter]
    simp
  simp only [Domain.revised, List.length_append]
  by_cases hk : k = t
  · rw [if_pos hk, if_pos hk.symm, List.length_singleton]
    omega
  · rw [if_neg hk, if_neg (Ne.symm hk), List.length_nil]
    omega

/-- Whether another user is moved out of a domain does not hang on a migration. -/
theorem moves_revised {u : UserId} {d : Decision α} (h : d.user? ≠ some u) :
    d.moves (x.revised k (.migrateUser u t reason)).users = d.moves x.users := by
  unfold Decision.moves
  cases hv : d.user? with
  | none => rfl
  | some v =>
    have hne : v ≠ u := fun he => h (he ▸ hv)
    simp only [Option.any_some, mem_users_revised, if_neg hne]

end Migration

/-- Migrations of different users let a domain grow by those sent there and shrink by those of its
own that are sent anywhere. -/
theorem length_users_foldl_revised {k : DomainId} {x : Domain α} (hx : x.users.Nodup)
    {ds : List (Decision α)} (hmove : ∀ d ∈ ds, d.action = .migrateUser)
    (honce : ds.Pairwise fun a b => a.user? ≠ b.user?) :
    (ds.foldl (Domain.revised k) x).users.length + ds.countP (·.moves x.users) =
      x.users.length + ds.countP (·.domain? = some k) := by
  induction ds generalizing x with
  | nil => rfl
  | cons d ds ih =>
    rw [List.forall_mem_cons] at hmove
    rw [List.pairwise_cons] at honce
    obtain ⟨u, t, reason, rfl⟩ := Decision.eq_migrateUser hmove.1
    -- The others on the list are not the user just moved, so as many of them are members as before.
    have hrest : ds.countP (·.moves (x.revised k (.migrateUser u t reason)).users) =
        ds.countP (·.moves x.users) := by
      refine List.countP_congr fun d' hd' => ?_
      rw [moves_revised k t reason fun h => honce.1 d' hd' h.symm]
    have hafter := ih (nodup_users_revised k t u reason hx) hmove.2 honce.2
    have hstep := length_users_revised k t u reason hx
    have hmoves : (Decision.migrateUser u t reason : Decision α).moves x.users =
      decide (u ∈ x.users) := rfl
    have hdomain : (Decision.migrateUser u t reason : Decision α).domain? = some t := rfl
    rw [List.foldl_cons, List.countP_cons, List.countP_cons, hmoves, hdomain]
    simp only [decide_eq_true_eq, Option.some.injEq]
    omega

end MovingTarget
