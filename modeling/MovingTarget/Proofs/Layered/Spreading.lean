import MovingTarget.Proofs.Layered.Destinations
/-!
# Where users are spread to

Every user who is spread is sent to another domain that has room (`destination?_eq_some`). Both are
judged by the snapshot: another domain is one whose key differs from the id in the record that lists
the user (`relocated_elsewhere`), and a domain has room by its size before anyone has moved, so that
several users can be sent to the last free place (`spread_sizes`).
-/
namespace MovingTarget.Layered
variable {α : Type}

/-! ## The migrations of an epoch -/

variable [Scalar α]

theorem mem_migrations {p : Layered α} {s : Snapshot α} {u : UserId} {d : DomainId}
    {reason : String} (h : .migrateUser u d reason ∈ (p.evaluate s).decisions) :
    ∃ home, s.domainOf? u = some home ∧ destination? s.summaries home = some d := by
  have hm : .migrateUser u d reason ∈ (p.evaluate s).decisions.filter (·.action = .migrateUser) :=
    List.mem_filter.2 ⟨h, rfl⟩
  rw [evaluate_migrations] at hm
  obtain ⟨v, -, hv⟩ := List.mem_filterMap.1 hm
  obtain ⟨home, d', hhome, hd, hx⟩ := eq_migrateUser_of_relocation? hv
  obtain ⟨rfl, rfl, -⟩ := Decision.migrateUser.inj hx
  exact ⟨home, hhome, hd⟩

/-- Nobody is moved twice in one epoch. -/
theorem migrations_once (p : Layered α) (s : Snapshot α) :
    ((p.evaluate s).decisions.filter (·.action = .migrateUser)).Pairwise
      fun a b => a.user? ≠ b.user? := by
  have husers : ((s.usersAtLeast p.isolationLevel).take isolationsPerEpoch).Nodup :=
    (s.nodup_usersAtLeast _).sublist (List.take_sublist _ _)
  rw [evaluate_migrations]
  refine List.Pairwise.filterMap _ (fun u v huv x hx y hy => ?_) husers
  obtain ⟨-, -, -, -, rfl⟩ := eq_migrateUser_of_relocation? hx
  obtain ⟨-, -, -, -, rfl⟩ := eq_migrateUser_of_relocation? hy
  exact fun h => huv (Option.some.inj h)

theorem length_migrations_le (p : Layered α) (s : Snapshot α) :
    ((p.evaluate s).decisions.filter (·.action = .migrateUser)).length ≤ isolationsPerEpoch := by
  rw [evaluate_migrations, ← spread_decisions]
  exact length_spread_le s p

/-- The target of a migration is there and has room. -/
theorem find?_target {p : Layered α} {s : Snapshot α} {u : UserId} {d : DomainId}
    {reason : String} (h : .migrateUser u d reason ∈ (p.evaluate s).decisions) :
    ∃ x, s.domains.find? d = some x ∧ x.users.length < domainCapacity := by
  obtain ⟨home, -, hd⟩ := mem_migrations h
  obtain ⟨-, m, hm, hroom⟩ := destination?_eq_some hd
  rw [s.find?_summaries] at hm
  obtain ⟨x, hx, rfl⟩ := Option.map_eq_some_iff.1 hm
  exact ⟨x, hx, hroom⟩

theorem countP_target_eq_zero {p : Layered α} {s : Snapshot α} {k : DomainId} {x : Domain α}
    (hx : s.domains.find? k = some x) (hfull : domainCapacity ≤ x.users.length) :
    ((p.evaluate s).decisions.filter (·.action = .migrateUser)).countP
      (·.domain? = some k) = 0 := by
  refine List.countP_eq_zero.2 fun d hd htarget => ?_
  obtain ⟨hd, haction⟩ := List.mem_filter.1 hd
  obtain ⟨u, t, reason, rfl⟩ := Decision.eq_migrateUser (of_decide_eq_true haction)
  obtain rfl : t = k := Option.some.inj (of_decide_eq_true htarget)
  obtain ⟨y, hy, hroom⟩ := find?_target hd
  obtain rfl : y = x := Option.some.inj (hy ▸ hx)
  omega

/-! ## How large domains get -/

/-- Once the migrations of an epoch are carried out, a domain has grown by the users sent there and
shrunk by its own that are sent away. At most five are sent, none to a domain that is full, but room
is not kept for them: only a domain with five free places, or none, is sure not to be overfilled. -/
theorem spread_sizes (p : Layered α) {s : Snapshot α} (hs : s.ListsOnce) {k : DomainId}
    {x : Domain α} (hx : s.domains.find? k = some x) :
    let moves := (p.evaluate s).decisions.filter (·.action = .migrateUser)
    let sent := moves.countP (·.domain? = some k)
    ∃ y, (s.carryOutAll moves).domains.find? k = some y ∧
      y.users.length + moves.countP (·.moves x.users) = x.users.length + sent ∧
      sent ≤ isolationsPerEpoch ∧ (domainCapacity ≤ x.users.length → sent = 0) ∧
      (x.users.length ≤ domainCapacity → y.users.length < domainCapacity + isolationsPerEpoch) ∧
      (x.users.length + isolationsPerEpoch ≤ domainCapacity ∨ x.users.length = domainCapacity →
        y.users.length ≤ domainCapacity) := by
  intro moves sent
  have hfound : (s.carryOutAll moves).domains.find? k =
      some (moves.foldl (Domain.revised k) x) := by
    rw [Snapshot.find?_carryOutAll, hx, Option.map_some]
  have hbalance : (moves.foldl (Domain.revised k) x).users.length +
      moves.countP (·.moves x.users) = x.users.length + sent :=
    length_users_foldl_revised (hs.nodup hx)
      (fun d hd => of_decide_eq_true (List.mem_filter.1 hd).2) (p.migrations_once s)
  have hsent : sent ≤ isolationsPerEpoch :=
    List.countP_le_length.trans (p.length_migrations_le s)
  have hfull : domainCapacity ≤ x.users.length → sent = 0 := countP_target_eq_zero hx
  have hpositive : 0 < isolationsPerEpoch := by decide
  refine ⟨_, hfound, hbalance, hsent, hfull, fun hstart => ?_, fun hstart => ?_⟩
  · -- A full domain receives nobody, any other has a free place to begin with.
    by_cases hcapacity : domainCapacity ≤ x.users.length
    · have := hfull hcapacity
      omega
    · omega
  · rcases hstart with hstart | hstart
    · omega
    · have := hfull (Nat.le_of_eq hstart.symm)
      omega

/-- Two domains; user 1 of the first and users 5 and 6 of the second are at high risk. -/
def exchange : Snapshot Float :=
  let network := ((Snapshot.empty 1000000000).addDomain ⟨1, "", [], [1, 2], 0.0, 30.0⟩).addDomain
    ⟨2, "", [], [5, 6], 0.0, 30.0⟩
  [1, 5, 6].foldl (fun s u => s.addScore ⟨u, 0.5, .high, 0⟩) network

/-- The domains exchange their users at high risk. -/
theorem spread_sizes_exchange :
    exchange.ListsOnce ∧
    exchange.domains.find? 1 = some ⟨1, "", [], [1, 2], 0.0, 30.0⟩ ∧
    let moves := (standard.evaluate exchange).decisions.filter (·.action = .migrateUser)
    moves.map (·.domain?) = [some 2, some 1, some 1] ∧
    ∃ y, (exchange.carryOutAll moves).domains.find? 1 = some y ∧ y.users.length + 1 = 2 + 2 := by
  have honce : exchange.ListsOnce := by decide +kernel
  have hfirst : exchange.domains.find? 1 = some ⟨1, "", [], [1, 2], 0.0, 30.0⟩ := by decide +kernel
  obtain ⟨y, hy, hlength, -⟩ := spread_sizes standard honce hfirst
  refine ⟨honce, hfirst, by decide +kernel, y, hy, ?_⟩
  have htaken : ((standard.evaluate exchange).decisions.filter
      (·.action = .migrateUser)).countP (·.moves [1, 2]) = 1 := by decide +kernel
  have hsent : ((standard.evaluate exchange).decisions.filter
      (·.action = .migrateUser)).countP (·.domain? = some 1) = 2 := by decide +kernel
  rw [htaken, hsent] at hlength
  exact hlength

/-- Five users at high risk in domain 1, and one free place in domain 2. -/
def brim : Snapshot Float :=
  let network := ((Snapshot.empty 1000000000).addDomain
    ⟨1, "", [], [1, 2, 3, 4, 5], 0.0, 30.0⟩).addDomain
    ⟨2, "", [], (List.range 499).map fun i => UInt32.ofNat (1000 + i), 0.0, 30.0⟩
  [1, 2, 3, 4, 5].foldl (fun s u => s.addScore ⟨u, 0.5, .high, 0⟩) network

/-- All five are sent to the one free place. -/
theorem last_place_given_away :
    brim.Keyed ∧ brim.ListsOnce ∧
    let moves := (standard.evaluate brim).decisions.filter (·.action = .migrateUser)
    (brim.domains.find? 2).map (·.users.length) = some 499 ∧
    ((brim.carryOutAll moves).domains.find? 2).map (·.users.length) = some 504 := by
  refine ⟨by decide +kernel, ?_, by decide +kernel, by decide +kernel⟩
  have hchain : (brim.domains.values.flatMap (·.users)).IsChain (· < ·) := by decide +kernel
  exact (List.isChain_iff_pairwise.1 hchain).imp fun {a b} (hlt : a < b) (he : a = b) =>
    Std.lt_irrefl (he ▸ hlt)

/-! ## Another domain -/

/-- A user who is spread goes to a domain of the snapshot whose key is not the id in the user's
record. This is the domain that lists the user already, if the record lies under that key, and
another one whenever the record lies under its own id. -/
theorem relocated_elsewhere (p : Layered α) {s : Snapshot α} (hs : s.ListsApart) {u : UserId}
    {d : DomainId} {reason : String}
    (h : .migrateUser u d reason ∈ (p.evaluate s).decisions) :
    ∃ k home x, s.domains.find? k = some home ∧ u ∈ home.users ∧ home.id ≠ d ∧
      s.domains.find? d = some x ∧ (u ∈ x.users ↔ d = k) ∧ (home.id = k → u ∉ x.users) := by
  obtain ⟨id, hid, hd⟩ := mem_migrations h
  obtain ⟨k, home, hhome, hu, rfl, -⟩ := Snapshot.domainOf?_eq_some_iff.1 hid
  obtain ⟨x, hx, -⟩ := find?_target h
  have hne : home.id ≠ d := (destination?_eq_some hd).1.symm
  have hlisted : u ∈ x.users ↔ d = k := by
    refine ⟨fun hux => hs d k x home hx hhome u hux hu, ?_⟩
    rintro rfl
    obtain rfl : home = x := Option.some.inj (hhome ▸ hx)
    exact hu
  refine ⟨k, home, x, hhome, hu, hne, hx, hlisted, fun hkey hux => hne ?_⟩
  rw [hkey, hlisted.1 hux]

/-- User 1 leaves the first domain for the second. -/
theorem relocated_elsewhere_exchange :
    exchange.ListsApart ∧
    .migrateUser 1 2 "Distributing high-risk user 1" ∈ (standard.evaluate exchange).decisions ∧
    ∃ k home x, exchange.domains.find? k = some home ∧ 1 ∈ home.users ∧ home.id ≠ 2 ∧
      exchange.domains.find? 2 = some x ∧ (1 ∈ x.users ↔ 2 = k) ∧ (home.id = k → 1 ∉ x.users) := by
  have hapart : exchange.ListsApart := by
    have honce : exchange.ListsOnce := by decide +kernel
    exact honce.apart
  have hfirst : (standard.evaluate exchange).decisions.head? =
      some (.migrateUser 1 2 "Distributing high-risk user 1") := by decide +kernel
  have hmoved := List.mem_of_head? hfirst
  exact ⟨hapart, hmoved, relocated_elsewhere standard hapart hmoved⟩

/-- One domain, whose record leaves its id out, with one user at high risk. -/
def unnumbered : String :=
  "\x7b\"domains\":\x7b\"1\":\x7b\"user_ids\":[7],\"shuffle_frequency\":30.0\x7d\x7d," ++
  "\"user_scores\":\x7b\"7\":\x7b\"risk_level\":\"HIGH\"\x7d\x7d\x7d"

/-- User 7 is sent to where they are. -/
theorem relocated_home :
    ∃ s, Snapshot.ofText? unnumbered = some s ∧ s.ListsOnce ∧
      (standard.evaluate s).decisions = [.migrateUser 7 1 "Distributing high-risk user 7"] ∧
      (s.domains.find? 1).map (·.users) = some [7] := by
  have hread : (Snapshot.ofText? unnumbered).any fun s => s.ListsOnce ∧
      (standard.evaluate s).decisions = [.migrateUser 7 1 "Distributing high-risk user 7"] ∧
      (s.domains.find? 1).map (·.users) = some [7] := by decide +kernel
  obtain ⟨s, hs, h⟩ := (Option.any_eq_true _ _).1 hread
  exact ⟨s, hs, of_decide_eq_true h⟩

end MovingTarget.Layered
