import Mathlib.Data.Int.CardIntervalMod
import MovingTarget.Proofs.Decimal.Exact
import MovingTarget.Routing
/-!
# Who shares a proxy with whom

The list of proxies is cut in two as long as there are two proxies and the share set aside is not
the whole list, and users at high risk stay on their side of the cut (`pools_apart`). Consecutive
users fill the positions of their pool evenly, whatever its length (`dealt_evenly`).
-/
namespace MovingTarget

/-! ## Dealing -/

/-- A user is served from the position that the id names, going round the pool. -/
theorem pick_eq_ok_iff {pool : List ProxyId} {u : UserId} {q : ProxyId} :
    pick pool u = .ok q ↔ pool[u.toNat % pool.length]? = some q := by
  rw [pick]
  cases pool[u.toNat % pool.length]? <;> simp

/-- Only an empty pool does not have the position. -/
theorem pick_eq_error_iff {pool : List ProxyId} {u : UserId} {f : Fault} :
    pick pool u = .error f ↔ f = .outOfRange ∧ pool = [] := by
  have hnone : pool[u.toNat % pool.length]? = none ↔ pool = [] := by
    rw [List.getElem?_eq_none_iff, ← List.length_eq_zero_iff]
    constructor
    · intro hle
      by_contra hne
      exact (Nat.mod_lt _ (Nat.pos_of_ne_zero hne)).not_ge hle
    · intro hzero
      rw [hzero]
      exact Nat.zero_le _
  rw [pick, ← hnone]
  cases pool[u.toNat % pool.length]? <;> simp [eq_comm]

/-- In any other pool the position is there: the length is no zero to divide by, and the remainder
is below it. -/
theorem pick_of_ne_nil {pool : List ProxyId} (h : pool ≠ []) (u : UserId) :
    0 < pool.length ∧ ∃ _ : u.toNat % pool.length < pool.length,
      pick pool u = .ok pool[u.toNat % pool.length] := by
  have hlength := List.length_pos_iff.2 h
  have hlt := Nat.mod_lt u.toNat hlength
  exact ⟨hlength, hlt, pick_eq_ok_iff.2 (List.getElem?_eq_getElem hlt)⟩

theorem dealProxy_of_ne_nil {proxies : List ProxyId} (h : proxies ≠ []) (u : UserId) :
    dealProxy proxies u = pick proxies u := if_neg (mt List.isEmpty_iff.1 h)

theorem dealProxy_eq_error_iff {proxies : List ProxyId} {u : UserId} {f : Fault} :
    dealProxy proxies u = .error f ↔ f = .noProxies ∧ proxies = [] := by
  rcases eq_or_ne proxies [] with rfl | hne
  · simp [dealProxy, eq_comm]
  · simp [dealProxy_of_ne_nil hne, pick_eq_error_iff, hne]

/-! ## Even numbers -/

theorem ceilDiv_eq {L : Nat} (hL : 0 < L) (m : Nat) :
    m ⌈/⌉ L = m / L + if 0 < m % L then 1 else 0 := by
  rw [Nat.ceilDiv_eq_add_pred_div]
  have hm := Nat.div_add_mod m L
  have hlt := Nat.mod_lt m hL
  generalize m / L = q at hm
  generalize m % L = b at hm hlt
  split
  · rw [show m + L - 1 = b - 1 + L * (q + 1) by rw [Nat.mul_succ]; omega,
      Nat.add_mul_div_left _ _ hL, Nat.div_eq_of_lt (by omega), Nat.zero_add]
  · rw [show m + L - 1 = L - 1 + L * q by omega, Nat.add_mul_div_left _ _ hL,
      Nat.div_eq_of_lt (by omega), Nat.zero_add, Nat.add_zero]

/-- Of numbers in a row those that leave one remainder are as many as those that leave another, up
to one. -/
theorem count_remainder {L : Nat} (hL : 0 < L) (first m : Nat) {i : Nat} (hi : i < L) :
    Nat.count (fun k => (first + k) % L = i) m = m / L ∨
      Nat.count (fun k => (first + k) % L = i) m = m ⌈/⌉ L := by
  have hmod (n : Nat) : n ≡ i [MOD L] ↔ n % L = i := by rw [Nat.ModEq, Nat.mod_eq_of_lt hi]
  have hcount (b : Nat) : Nat.count (fun n => n % L = i) b =
      b / L + if i < b % L then 1 else 0 := by
    have := Nat.count_modEq_card b hL i
    simpa only [hmod, Nat.mod_eq_of_lt hi] using this
  -- The numbers before the first one are counted, too, and taken off again.
  have hsum := Nat.count_add (fun n => n % L = i) first m
  rw [hcount, hcount, Nat.add_div hL, Nat.add_mod_eq_ite] at hsum
  rw [ceilDiv_eq hL]
  have hfirst := Nat.mod_lt first hL
  have hlast := Nat.mod_lt m hL
  generalize first % L = a at hsum hfirst
  generalize m % L = b at hsum hlast ⊢
  split_ifs at hsum ⊢ <;> omega

/-! ## Users in a row -/

/-- The users with the `m` ids from `first` on. -/
def usersFrom (first m : Nat) : List UserId := (List.range m).map fun k => .ofNat (first + k)

/-- Every user is served from the position of the pool that the id names, and the positions serve
equally many users, up to one. -/
structure DealtEvenly (serve : UserId → Except Fault ProxyId) (pool : List ProxyId)
    (users : List UserId) : Prop where
  served : ∀ u ∈ users, ∃ q, serve u = .ok q ∧ pool[u.toNat % pool.length]? = some q
  even : ∀ i < pool.length,
    (users.countP fun u => u.toNat % pool.length = i) = users.length / pool.length ∨
      (users.countP fun u => u.toNat % pool.length = i) = users.length ⌈/⌉ pool.length
  once : users.length = pool.length → ∀ i < pool.length,
    (users.countP fun u => u.toNat % pool.length = i) = 1

theorem countP_usersFrom {first m : Nat} (hm : first + m ≤ 2 ^ 32) (L i : Nat) :
    ((usersFrom first m).countP fun u => u.toNat % L = i) =
      Nat.count (fun k => (first + k) % L = i) m := by
  rw [usersFrom, List.countP_map, Nat.count]
  refine List.countP_congr fun k hk => ?_
  have hlt : first + k < 2 ^ 32 := by have := List.mem_range.1 hk; omega
  have hid : (UInt32.ofNat (first + k)).toNat = first + k := UInt32.toNat_ofNat_of_lt hlt
  simp only [Function.comp_apply, hid]

theorem pick_evenly {pool : List ProxyId} (hpool : pool ≠ []) {first m : Nat}
    (hm : first + m ≤ 2 ^ 32) : DealtEvenly (pick pool) pool (usersFrom first m) := by
  have hL : 0 < pool.length := List.length_pos_of_ne_nil hpool
  have hlength : (usersFrom first m).length = m := by simp [usersFrom]
  have heven (i : Nat) (hi : i < pool.length) := count_remainder hL first m hi
  refine ⟨fun u _ => ?_, fun i hi => ?_, fun honce i hi => ?_⟩
  · obtain ⟨-, hlt, hpick⟩ := pick_of_ne_nil hpool u
    exact ⟨_, hpick, List.getElem?_eq_getElem hlt⟩
  · rw [countP_usersFrom hm, hlength]
    exact heven i hi
  · obtain rfl : m = pool.length := hlength.symm.trans honce
    have hquotient := heven i hi
    rw [ceilDiv_eq hL, Nat.div_self hL, Nat.mod_self, if_neg (Nat.lt_irrefl 0),
      or_self] at hquotient
    rw [countP_usersFrom hm, hquotient]

namespace ProxyPools
variable {α : Type} [Scalar α] (p : ProxyPools α)

/-! ## The two pools -/

theorem isolatedCount_le (n : Nat) : p.isolatedCount n ≤ n := Nat.min_le_right _ _

theorem isolatedCount_eq_zero_iff {n : Nat} : p.isolatedCount n = 0 ↔ n = 0 := by
  unfold isolatedCount
  omega

theorem length_isolation (proxies : List ProxyId) :
    (p.isolation proxies).length = p.isolatedCount proxies.length := by
  rw [isolation, List.length_drop, Nat.sub_sub_self (p.isolatedCount_le _)]

/-- The pool for all others is what is left, unless nothing is. -/
theorem normal_eq (proxies : List ProxyId) : p.normal proxies =
    if p.isolatedCount proxies.length < proxies.length then
      proxies.take (proxies.length - p.isolatedCount proxies.length)
    else proxies := by
  have hempty : (proxies.take (proxies.length - p.isolatedCount proxies.length)).isEmpty ↔
      ¬ p.isolatedCount proxies.length < proxies.length := by
    rw [List.isEmpty_iff, ← List.length_eq_zero_iff, List.length_take]
    omega
  rw [normal]
  by_cases h : p.isolatedCount proxies.length < proxies.length
  · rw [if_pos h, if_neg (by rwa [hempty, not_not])]
  · rw [if_neg h, if_pos (hempty.2 h)]

variable {proxies : List ProxyId}

theorem isolation_eq_nil_iff : p.isolation proxies = [] ↔ proxies = [] := by
  rw [← List.length_eq_zero_iff, length_isolation, isolatedCount_eq_zero_iff,
    List.length_eq_zero_iff]

theorem normal_eq_nil_iff : p.normal proxies = [] ↔ proxies = [] := by
  rw [normal_eq]
  split
  · rw [← List.length_eq_zero_iff, List.length_take, ← List.length_eq_zero_iff]
    omega
  · rfl

theorem pool_eq_nil_iff {level : RiskLevel} : p.pool proxies level = [] ↔ proxies = [] := by
  unfold pool
  split
  · exact p.isolation_eq_nil_iff
  · exact p.normal_eq_nil_iff

/-! ## Who is served from where -/

theorem select_of_ne_nil (h : proxies ≠ []) (u : UserId) (level : RiskLevel) :
    p.select u proxies level = pick (p.pool proxies level) u := if_neg (mt List.isEmpty_iff.1 h)

/-- There is a proxy for every user unless there is none at all. -/
theorem select_eq_error_iff {u : UserId} {level : RiskLevel} {f : Fault} :
    p.select u proxies level = .error f ↔ f = .noProxies ∧ proxies = [] := by
  rcases eq_or_ne proxies [] with rfl | hne
  · simp [select, eq_comm]
  · simp [p.select_of_ne_nil hne, pick_eq_error_iff, pool_eq_nil_iff, hne]

/-- So the pool that serves a user always has the position that the id names. -/
theorem select_ne_outOfRange (u : UserId) (level : RiskLevel) :
    p.select u proxies level ≠ .error .outOfRange := fun h =>
  absurd (p.select_eq_error_iff.1 h).1 (by decide)

/-- The positions that serve users at a level if the last `k` of `n` proxies are set aside. -/
def reach (n k : Nat) : RiskLevel → Finset Nat
  | .low | .medium => Finset.range (if k < n then n - k else n)
  | .high | .critical => Finset.Ico (n - k) n

theorem exists_of_isolation {i : Nat} {q : ProxyId} (h : (p.isolation proxies)[i]? = some q) :
    ∃ j ∈ reach proxies.length (p.isolatedCount proxies.length) .high, proxies[j]? = some q := by
  rw [isolation, List.getElem?_drop] at h
  have hlt := (List.getElem?_eq_some_iff.1 h).1
  exact ⟨_, Finset.mem_Ico.2 ⟨Nat.le_add_right _ _, hlt⟩, h⟩

theorem exists_of_normal {i : Nat} {q : ProxyId} (h : (p.normal proxies)[i]? = some q) :
    ∃ j ∈ reach proxies.length (p.isolatedCount proxies.length) .low, proxies[j]? = some q := by
  rw [normal_eq] at h
  by_cases hk : p.isolatedCount proxies.length < proxies.length
  · rw [if_pos hk, List.getElem?_take] at h
    split at h
    · next hi => exact ⟨i, by rwa [reach, if_pos hk, Finset.mem_range], h⟩
    · cases h
  · rw [if_neg hk] at h
    have hi := (List.getElem?_eq_some_iff.1 h).1
    exact ⟨i, by rwa [reach, if_neg hk, Finset.mem_range], h⟩

theorem exists_of_select {u : UserId} {level : RiskLevel} {q : ProxyId}
    (h : p.select u proxies level = .ok q) :
    ∃ i ∈ reach proxies.length (p.isolatedCount proxies.length) level, proxies[i]? = some q := by
  have hne : proxies ≠ [] := by
    rintro rfl
    cases h
  have hget := pick_eq_ok_iff.1 ((p.select_of_ne_nil hne u level).symm.trans h)
  cases level with
  | low => exact p.exists_of_normal hget
  | medium => exact p.exists_of_normal hget
  | high => exact p.exists_of_isolation hget
  | critical => exact p.exists_of_isolation hget

theorem reach_of_isHighRisk {n k : Nat} {level : RiskLevel} (h : level.isHighRisk) :
    reach n k level = Finset.Ico (n - k) n := by
  cases level with
  | low | medium => cases h
  | high | critical => rfl

theorem reach_of_not_isHighRisk {n k : Nat} {level : RiskLevel} (hk : k < n)
    (h : ¬ level.isHighRisk) : reach n k level = Finset.range (n - k) := by
  cases level with
  | low | medium => rw [reach, if_pos hk]
  | high | critical => exact absurd rfl h

/-- As long as something is left, the two sides have no position in common, and every position is
on one of them. -/
theorem reach_apart {n k : Nat} (hk : k < n) {a b : RiskLevel} (ha : a.isHighRisk)
    (hb : ¬ b.isHighRisk) :
    Disjoint (reach n k a) (reach n k b) ∧ reach n k a ∪ reach n k b = Finset.range n := by
  rw [reach_of_isHighRisk ha, reach_of_not_isHighRisk hk hb, Finset.disjoint_left]
  refine ⟨fun i hi hi' => ?_, Finset.ext fun i => ?_⟩
  · rw [Finset.mem_Ico] at hi
    rw [Finset.mem_range] at hi'
    omega
  · rw [Finset.mem_union, Finset.mem_Ico, Finset.mem_range, Finset.mem_range]
    omega

end ProxyPools

/-! ## The share of doubles -/

section Doubles
open Decimal

theorem unit_eq (r : Float) :
    (r.isNaN → Scalar.unit r = 0.0) ∧ (r < 0.0 → Scalar.unit r = 0.0) ∧
      (1.0 < r → Scalar.unit r = 1.0) ∧ (0.0 ≤ r → r ≤ 1.0 → Scalar.unit r = r) := by
  have h := Scalar.comparable_float
  refine ⟨fun hr => ?_, fun hr => ?_, fun hr => ?_, fun hlow hhigh => ?_⟩
  · exact if_neg fun hnumber => isNumber_iff.1 hnumber hr
  · have hnumber := (h.numbers_of_le _ _ (h.le_of_lt hr)).1
    exact (if_pos hnumber).trans (if_pos hr)
  · have hnumber := (h.numbers_of_le _ _ (h.le_of_lt hr)).2
    have hnot : ¬ r < 0.0 := fun hlt => absurd (h.lt_trans hr hlt) (by decide +kernel)
    exact (if_pos hnumber).trans ((if_neg hnot).trans (if_pos hr))
  · exact h.unit_of_mem hlow hhigh

/-- The share of a list that a word can count. -/
theorem isFinite_share {n : Nat} (hn : n < 2 ^ 64) (r : Float) :
    (Float.ofNat n * Scalar.unit r).isFinite ∧ 0 ≤ rational (Float.ofNat n * Scalar.unit r) := by
  obtain ⟨hr, hr0, hr1⟩ := unit_mem r
  have hword : (n : ℚ) < 2 ^ 64 := by exact_mod_cast hn
  have hlarge {k : Nat} (hk : k ≤ 1023) : (2 : ℚ) ^ k ≤ 2 ^ (1023 : Int) := by
    rw [← zpow_natCast]
    exact zpow_le_zpow_right₀ one_le_two (by exact_mod_cast hk)
  obtain ⟨hx, hx0, hx1⟩ := rational_ofNat_le (hword.trans_le (hlarge (by decide)))
  refine isFinite_mul hx hr hx0 hr0 ?_
  calc rational (Float.ofNat n) * rational (Scalar.unit r) ≤ rational (Float.ofNat n) :=
        mul_le_of_le_one_right hx0 hr1
    _ ≤ 2 * n := hx1
    _ < 2 * 2 ^ 64 := mul_lt_mul_of_pos_left hword two_pos
    _ = 2 ^ 65 := by norm_num
    _ ≤ 2 ^ (1023 : Int) := hlarge (by decide)

/-- How many of the proxies are set aside, in numbers. -/
theorem isolatedCount_eq (p : ProxyPools Float) {n : Nat} (hn : n < 2 ^ 64) :
    p.isolatedCount n = min n (max 1 ⌊rational (Float.ofNat n * Scalar.unit p.ratio)⌋₊) := by
  have hwhole := whole_eq (isFinite_share hn p.ratio).1
  have hcount : p.isolatedCount n =
    min (max (Scalar.whole (Float.ofNat n * Scalar.unit p.ratio)) 1) n := rfl
  rw [hcount, hwhole]
  omega

end Doubles

open Decimal in
/-- For users at high risk the last proxies of the list are set aside: the whole part of the share,
at least one and at most all. The others are left for everybody else, or all if none is left. So
only an empty list has no proxy for a user, as where risk does not matter, and that is found before
a pool is asked for a position: the pool that is asked has a length to divide by, and the position.
As long as some proxy is left, nobody at high risk shares a position of the list with anybody else,
and every position is on one of the two sides. The length of a list is a word. -/
theorem pools_apart (p : ProxyPools Float) (proxies : List ProxyId) (h : proxies.length < 2 ^ 64) :
    let n := proxies.length
    let r := Scalar.unit p.ratio
    let share := Float.ofNat n * r
    let k := min n (max 1 ⌊rational share⌋₊)
    ((p.ratio.isNaN → r = 0.0) ∧ (p.ratio < 0.0 → r = 0.0) ∧ (1.0 < p.ratio → r = 1.0) ∧
      (0.0 ≤ p.ratio → p.ratio ≤ 1.0 → r = p.ratio)) ∧
    (share.isFinite ∧ 0 ≤ rational share) ∧
    (p.isolation proxies = proxies.drop (n - k) ∧ (p.isolation proxies).length = k) ∧
    p.normal proxies = (if k < n then proxies.take (n - k) else proxies) ∧
    (proxies ≠ [] → p.isolation proxies ≠ [] ∧ p.normal proxies ≠ []) ∧
    (∀ u level f, p.select u proxies level = .error f ↔ f = .noProxies ∧ proxies = []) ∧
    (∀ u f, dealProxy proxies u = .error f ↔ f = .noProxies ∧ proxies = []) ∧
    (∀ u level, p.select u proxies level ≠ .error .outOfRange) ∧
    (proxies ≠ [] → ∀ u level,
      let pool := if level.isHighRisk then p.isolation proxies else p.normal proxies
      0 < pool.length ∧ ∃ _ : u.toNat % pool.length < pool.length,
        p.select u proxies level = .ok pool[u.toNat % pool.length]) ∧
    (∀ u level q, p.select u proxies level = .ok q →
      ∃ i ∈ ProxyPools.reach n k level, proxies[i]? = some q) ∧
    (k < n → ∀ a b : RiskLevel, a.isHighRisk → ¬ b.isHighRisk →
      Disjoint (ProxyPools.reach n k a) (ProxyPools.reach n k b) ∧
        ProxyPools.reach n k a ∪ ProxyPools.reach n k b = Finset.range n) := by
  intro n r share k
  have hk : p.isolatedCount n = k := isolatedCount_eq p h
  rw [← hk]
  refine ⟨unit_eq p.ratio, isFinite_share h p.ratio, ⟨rfl, p.length_isolation proxies⟩,
    p.normal_eq proxies, fun hne => ⟨mt p.isolation_eq_nil_iff.1 hne, mt p.normal_eq_nil_iff.1 hne⟩,
    fun u level f => p.select_eq_error_iff, fun u f => dealProxy_eq_error_iff,
    p.select_ne_outOfRange, fun hne u level => ?_,
    fun u level q => p.exists_of_select, fun hlt a b ha hb => ProxyPools.reach_apart hlt ha hb⟩
  rw [p.select_of_ne_nil hne]
  exact pick_of_ne_nil (mt p.pool_eq_nil_iff.1 hne) u

theorem pools_apart_half :
    let p : ProxyPools Float := ⟨0.5⟩
    let proxies : List ProxyId := [10, 20, 30, 40, 50]
    p.isolation proxies = [40, 50] ∧ p.normal proxies = [10, 20, 30] ∧
      p.select 7 proxies .high = .ok 50 ∧ p.select 7 proxies .low = .ok 20 ∧
      p.select 7 [] .high = .error .noProxies := by
  intro p proxies
  obtain ⟨-, -, ⟨hisolation, -⟩, hnormal, -⟩ := pools_apart p proxies (by decide)
  obtain ⟨-, -, -, -, -, hfault, -⟩ := pools_apart p [] (by decide)
  exact ⟨hisolation.trans (by decide +kernel), hnormal.trans (by decide +kernel),
    by decide +kernel, by decide +kernel, (hfault 7 .high .noProxies).2 ⟨rfl, rfl⟩⟩

/-! ## Even pools -/

/-- Users in a row who are all at high risk, or all not, fill the positions of the pool that serves
them evenly. Where risk does not matter they fill those of the whole list. -/
theorem dealt_evenly {α : Type} [Scalar α] (p : ProxyPools α) {proxies : List ProxyId}
    (hne : proxies ≠ []) {first m : Nat} (hm : first + m ≤ 2 ^ 32) {level : UserId → RiskLevel}
    {high : Bool} (hlevel : ∀ u ∈ usersFrom first m, (level u).isHighRisk = high) :
    DealtEvenly (fun u => p.select u proxies (level u))
        (if high then p.isolation proxies else p.normal proxies) (usersFrom first m) ∧
      DealtEvenly (dealProxy proxies) proxies (usersFrom first m) := by
  have hpool : (if high then p.isolation proxies else p.normal proxies) ≠ [] := by
    split
    · exact mt p.isolation_eq_nil_iff.1 hne
    · exact mt p.normal_eq_nil_iff.1 hne
  have hdealt := pick_evenly hpool hm
  have hplain := pick_evenly hne hm
  refine ⟨{ hdealt with served := fun u hu => ?_ }, { hplain with served := fun u hu => ?_ }⟩
  · rw [p.select_of_ne_nil hne, ProxyPools.pool, hlevel u hu]
    exact hdealt.served u hu
  · rw [dealProxy_of_ne_nil hne]
    exact hplain.served u hu

theorem dealt_evenly_last_ids :
    let proxies : List ProxyId := [100, 101, 102, 103, 104, 105, 106, 107, 108, 109]
    DealtEvenly (fun u => (ProxyPools.standard : ProxyPools Float).select u proxies .critical)
        [108, 109] (usersFrom (2 ^ 32 - 7) 7) ∧
      DealtEvenly (dealProxy proxies) proxies (usersFrom (2 ^ 32 - 7) 7) := by
  intro proxies
  have hpool : (ProxyPools.standard : ProxyPools Float).isolation proxies = [108, 109] := by
    decide +kernel
  rw [← hpool]
  exact dealt_evenly .standard (by decide) (by decide) fun _ _ => rfl

end MovingTarget
