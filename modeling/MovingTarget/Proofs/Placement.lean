import MovingTarget.Engine.Basic
import MovingTarget.Proofs.Comparisons
import MovingTarget.Proofs.Tables
/-!
# Where a joining user is placed

Of the loads that are numbers none is below that of the domain chosen, and of the domains with an
equal load it has the lowest key (`leastLoaded_eq_ok_iff`). A load that is no number has no say as
long as another one is a number. Of the arithmetic this takes only how numbers compare.
-/
namespace MovingTarget

section Choice
variable {α : Type} [Scalar α]

/-- The domain under key `k` has a number for its load. No other such load is below it, and no
domain with an equal load has a lower key. -/
structure LeastLoadAt (domains : Table DomainId (Domain α)) (k : DomainId) (x : Domain α) :
    Prop where
  held : domains.find? k = some x
  number : Scalar.isNumber x.load
  least : ∀ j y, domains.find? j = some y → Scalar.isNumber y.load → ¬ y.load < x.load
  first : ∀ j y, domains.find? j = some y → x.load ≤ y.load → y.load ≤ x.load → k ≤ j

/-- Some load is a number. -/
def SomeLoad (domains : Table DomainId (Domain α)) : Prop :=
  ∃ k x, domains.find? k = some x ∧ Scalar.isNumber x.load

/-- The loads that are numbers are the same ones under the same keys. -/
def SameLoads (domains other : Table DomainId (Domain α)) : Prop :=
  ∀ k load, Scalar.isNumber load →
    ((∃ x, domains.find? k = some x ∧ x.load = load) ↔
      ∃ x, other.find? k = some x ∧ x.load = load)

/-! ## The search -/

/-- A domain is compared by its load, and by its key with those whose load is equal. -/
def Before (e f : DomainId × Domain α) : Prop :=
  e.2.load ≤ f.2.load ∧ (f.2.load ≤ e.2.load → e.1 ≤ f.1)

theorem lessLoaded_of_not_number {e : DomainId × Domain α} (he : ¬ Scalar.isNumber e.2.load)
    (best : Option (DomainId × α)) : lessLoaded best e = best := if_neg he

theorem lessLoaded_of_number {e : DomainId × Domain α} (he : Scalar.isNumber e.2.load)
    (k : DomainId) (load : α) : lessLoaded (some (k, load)) e =
      if e.2.load < load then some (e.1, e.2.load) else some (k, load) := if_pos he

variable (h : Scalar.Comparable α)
include h

theorem Before.trans {e f g : DomainId × Domain α} (hef : Before e f) (hfg : Before f g) :
    Before e g := by
  refine ⟨h.le_trans _ _ _ hef.1 hfg.1, fun hge => ?_⟩
  have hfe := h.le_trans _ _ _ hfg.1 hge
  have hgf := h.le_trans _ _ _ hge hef.1
  exact Std.le_trans (hef.2 hfe) (hfg.2 hgf)

/-- The search ends at a domain that is before all others whose load is a number. -/
theorem search_leastLoaded (domains : Table DomainId (Domain α)) :
    (domains.entries.foldl lessLoaded none = none ∧
        ∀ e ∈ domains.entries, ¬ Scalar.isNumber e.2.load) ∨
      ∃ e, domains.entries.foldl lessLoaded none = some (e.1, e.2.load) ∧
        e ∈ domains.entries ∧ Scalar.isNumber e.2.load ∧
        ∀ f ∈ domains.entries, Scalar.isNumber f.2.load → Before e f := by
  refine foldl_best_cases (fun best e he => lessLoaded_of_not_number he best)
    (fun e he => if_pos he) (domains.ascending.imp fun {e f} hkeys he hf => ?_)
    (fun e he => ⟨of_decide_eq_true he, fun _ => Std.le_refl _⟩) fun e f g => Before.trans h
  rw [lessLoaded_of_number hf]
  by_cases hlt : f.2.load < e.2.load
  · have hnot := ((h.lt_iff _ _).1 hlt).2
    exact .inr ⟨if_pos hlt, h.le_of_lt hlt, fun hle => absurd hle hnot⟩
  · -- On a tie the earlier key stays.
    exact .inl ⟨if_neg hlt, h.le_of_not_lt hf he hlt, fun _ => Std.le_of_lt hkeys⟩

theorem leastLoadAt_iff {domains : Table DomainId (Domain α)} {k : DomainId} {x : Domain α} :
    LeastLoadAt domains k x ↔ (k, x) ∈ domains.entries ∧ Scalar.isNumber x.load ∧
      ∀ f ∈ domains.entries, Scalar.isNumber f.2.load → Before (k, x) f := by
  constructor
  · rintro ⟨hheld, hnumber, hleast, hfirst⟩
    refine ⟨Table.find?_eq_some_iff.1 hheld, hnumber, fun f hf hf' => ?_⟩
    have hfind := Table.find?_eq_some_iff.2 hf
    have hle := h.le_of_not_lt hf' hnumber (hleast _ _ hfind hf')
    exact ⟨hle, hfirst _ _ hfind hle⟩
  · rintro ⟨hmem, hnumber, hbest⟩
    refine ⟨Table.find?_eq_some_iff.2 hmem, hnumber, fun j y hy hy' hlt => ?_,
      fun j y hy hxy hyx => ?_⟩
    · exact ((h.lt_iff _ _).1 hlt).2 (hbest (j, y) (Table.find?_eq_some_iff.1 hy) hy').1
    · have hy' := (h.numbers_of_le _ _ hxy).2
      exact (hbest (j, y) (Table.find?_eq_some_iff.1 hy) hy').2 hyx

/-- There is at most one such key. -/
theorem LeastLoadAt.key_eq {domains : Table DomainId (Domain α)} {j k : DomainId} {x y : Domain α}
    (hk : LeastLoadAt domains k x) (hj : LeastLoadAt domains j y) : k = j := by
  obtain ⟨hmemk, hx, hbestk⟩ := (leastLoadAt_iff h).1 hk
  obtain ⟨hmemj, hy, hbestj⟩ := (leastLoadAt_iff h).1 hj
  have hkj := hbestk _ hmemj hy
  have hjk := hbestj _ hmemk hx
  exact Std.le_antisymm (hkj.2 hjk.1) (hjk.2 hkj.1)

/-- Only the loads that are numbers decide who has the least. -/
theorem LeastLoadAt.of_sameLoads {domains other : Table DomainId (Domain α)}
    (hsame : SameLoads domains other) {k : DomainId} {x : Domain α} (hk : LeastLoadAt domains k x) :
    ∃ y, LeastLoadAt other k y := by
  obtain ⟨hheld, hnumber, hleast, hfirst⟩ := hk
  obtain ⟨y, hy, hload⟩ := (hsame k x.load hnumber).1 ⟨x, hheld, rfl⟩
  refine ⟨y, hy, hload ▸ hnumber, fun j z hz hz' => ?_, fun j z hz hyz hzy => ?_⟩
  · obtain ⟨w, hw, hwload⟩ := (hsame j z.load hz').2 ⟨z, hz, rfl⟩
    rw [hload, ← hwload]
    exact hleast j w hw (hwload ▸ hz')
  · have hz' := (h.numbers_of_le _ _ hyz).2
    obtain ⟨w, hw, hwload⟩ := (hsame j z.load hz').2 ⟨z, hz, rfl⟩
    rw [hload, ← hwload] at hyz hzy
    exact hfirst j w hw hyz hzy

omit h in
theorem SomeLoad.of_sameLoads {domains other : Table DomainId (Domain α)}
    (hsame : SameLoads domains other) (hsome : SomeLoad domains) : SomeLoad other := by
  obtain ⟨k, x, hx, hnumber⟩ := hsome
  obtain ⟨y, hy, hload⟩ := (hsame k x.load hnumber).1 ⟨x, hx, rfl⟩
  exact ⟨k, y, hy, hload ▸ hnumber⟩

/-! ## The domain chosen -/

omit h in
theorem leastLoaded_of_search {domains : Table DomainId (Domain α)} {k : DomainId} {load : α}
    (hsearch : domains.entries.foldl lessLoaded none = some (k, load)) :
    leastLoaded domains = .ok k := by
  unfold leastLoaded
  split
  · next hnil =>
    rw [hnil] at hsearch
    cases hsearch
  · rw [hsearch]

omit h in
/-- There is an answer unless there is no domain. -/
theorem leastLoaded_eq_error_iff {domains : Table DomainId (Domain α)} {f : Fault} :
    leastLoaded domains = .error f ↔ f = .noDomains ∧ domains = ∅ := by
  unfold leastLoaded
  split
  · next hnil =>
    have hempty : domains = ∅ := Table.ext hnil
    rw [Except.error.injEq]
    exact ⟨fun hf => ⟨hf.symm, hempty⟩, fun hf => hf.1.symm⟩
  · next first rest hcons =>
    have hne : domains ≠ ∅ := fun hempty => by
      rw [hempty] at hcons
      cases hcons
    refine iff_of_false ?_ fun hf => hne hf.2
    split <;> nofun

/-- If some load is a number, the least of those decides. -/
theorem leastLoaded_eq_ok_iff {domains : Table DomainId (Domain α)} (hsome : SomeLoad domains)
    {k : DomainId} : leastLoaded domains = .ok k ↔ ∃ x, LeastLoadAt domains k x := by
  obtain ⟨j, y, hy, hnumber⟩ := hsome
  rcases search_leastLoaded h domains with ⟨-, hnone⟩ | ⟨e, hsearch, hbest⟩
  · exact absurd hnumber (hnone (j, y) (Table.find?_eq_some_iff.1 hy))
  · have hleast : LeastLoadAt domains e.1 e.2 := (leastLoadAt_iff h).2 hbest
    rw [leastLoaded_of_search hsearch, Except.ok.injEq]
    constructor
    · rintro rfl
      exact ⟨e.2, hleast⟩
    · rintro ⟨x, hx⟩
      exact hleast.key_eq h hx

/-- If no load is a number, the lowest key does. -/
theorem leastLoaded_eq_ok_iff_lowest {domains : Table DomainId (Domain α)}
    (hnone : ¬ SomeLoad domains) {k : DomainId} :
    leastLoaded domains = .ok k ↔ k ∈ domains.keys ∧ ∀ j ∈ domains.keys, k ≤ j := by
  rcases search_leastLoaded h domains with ⟨hsearch, -⟩ | ⟨e, -, hmem, hnumber, -⟩
  · rw [Table.lowest_key_iff, leastLoaded, Table.keys, hsearch]
    cases domains.entries with
    | nil => simp
    | cons first rest => simp
  · exact absurd ⟨e.1, e.2, Table.find?_eq_some_iff.2 hmem, hnumber⟩ hnone

end Choice

/-- Placing a user fails only if there is no domain. As long as some load is a number, the domain
chosen is the one with the least of these loads, by the lowest key among equals; so domains whose
load is no number may come and go. If no load is a number, the domain with the lowest key is chosen.
Nothing of this depends on the user. -/
theorem placed_at_least_load (domains : Table DomainId (Domain Float)) (u : UserId) :
    let place := (Toolkit.standard : Toolkit Float).place
    (∀ f, place u domains = .error f ↔ f = .noDomains ∧ domains = ∅) ∧
    (SomeLoad domains → ∀ k, place u domains = .ok k ↔ ∃ x, LeastLoadAt domains k x) ∧
    (¬ SomeLoad domains → ∀ k,
      place u domains = .ok k ↔ k ∈ domains.keys ∧ ∀ j ∈ domains.keys, k ≤ j) ∧
    (SomeLoad domains → ∀ other, SameLoads domains other → place u other = place u domains) ∧
    ∀ v, place v domains = place u domains := by
  intro place
  have h := Scalar.comparable_float
  refine ⟨fun f => leastLoaded_eq_error_iff, fun hsome k => leastLoaded_eq_ok_iff h hsome,
    fun hnone k => leastLoaded_eq_ok_iff_lowest h hnone, fun hsome other hsame => ?_, fun v => rfl⟩
  change leastLoaded other = leastLoaded domains
  cases hplace : leastLoaded domains with
  | error f =>
    obtain ⟨k, x, hx, -⟩ := hsome
    obtain ⟨-, rfl⟩ := leastLoaded_eq_error_iff.1 hplace
    cases hx
  | ok k =>
    obtain ⟨x, hx⟩ := (leastLoaded_eq_ok_iff h hsome).1 hplace
    exact (leastLoaded_eq_ok_iff h (hsome.of_sameLoads hsame)).2 (hx.of_sameLoads h hsame)

/-- A load that is no number is passed over, and the two zeros are equal loads. -/
example : leastLoaded (.ofList [
    (1, (⟨1, "", [], [], 0.0 / 0.0, 30.0⟩ : Domain Float)),
    (2, ⟨2, "", [], [], 0.0, 30.0⟩),
    (3, ⟨3, "", [], [], -0.0, 30.0⟩)]) = .ok 2 := by decide +kernel

end MovingTarget
