import Mathlib
import MovingTarget.Scalar
/-!
# How scalars compare

Numbers are ordered, and what is no number compares with nothing. What this takes of the arithmetic
is collected in `Comparable`, and doubles have it (`comparable_float`): every double but the one
that is no number has a place among the others, first by its sign and whether it is infinite, then
by its exponent and its mantissa. So whatever is kept between finite doubles is finite.
-/
namespace MovingTarget.Scalar

/-- What is assumed of comparisons. -/
structure Comparable (α : Type) [Scalar α] : Prop where
  le_total : ∀ x y : α, isNumber x → isNumber y → x ≤ y ∨ y ≤ x
  le_trans : ∀ x y z : α, x ≤ y → y ≤ z → x ≤ z
  numbers_of_le : ∀ x y : α, x ≤ y → isNumber x ∧ isNumber y
  lt_iff : ∀ x y : α, x < y ↔ x ≤ y ∧ ¬ y ≤ x

namespace Comparable
variable {α : Type} [Scalar α] (h : Comparable α) {x y z : α}
include h

theorem le_of_lt (hxy : x < y) : x ≤ y := ((h.lt_iff x y).1 hxy).1

theorem lt_irrefl (x : α) : ¬ x < x := fun hx => ((h.lt_iff x x).1 hx).2 (h.le_of_lt hx)

theorem lt_of_le_of_lt (hxy : x ≤ y) (hyz : y < z) : x < z := by
  obtain ⟨hle, hnot⟩ := (h.lt_iff y z).1 hyz
  exact (h.lt_iff x z).2 ⟨h.le_trans x y z hxy hle, fun hzx => hnot (h.le_trans z x y hzx hxy)⟩

theorem lt_trans (hxy : x < y) (hyz : y < z) : x < z := h.lt_of_le_of_lt (h.le_of_lt hxy) hyz

theorem lt_of_lt_of_le (hxy : x < y) (hyz : y ≤ z) : x < z := by
  obtain ⟨hle, hnot⟩ := (h.lt_iff x y).1 hxy
  exact (h.lt_iff x z).2 ⟨h.le_trans x y z hle hyz, fun hzx => hnot (h.le_trans y z x hyz hzx)⟩

theorem le_of_not_lt (hx : isNumber x) (hy : isNumber y) (hxy : ¬ x < y) : y ≤ x := by
  rcases h.le_total x y hx hy with hle | hle
  · by_contra hnot
    exact hxy ((h.lt_iff x y).2 ⟨hle, hnot⟩)
  · exact hle

/-- Whatever is brought into the unit interval is in it. -/
theorem unit_mem (hunit : (0.0 : α) ≤ 1.0) (x : α) : 0.0 ≤ unit x ∧ unit x ≤ 1.0 := by
  obtain ⟨hzero, hone⟩ := h.numbers_of_le _ _ hunit
  have hlow : (0.0 : α) ≤ 0.0 ∧ (0.0 : α) ≤ 1.0 := ⟨of_decide_eq_true hzero, hunit⟩
  have hhigh : (0.0 : α) ≤ 1.0 ∧ (1.0 : α) ≤ 1.0 := ⟨hunit, of_decide_eq_true hone⟩
  rw [unit]
  split
  next hx =>
    split
    next => exact hlow
    next hnot =>
      split
      next => exact hhigh
      next hnot' => exact ⟨h.le_of_not_lt hx hzero hnot, h.le_of_not_lt hone hx hnot'⟩
  next => exact hlow

theorem unit_of_mem (hzero : 0.0 ≤ x) (hone : x ≤ 1.0) : unit x = x := by
  rw [unit, if_pos (h.numbers_of_le _ _ hzero).2, if_neg fun hlt => ((h.lt_iff _ _).1 hlt).2 hzero,
    if_neg fun hlt => ((h.lt_iff _ _).1 hlt).2 hone]

/-- Of two numbers one is below the other, or they compare equal. -/
theorem lt_of_not_le (hx : isNumber x) (hy : isNumber y) (hxy : ¬ x ≤ y) : y < x :=
  (h.lt_iff y x).2 ⟨(h.le_total x y hx hy).resolve_left hxy, hxy⟩

end Comparable

/-! ## Doubles -/

section Doubles
open Float.Model

/-- Where a double stands among the others; what is no number stands nowhere. -/
def place? : UnpackedFloat → Option (Int ×ₗ Int ×ₗ Int)
  | .notANumber => none
  | .infinity .negative => some (toLex (-2, toLex (0, 0)))
  | .finite .negative m e _ => some (toLex (-1, toLex (-e, -(m : Int))))
  | .zero _ => some (toLex (0, toLex (0, 0)))
  | .finite .positive m e _ => some (toLex (1, toLex (e, (m : Int))))
  | .infinity .positive => some (toLex (2, toLex (0, 0)))

theorem compare_neg (a b : Int) : compare (-a) (-b) = (compare a b).swap := by
  rcases lt_trichotomy a b with h | h | h
  · rw [compare_lt_iff_lt.2 h, compare_gt_iff_gt.2 (Int.neg_lt_neg h), Ordering.swap_lt]
  · rw [compare_eq_iff_eq.2 h, compare_eq_iff_eq.2 (congrArg Neg.neg h), Ordering.swap_eq]
  · rw [compare_gt_iff_gt.2 h, compare_lt_iff_lt.2 (Int.neg_lt_neg h), Ordering.swap_gt]

theorem compare_natCast (a b : Nat) : compare (a : Int) b = compare a b := by
  rcases lt_trichotomy a b with h | h | h
  · rw [compare_lt_iff_lt.2 h, compare_lt_iff_lt.2 (Int.ofNat_lt.2 h)]
  · rw [compare_eq_iff_eq.2 h, compare_eq_iff_eq.2 (congrArg Nat.cast h)]
  · rw [compare_gt_iff_gt.2 h, compare_gt_iff_gt.2 (Int.ofNat_lt.2 h)]

/-- Doubles compare as their places do. -/
theorem compare_unpacked (u v : UnpackedFloat) :
    u.compare v = (place? u).bind fun a => (place? v).map fun b => compare a b := by
  rcases u with (_ | _) | _ | _ | ⟨(_ | _), m₁, e₁, h₁⟩ <;>
    rcases v with (_ | _) | _ | _ | ⟨(_ | _), m₂, e₂, h₂⟩
  -- Only two finite doubles of one sign need a look at the mantissas.
  case finite.negative.finite.negative =>
    refine congrArg some ?_
    change _ = (compare (-e₁) (-e₂)).then (compare (-(m₁ : Int)) (-(m₂ : Int)))
    rw [compare_neg, compare_neg, compare_natCast, Ordering.swap_then]
  case finite.positive.finite.positive =>
    refine congrArg some ?_
    change _ = (compare e₁ e₂).then (compare (m₁ : Int) m₂)
    rw [compare_natCast]
  all_goals rfl

theorem float_le_iff {x y : Float} :
    x ≤ y ↔ ∃ a ∈ place? x.toModel.unpack, ∃ b ∈ place? y.toModel.unpack, a ≤ b := by
  have hle : x ≤ y ↔ x.toModel.unpack.le y.toModel.unpack = true := decide_eq_true_iff
  rw [hle, UnpackedFloat.le, compare_unpacked]
  cases place? x.toModel.unpack <;> cases place? y.toModel.unpack <;>
    simp [Ordering.isLE_iff_ne_gt, compare_le_iff_le]

theorem float_lt_iff {x y : Float} :
    x < y ↔ ∃ a ∈ place? x.toModel.unpack, ∃ b ∈ place? y.toModel.unpack, a < b := by
  have hlt : x < y ↔ x.toModel.unpack.lt y.toModel.unpack = true := decide_eq_true_iff
  rw [hlt, UnpackedFloat.lt, compare_unpacked]
  cases place? x.toModel.unpack <;> cases place? y.toModel.unpack <;> simp [compare_lt_iff_lt]

theorem float_isNumber_iff {x : Float} :
    isNumber x = true ↔ ∃ a, place? x.toModel.unpack = some a := by
  rw [isNumber, decide_eq_true_eq]
  change x ≤ x ↔ _
  rw [float_le_iff]
  cases place? x.toModel.unpack <;> simp

theorem comparable_float : Comparable Float where
  le_total x y hx hy := by
    obtain ⟨a, ha⟩ := float_isNumber_iff.1 hx
    obtain ⟨b, hb⟩ := float_isNumber_iff.1 hy
    rcases le_total a b with h | h
    · exact .inl (float_le_iff.2 ⟨a, ha, b, hb, h⟩)
    · exact .inr (float_le_iff.2 ⟨b, hb, a, ha, h⟩)
  le_trans x y z hxy hyz := by
    obtain ⟨a, ha, b, hb, hab⟩ := float_le_iff.1 hxy
    obtain ⟨b', hb', c, hc, hbc⟩ := float_le_iff.1 hyz
    obtain rfl : b = b' := Option.some.inj (hb.symm.trans hb')
    exact float_le_iff.2 ⟨a, ha, c, hc, hab.trans hbc⟩
  numbers_of_le x y hxy := by
    obtain ⟨a, ha, b, hb, -⟩ := float_le_iff.1 hxy
    exact ⟨float_isNumber_iff.2 ⟨a, ha⟩, float_isNumber_iff.2 ⟨b, hb⟩⟩
  lt_iff x y := by
    change x < y ↔ x ≤ y ∧ ¬ y ≤ x
    rw [float_lt_iff, float_le_iff, float_le_iff]
    cases place? x.toModel.unpack with
    | none => simp
    | some a =>
      cases place? y.toModel.unpack with
      | none => simp
      | some b => simpa using lt_iff_le_not_ge (a := a) (b := b)

/-! ## Finite doubles -/

/-- The infinite numbers stand at the ends, and the finite ones between them. -/
theorem place?_ends {u : UnpackedFloat} {a : Int ×ₗ Int ×ₗ Int} (ha : place? u = some a) :
    toLex (-2, toLex (0, 0)) ≤ a ∧ a ≤ toLex (2, toLex (0, 0)) ∧
      (u.isFinite ↔ toLex (-2, toLex (0, 0)) < a ∧ a < toLex (2, toLex (0, 0))) := by
  rcases u with (_ | _) | _ | _ | ⟨(_ | _), m, e, h⟩ <;> cases ha
  all_goals simp [Prod.Lex.le_iff, Prod.Lex.lt_iff, UnpackedFloat.isFinite]

/-- What is strictly between two doubles is finite. -/
theorem isFinite_of_lt_of_lt {x y z : Float} (hxy : x < y) (hyz : y < z) : y.isFinite := by
  obtain ⟨a, ha, b, hb, hab⟩ := float_lt_iff.1 hxy
  obtain ⟨b', hb', c, hc, hbc⟩ := float_lt_iff.1 hyz
  obtain rfl : b = b' := Option.some.inj (hb.symm.trans hb')
  exact (place?_ends hb).2.2.2 ⟨(place?_ends ha).1.trans_lt hab, hbc.trans_le (place?_ends hc).2.1⟩

/-- What is not outside two finite doubles is finite. -/
theorem isFinite_of_le_of_le {x y z : Float} (hx : x.isFinite) (hz : z.isFinite) (hxy : x ≤ y)
    (hyz : y ≤ z) : y.isFinite := by
  obtain ⟨a, ha, b, hb, hab⟩ := float_le_iff.1 hxy
  obtain ⟨b', hb', c, hc, hbc⟩ := float_le_iff.1 hyz
  obtain rfl : b = b' := Option.some.inj (hb.symm.trans hb')
  exact (place?_ends hb).2.2.2 ⟨((place?_ends ha).2.2.1 hx).1.trans_le hab,
    hbc.trans_lt ((place?_ends hc).2.2.1 hz).2⟩

end Doubles
end MovingTarget.Scalar
