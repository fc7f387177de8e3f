import MovingTarget.Scalar
/-!
# A scalar and itself

A scalar is never further from itself than a tolerance of one (`Cancelling.near_self`). What this
takes of the arithmetic is collected in `Cancelling`, and doubles have it (`cancelling_float`):
infinities and what is no number differ from themselves by no number, which compares with nothing.
-/
namespace MovingTarget.Scalar

/-- What is assumed of differences and comparisons. -/
structure Cancelling (α : Type) [Scalar α] : Prop where
  sub_self : ∀ x : α, x - x = 0.0 ∨ isNumber (x - x) = false
  not_lt : ∀ x y : α, isNumber x = false → ¬ x < y ∧ ¬ y < x
  not_lt_zero : ¬ (0.0 : α) < 0.0 ∧ ¬ (1.0 : α) < 0.0

theorem Cancelling.near_self {α : Type} [Scalar α] (h : Cancelling α) (x : α) :
    ¬ 1.0 < distance x x := by
  rw [distance]
  rcases h.sub_self x with hzero | hnone
  · rw [hzero, if_neg h.not_lt_zero.1]
    exact h.not_lt_zero.2
  · rw [if_neg (h.not_lt (x - x) 0.0 hnone).1]
    exact (h.not_lt (x - x) 1.0 hnone).2

/-! ## Doubles -/

section Doubles
open Float.Model

theorem compare_unpacked_self (u : UnpackedFloat) :
    u = .notANumber ∨ u.compare u = some .eq := by
  cases u with
  | notANumber => exact .inl rfl
  | infinity sign => cases sign <;> exact .inr rfl
  | zero sign => exact .inr rfl
  | finite sign m e =>
    have he : compare e e = .eq := Std.ReflCmp.compare_self
    have hm : compare m m = .eq := Std.ReflCmp.compare_self
    have hequal : (compare e e).then (compare m m) = .eq := by
      rw [he, hm]
      rfl
    cases sign with
    | positive => exact .inr (congrArg some hequal)
    | negative => exact .inr (congrArg (fun o : Ordering => some o.swap) hequal)

theorem sub_unpacked_self (u : UnpackedFloat) :
    u.sub .binary64 u = .notANumber ∨ u.sub .binary64 u = .zero .positive := by
  cases u with
  | notANumber => exact .inl rfl
  | infinity sign => cases sign <;> exact .inl rfl
  | zero sign => cases sign <;> exact .inr rfl
  | finite sign m e =>
    -- The mantissas cancel, and a zero mantissa is rounded to a positive zero.
    have hmantissa := Int.sub_self (sign.apply (UnpackedFloat.decreaseExponent m e (min e e)).1)
    exact .inr (congrArg (UnpackedFloat.normalize .binary64 · (min e e) .positive) hmantissa)

/-- A double that does not compare with itself compares with nothing. -/
theorem unpacked_of_isNumber_eq_false {x : Float} (h : isNumber x = false) :
    x.toModel.unpack = .notANumber := by
  rcases compare_unpacked_self x.toModel.unpack with hx | hx
  · exact hx
  · have hle : x.toModel.unpack.le x.toModel.unpack = true := by rw [UnpackedFloat.le, hx]; rfl
    have hself : x ≤ x := decide_eq_true_iff.2 hle
    rw [isNumber, decide_eq_false_iff_not] at h
    exact absurd hself h

theorem cancelling_float : Cancelling Float where
  sub_self x := by
    have hsub : x - x = ⟨pack (x.toModel.unpack.sub .binary64 x.toModel.unpack)⟩ := rfl
    rw [hsub]
    rcases sub_unpacked_self x.toModel.unpack with h | h
    · rw [h]
      decide +kernel
    · rw [h]
      decide +kernel
  not_lt x y h := by
    have hx := unpacked_of_isNumber_eq_false h
    have hlt : ∀ a b : Float, a < b → a.toModel.unpack.compare b.toModel.unpack = some .lt :=
      fun a b hab => eq_of_beq (decide_eq_true_iff.1 hab)
    refine ⟨fun hxy => ?_, fun hyx => ?_⟩
    · have hc := hlt x y hxy
      rw [hx] at hc
      cases hc
    · have hc := hlt y x hyx
      rw [hx] at hc
      cases hy : y.toModel.unpack <;> rw [hy] at hc <;> cases hc
  not_lt_zero := by decide +kernel

end Doubles
end MovingTarget.Scalar
