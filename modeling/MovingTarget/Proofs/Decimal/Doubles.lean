import Mathlib
import MovingTarget.Decimal.Double
/-!
# The doubles among the bit patterns

A finite double is its sign, a significand and an exponent that fit (`Canonical`), and it is made
of these again (`isFinite_iff`): what its bits stand for determines it.
-/
namespace MovingTarget.Decimal
open Float.Model Float.Model.UnpackedFloat

/-! ## The fields of a bit pattern -/

theorem toNat_packComponents (s : Sign) (e : BitVec 11) (m : BitVec 52) :
    (packComponents .binary64 s e m).toNat =
      (s.toBitVec.toNat * 2 ^ 11 + e.toNat) * 2 ^ 52 + m.toNat := by
  have : (packComponents .binary64 s e m).toNat = ((s.toBitVec ++ e) ++ m).toNat := rfl
  rw [this, BitVec.toNat_append, BitVec.toNat_append, ← Nat.shiftLeft_add_eq_or_of_lt e.isLt,
    ← Nat.shiftLeft_add_eq_or_of_lt m.isLt, Nat.shiftLeft_eq, Nat.shiftLeft_eq]

/-- Every bit pattern is made of its three fields. -/
theorem exists_packComponents (b : BitVec 64) : ∃ s e m, b = packComponents .binary64 s e m :=
  ⟨_, _, _, (@packComponents_unpackSign_unpackExponent_unpackMantissa .binary64 b).symm⟩

/-! ## What fields stand for -/

/-- The significand of finite fields. -/
def fieldSignificand (e : BitVec 11) (m : BitVec 52) : Nat :=
  if e = 0#11 then m.toNat else 2 ^ 52 + m.toNat

def fieldExponent (e : BitVec 11) : Int := if e = 0#11 then -1074 else (e.toNat : Int) - 1075

/-- A significand and an exponent that a double can have: the significand has its leading bit
unless the exponent is the lowest one. -/
structure Canonical (significand : Nat) (exponent : Int) : Prop where
  significand_lt : significand < 2 ^ 53
  leading : 2 ^ 52 ≤ significand ∨ exponent = -1074
  low : -1074 ≤ exponent
  high : exponent ≤ 971

/-- The number with this sign, zero if the significand is. -/
def unpacked (s : Sign) (significand : Nat) (exponent : Int) : UnpackedFloat :=
  if h : 0 < significand then .finite s significand exponent h else .zero s

theorem canonical_fields {e : BitVec 11} (he : e ≠ -1#_) (m : BitVec 52) :
    Canonical (fieldSignificand e m) (fieldExponent e) := by
  have hm := m.isLt
  have hlt := e.isLt
  have he' : e.toNat ≠ 2047 := fun h => he (BitVec.eq_of_toNat_eq h)
  unfold fieldSignificand fieldExponent
  split
  · exact ⟨by omega, .inr rfl, le_rfl, by decide⟩
  · next h0 =>
    have h0' : e.toNat ≠ 0 := fun h => h0 (BitVec.eq_of_toNat_eq h)
    exact ⟨by omega, .inl (by omega), by omega, by omega⟩

theorem Canonical.exists_fields {significand : Nat} {exponent : Int}
    (h : Canonical significand exponent) :
    ∃ e ≠ -1#_, ∃ m, significand = fieldSignificand e m ∧ exponent = fieldExponent e := by
  obtain ⟨hlt, hlead, hlow, hhigh⟩ := h
  by_cases hnormal : 2 ^ 52 ≤ significand
  · have he : (BitVec.ofNat 11 (exponent + 1075).toNat).toNat = (exponent + 1075).toNat :=
      Nat.mod_eq_of_lt (by omega)
    have he0 : BitVec.ofNat 11 (exponent + 1075).toNat ≠ 0#11 := fun h => by
      rw [h] at he
      simp at he
      omega
    refine ⟨.ofNat 11 (exponent + 1075).toNat, fun h => ?_, .ofNat 52 significand, ?_, ?_⟩
    · rw [h] at he
      simp at he
      omega
    · rw [fieldSignificand, if_neg he0, BitVec.toNat_ofNat]
      omega
    · rw [fieldExponent, if_neg he0, he]
      omega
  · refine ⟨0#11, by decide, .ofNat 52 significand, ?_, ?_⟩
    · rw [fieldSignificand, if_pos rfl, BitVec.toNat_ofNat]
      omega
    · rw [fieldExponent, if_pos rfl]
      omega

theorem toNat_leadingBit (m : BitVec 52) : (1#1 ++ m).toNat = 2 ^ 52 + m.toNat := by
  rw [BitVec.toNat_append, ← Nat.shiftLeft_add_eq_or_of_lt m.isLt, Nat.shiftLeft_eq]
  rfl

theorem unpack_fields (s : Sign) {e : BitVec 11} (he : e ≠ -1#_) (m : BitVec 52) :
    UnpackedFloat.unpack .binary64 (packComponents .binary64 s e m) =
      unpacked s (fieldSignificand e m) (fieldExponent e) := by
  simp only [UnpackedFloat.unpack, unpackMantissa_packComponents, unpackExponent_packComponents,
    unpackSign_packComponents, Sign.ofBitVec_toBitVec, if_neg he, unpacked, fieldSignificand,
    fieldExponent]
  by_cases h0 : e = 0#_
  · subst h0
    by_cases hm : m = 0#_
    · subst hm
      rfl
    · have hpos : 0 < m.toNat := by
        have : m.toNat ≠ 0 := fun h => hm (BitVec.eq_of_toNat_eq h)
        omega
      simp [hm, hpos, Format.exponentBias]
  · simp [h0, toNat_leadingBit, Format.exponentBias]

theorem pack_fields (s : Sign) {e : BitVec 11} (he : e ≠ -1#_) (m : BitVec 52) :
    UnpackedFloat.pack .binary64 (unpacked s (fieldSignificand e m) (fieldExponent e)) =
      packComponents .binary64 s e m := by
  have hm := m.isLt
  have hlt := e.isLt
  have he' : e.toNat ≠ 2047 := fun h => he (BitVec.eq_of_toNat_eq h)
  by_cases h0 : e = 0#11
  · subst h0
    rw [fieldSignificand, fieldExponent, if_pos rfl, if_pos rfl, unpacked]
    split
    · next hpos =>
      have hlog : m.toNat.log2 ≠ 52 := Nat.ne_of_lt ((Nat.log2_lt (by omega)).2 hm)
      simp [UnpackedFloat.pack, Format.exponentBias, Format.mantissaBits, hlog]
    · next hpos =>
      have hm0 : m = 0#52 := BitVec.eq_of_toNat_eq (Nat.eq_zero_of_not_pos hpos)
      rw [hm0]
      rfl
  · have h0' : e.toNat ≠ 0 := fun h => h0 (BitVec.eq_of_toNat_eq h)
    have hlog : (4503599627370496 + m.toNat).log2 = 52 :=
      (Nat.log2_eq_iff (by omega)).2 ⟨by omega, by omega⟩
    have hexponent : ((e.toNat : Int) - 1075 + 1023 + 52).toNat = e.toNat := by omega
    have hmantissa : BitVec.ofNat 52 (4503599627370496 + m.toNat) = m := by
      apply BitVec.eq_of_toNat_eq
      rw [BitVec.toNat_ofNat]
      omega
    have hfinite : ¬ 2047 ≤ e.toNat := by omega
    rw [fieldSignificand, fieldExponent, if_neg h0, if_neg h0, unpacked, dif_pos (by omega)]
    simp [UnpackedFloat.pack, Format.exponentBias, Format.mantissaBits, hexponent, hlog, hmantissa,
      hfinite]

/-- Packing loses nothing of a canonical number. -/
theorem unpack_pack {significand : Nat} {exponent : Int} (h : Canonical significand exponent)
    (s : Sign) :
    (Float.Model.pack (unpacked s significand exponent)).unpack =
      unpacked s significand exponent := by
  obtain ⟨e, he, m, rfl, rfl⟩ := h.exists_fields
  change UnpackedFloat.unpack .binary64 (UnpackedFloat.pack .binary64 _) = _
  rw [pack_fields s he, unpack_fields s he]

/-! ## Doubles and their parts -/

def sign (negative : Bool) : Sign := if negative then .negative else .positive

/-- The double with this sign, significand and exponent. -/
def ofParts (negative : Bool) (significand : Nat) (exponent : Int) : Float :=
  .ofModel (.pack (unpacked (sign negative) significand exponent))

theorem unpack_ofParts (negative : Bool) {significand : Nat} {exponent : Int}
    (h : Canonical significand exponent) :
    (ofParts negative significand exponent).toModel.unpack =
      unpacked (sign negative) significand exponent := unpack_pack h _

/-- The fields are what the bits are taken apart into. -/
theorem ofBits_fields (s : Sign) (e : BitVec 11) (m : BitVec 52) :
    Double.ofBits (packComponents .binary64 s e m).toNat =
      if e = -1#_ then if m = 0#52 then .infinite (s == .negative) else .nan
      else .finite (s == .negative) (fieldSignificand e m) (fieldExponent e)
        (fieldSignificand e m == 2 ^ 52 && fieldExponent e != -1074) := by
  have hm := m.isLt
  have hlt := e.isLt
  have hs := s.toBitVec.isLt
  have hsign : (packComponents .binary64 s e m).toNat >>> 63 % 2 = s.toBitVec.toNat := by
    rw [toNat_packComponents, Nat.shiftRight_eq_div_pow]
    omega
  have hfield : (packComponents .binary64 s e m).toNat >>> 52 % 2048 = e.toNat := by
    rw [toNat_packComponents, Nat.shiftRight_eq_div_pow]
    omega
  have hfraction : (packComponents .binary64 s e m).toNat % (1 <<< 52) = m.toNat := by
    rw [toNat_packComponents, Nat.shiftLeft_eq]
    omega
  have hnegative : (s.toBitVec.toNat == 1) = (s == .negative) := by cases s <;> rfl
  simp only [Double.ofBits, hsign, hfield, hfraction, hnegative]
  by_cases hspecial : e = -1#11
  · subst hspecial
    have hm0 : m.toNat = 0 ↔ m = 0#52 := BitVec.toNat_inj (y := 0#52)
    simp [hm0]
  · have hspecial' : e.toNat ≠ 2047 := fun h => hspecial (BitVec.eq_of_toNat_eq h)
    by_cases h0 : e = 0#11
    · subst h0
      simp [fieldSignificand, fieldExponent]
    · have h0' : e.toNat ≠ 0 := fun h => h0 (BitVec.eq_of_toNat_eq h)
      have hnarrow : (m.toNat == 0 && e.toNat != 1) =
          (2 ^ 52 + m.toNat == 2 ^ 52 && (e.toNat : Int) - 1075 != -1074) := by
        rw [Bool.eq_iff_iff]
        simp
        omega
      rw [if_neg hspecial', if_neg h0', if_neg hspecial, fieldSignificand, fieldExponent,
        if_neg h0, if_neg h0, hnarrow]
      rfl

/-! ## Finite doubles -/

theorem isFinite_unpacked (s : Sign) (significand : Nat) (exponent : Int) :
    (unpacked s significand exponent).isFinite := by
  unfold unpacked
  split <;> rfl

theorem neg_unpacked (negative : Bool) (significand : Nat) (exponent : Int) :
    (unpacked (sign negative) significand exponent).neg =
      unpacked (sign !negative) significand exponent := by
  have hsign : -sign negative = sign !negative := by cases negative <;> rfl
  unfold unpacked
  split <;> rw [UnpackedFloat.neg, hsign]

/-- The fields of a double that is no finite number. -/
theorem isFinite_special (s : Sign) (m : BitVec 52) :
    (UnpackedFloat.unpack .binary64 (packComponents .binary64 s (-1#_) m)).isFinite = false := by
  simp only [UnpackedFloat.unpack, unpackMantissa_packComponents, unpackExponent_packComponents,
    if_pos]
  split <;> rfl

theorem isFinite_ofParts (negative : Bool) {significand : Nat} {exponent : Int}
    (h : Canonical significand exponent) : (ofParts negative significand exponent).isFinite := by
  change (ofParts negative significand exponent).toModel.unpack.isFinite = true
  rw [unpack_ofParts negative h]
  exact isFinite_unpacked _ _ _

/-- A double is finite exactly if it is made of the parts of a number. -/
theorem isFinite_iff {x : Float} :
    x.isFinite ↔ ∃ negative significand exponent, Canonical significand exponent ∧
      x = ofParts negative significand exponent := by
  constructor
  · intro hx
    obtain ⟨⟨⟨bits⟩, hvalid⟩⟩ := x
    obtain ⟨s, e, m, rfl⟩ := exists_packComponents bits
    have he : e ≠ -1#_ := by
      rintro rfl
      exact Bool.false_ne_true ((isFinite_special s m).symm.trans hx)
    have hsign : sign (s == .negative) = s := by cases s <;> rfl
    refine ⟨s == .negative, _, _, canonical_fields he m, ?_⟩
    rw [ofParts, hsign]
    congr 3
    exact (pack_fields s he m).symm
  · rintro ⟨negative, significand, exponent, h, rfl⟩
    exact isFinite_ofParts negative h

theorem ofFloat_ofParts (negative : Bool) {significand : Nat} {exponent : Int}
    (h : Canonical significand exponent) :
    Double.ofFloat (ofParts negative significand exponent) =
      .finite negative significand exponent (significand == 2 ^ 52 && exponent != -1074) := by
  obtain ⟨e, he, m, rfl, rfl⟩ := h.exists_fields
  have hbits : (ofParts negative (fieldSignificand e m) (fieldExponent e)).toBits.toNat =
      (packComponents .binary64 (sign negative) e m).toNat := by
    rw [← pack_fields (sign negative) he]
    rfl
  have hnegative : (sign negative == .negative) = negative := by cases negative <;> rfl
  rw [Double.ofFloat, hbits, ofBits_fields, if_neg he, hnegative]

/-- A double that is no finite number has no parts either. -/
theorem ofFloat_of_not_isFinite {x : Float} (hx : x.isFinite = false) :
    Double.ofFloat x = .nan ∨ ∃ negative, Double.ofFloat x = .infinite negative := by
  obtain ⟨⟨⟨bits⟩, hvalid⟩⟩ := x
  obtain ⟨s, e, m, rfl⟩ := exists_packComponents bits
  have he : e = -1#_ := by
    by_contra he
    have hfinite : (UnpackedFloat.unpack .binary64 (packComponents .binary64 s e m)).isFinite := by
      rw [unpack_fields s he]
      exact isFinite_unpacked _ _ _
    exact Bool.false_ne_true (hx.symm.trans hfinite)
  change Double.ofBits (packComponents .binary64 s e m).toNat = _ ∨ ∃ negative,
    Double.ofBits (packComponents .binary64 s e m).toNat = _
  rw [ofBits_fields, if_pos he]
  split
  · exact .inr ⟨_, rfl⟩
  · exact .inl rfl

theorem neg_ofParts (negative : Bool) {significand : Nat} {exponent : Int}
    (h : Canonical significand exponent) :
    -ofParts negative significand exponent = ofParts (!negative) significand exponent := by
  change Float.ofModel (.pack (ofParts negative significand exponent).toModel.unpack.neg) = _
  rw [unpack_ofParts negative h, neg_unpacked, ofParts]

theorem isFinite_neg {x : Float} (hx : x.isFinite) : (-x).isFinite := by
  obtain ⟨negative, significand, exponent, h, rfl⟩ := isFinite_iff.1 hx
  rw [neg_ofParts negative h]
  exact isFinite_ofParts _ h

/-! ## Taking nothing away -/

/-- A double is packed again as it was. -/
theorem unpack_pack_unpack (x : Float) :
    (Float.Model.pack x.toModel.unpack).unpack = x.toModel.unpack := by
  cases hx : x.isFinite with
  | true =>
    obtain ⟨negative, significand, exponent, h, rfl⟩ := isFinite_iff.1 hx
    rw [unpack_ofParts negative h, unpack_pack h]
  | false =>
    change x.toModel.unpack.isFinite = false at hx
    cases hu : x.toModel.unpack with
    | notANumber => rfl
    | infinity s => cases s <;> rfl
    | zero s => rw [hu] at hx; cases hx
    | finite s m e h => rw [hu] at hx; cases hx

theorem sub_unpacked_zero (u : UnpackedFloat) : u.sub .binary64 (.zero .positive) = u := by
  rcases u with (_ | _) | _ | (_ | _) | _ <;> rfl

theorem unpack_sub_zero (x : Float) : (x - 0.0).toModel.unpack = x.toModel.unpack := by
  have hzero : (0.0 : Float).toModel.unpack = .zero .positive := rfl
  change (Float.Model.pack (x.toModel.unpack.sub .binary64 (0.0 : Float).toModel.unpack)).unpack = _
  rw [hzero, sub_unpacked_zero, unpack_pack_unpack]

end MovingTarget.Decimal
