import Mathlib.Data.List.Basic
import Mathlib.Tactic.Ring
import MovingTarget.Decimal.Numeral
/-!
# Digits and what they name

The digits of a number do not start with a zero unless they are a single one, and their number
tells between which powers of ten the number lies. Digits can be cut anywhere
(`ofDigits_append`), and padding with zeros changes nothing (`ofDigits_paddedDigits`).
-/
namespace MovingTarget.Decimal

/-! ## The number of digits -/

theorem digitsOnto_eq (n : Nat) (tail : List Digit) : digitsOnto n tail = digits n ++ tail := by
  induction n using Nat.strongRecOn generalizing tail with
  | _ n ih =>
    rw [digits, digitsOnto, digitsOnto.eq_def n []]
    split
    · rfl
    · rw [ih (n / 10) (by omega), ih (n / 10) (by omega) [_], List.append_assoc,
        List.singleton_append]

theorem digits_of_lt {n : Nat} (h : n < 10) : digits n = [Fin.ofNat 10 n] := by
  rw [digits, digitsOnto, if_pos h]

theorem digits_of_ge {n : Nat} (h : 10 ≤ n) : digits n = digits (n / 10) ++ [Fin.ofNat 10 n] := by
  rw [digits, digitsOnto, if_neg (by omega), digitsOnto_eq]

theorem digits_ne_nil (n : Nat) : digits n ≠ [] := by
  rcases Nat.lt_or_ge n 10 with h | h
  · simp [digits_of_lt h]
  · simp [digits_of_ge h]

/-- A leading zero stands alone. -/
theorem digits_eq_cons (n : Nat) : ∃ d ds, digits n = d :: ds ∧ (d = 0 → ds = []) := by
  induction n using Nat.strongRecOn with
  | _ n ih =>
    rcases Nat.lt_or_ge n 10 with h | h
    · exact ⟨_, [], digits_of_lt h, fun _ => rfl⟩
    · obtain ⟨d, ds, hd, hzero⟩ := ih (n / 10) (by omega)
      refine ⟨d, ds ++ [Fin.ofNat 10 n], by rw [digits_of_ge h, hd, List.cons_append], fun h0 => ?_⟩
      -- The digits in front of the last one name `n / 10`, which is not zero.
      have hname := ofDigits_digits (n / 10)
      rw [hd, hzero h0, h0] at hname
      have : n / 10 = 0 := hname.symm
      omega

theorem lt_ten_pow_length (n : Nat) : n < 10 ^ (digits n).length := by
  induction n using Nat.strongRecOn with
  | _ n ih =>
    rcases Nat.lt_or_ge n 10 with h | h
    · rw [digits_of_lt h]
      exact h
    · have := ih (n / 10) (by omega)
      rw [digits_of_ge h, List.length_append, List.length_singleton, Nat.pow_succ]
      omega

theorem ten_pow_length_le {n : Nat} (hn : 0 < n) : 10 ^ ((digits n).length - 1) ≤ n := by
  induction n using Nat.strongRecOn with
  | _ n ih =>
    rcases Nat.lt_or_ge n 10 with h | h
    · rw [digits_of_lt h]
      exact hn
    · have hrest := ih (n / 10) (by omega) (by omega)
      have hlength : 1 ≤ (digits (n / 10)).length := List.length_pos_of_ne_nil (digits_ne_nil _)
      have hsplit : (digits n).length - 1 = ((digits (n / 10)).length - 1) + 1 := by
        rw [digits_of_ge h, List.length_append, List.length_singleton]
        omega
      rw [hsplit, Nat.pow_succ]
      omega

/-! ## What digits name -/

theorem foldl_digits (n : Nat) (ds : List Digit) :
    ds.foldl (fun n d => 10 * n + d.val) n = n * 10 ^ ds.length + ofDigits ds := by
  induction ds generalizing n with
  | nil => simp [ofDigits]
  | cons d ds ih =>
    rw [ofDigits, List.foldl_cons, List.foldl_cons, ih, ih (10 * 0 + d.val), List.length_cons,
      Nat.pow_succ]
    ring

theorem ofDigits_append (ds es : List Digit) :
    ofDigits (ds ++ es) = ofDigits ds * 10 ^ es.length + ofDigits es := by
  rw [ofDigits, List.foldl_append, foldl_digits]
  rfl

@[simp] theorem length_paddedDigits (places n : Nat) : (paddedDigits places n).length = places := by
  induction places generalizing n with
  | zero => rfl
  | succ places ih => rw [paddedDigits, List.length_append, ih, List.length_singleton]

theorem ofDigits_paddedDigits (places n : Nat) :
    ofDigits (paddedDigits places n) = n % 10 ^ places := by
  induction places generalizing n with
  | zero => rw [pow_zero, Nat.mod_one]; rfl
  | succ places ih =>
    have hlast : ofDigits [Fin.ofNat 10 n] = n % 10 := by simp [ofDigits, Fin.ofNat]
    rw [paddedDigits, ofDigits_append, ih, hlast, List.length_singleton, pow_one, Nat.pow_succ',
      Nat.mod_mul, Nat.mul_comm, Nat.add_comm]

end MovingTarget.Decimal
