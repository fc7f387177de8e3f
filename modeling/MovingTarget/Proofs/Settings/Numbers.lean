import MovingTarget.Proofs.Decimal.Exact
import MovingTarget.Proofs.Decimal.Shortest
import MovingTarget.Proofs.Settings.Fields
import MovingTarget.Proofs.Tables
import MovingTarget.Settings.Flat
/-!
# Settings from numbers by name

A number given by name goes into the field of that name and leaves the others alone (`put_eq`), so
the loop over the numbers is one replacement of them all (`foldlM_put`), whatever their order
(`foldlM_put_perm`). Only a cap that is no count is refused. Settings are made again of the numbers
that they hold (`ofFlat_numbers`), so every field with a number can be reached.
-/
namespace MovingTarget
namespace Decimal

/-! ## Doubles that are natural numbers -/

theorem quotient_eq_iff {up down n : Nat} {q : ℚ} (hdown : 0 < down) (hq : (up : ℚ) = q * down) :
    up % down = 0 ∧ up / down = n ↔ q = n := by
  have hdown' : (down : ℚ) ≠ 0 := by exact_mod_cast hdown.ne'
  calc up % down = 0 ∧ up / down = n ↔ up = n * down := by
        constructor
        · rintro ⟨hmod, rfl⟩
          exact (Nat.div_mul_cancel (Nat.dvd_of_mod_eq_zero hmod)).symm
        · rintro rfl
          exact ⟨Nat.mul_mod_left _ _, Nat.mul_div_cancel _ hdown⟩
    _ ↔ (up : ℚ) = n * down := by exact_mod_cast Iff.rfl
    _ ↔ q = n := by rw [hq, mul_left_inj' hdown']

/-- A double is a natural number exactly if it is finite and equal to one. -/
theorem toNat?_eq_some_iff {x : Float} {n : Nat} :
    (Double.ofFloat x).toNat? = some n ↔ x.isFinite ∧ rational x = n := by
  cases hx : x.isFinite with
  | false => rcases ofFloat_of_not_isFinite hx with h | ⟨negative, h⟩ <;> simp [h, Double.toNat?]
  | true =>
    obtain ⟨negative, significand, exponent, hc, rfl⟩ := isFinite_iff.1 hx
    have hdown : 0 < 1 <<< (-exponent).toNat := by
      rw [Nat.shiftLeft_eq, one_mul]
      exact Nat.two_pow_pos _
    have hup : ((significand <<< exponent.toNat : Nat) : ℚ) =
        significand * 2 ^ exponent * (1 <<< (-exponent).toNat : Nat) := by
      rw [Nat.shiftLeft_eq, Nat.shiftLeft_eq, one_mul, Nat.cast_mul, Nat.cast_pow, Nat.cast_pow,
        Nat.cast_ofNat, pow_toNat two_ne_zero, mul_assoc]
    have hnonneg := parts_nonneg significand exponent
    rw [ofFloat_ofParts negative hc, rational_ofParts negative hc, Double.toNat?,
      Option.ite_none_right_eq_some, Option.some.injEq, and_iff_right rfl]
    generalize significand <<< exponent.toNat = up at hup
    generalize 1 <<< (-exponent).toNat = down at hdown hup
    generalize (significand * 2 ^ exponent : ℚ) = q at hup hnonneg
    cases negative with
    | false => simpa using quotient_eq_iff hdown hup
    | true =>
      -- Of the numbers that are not above zero, only zero is a natural number.
      have hzero : up = 0 ↔ q = 0 := by
        have hdown' : (down : ℚ) ≠ 0 := by exact_mod_cast hdown.ne'
        rw [← Nat.cast_eq_zero (R := ℚ), hup, mul_eq_zero_iff_right hdown']
      rw [and_right_comm, quotient_eq_iff hdown hup, if_pos rfl, neg_one_mul]
      simp only [forall_const, hzero]
      have hn : (0 : ℚ) ≤ n := n.cast_nonneg
      constructor
      · rintro ⟨hq, h0⟩
        rw [← hq, h0, neg_zero]
      · intro hq
        constructor <;> linarith

end Decimal

namespace Settings
open Decimal

/-! ## The cap -/

theorem capOf?_eq_some_iff {x : Float} {cap : UInt64} :
    capOf? x = some cap ↔
      x.isFinite ∧ ∃ n : Nat, rational x = n ∧ cap.toNat = min n (2 ^ 64 - 1) := by
  have hword (n : Nat) : UInt64.ofNat (min n (UInt64.size - 1)) = cap ↔
      cap.toNat = min n (2 ^ 64 - 1) := by
    have hlt : min n (UInt64.size - 1) < 2 ^ 64 := by
      have : UInt64.size = 2 ^ 64 := rfl
      omega
    rw [← UInt64.toNat_inj, UInt64.toNat_ofNat_of_lt' hlt, eq_comm]
    rfl
  simp only [capOf?, Option.map_eq_some_iff, toNat?_eq_some_iff, hword, and_assoc, exists_and_left]

theorem capOf?_eq_none_iff {x : Float} :
    capOf? x = none ↔ x.isNaN ∨ x.isInf ∨ rational x < 0 ∨ ∀ z : ℤ, rational x ≠ z := by
  rw [← or_assoc, ← isFinite_eq_false_iff, capOf?, Option.map_eq_none_iff,
    Option.eq_none_iff_forall_ne_some]
  simp only [ne_eq, toNat?_eq_some_iff, not_and_or, forall_or_left, Bool.not_eq_true]
  refine or_congr_right ⟨fun h => ?_, ?_⟩
  · rw [or_iff_not_imp_left]
    intro hneg z hz
    have hz0 : 0 ≤ z := by rw [hz, not_lt] at hneg; exact_mod_cast hneg
    lift z to Nat using hz0
    exact h z hz
  · rintro (hneg | hnone) n hn
    · rw [hn] at hneg
      exact (n.cast_nonneg).not_gt hneg
    · exact hnone n (by exact_mod_cast hn)

/-! ## Numbers by field -/

namespace Field

/-- The name that a number for a field goes by. -/
def dotted (f : Field) : String := f.part.name ++ "." ++ f.name

theorem dotted_injective : Function.Injective dotted := by
  intro f g
  revert f g
  decide

/-- What a field holds when a number is given for it; two fields hold no number. -/
def ofNumber? : (f : Field) → Float → Option (f.Content Float)
  | .exempt, _ | .kind, _ => none
  | .cap, x => capOf? x
  | .alpha, x | .rateWeight, x | .patternWeight, x | .persistenceWeight, x | .low, x | .medium, x
  | .high, x | .ratio, x | .threshold, x | .base, x | .min, x | .max, x => some x

/-- The number that a field holds. -/
def toNumber? : (f : Field) → f.Content Float → Option Float
  | .exempt, _ | .kind, _ => none
  | .cap, x => some (.ofNat x.toNat)
  | .alpha, x | .rateWeight, x | .patternWeight, x | .persistenceWeight, x | .low, x | .medium, x
  | .high, x | .ratio, x | .threshold, x | .base, x | .min, x | .max, x => some x

end Field

/-- A number among the entries that is given for the cap and is no count. -/
def badCap? (entries : List (String × Float)) : Option Float :=
  (entries.lookup Field.cap.dotted).filter fun x => (capOf? x).isNone

/-- Settings with the numbers of the entries in their fields. -/
def withNumbers (c : Settings Float) (entries : List (String × Float)) : Settings Float :=
  ofFields fun f => ((entries.lookup f.dotted).bind f.ofNumber?).getD (c.get f)

/-- Put the numbers of the entries in their fields, unless the cap is no count. -/
def replacing (c : Settings Float) (entries : List (String × Float)) :
    Except (SettingsFault Float) (Settings Float) :=
  match badCap? entries with
  | some x => .error (.capNoCount x)
  | none => .ok (c.withNumbers entries)

theorem badCap?_eq_some_iff {entries : List (String × Float)} {x : Float} :
    badCap? entries = some x ↔ entries.lookup Field.cap.dotted = some x ∧ capOf? x = none := by
  rw [badCap?, Option.filter_eq_some_iff, Option.isNone_iff_eq_none]

theorem replacing_eq_error_iff {c : Settings Float} {entries : List (String × Float)}
    {e : SettingsFault Float} :
    c.replacing entries = .error e ↔
      ∃ x, entries.lookup Field.cap.dotted = some x ∧ capOf? x = none ∧ e = .capNoCount x := by
  simp only [← and_assoc, ← badCap?_eq_some_iff, replacing]
  cases badCap? entries <;> simp [eq_comm]

theorem replacing_eq_ok_iff {c d : Settings Float} {entries : List (String × Float)} :
    c.replacing entries = .ok d ↔
      (∀ x, entries.lookup Field.cap.dotted = some x → capOf? x ≠ none) ∧
        d = c.withNumbers entries := by
  have hgood : (∀ x, entries.lookup Field.cap.dotted = some x → capOf? x ≠ none) ↔
      badCap? entries = none := by
    simp only [Option.eq_none_iff_forall_ne_some, ne_eq, badCap?_eq_some_iff, not_and]
  rw [hgood, replacing]
  cases badCap? entries <;> simp [eq_comm]

theorem get_withNumbers (c : Settings Float) (entries : List (String × Float)) (f : Field) :
    (c.withNumbers entries).get f =
      ((entries.lookup f.dotted).bind f.ofNumber?).getD (c.get f) :=
  get_ofFields _ f

/-! ## One number -/

section One
variable (c : Settings Float)

theorem put_cap (x : Float) :
    c.put (Field.cap.dotted, x) = c.replacing [(Field.cap.dotted, x)] := by
  have hname : Field.cap.dotted = "engine.max_decisions_per_eval" := rfl
  have hwith : c.withNumbers [(Field.cap.dotted, x)] =
      { c with engine.cap := (capOf? x).getD c.engine.cap } := rfl
  rw [hname] at hwith ⊢
  rw [put]
  cases hx : capOf? x with
  | none => exact (replacing_eq_error_iff.2 ⟨x, rfl, hx, rfl⟩).symm
  | some cap =>
    refine (replacing_eq_ok_iff.2 ⟨fun y hy => ?_, ?_⟩).symm
    · cases hy
      rw [hx]
      nofun
    · rw [hwith, hx, Option.getD_some]

theorem put_eq_ok_self {name : String} (h : ¬∃ f : Field, f.dotted = name) (x : Float) :
    c.put (name, x) = .ok c := by
  generalize he : (name, x) = e
  fun_cases put c e with
  | case15 => rfl
  | _ =>
    -- A name that the loop knows is that of a field.
    cases he
    exact absurd (by decide) h

/-- A number goes into the field of its name, and nowhere else. -/
theorem put_eq (e : String × Float) : c.put e = c.replacing [e] := by
  obtain ⟨name, x⟩ := e
  by_cases hname : ∃ f : Field, f.dotted = name
  · obtain ⟨f, rfl⟩ := hname
    cases f with
    | cap => exact c.put_cap x
    | _ => rfl
  · have hlookup (f : Field) : [(name, x)].lookup f.dotted = none := by
      rw [Table.lookup_entry, if_neg fun h => hname ⟨f, h⟩, List.lookup_nil]
    rw [c.put_eq_ok_self hname, eq_comm, replacing_eq_ok_iff]
    refine ⟨fun y hy => ?_, ext_get fun f => ?_⟩
    · rw [hlookup] at hy
      cases hy
    · rw [get_withNumbers, hlookup, Option.bind_none, Option.getD_none]

end One

/-! ## One number after another -/

section Entries
variable {l : List (String × Float)} {e : String × Float}

theorem badCap?_cons (h : l.lookup e.1 = none) :
    badCap? (e :: l) = (badCap? [e]).or (badCap? l) := by
  rw [badCap?, badCap?, badCap?, Table.lookup_entry, Table.lookup_entry]
  split
  · next hk =>
    rw [hk, h, Option.filter_none, Option.or_none]
  · rfl

theorem withNumbers_cons (c : Settings Float) (h : l.lookup e.1 = none) :
    (c.withNumbers [e]).withNumbers l = c.withNumbers (e :: l) := by
  refine ext_get fun f => ?_
  rw [get_withNumbers, get_withNumbers, get_withNumbers, Table.lookup_entry, Table.lookup_entry]
  split
  · next hk => rw [hk, h, Option.bind_none, Option.getD_none]
  · rw [List.lookup_nil, Option.bind_none, Option.getD_none]

/-- One number first, then the others. -/
theorem replacing_cons (c : Settings Float) (h : l.lookup e.1 = none) :
    (do (← c.replacing [e]).replacing l) = c.replacing (e :: l) := by
  rw [replacing, replacing, badCap?_cons h, ← withNumbers_cons c h]
  cases badCap? [e] with
  | some x => rfl
  | none => rfl

/-- Numbers with different names, put in one after another. -/
theorem foldlM_put (hn : (l.map (·.1)).Nodup) (c : Settings Float) :
    l.foldlM put c = c.replacing l := by
  induction l generalizing c with
  | nil => exact congrArg Except.ok (ext_get fun f => (get_withNumbers c [] f).symm)
  | cons e l ih =>
    rw [List.map_cons, List.nodup_cons] at hn
    rw [List.foldlM_cons, put_eq, ← replacing_cons c (Table.lookup_eq_none_of_notMem hn.1)]
    exact bind_congr fun d => ih hn.2 d

end Entries

theorem ofFlat_eq (given : Figures Float) :
    ofFlat given = (standard : Settings Float).replacing given.entries :=
  foldlM_put given.nodup_keys standard

/-- The numbers may be put in in any order: none of them stands in the way of another. -/
theorem foldlM_put_perm {given : Figures Float} {l : List (String × Float)}
    (hl : l.Perm given.entries) : l.foldlM put standard = ofFlat given := by
  have hn : (l.map (·.1)).Nodup := (hl.map _).nodup_iff.2 given.nodup_keys
  have hlookup (k : String) : l.lookup k = given.entries.lookup k := Table.lookup_perm hl hn k
  rw [foldlM_put hn, ofFlat_eq]
  simp only [replacing, badCap?, withNumbers, hlookup]

/-! ## The numbers of settings -/

/-- All fields, in the order in which they are written. -/
def fields : List Field := [Part.scorer, .ladder, .pools, .policy, .engine].flatMap Part.fields

theorem mem_fields (f : Field) : f ∈ fields := by
  revert f
  decide

/-- The numbers that settings hold, by name. -/
def numbers (c : Settings Float) : Figures Float :=
  .ofList (fields.filterMap fun f => (f.toNumber? (c.get f)).map (f.dotted, ·))

theorem find?_numbers (c : Settings Float) (f : Field) :
    c.numbers.find? f.dotted = f.toNumber? (c.get f) := by
  rw [numbers, Table.find?_ofList, ← List.filterMap_reverse,
    Table.lookup_filterMap_key Field.dotted_injective,
    if_pos (List.mem_reverse.2 (mem_fields f))]

/-- A cap that is not too large is read back from its number. -/
theorem capOf?_ofNat {cap : UInt64} (h : cap.toNat ≤ 2 ^ 53) :
    capOf? (.ofNat cap.toNat) = some cap := by
  obtain ⟨hfinite, hexact⟩ := rational_ofNat h
  refine capOf?_eq_some_iff.2 ⟨hfinite, cap.toNat, hexact, ?_⟩
  omega

/-- Settings that differ from the presets in numbers only are made of these numbers. -/
theorem ofFlat_numbers {c : Settings Float}
    (hkind : c.policy.kind = (standard : Settings Float).policy.kind)
    (hexempt : c.ladder.exempt = []) (hcap : c.engine.cap.toNat ≤ 2 ^ 53) :
    ofFlat c.numbers = .ok c := by
  have hfind (f : Field) : c.numbers.entries.lookup f.dotted = f.toNumber? (c.get f) :=
    find?_numbers c f
  have hgood : badCap? c.numbers.entries = none := by
    rw [badCap?, hfind]
    change (some (Float.ofNat c.engine.cap.toNat)).filter _ = none
    rw [Option.filter_some, capOf?_ofNat hcap]
    rfl
  rw [ofFlat_eq, replacing, hgood]
  refine congrArg Except.ok (ext_get fun f => ?_)
  rw [get_withNumbers, hfind]
  cases f with
  | exempt => exact hexempt.symm
  | kind => exact hkind.symm
  | cap => exact congrArg (Option.getD · _) (capOf?_ofNat hcap)
  | _ => rfl

end Settings

open Settings Decimal in
/-- Numbers by name are refused exactly if the number for the cap is no count. Otherwise each field
holds the number given under its name, the cap at most the largest word, and its preset if none is
given; other names do not matter, nor does the order in which the numbers are put in. So every
number in the settings can be given, and each goes into its own field. -/
theorem numbers_by_name (given : Figures Float) :
    (∀ e, ofFlat given = .error e ↔ ∃ x, given.find? Field.cap.dotted = some x ∧
      (x.isNaN ∨ x.isInf ∨ rational x < 0 ∨ ∀ z : ℤ, rational x ≠ z) ∧ e = .capNoCount x) ∧
    (∀ c, ofFlat given = .ok c →
      (∀ f, c.get f =
        ((given.find? f.dotted).bind f.ofNumber?).getD ((standard : Settings Float).get f)) ∧
      ∀ x, given.find? Field.cap.dotted = some x →
        (c.engine.cap.toNat : ℚ) = min (rational x) (2 ^ 64 - 1)) ∧
    (∀ l : List (String × Float), l.Perm given.entries →
      l.foldlM put standard = ofFlat given) ∧
    ∀ c : Settings Float, c.policy.kind = (standard : Settings Float).policy.kind →
      c.ladder.exempt = [] → c.engine.cap.toNat ≤ 2 ^ 53 → ofFlat c.numbers = .ok c := by
  refine ⟨fun e => ?_, fun c hc => ?_, fun l => foldlM_put_perm, fun c => ofFlat_numbers⟩
  · simp only [ofFlat_eq, replacing_eq_error_iff, capOf?_eq_none_iff]
    rfl
  · rw [ofFlat_eq, replacing_eq_ok_iff] at hc
    obtain ⟨hgood, rfl⟩ := hc
    refine ⟨fun f => get_withNumbers _ _ f, fun x hx => ?_⟩
    obtain ⟨cap, hcap⟩ := Option.ne_none_iff_exists'.1 (hgood x hx)
    obtain ⟨-, n, hn, hword⟩ := capOf?_eq_some_iff.1 hcap
    have hlookup : given.entries.lookup Field.cap.dotted = some x := hx
    have hfield : (standard.withNumbers given.entries).get .cap = cap := by
      rw [get_withNumbers, hlookup]
      exact congrArg (Option.getD · _) hcap
    change (((standard.withNumbers given.entries).get .cap).toNat : ℚ) = _
    rw [hfield, hword, hn, Nat.cast_min]
    norm_num

/-- Minus zero is a count, half a decision is none. -/
example : (Settings.ofFlat (.ofList [("engine.max_decisions_per_eval", -0.0)])).map
      (·.engine.cap.toNat) = .ok 0 ∧
    (Settings.ofFlat (.ofList [("engine.max_decisions_per_eval", 2.5)])).isOk = false := by
  decide +kernel

end MovingTarget
