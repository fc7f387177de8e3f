import MovingTarget.Json.Text
import MovingTarget.Proofs.Decimal.Numerals
/-!
# Literals and numerals read back

A literal of well-spelt glyphs is read up to its closing quote (`Literal.read?_chars`), and a
numeral up to the first character that cannot continue it (`Numeral.read?_chars`), whatever
follows.
-/
namespace MovingTarget.Json

/-! ## Literals -/

/-- A glyph that is written as it may stand in a literal. -/
def Glyph.WellSpelt : Glyph → Prop
  | .plain c => c ≠ '"' ∧ c ≠ '\\' ∧ ¬ c.toNat < 0x20
  | .short c => (shortLetter? c).isSome
  | .unit u => u < 0x10000

theorem Glyph.wellSpelt_ofChar (c : Char) : (ofChar c).WellSpelt := by
  unfold ofChar
  split
  · next h => exact h.2
  · next h =>
    split
    · next hc => exact Nat.lt_trans hc (by decide)
    · next hc =>
      -- A quote or a backslash would have been written as a short escape.
      refine ⟨?_, ?_, hc⟩
      all_goals
        rintro rfl
        exact h (by decide)

theorem Glyph.hexValue?_hexDigit (n : Nat) : hexValue? (hexDigit n) = some (n % 16) := by
  have hall : ∀ d < 16, hexValue? (Nat.digitChar d) = some d := by decide
  exact hall (n % 16) (Nat.mod_lt n (by decide))

theorem Glyph.unit?_hexDigits {u : Nat} (h : u < 0x10000) :
    unit? (hexDigit (u / 4096)) (hexDigit (u / 256)) (hexDigit (u / 16)) (hexDigit u) = some u := by
  have hu : ((u / 4096 % 16 * 16 + u / 256 % 16) * 16 + u / 16 % 16) * 16 + u % 16 = u := by omega
  simp [unit?, hexValue?_hexDigit, hu]

/-- A short escape has a letter that stands for its character and is not the `u` of a unit. -/
theorem Glyph.shortLetter?_eq_some {c letter : Char} (h : shortLetter? c = some letter) :
    ofShortLetter? letter = some c ∧ letter ≠ 'u' := by
  unfold shortLetter? at h
  repeat' split at h
  all_goals
    cases h
    try subst c
    try decide

namespace Literal

theorem wellSpelt_ofString (s : String) : ∀ g ∈ ofString s, g.WellSpelt := by
  intro g hg
  obtain ⟨c, -, rfl⟩ := List.mem_map.1 hg
  exact Glyph.wellSpelt_ofChar c

theorem read?_glyph {g : Glyph} (hg : g.WellSpelt) (cs : List Char) :
    read? (g.chars ++ cs) = (read? cs).map fun r => (g :: r.1, r.2) := by
  cases g with
  | plain c =>
    obtain ⟨hquote, hslash, hcontrol⟩ := hg
    rw [Glyph.chars, List.singleton_append, read?]
    · rw [if_neg (by simp [hslash, hcontrol])]
      cases read? cs <;> rfl
    · exact hquote
    · exact fun _ _ _ _ _ h _ => hslash h
    · exact fun _ _ h _ => hslash h
  | short c =>
    obtain ⟨letter, hletter⟩ := Option.isSome_iff_exists.1 hg
    obtain ⟨hback, hne⟩ := Glyph.shortLetter?_eq_some hletter
    rw [Glyph.chars, hletter, Option.getD_some, List.cons_append, List.singleton_append, read?,
      hback]
    · cases read? cs <;> rfl
    · exact fun _ _ _ _ _ h => absurd h hne
  | unit u =>
    rw [Glyph.chars, List.cons_append, List.cons_append, List.cons_append, List.cons_append,
      List.cons_append, List.singleton_append, read?, Glyph.unit?_hexDigits hg]
    cases read? cs <;> rfl

/-- A literal reads back up to its closing quote. -/
theorem read?_chars {l : Literal} (hl : ∀ g ∈ l, g.WellSpelt) (rest : List Char) :
    read? (l.chars ++ '"' :: rest) = some (l, rest) := by
  induction l with
  | nil => rw [chars, List.flatMap_nil, List.nil_append, read?]
  | cons g l ih =>
    obtain ⟨hg, hl⟩ := List.forall_mem_cons.1 hl
    rw [chars, List.flatMap_cons, List.append_assoc, read?_glyph hg]
    change ((read? (chars l ++ '"' :: rest)).map _) = _
    rw [ih hl, Option.map_some]

end Literal
end MovingTarget.Json

/-! ## Numerals -/

namespace MovingTarget.Numeral
open Decimal

/-- What follows a numeral does not continue it. -/
def Ends (rest : List Char) : Prop :=
  ∀ c ∈ rest.head?, Digit.ofChar? c = none ∧ c ≠ '.' ∧ c ≠ 'e' ∧ c ≠ 'E'

theorem takeDigits_digitChars (ds : List Digit) {rest : List Char}
    (h : ∀ c ∈ rest.head?, Digit.ofChar? c = none) :
    takeDigits (digitChars ds ++ rest) = (ds, rest) := by
  induction ds with
  | nil =>
    cases rest with
    | nil => rfl
    | cons c rest => simp [digitChars, takeDigits, h c rfl]
  | cons d ds ih =>
    rw [digitChars, List.map_cons, List.cons_append, takeDigits, Digit.ofChar?_char]
    change (d :: (takeDigits (digitChars ds ++ rest)).1, (takeDigits (digitChars ds ++ rest)).2) = _
    rw [ih]

theorem readFraction?_chars (ds : List Digit) {rest : List Char}
    (h : ∀ c ∈ rest.head?, Digit.ofChar? c = none ∧ c ≠ '.') :
    readFraction? ((if ds.isEmpty then [] else '.' :: digitChars ds) ++ rest) =
      some (ds, rest) := by
  cases ds with
  | nil =>
    cases rest with
    | nil => rfl
    | cons c rest =>
      rw [List.isEmpty_nil, if_pos rfl, List.nil_append, readFraction?]
      intro _ hc
      exact (h c rfl).2 (List.cons.inj hc).1
  | cons d ds =>
    rw [List.isEmpty_cons, if_neg Bool.false_ne_true, List.cons_append, readFraction?,
      takeDigits_digitChars _ fun c hc => (h c hc).1]
    rfl

theorem readExponent?_chars (e : Option Int) {rest : List Char} (h : Ends rest) :
    readExponent? (exponentChars e ++ rest) = some (e, rest) := by
  cases e with
  | none =>
    cases rest with
    | nil => rfl
    | cons c rest =>
      obtain ⟨-, -, he, hE⟩ := h c rfl
      simp [exponentChars, readExponent?, he, hE]
  | some e =>
    obtain ⟨d, ds, hd, -⟩ := digits_eq_cons e.natAbs
    have hdigits := takeDigits_digitChars (digits e.natAbs) fun c hc => (h c hc).1
    have hvalue : (ofDigits (digits e.natAbs) : Int) = e.natAbs := by rw [ofDigits_digits]
    rw [hd] at hdigits hvalue
    by_cases hneg : e < 0
    · have he : -(ofDigits (d :: ds) : Int) = e := by omega
      simp [exponentChars, readExponent?, hd, hneg, hdigits, he]
    · have he : (ofDigits (d :: ds) : Int) = e := by omega
      simp [exponentChars, readExponent?, hd, hneg, hdigits, he]

theorem Digit.char_ne_minus (d : Digit) : d.char ≠ '-' := by
  revert d; decide

/-- A numeral starts with its sign or with a digit. -/
theorem chars_eq_cons (n : Numeral) :
    ∃ c cs, n.chars = c :: cs ∧ (c = '-' ∨ ∃ d : Digit, c = d.char) := by
  obtain ⟨d, ds, hd, -⟩ := digits_eq_cons n.whole
  unfold chars
  cases n.negative with
  | true => exact ⟨_, _, rfl, .inl rfl⟩
  | false =>
    rw [hd]
    exact ⟨_, _, rfl, .inr ⟨d, rfl⟩⟩

/-- What may follow the digits of the whole part. -/
def tailChars (fraction : List Digit) (exponent : Option Int) : List Char :=
  (if fraction.isEmpty then [] else '.' :: digitChars fraction) ++ exponentChars exponent

theorem head?_exponentChars (e : Option Int) {rest : List Char} (h : Ends rest) :
    ∀ c ∈ (exponentChars e ++ rest).head?, Digit.ofChar? c = none ∧ c ≠ '.' := by
  cases e with
  | none => exact fun c hc => ⟨(h c hc).1, (h c hc).2.1⟩
  | some e =>
    rintro c ⟨⟩
    decide

theorem head?_tailChars (fraction : List Digit) (e : Option Int) {rest : List Char}
    (h : Ends rest) : ∀ c ∈ (tailChars fraction e ++ rest).head?, Digit.ofChar? c = none := by
  cases fraction with
  | nil => exact fun c hc => (head?_exponentChars e h c hc).1
  | cons d ds =>
    rintro c ⟨⟩
    decide

theorem readFraction?_tailChars (fraction : List Digit) (e : Option Int) {rest : List Char}
    (h : Ends rest) :
    readFraction? (tailChars fraction e ++ rest) = some (fraction, exponentChars e ++ rest) := by
  rw [tailChars, List.append_assoc]
  exact readFraction?_chars fraction (head?_exponentChars e h)

/-- The numeral at the front, behind its sign. -/
def readUnsigned? (negative : Bool) (cs : List Char) : Option (Numeral × List Char) :=
  match takeDigits cs with
  | ([], _) => none
  | (0 :: _ :: _, _) => none
  | (ds, rest) => do
    let (fraction, rest) ← readFraction? rest
    let (exponent, rest) ← readExponent? rest
    return (⟨negative, ofDigits ds, fraction, exponent⟩, rest)

/-- A minus sign in front is taken off. -/
theorem read?_signed (negative : Bool) (d : Digit) (cs : List Char) :
    read? ((if negative then ['-'] else []) ++ d.char :: cs) =
      readUnsigned? negative (d.char :: cs) := by
  cases negative with
  | true => rfl
  | false =>
    rw [if_neg Bool.false_ne_true, List.nil_append, read?.eq_def]
    split
    next heq =>
      split at heq
      · next h => exact absurd (List.cons.inj h).1 (Digit.char_ne_minus d)
      · cases heq
        rfl

/-- A numeral is read in three parts behind its sign. -/
theorem read?_parts (negative : Bool) {d : Digit} {ds fraction : List Digit} {e : Option Int}
    {cs tail exponentTail rest : List Char} (hzero : d = 0 → ds = [])
    (hwhole : takeDigits (d.char :: cs) = (d :: ds, tail))
    (hfraction : readFraction? tail = some (fraction, exponentTail))
    (hexponent : readExponent? exponentTail = some (e, rest)) :
    read? ((if negative then ['-'] else []) ++ d.char :: cs) =
      some (⟨negative, ofDigits (d :: ds), fraction, e⟩, rest) := by
  -- A leading zero would have to be the only digit.
  have hplain : ∀ e es, d :: ds ≠ 0 :: e :: es := by
    intro e es he
    obtain ⟨hd, hds⟩ := List.cons.inj he
    exact List.cons_ne_nil _ _ (hds ▸ hzero hd)
  rw [read?_signed, readUnsigned?, hwhole]
  split
  · next heq => cases heq
  · next heq => exact absurd (Prod.mk.inj heq).1 (hplain _ _)
  · next heq =>
    obtain ⟨rfl, rfl⟩ := Prod.mk.inj heq
    simp [hfraction, hexponent]

/-- A numeral reads back up to what cannot continue it. -/
theorem read?_chars (n : Numeral) {rest : List Char} (h : Ends rest) :
    read? (n.chars ++ rest) = some (n, rest) := by
  obtain ⟨negative, whole, fraction, exponent⟩ := n
  obtain ⟨d, ds, hd, hzero⟩ := digits_eq_cons whole
  have hvalue : ofDigits (d :: ds) = whole := by rw [← hd, ofDigits_digits]
  have hwhole := takeDigits_digitChars (d :: ds) (head?_tailChars fraction exponent h)
  have hchars : chars ⟨negative, whole, fraction, exponent⟩ ++ rest =
      (if negative then ['-'] else []) ++
        d.char :: (digitChars ds ++ (tailChars fraction exponent ++ rest)) := by
    simp only [chars, tailChars, hd, List.append_assoc]
    rfl
  have hread := read?_parts negative hzero hwhole (readFraction?_tailChars fraction exponent h)
    (readExponent?_chars exponent h)
  rw [hvalue] at hread
  rw [hchars]
  exact hread

end MovingTarget.Numeral
