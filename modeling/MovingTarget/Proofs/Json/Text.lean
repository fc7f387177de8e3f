import Mathlib.Data.List.DropRight
import MovingTarget.Proofs.Json.Numbers
import MovingTarget.Proofs.Json.Tokens
/-!
# Text reads back as the value it writes

Whatever is printed, in either style, parses to the value that was printed, provided that its
literals are well spelt (`parse?_compact`, `parse?_indented`). A value is read up to any character
that cannot continue a numeral, a sequence up to its closing bracket. The induction is on the steps
that are left to the reader, at least two for every character of what it has to read.

What codecs need of a text layer is named in `TextLayer.Lawful`, and this printer and this reader
have it.
-/
namespace MovingTarget.Json

/-! ## Blanks -/

theorem skipBlanks_append {blanks : List Char} (h : ∀ c ∈ blanks, isBlank c) (cs : List Char) :
    skipBlanks (blanks ++ cs) = skipBlanks cs := List.dropWhile_append_of_pos h

theorem skipBlanks_cons {c : Char} (h : isBlank c = false) (cs : List Char) :
    skipBlanks (c :: cs) = c :: cs := List.dropWhile_cons_of_neg (by rw [h]; decide)

theorem readItems?_skipBlanks (fuel : Nat) (cs : List Char) :
    readItems? fuel (skipBlanks cs) = readItems? fuel cs := by
  cases fuel <;> simp only [readItems?, skipBlanks, List.dropWhile_idempotent]

theorem readMembers?_skipBlanks (fuel : Nat) (cs : List Char) :
    readMembers? fuel (skipBlanks cs) = readMembers? fuel cs := by
  cases fuel <;> simp only [readMembers?, skipBlanks, List.dropWhile_idempotent]

/-- A style writes nothing but blanks between the tokens, and the colon. -/
structure Style.Spaced (style : Style) : Prop where
  lineBreak : ∀ level, ∀ c ∈ style.lineBreak level, isBlank c
  colon : ∃ blanks, style.colon = ':' :: blanks ∧ ∀ c ∈ blanks, isBlank c

theorem Style.spaced_compact : Style.compact.Spaced where
  lineBreak _ _ hc := absurd hc List.not_mem_nil
  colon := ⟨[], rfl, fun _ hc => absurd hc List.not_mem_nil⟩

theorem Style.spaced_indented : Style.indented.Spaced where
  lineBreak level c hc := by
    rcases List.mem_cons.1 hc with rfl | hc
    · decide
    · rw [List.eq_of_mem_replicate hc]
      decide
  colon := by
    refine ⟨[' '], rfl, fun c hc => ?_⟩
    rw [List.mem_singleton.1 hc]
    decide

/-! ## What stands in front and behind -/

mutual
/-- Every literal of the value can be written. -/
def WellSpelt : Json → Prop
  | .string s => ∀ g ∈ s, g.WellSpelt
  | .array items => ItemsWellSpelt items
  | .object members => MembersWellSpelt members
  | _ => True

def ItemsWellSpelt : List Json → Prop
  | [] => True
  | x :: rest => x.WellSpelt ∧ ItemsWellSpelt rest

def MembersWellSpelt : List (Literal × Json) → Prop
  | [] => True
  | (name, x) :: rest => (∀ g ∈ name, g.WellSpelt) ∧ x.WellSpelt ∧ MembersWellSpelt rest
end

/-- No value starts with a blank or with a closing bracket. -/
theorem chars_eq_cons (style : Style) (level : Nat) (j : Json) :
    ∃ c cs, chars style level j = c :: cs ∧ isBlank c = false ∧ c ≠ ']' := by
  cases j with
  | null => exact ⟨'n', _, rfl, by decide⟩
  | bool b =>
    cases b with
    | true => exact ⟨'t', _, rfl, by decide⟩
    | false => exact ⟨'f', _, rfl, by decide⟩
  | string s => exact ⟨'"', _, rfl, by decide⟩
  | array items => exact ⟨'[', _, rfl, by decide⟩
  | object members => exact ⟨'\x7b', _, rfl, by decide⟩
  | number n =>
    obtain ⟨c, cs, hc, rfl | ⟨d, rfl⟩⟩ := Numeral.chars_eq_cons n
    · exact ⟨_, _, hc, by decide⟩
    · have hdigit : ∀ d : Decimal.Digit, isBlank d.char = false ∧ d.char ≠ ']' := by decide
      exact ⟨_, _, hc, hdigit d⟩

theorem skipBlanks_chars (style : Style) (level : Nat) (j : Json) (cs : List Char) :
    skipBlanks (chars style level j ++ cs) = chars style level j ++ cs := by
  obtain ⟨c, _, hc, hblank, -⟩ := chars_eq_cons style level j
  rw [hc]
  exact skipBlanks_cons hblank _

theorem ends_cons {c : Char} (hc : c ∈ [',', ']', '\x7d']) (cs : List Char) :
    Numeral.Ends (c :: cs) := by
  rintro _ ⟨⟩
  simp only [List.mem_cons, List.not_mem_nil, or_false] at hc
  rcases hc with rfl | rfl | rfl <;> decide

/-- A numeral also ends before a blank. -/
theorem ends_append {blanks : List Char} (h : ∀ c ∈ blanks, isBlank c) {c : Char}
    (hc : c ∈ [',', ']', '\x7d']) (cs : List Char) : Numeral.Ends (blanks ++ c :: cs) := by
  cases blanks with
  | nil => exact ends_cons hc cs
  | cons b blanks =>
    rintro _ ⟨⟩
    have hb : b = ' ' ∨ b = '\t' ∨ b = '\n' ∨ b = '\r' := by
      simpa [isBlank, or_assoc] using h b List.mem_cons_self
    rcases hb with rfl | rfl | rfl | rfl <;> decide

/-! ## Values -/

theorem readValue?_number {fuel : Nat} (n : Numeral) {rest : List Char} (h : Numeral.Ends rest) :
    readValue? (fuel + 1) (n.chars ++ rest) = some (.number n, rest) := by
  obtain ⟨c, cs, hc, hcase⟩ := Numeral.chars_eq_cons n
  have hread := Numeral.read?_chars n h
  have hne : c ∉ ['n', 't', 'f', '"', '[', '\x7b'] := by
    rcases hcase with rfl | ⟨d, rfl⟩
    · decide
    · clear hread hc
      revert d
      decide
  rw [hc, List.cons_append] at hread ⊢
  rw [readValue?, hread, Option.map_some]
  all_goals
    intros
    simp_all

theorem readValue?_literal {fuel : Nat} {l : Literal} (hl : ∀ g ∈ l, g.WellSpelt)
    (rest : List Char) :
    readValue? (fuel + 1) (literalChars l ++ rest) = some (.string l, rest) := by
  rw [literalChars, List.cons_append, List.cons_append, List.append_assoc, List.singleton_append,
    readValue?, Literal.read?_chars hl]
  rfl

/-- A bracket that is not closed at once opens a sequence. -/
theorem readValue?_bracket {fuel : Nat} {cs : List Char} (h : ∀ rest, skipBlanks cs ≠ ']' :: rest) :
    readValue? (fuel + 1) ('[' :: cs) = (readItems? fuel cs).map fun r => (.array r.1, r.2) := by
  rw [readValue?]
  split
  · next heq => exact absurd heq (h _)
  · rw [readItems?_skipBlanks]

theorem readValue?_brace {fuel : Nat} {cs : List Char}
    (h : ∀ rest, skipBlanks cs ≠ '\x7d' :: rest) :
    readValue? (fuel + 1) ('\x7b' :: cs) =
      (readMembers? fuel cs).map fun r => (.object r.1, r.2) := by
  rw [readValue?]
  split
  · next heq => exact absurd heq (h _)
  · rw [readMembers?_skipBlanks]

/-! ## Sequences -/

theorem readItems?_last {fuel : Nat} {cs tail rest : List Char} {x : Json}
    (hx : readValue? fuel (skipBlanks cs) = some (x, tail))
    (htail : skipBlanks tail = ']' :: rest) : readItems? (fuel + 1) cs = some ([x], rest) := by
  simp [readItems?, hx, htail]

theorem readItems?_more {fuel : Nat} {cs tail more rest : List Char} {x : Json} {xs : List Json}
    (hx : readValue? fuel (skipBlanks cs) = some (x, tail)) (htail : skipBlanks tail = ',' :: more)
    (hxs : readItems? fuel more = some (xs, rest)) :
    readItems? (fuel + 1) cs = some (x :: xs, rest) := by
  simp [readItems?, hx, htail, hxs]

section Members
variable {fuel : Nat} {cs tail rest : List Char} {name : Literal} {x : Json}

theorem readMembers?_last {named colon : List Char} (hcs : skipBlanks cs = '"' :: named)
    (hname : Literal.read? named = some (name, colon)) {value : List Char}
    (hcolon : skipBlanks colon = ':' :: value)
    (hx : readValue? fuel (skipBlanks value) = some (x, tail))
    (htail : skipBlanks tail = '\x7d' :: rest) :
    readMembers? (fuel + 1) cs = some ([(name, x)], rest) := by
  simp [readMembers?, hcs, hname, hcolon, hx, htail]

theorem readMembers?_more {named colon : List Char} (hcs : skipBlanks cs = '"' :: named)
    (hname : Literal.read? named = some (name, colon)) {value : List Char}
    (hcolon : skipBlanks colon = ':' :: value)
    (hx : readValue? fuel (skipBlanks value) = some (x, tail)) {more : List Char}
    (htail : skipBlanks tail = ',' :: more) {members : List (Literal × Json)}
    (hmembers : readMembers? fuel more = some (members, rest)) :
    readMembers? (fuel + 1) cs = some ((name, x) :: members, rest) := by
  simp [readMembers?, hcs, hname, hcolon, hx, htail, hmembers]

end Members

/-! ## Values -/

section Induction
variable {style : Style}

theorem skipBlanks_itemChars (hstyle : style.Spaced) (level : Nat) (x : Json) (items : List Json)
    (tail : List Char) :
    skipBlanks (itemChars style level (x :: items) ++ tail) =
      chars style level x ++
        ((if items.isEmpty then [] else ',' :: itemChars style level items) ++ tail) := by
  rw [itemChars, List.append_assoc, List.append_assoc, skipBlanks_append (hstyle.lineBreak level),
    skipBlanks_chars]

theorem skipBlanks_memberChars (hstyle : style.Spaced) (level : Nat) (name : Literal) (x : Json)
    (members : List (Literal × Json)) (tail : List Char) :
    skipBlanks (memberChars style level ((name, x) :: members) ++ tail) =
      '"' :: (name.chars ++ '"' :: (style.colon ++ (chars style level x ++
        ((if members.isEmpty then [] else ',' :: memberChars style level members) ++ tail)))) := by
  simp only [memberChars, literalChars, List.append_assoc, List.cons_append, List.nil_append]
  rw [skipBlanks_append (hstyle.lineBreak level), skipBlanks_cons (by decide)]

mutual
theorem readValue?_chars (hstyle : style.Spaced) (j : Json) (hj : j.WellSpelt) (level fuel : Nat)
    (rest : List Char) (hrest : Numeral.Ends rest)
    (hfuel : 2 * (chars style level j).length ≤ fuel + 1) :
    readValue? fuel (chars style level j ++ rest) = some (j, rest) := by
  obtain ⟨c, cs, hc, -⟩ := chars_eq_cons style level j
  obtain ⟨fuel, rfl⟩ : ∃ k, fuel = k + 1 := by
    rw [hc, List.length_cons] at hfuel
    exact ⟨fuel - 1, by omega⟩
  match j with
  | .null => rfl
  | .bool true => rfl
  | .bool false => rfl
  | .number n => exact readValue?_number n hrest
  | .string s => exact readValue?_literal hj rest
  | .array [] => rfl
  | .object [] => rfl
  | .array (x :: items) =>
    have hlength : 2 * (itemChars style (level + 1) (x :: items)).length ≤ fuel := by
      rw [chars, List.length_append, List.length_append, List.length_cons] at hfuel
      omega
    obtain ⟨c, cs, hc, -, hclose⟩ := chars_eq_cons style (level + 1) x
    rw [chars, List.isEmpty_cons, if_neg Bool.false_ne_true, List.cons_append, List.cons_append,
      List.cons_append, List.append_assoc, List.append_assoc, List.singleton_append,
      readValue?_bracket, readItems?_chars hstyle x items hj.1 hj.2 _ _ _ _
        (hstyle.lineBreak level) hlength]
    · rfl
    · intro rest h
      rw [skipBlanks_itemChars hstyle, hc] at h
      exact hclose (List.cons.inj h).1
  | .object ((name, x) :: members) =>
    have hlength : 2 * (memberChars style (level + 1) ((name, x) :: members)).length ≤ fuel := by
      rw [chars, List.length_append, List.length_append, List.length_cons] at hfuel
      omega
    rw [chars, List.isEmpty_cons, if_neg Bool.false_ne_true, List.cons_append, List.cons_append,
      List.cons_append, List.append_assoc, List.append_assoc, List.singleton_append,
      readValue?_brace, readMembers?_chars hstyle name x members hj.1 hj.2.1 hj.2.2 _ _ _ _
        (hstyle.lineBreak level) hlength]
    · rfl
    · intro rest h
      rw [skipBlanks_memberChars hstyle] at h
      exact absurd (List.cons.inj h).1 (by decide)
termination_by fuel

/-- The items are read up to the closing bracket. -/
theorem readItems?_chars (hstyle : style.Spaced) (x : Json) (items : List Json) (hx : x.WellSpelt)
    (hitems : ItemsWellSpelt items) (level fuel : Nat) (blanks rest : List Char)
    (hblanks : ∀ c ∈ blanks, isBlank c)
    (hfuel : 2 * (itemChars style level (x :: items)).length ≤ fuel) :
    readItems? fuel (itemChars style level (x :: items) ++ (blanks ++ ']' :: rest)) =
      some (x :: items, rest) := by
  have hskip := skipBlanks_itemChars hstyle level x items (blanks ++ ']' :: rest)
  obtain ⟨c, cs, hc, -⟩ := chars_eq_cons style level x
  have hlength : 0 < (chars style level x).length := by rw [hc]; exact Nat.succ_pos _
  rw [itemChars, List.length_append, List.length_append] at hfuel
  obtain ⟨fuel, rfl⟩ : ∃ k, fuel = k + 1 := ⟨fuel - 1, by omega⟩
  match items with
  | [] =>
    have htail : skipBlanks (blanks ++ ']' :: rest) = ']' :: rest := by
      rw [skipBlanks_append hblanks, skipBlanks_cons (by decide)]
    refine readItems?_last ?_ htail
    rw [hskip]
    exact readValue?_chars hstyle x hx level fuel _ (ends_append hblanks (by decide) _) (by omega)
  | y :: items =>
    rw [List.isEmpty_cons, if_neg Bool.false_ne_true, List.length_cons] at hfuel
    have hitems := readItems?_chars hstyle y items hitems.1 hitems.2 level fuel blanks rest hblanks
      (by omega)
    refine readItems?_more ?_ (skipBlanks_cons (c := ',') (by decide) _) hitems
    rw [hskip]
    exact readValue?_chars hstyle x hx level fuel _ (ends_cons (by decide) _) (by omega)
termination_by fuel

/-- The members are read up to the closing brace. -/
theorem readMembers?_chars (hstyle : style.Spaced) (name : Literal) (x : Json)
    (members : List (Literal × Json)) (hname : ∀ g ∈ name, g.WellSpelt) (hx : x.WellSpelt)
    (hmembers : MembersWellSpelt members) (level fuel : Nat) (blanks rest : List Char)
    (hblanks : ∀ c ∈ blanks, isBlank c)
    (hfuel : 2 * (memberChars style level ((name, x) :: members)).length ≤ fuel) :
    readMembers? fuel (memberChars style level ((name, x) :: members) ++
      (blanks ++ '\x7d' :: rest)) = some ((name, x) :: members, rest) := by
  have hskip := skipBlanks_memberChars hstyle level name x members (blanks ++ '\x7d' :: rest)
  obtain ⟨spaces, hspaces, hblank⟩ := hstyle.colon
  rw [hspaces, List.cons_append] at hskip
  have hvalue (tail : List Char) :
      skipBlanks (spaces ++ (chars style level x ++ tail)) = chars style level x ++ tail := by
    rw [skipBlanks_append hblank, skipBlanks_chars]
  obtain ⟨c, cs, hc, -⟩ := chars_eq_cons style level x
  have hlength : 0 < (chars style level x).length := by rw [hc]; exact Nat.succ_pos _
  simp only [memberChars, List.length_append] at hfuel
  obtain ⟨fuel, rfl⟩ : ∃ k, fuel = k + 1 := ⟨fuel - 1, by omega⟩
  match members with
  | [] =>
    have htail : skipBlanks (blanks ++ '\x7d' :: rest) = '\x7d' :: rest := by
      rw [skipBlanks_append hblanks, skipBlanks_cons (by decide)]
    refine readMembers?_last hskip (Literal.read?_chars hname _) (skipBlanks_cons (by decide) _) ?_
      htail
    rw [hvalue]
    exact readValue?_chars hstyle x hx level fuel _ (ends_append hblanks (by decide) _) (by omega)
  | (name', y) :: members =>
    rw [List.isEmpty_cons, if_neg Bool.false_ne_true, List.length_cons] at hfuel
    have hmembers := readMembers?_chars hstyle name' y members hmembers.1 hmembers.2.1 hmembers.2.2
      level fuel blanks rest hblanks (by omega)
    refine readMembers?_more hskip (Literal.read?_chars hname _) (skipBlanks_cons (by decide) _) ?_
      (skipBlanks_cons (c := ',') (by decide) _) hmembers
    rw [hvalue]
    exact readValue?_chars hstyle x hx level fuel _ (ends_cons (by decide) _) (by omega)
termination_by fuel
end
end Induction

/-! ## Whole texts -/

theorem parse?_chars {style : Style} (hstyle : style.Spaced) {j : Json} (hj : j.WellSpelt) :
    parse? (String.ofList (chars style 0 j)) = some j := by
  have hread := readValue?_chars hstyle j hj 0 (2 * (chars style 0 j).length + 1) []
    (fun _ h => absurd h (Option.not_mem_none _)) (by omega)
  have hskip := skipBlanks_chars style 0 j []
  rw [List.append_nil] at hread hskip
  rw [parse?, String.toList_ofList, hskip, hread]
  rfl

/-- A value on one line reads back. -/
theorem parse?_compact {j : Json} (hj : j.WellSpelt) : parse? j.compact = some j :=
  parse?_chars Style.spaced_compact hj

/-- A value over several lines reads back. -/
theorem parse?_indented {j : Json} (hj : j.WellSpelt) : parse? j.indented = some j :=
  parse?_chars Style.spaced_indented hj

/-! ## What codecs need of a text layer -/

/-- Text is read as the value that it was written for, and so is the numeral of a double. Only
finite doubles have numerals, and only finite doubles are read. -/
class TextLayer.Lawful [TextLayer] : Prop where
  read?_line : ∀ {j : Json}, j.WellSpelt → read? (line j) = some j
  read?_lines : ∀ {j : Json}, j.WellSpelt → read? (lines j) = some j
  isSome_numeral? : ∀ x : Float, (numeral? x).isSome = x.isFinite
  double?_numeral? : ∀ {x : Float} {n : Numeral}, numeral? x = some n → double? n = some x
  isFinite_of_double? : ∀ {x : Float} {n : Numeral}, double? n = some x → x.isFinite
  /-- Natural numbers that a double holds exactly are within the range. -/
  isSome_double?_ofNat : ∀ {n : Nat}, n < 2 ^ 53 → (double? (.ofNat n)).isSome

instance : TextLayer.Lawful where
  read?_line := parse?_compact
  read?_lines := parse?_indented
  isSome_numeral? := isSome_numeral?
  double?_numeral? := toDouble?_numeral?
  isFinite_of_double? := isFinite_of_toDouble?
  isSome_double?_ofNat := Decimal.isSome_toDouble?_ofNat

end MovingTarget.Json
