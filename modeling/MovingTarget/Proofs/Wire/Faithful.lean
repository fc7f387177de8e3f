import MovingTarget.Proofs.Json.Text
import MovingTarget.Proofs.Tables
import MovingTarget.Vocabulary
/-!
# What comes back from the wire

A type is faithful if the values that come back from the wire are those all of whose doubles are
finite, unchanged, and if nothing else is ever read (`Faithful`). Doubles are faithful over a text
layer that is lawful, the only thing that is asked of it here. Faithfulness passes from keys and
values to tables and from items to lists; for records there are lemmas that take the fields one at a
time.
-/
namespace MovingTarget

/-! ## Names and keys -/

/-- A vocabulary in which every name is found again. -/
class Vocabulary.Distinct (ε : Type) [Vocabulary ε] : Prop where
  ofName?_name : ∀ e : ε, ofName? (name e) = some e

theorem Vocabulary.bind_text?_name {ε : Type} [Vocabulary ε] [Vocabulary.Distinct ε] (e : ε) :
    (Json.Literal.ofString (name e)).text?.bind ofName? = some e := by
  rw [Json.Literal.text?_ofString]
  exact Vocabulary.Distinct.ofName?_name e

/-- Keys whose names can be written and are found again. -/
class Wire.FaithfulKey (κ : Type) [Wire.Key κ] : Prop where
  ofName?_name : ∀ k : κ, Key.ofName? (Key.name k) = some k
  wellSpelt_name : ∀ k : κ, ∀ g ∈ Key.name k, g.WellSpelt

namespace Wire
open Json

instance : FaithfulKey String where
  ofName?_name := Literal.text?_ofString
  wellSpelt_name := Literal.wellSpelt_ofString

theorem mapM_plain {f : Glyph → Option Decimal.Digit}
    (hf : ∀ c, f (.plain c) = Decimal.Digit.ofChar? c) (ds : List Decimal.Digit) :
    (ds.map fun d => Glyph.plain d.char).mapM f = some ds := by
  induction ds with
  | nil => rfl
  | cons d ds ih =>
    rw [List.map_cons, List.mapM_cons, ih, hf, Decimal.Digit.ofChar?_char]
    rfl

/-- Plain digits name the number that they are the digits of. -/
theorem plainNat?_digits (n : Nat) :
    plainNat? ((Decimal.digits n).map fun d => .plain d.char) = some n := by
  rw [plainNat?, mapM_plain fun _ => rfl]
  simp [Decimal.ofDigits_digits]

instance : FaithfulKey UInt32 where
  ofName?_name n := by
    change (plainNat? ((Decimal.digits n.toNat).map fun d => .plain d.char) >>= fun k =>
      if k < UInt32.size then some (UInt32.ofNat k) else none) = some n
    rw [plainNat?_digits]
    simp [n.toNat_lt_size]
  wellSpelt_name n g hg := by
    obtain ⟨d, -, rfl⟩ := List.mem_map.1 hg
    have hall : ∀ d : Decimal.Digit, (Glyph.plain d.char).WellSpelt := by
      unfold Glyph.WellSpelt
      decide
    exact hall d

/-! ## Faithful types -/

/-- The values that come back from the wire are those all of whose doubles are finite, and whatever
comes from the wire is such a value. -/
class Faithful (β : Type) [Wire β] where
  /-- Every double in the value is finite. -/
  Finite : β → Prop
  decode?_encode : ∀ {x y : β}, decode? (encode x) = some y ↔ Finite x ∧ x = y
  finite_of_decode? : ∀ {j : Json} {x : β}, decode? j = some x → Finite x
  wellSpelt : ∀ x : β, (encode x).WellSpelt

export Faithful (Finite)

theorem natBelow?_count {bound n : Nat} (h : n < bound) : natBelow? bound (.count n) = some n := by
  simp [natBelow?, Json.count, h]

instance : Faithful UInt32 where
  Finite _ := True
  decode?_encode {x y} := by
    have hx : decode? (encode x) = some x := by
      change (natBelow? UInt32.size (.count x.toNat)).map UInt32.ofNat = _
      rw [natBelow?_count x.toNat_lt_size, Option.map_some, UInt32.ofNat_toNat]
    rw [hx, Option.some_inj, true_and]
  finite_of_decode? _ := trivial
  wellSpelt _ := trivial

instance : Faithful UInt64 where
  Finite _ := True
  decode?_encode {x y} := by
    have hx : decode? (encode x) = some x := by
      change (natBelow? UInt64.size (.count x.toNat)).map UInt64.ofNat = _
      rw [natBelow?_count x.toNat_lt_size, Option.map_some, UInt64.ofNat_toNat]
    rw [hx, Option.some_inj, true_and]
  finite_of_decode? _ := trivial
  wellSpelt _ := trivial

instance : Faithful String where
  Finite _ := True
  decode?_encode {x y} := by
    change (Literal.ofString x).text? = some y ↔ _
    rw [Literal.text?_ofString, Option.some_inj, true_and]
  finite_of_decode? _ := trivial
  wellSpelt := Literal.wellSpelt_ofString

instance {ε : Type} [Vocabulary ε] [Vocabulary.Distinct ε] : Faithful ε where
  Finite _ := True
  decode?_encode {x y} := by
    change (Literal.ofString (Vocabulary.name x)).text?.bind Vocabulary.ofName? = some y ↔ _
    rw [Vocabulary.bind_text?_name, Option.some_inj, true_and]
  finite_of_decode? _ := trivial
  wellSpelt x := Literal.wellSpelt_ofString (Vocabulary.name x)

section Doubles
variable [TextLayer]

theorem encode_of_numeral? {x : Float} {n : Numeral} (h : TextLayer.numeral? x = some n) :
    encode x = .number n := by
  simp only [encode, h]

theorem encode_of_numeral?_eq_none {x : Float} (h : TextLayer.numeral? x = none) :
    encode x = .null := by
  simp only [encode, h]

variable [TextLayer.Lawful]

/-- A double comes back with its sign and all its bits. -/
instance : Faithful Float where
  Finite x := x.isFinite
  decode?_encode {x y} := by
    have hfinite := TextLayer.Lawful.isSome_numeral? x
    cases hx : TextLayer.numeral? x with
    | none =>
      rw [hx] at hfinite
      rw [encode_of_numeral?_eq_none hx]
      change none = some y ↔ _
      simp [← hfinite]
    | some n =>
      rw [hx] at hfinite
      rw [encode_of_numeral? hx]
      change TextLayer.double? n = some y ↔ _
      simp [TextLayer.Lawful.double?_numeral? hx, ← hfinite]
  finite_of_decode? {j x} h := by
    cases j with
    | number n => exact TextLayer.Lawful.isFinite_of_double? h
    | _ => cases h
  wellSpelt x := by
    cases hx : TextLayer.numeral? x with
    | none => exact encode_of_numeral?_eq_none hx ▸ trivial
    | some n => exact encode_of_numeral? hx ▸ trivial

@[simp] theorem finite_float {x : Float} : Finite x ↔ x.isFinite := Iff.rfl

theorem finite_zero : Finite (0.0 : Float) := by
  rw [finite_float]
  decide

theorem finite_one : Finite (1.0 : Float) := by
  rw [finite_float]
  decide

end Doubles

@[simp] theorem finite_uint32 (n : UInt32) : Finite n := trivial

@[simp] theorem finite_uint64 (n : UInt64) : Finite n := trivial

@[simp] theorem finite_string (s : String) : Finite s := trivial

@[simp] theorem finite_vocabulary {ε : Type} [Vocabulary ε] [Vocabulary.Distinct ε] (e : ε) :
    Finite e := trivial

/-- What is read of a value that was written is the value itself. -/
theorem bind_decode?_encode {β γ : Type} [Wire β] [Faithful β] {x : β} {k : β → Option γ} {y : γ} :
    (decode? (encode x)).bind k = some y ↔ Finite x ∧ k x = some y := by
  rw [Option.bind_eq_some_iff]
  constructor
  · rintro ⟨x', hx', hk⟩
    obtain ⟨hx, rfl⟩ := Faithful.decode?_encode.1 hx'
    exact ⟨hx, hk⟩
  · rintro ⟨hx, hk⟩
    exact ⟨x, Faithful.decode?_encode.2 ⟨hx, rfl⟩, hk⟩

/-! ## Lists -/

section Lists
variable {β : Type} [Wire β] [Faithful β]

theorem decodeItems?_map_encode {xs ys : List β} :
    decodeItems? (xs.map encode) = some ys ↔ (∀ x ∈ xs, Finite x) ∧ xs = ys := by
  induction xs generalizing ys with
  | nil => simp [decodeItems?]
  | cons x xs ih =>
    simp only [List.map_cons, decodeItems?, Option.bind_eq_bind, List.forall_mem_cons]
    rw [bind_decode?_encode, Option.bind_eq_some_iff]
    simp only [ih]
    constructor
    · rintro ⟨hx, _, ⟨hxs, rfl⟩, heq⟩
      exact ⟨⟨hx, hxs⟩, Option.some.inj heq⟩
    · rintro ⟨⟨hx, hxs⟩, rfl⟩
      exact ⟨hx, xs, ⟨hxs, rfl⟩, rfl⟩

theorem finite_of_decodeItems? {items : List Json} {xs : List β}
    (h : decodeItems? items = some xs) : ∀ x ∈ xs, Finite x := by
  induction items generalizing xs with
  | nil =>
    cases h
    simp
  | cons j items ih =>
    simp only [decodeItems?, Option.bind_eq_bind, Option.bind_eq_some_iff] at h
    obtain ⟨x, hx, rest, hrest, heq⟩ := h
    cases heq
    exact List.forall_mem_cons.2 ⟨Faithful.finite_of_decode? hx, ih hrest⟩

theorem itemsWellSpelt_map_encode (xs : List β) : ItemsWellSpelt (xs.map encode) := by
  induction xs with
  | nil => trivial
  | cons x xs ih => exact ⟨Faithful.wellSpelt x, ih⟩

instance : Faithful (List β) where
  Finite xs := ∀ x ∈ xs, Finite x
  decode?_encode := decodeItems?_map_encode
  finite_of_decode? {j _} h := by
    cases j with
    | array items => exact finite_of_decodeItems? h
    | _ => cases h
  wellSpelt := itemsWellSpelt_map_encode

@[simp] theorem finite_list {xs : List β} : Finite xs ↔ ∀ x ∈ xs, Finite x := Iff.rfl

end Lists

/-! ## Tables -/

section Tables
variable {κ ν : Type} [Key κ] [Wire ν] [Faithful ν]

theorem decodeEntries?_map [FaithfulKey κ] {l l' : List (κ × ν)} :
    decodeEntries? (l.map fun e => (Key.name e.1, encode e.2)) = some l' ↔
      (∀ e ∈ l, Finite e.2) ∧ l = l' := by
  induction l generalizing l' with
  | nil => simp [decodeEntries?]
  | cons e l ih =>
    simp only [List.map_cons, decodeEntries?, FaithfulKey.ofName?_name, Option.bind_eq_bind,
      Option.bind_some, List.forall_mem_cons]
    rw [bind_decode?_encode, Option.bind_eq_some_iff]
    simp only [ih]
    constructor
    · rintro ⟨hx, _, ⟨hl, rfl⟩, heq⟩
      exact ⟨⟨hx, hl⟩, Option.some.inj heq⟩
    · rintro ⟨⟨hx, hl⟩, rfl⟩
      exact ⟨hx, l, ⟨hl, rfl⟩, rfl⟩

theorem finite_of_decodeEntries? {members : List (Literal × Json)} {l : List (κ × ν)}
    (h : decodeEntries? members = some l) : ∀ e ∈ l, Finite e.2 := by
  induction members generalizing l with
  | nil =>
    cases h
    simp
  | cons m members ih =>
    simp only [decodeEntries?, Option.bind_eq_bind, Option.bind_eq_some_iff] at h
    obtain ⟨k, -, x, hx, rest, hrest, heq⟩ := h
    cases heq
    exact List.forall_mem_cons.2 ⟨Faithful.finite_of_decode? hx, ih hrest⟩

theorem membersWellSpelt_map [FaithfulKey κ] (l : List (κ × ν)) :
    MembersWellSpelt (l.map fun e => (Key.name e.1, encode e.2)) := by
  induction l with
  | nil => trivial
  | cons e l ih =>
    exact ⟨FaithfulKey.wellSpelt_name e.1, Faithful.wellSpelt e.2, ih⟩

variable [LT κ] [DecidableLT κ] [LE κ] [Std.IsLinearOrder κ] [Std.LawfulOrderLT κ] [DecidableEq κ]

instance [FaithfulKey κ] : Faithful (Table κ ν) where
  Finite t := ∀ e ∈ t.entries, Finite e.2
  decode?_encode {t u} := by
    change (decodeEntries? _).map Table.ofList = some u ↔ _
    rw [Option.map_eq_some_iff]
    constructor
    · rintro ⟨l, hl, rfl⟩
      obtain ⟨hfinite, rfl⟩ := decodeEntries?_map.1 hl
      exact ⟨hfinite, (Table.ofList_entries t).symm⟩
    · rintro ⟨hfinite, rfl⟩
      exact ⟨t.entries, decodeEntries?_map.2 ⟨hfinite, rfl⟩, Table.ofList_entries t⟩
  finite_of_decode? {j t} h := by
    cases j with
    | object members =>
      obtain ⟨l, hl, rfl⟩ := Option.map_eq_some_iff.1 h
      exact fun e he => finite_of_decodeEntries? hl e (Table.mem_of_mem_ofList he)
    | _ => cases h
  wellSpelt t := membersWellSpelt_map t.entries

@[simp] theorem finite_table [FaithfulKey κ] {t : Table κ ν} :
    Finite t ↔ ∀ x ∈ t.values, Finite x := List.forall_mem_map.symm

theorem finite_empty [FaithfulKey κ] : Finite (∅ : Table κ ν) :=
  fun _ h => absurd h List.not_mem_nil

end Tables

/-! ## Records -/

theorem namedMembers?_record (members : List (String × Json)) :
    namedMembers? (members.map fun m => (.ofString m.1, m.2)) = some members := by
  induction members with
  | nil => rfl
  | cons m members ih =>
    rw [List.map_cons, namedMembers?, Literal.text?_ofString, ih]
    rfl

/-- A record with all its fields, each of them once, gives these fields. -/
theorem bind_fields?_record {γ : Type} {names : List String} {members : List (String × Json)}
    {k : List (String × Json) → Option γ} {y : γ} (hnames : members.map (·.1) = names)
    (hnodup : names.Nodup) :
    (fields? names (.record members) >>= k) = some y ↔ k members = some y := by
  subst hnames
  have hknown : (members.filter fun m => (members.map (·.1)).contains m.1) = members := by
    refine List.filter_eq_self.2 fun m hm => ?_
    rw [List.contains_iff_mem]
    exact List.mem_map_of_mem hm
  have hgiven : fields? (members.map (·.1)) (.record members) = some members := by
    rw [Json.record, fields?, namedMembers?_record]
    simp only [Option.bind_eq_bind, Option.bind_some]
    rw [hknown, if_pos hnodup]
  rw [hgiven]
  rfl

/-- A field that was written is read as itself. -/
theorem bind_fieldOr?_encode {β γ : Type} [Wire β] [Faithful β] {given : List (String × Json)}
    {name : String} {preset x : β} {k : β → Option γ} {y : γ}
    (h : given.lookup name = some (encode x)) :
    (fieldOr? given name preset >>= k) = some y ↔ Finite x ∧ k x = some y := by
  rw [fieldOr?, h]
  exact bind_decode?_encode

theorem wellSpelt_record {members : List (String × Json)} (h : ∀ m ∈ members, m.2.WellSpelt) :
    (Json.record members).WellSpelt := by
  change MembersWellSpelt _
  induction members with
  | nil => trivial
  | cons m members ih =>
    obtain ⟨hm, hmembers⟩ := List.forall_mem_cons.1 h
    exact ⟨Literal.wellSpelt_ofString m.1, hm, ih hmembers⟩

/-- A field that is read is finite if its preset is. -/
theorem finite_of_fieldOr? {β : Type} [Wire β] [Faithful β] {given : List (String × Json)}
    {name : String} {preset x : β} (hpreset : Finite preset)
    (h : fieldOr? given name preset = some x) : Finite x := by
  rw [fieldOr?] at h
  split at h
  · cases h
    exact hpreset
  · exact Faithful.finite_of_decode? h

end Wire
end MovingTarget
