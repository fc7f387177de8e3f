import MovingTarget.Decision.Codec
import MovingTarget.Proofs.Wire.Faithful
/-!
# Decisions come back from their object

The members of a decision can stand in any order and among any others: as long as the others bear
none of its names and can be held, the decision comes back if and only if its double, where it has
one, is finite (`Decision.decode?_object`, `Decision.comes_back_among`). Of the text layer only its
laws are used.
-/
namespace MovingTarget
open Wire

/-! ## Objects that are held -/

namespace Json

theorem membersDepth_le_iff {members : List (Literal × Json)} {room : Nat} :
    membersDepth members ≤ room ↔ ∀ m ∈ members, m.2.depth ≤ room := by
  induction members with
  | nil => simp [membersDepth]
  | cons m members ih => rw [membersDepth, max_le_iff, ih, List.forall_mem_cons]

theorem isSome_text?_ofString (s : String) : (Literal.ofString s).text?.isSome := by
  rw [Literal.text?_ofString]
  rfl

section Held
variable [TextLayer]

/-- A value that can be held where it may be nested at most `room` deep. -/
def Held (room : Nat) (j : Json) : Prop := j.depth ≤ room ∧ j.storable

theorem membersStorable_iff {members : List (Literal × Json)} :
    membersStorable members ↔ ∀ m ∈ members, m.1.text?.isSome ∧ m.2.storable := by
  induction members with
  | nil => simp [membersStorable]
  | cons m members ih =>
    rw [membersStorable, Bool.and_eq_true, Bool.and_eq_true, ih, List.forall_mem_cons]

theorem held_object {members : List (Literal × Json)} {room : Nat}
    (h : ∀ m ∈ members, m.1.text?.isSome ∧ m.2.Held room) : (object members).Held (room + 1) := by
  refine ⟨?_, membersStorable_iff.2 fun m hm => ⟨(h m hm).1, (h m hm).2.2⟩⟩
  rw [depth]
  exact Nat.succ_le_succ (membersDepth_le_iff.2 fun m hm => (h m hm).2.1)

theorem held_text (s : String) (room : Nat) : (text s).Held room :=
  ⟨Nat.zero_le room, isSome_text?_ofString s⟩

theorem held_texts (t : Table String String) (room : Nat) : (encode t).Held (room + 1) := by
  refine held_object fun m hm => ?_
  obtain ⟨entry, -, rfl⟩ := List.mem_map.1 hm
  exact ⟨isSome_text?_ofString entry.1, held_text entry.2 room⟩

variable [TextLayer.Lawful]

theorem held_uint32 (n : UInt32) (room : Nat) : (encode n).Held room :=
  ⟨Nat.zero_le room,
    TextLayer.Lawful.isSome_double?_ofNat (n.toNat_lt_size.trans (by decide))⟩

/-- Every double is held: one that is no finite number is null. -/
theorem held_double (x : Float) (room : Nat) : (encode x).Held room := by
  cases hx : TextLayer.numeral? x with
  | none =>
    rw [encode_of_numeral?_eq_none hx]
    exact ⟨Nat.zero_le room, rfl⟩
  | some n =>
    rw [encode_of_numeral? hx]
    refine ⟨Nat.zero_le room, ?_⟩
    rw [storable, TextLayer.Lawful.double?_numeral? hx]
    rfl

end Held

/-- The member under the text that its name writes, if that is one. -/
def named (m : Literal × Json) : String × Json := (m.1.text?.getD "", m.2)

theorem named_ofString (name : String) (x : Json) : named (.ofString name, x) = (name, x) := by
  rw [named, Literal.text?_ofString]
  rfl

theorem namedMembers?_of_texts {members : List (Literal × Json)}
    (h : ∀ m ∈ members, m.1.text?.isSome) : namedMembers? members = some (members.map named) := by
  induction members with
  | nil => rfl
  | cons m members ih =>
    obtain ⟨hm, hmembers⟩ := List.forall_mem_cons.1 h
    obtain ⟨name, hname⟩ := Option.isSome_iff_exists.1 hm
    rw [namedMembers?, ih hmembers, List.map_cons, named, hname]
    rfl

end Json

instance : Vocabulary.Distinct ShuffleMode where
  ofName?_name m := by cases m <;> rfl

namespace Wire
variable {γ : Type} {given : List (String × Json)} {name : String} {y : γ}

/-- A field that was written and has to be given is read as itself. -/
theorem bind_field?_encode {β : Type} [Wire β] [Faithful β] {x : β} {k : β → Option γ}
    (h : given.lookup name = some (encode x)) :
    (field? given name >>= k) = some y ↔ Finite x ∧ k x = some y := by
  rw [field?, h]
  exact bind_decode?_encode

theorem bind_heldMode?_encode {mode : ShuffleMode} {k : ShuffleMode → Option γ}
    (h : given.lookup name = some (encode mode)) :
    (Decision.heldMode? given name >>= k) = some y ↔ k mode = some y := by
  have hmode : Decision.heldMode? given name = some mode := by
    rw [Decision.heldMode?, h]
    exact Vocabulary.bind_text?_name mode
  rw [hmode]
  rfl

end Wire

/-- A member that decisions with this action pass over: it bears none of their names, and it can be
held. -/
structure Action.Foreign [Json.TextLayer] (a : Action) (m : Json.Literal × Json) : Prop where
  name : ∃ s, m.1.text? = some s ∧ s ∉ "action" :: a.fieldNames
  held : m.2.Held (Decision.depthLimit - 1)

namespace Decision

def Finite : Decision Float → Prop
  | updateScore _ score _ => score.isFinite
  | changeFrequency _ interval _ => interval.isFinite
  | _ => True

theorem nodup_names (a : Action) : ("action" :: a.fieldNames).Nodup := by
  cases a <;> decide

section Layer
variable [Json.TextLayer] {d e : Decision Float}

/-- The fields of a decision, in the order in which they are written. -/
def fields (d : Decision Float) : List (String × Json) := d.action.fieldNames.zip d.fieldValues

theorem map_fst_fields (d : Decision Float) : d.fields.map (·.1) = d.action.fieldNames := by
  cases d <;> rfl

/-- The members of a decision, the tag first. -/
def members (d : Decision Float) : List (Json.Literal × Json) :=
  (("action", .text d.action.tag) :: d.fields).map fun m => (.ofString m.1, m.2)

theorem map_named_members (d : Decision Float) :
    d.members.map Json.named = ("action", .text d.action.tag) :: d.fields := by
  rw [members, List.map_map]
  exact List.map_id'' (fun m => Json.named_ofString m.1 m.2) _

/-! ## Objects with other members -/

section Among
variable {foreign all : List (Json.Literal × Json)}

/-- Of all members, a test that only names of the decision pass picks members of the decision. -/
theorem filter_among (hforeign : ∀ m ∈ foreign, d.action.Foreign m)
    (hall : all.Perm (d.members ++ foreign)) (test : String → Bool)
    (htest : ∀ s, test s → s ∈ "action" :: d.action.fieldNames) :
    ((all.map Json.named).filter fun m => test m.1).Perm
      ((("action", .text d.action.tag) :: d.fields).filter fun m => test m.1) := by
  have hnone : ((foreign.map Json.named).filter fun m => test m.1) = [] := by
    refine List.filter_eq_nil_iff.2 fun named hnamed hpass => ?_
    obtain ⟨m, hm, rfl⟩ := List.mem_map.1 hnamed
    obtain ⟨⟨s, hs, hnot⟩, -⟩ := hforeign m hm
    rw [Json.named, hs] at hpass
    exact hnot (htest s hpass)
  have hperm := (hall.map Json.named).filter fun m => test m.1
  rwa [List.map_append, List.filter_append, hnone, List.append_nil, map_named_members] at hperm

theorem filter_tag (hforeign : ∀ m ∈ foreign, d.action.Foreign m)
    (hall : all.Perm (d.members ++ foreign)) :
    ((all.map Json.named).filter fun m => m.1 == "action") = [("action", .text d.action.tag)] := by
  have htag := (List.nodup_cons.1 (nodup_names d.action)).1
  have hnone : (d.fields.filter fun m => m.1 == "action") = [] := by
    refine List.filter_eq_nil_iff.2 fun m hm hname => htag ?_
    rw [← map_fst_fields, ← beq_iff_eq.1 hname]
    exact List.mem_map_of_mem hm
  have hperm := filter_among hforeign hall (· == "action")
    fun s hs => List.mem_cons.2 (.inl (beq_iff_eq.1 hs))
  rw [List.filter_cons_of_pos rfl, hnone] at hperm
  exact List.perm_singleton.1 hperm

theorem filter_fields (hforeign : ∀ m ∈ foreign, d.action.Foreign m)
    (hall : all.Perm (d.members ++ foreign)) :
    ((all.map Json.named).filter fun m => d.action.fieldNames.contains m.1).Perm d.fields := by
  have htag := (List.nodup_cons.1 (nodup_names d.action)).1
  have hfields : (d.fields.filter fun m => d.action.fieldNames.contains m.1) = d.fields := by
    refine List.filter_eq_self.2 fun m hm => List.contains_iff_mem.2 ?_
    rw [← map_fst_fields]
    exact List.mem_map_of_mem hm
  have hperm := filter_among hforeign hall d.action.fieldNames.contains
    fun s hs => List.mem_cons_of_mem _ (List.contains_iff_mem.1 hs)
  rwa [List.filter_cons_of_neg (by rwa [List.contains_iff_mem]), hfields] at hperm

end Among

/-! ## Decisions come back -/

variable [Json.TextLayer.Lawful]

theorem ofFields?_eq_some_iff {given : List (String × Json)}
    (h : ∀ name, given.lookup name = d.fields.lookup name) :
    ofFields? d.action given = some e ↔ d.Finite ∧ d = e := by
  cases d with
  | noAction => simp [ofFields?, action, Finite]
  | triggerShuffle domain mode reason =>
    refine (bind_field?_encode (h "domain_id")).trans ?_
    rw [bind_heldMode?_encode (h "mode"), bind_field?_encode (h "reason")]
    simp [Finite]
  | migrateUser user domain reason =>
    refine (bind_field?_encode (h "user_id")).trans ?_
    rw [bind_field?_encode (h "domain_id"), bind_field?_encode (h "reason")]
    simp [Finite]
  | splitDomain domain reason =>
    refine (bind_field?_encode (h "domain_id")).trans ?_
    rw [bind_field?_encode (h "reason")]
    simp [Finite]
  | mergeDomains domain secondary reason =>
    refine (bind_field?_encode (h "domain_id")).trans ?_
    rw [bind_field?_encode (h "secondary_domain_id"), bind_field?_encode (h "reason")]
    simp [Finite]
  | updateScore user score reason =>
    refine (bind_field?_encode (h "user_id")).trans ?_
    rw [bind_field?_encode (h "new_score"), bind_field?_encode (h "reason")]
    simp [Finite]
  | changeFrequency domain interval reason =>
    refine (bind_field?_encode (h "domain_id")).trans ?_
    rw [bind_field?_encode (h "new_frequency"), bind_field?_encode (h "reason")]
    simp [Finite]
  | custom params reason =>
    refine (bind_field?_encode (h "params")).trans ?_
    rw [bind_field?_encode (h "reason")]
    simp [Finite]

theorem held_fieldValues (d : Decision Float) (room : Nat) :
    ∀ x ∈ d.fieldValues, x.Held (room + 1) := by
  have htext (s : String) : (encode s).Held (room + 1) := Json.held_text s _
  cases d <;>
    simp only [fieldValues, List.forall_mem_cons, Json.held_uint32, Json.held_double,
      Json.held_texts, htext, List.not_mem_nil, false_implies, implies_true, and_true, true_and]
  case triggerShuffle mode _ => exact Json.held_text (Vocabulary.name mode) _

theorem held_of_mem_members {m : Json.Literal × Json} (h : m ∈ d.members) :
    m.1.text?.isSome ∧ m.2.Held (depthLimit - 1) := by
  obtain ⟨⟨name, x⟩, hx, rfl⟩ := List.mem_map.1 h
  refine ⟨Json.isSome_text?_ofString name, ?_⟩
  rcases List.mem_cons.1 hx with heq | hx
  · cases heq
    exact Json.held_text _ _
  · exact held_fieldValues d _ _ (List.of_mem_zip hx).2

section Among
variable {foreign all : List (Json.Literal × Json)}

theorem held_among (hforeign : ∀ m ∈ foreign, d.action.Foreign m)
    (hall : all.Perm (d.members ++ foreign)) :
    ∀ m ∈ all, m.1.text?.isSome ∧ m.2.Held (depthLimit - 1) := by
  intro m hm
  rcases List.mem_append.1 (hall.mem_iff.1 hm) with hm | hm
  · exact held_of_mem_members hm
  · obtain ⟨⟨s, hs, -⟩, hheld⟩ := hforeign m hm
    exact ⟨by rw [hs]; rfl, hheld⟩

/-- Whatever stands among the members of a decision and in whatever order, the object is read as the
decision itself, if its double is finite, or not at all. -/
theorem decode?_object (hforeign : ∀ m ∈ foreign, d.action.Foreign m)
    (hall : all.Perm (d.members ++ foreign)) :
    Wire.decode? (.object all) = some e ↔ d.Finite ∧ d = e := by
  have hheld := held_among hforeign hall
  obtain ⟨hdepth, hstorable⟩ : (Json.object all).Held depthLimit := Json.held_object hheld
  have hnamed := Json.namedMembers?_of_texts fun m hm => (hheld m hm).1
  have htag : tag? (.text d.action.tag) = some d.action := by
    change (Json.Literal.ofString d.action.tag).text?.bind Action.ofTag? = _
    rw [Json.Literal.text?_ofString, Option.bind_some, Action.ofTag?_tag]
  have hperm := filter_fields hforeign hall
  have hnames : (d.fields.map (·.1)).Nodup := by
    rw [map_fst_fields]
    exact (List.nodup_cons.1 (nodup_names d.action)).2
  have hnodup := (hperm.map (·.1)).nodup_iff.2 hnames
  change ofJson? depthLimit (.object all) = some e ↔ _
  rw [ofJson?, if_pos (by rw [Bool.and_eq_true, decide_eq_true_iff]; exact ⟨hdepth, hstorable⟩)]
  simp only [hnamed, Option.bind_eq_bind, Option.bind_some, filter_tag hforeign hall, htag,
    Json.fields?, if_pos hnodup]
  exact ofFields?_eq_some_iff fun name => Table.lookup_perm hperm hnodup name

end Among

theorem decode?_encode : Wire.decode? (encode d) = some e ↔ d.Finite ∧ d = e := by
  have hall : d.members.Perm (d.members ++ []) := by rw [List.append_nil]
  exact decode?_object (fun _ hm => absurd hm List.not_mem_nil) hall

theorem wellSpelt (d : Decision Float) : (encode d).WellSpelt := by
  refine wellSpelt_record (List.forall_mem_cons.2 ⟨Json.Literal.wellSpelt_ofString _, ?_⟩)
  intro m hm
  have hvalues : ∀ x ∈ d.fieldValues, x.WellSpelt := by
    cases d <;> simp [fieldValues, Faithful.wellSpelt]
  exact hvalues _ (List.of_mem_zip hm).2

/-- A decision is written under the name of its action with just the fields of that action. Over any
lawful text layer its members can then be reordered and set among foreign ones: the decision comes
back, unchanged, if its double is finite, and otherwise not at all. No other decision is written as
one with a finite double is. -/
theorem comes_back_among (d : Decision Float) :
    encode d = .record (("action", .text (Vocabulary.name d.action)) :: d.fields) ∧
      d.fields.map (·.1) = d.action.fieldNames ∧
      (∀ own foreign all, encode d = .object own → (∀ m ∈ foreign, d.action.Foreign m) →
        all.Perm (own ++ foreign) →
          (d.Finite → decode? (.object all) = some d) ∧
            (¬ d.Finite → (decode? (.object all) : Option (Decision Float)) = none)) ∧
      (d.Finite → ∀ e : Decision Float,
        Json.TextLayer.line (encode e) = Json.TextLayer.line (encode d) → e = d) := by
  refine ⟨by rw [← Action.tag_eq_name]; rfl, map_fst_fields d,
    fun own foreign all hown hforeign hall => ?_, fun hd e he => ?_⟩
  · cases hown
    refine ⟨fun hd => (decode?_object hforeign hall).2 ⟨hd, rfl⟩, fun hd => ?_⟩
    exact Option.eq_none_iff_forall_ne_some.2 fun e he => hd ((decode?_object hforeign hall).1 he).1
  · have hsame : encode e = encode d := by
      have := Json.TextLayer.Lawful.read?_line (wellSpelt e)
      rwa [he, Json.TextLayer.Lawful.read?_line (wellSpelt d), Option.some_inj, eq_comm] at this
    have hback := decode?_encode.2 ⟨hd, rfl⟩
    rw [← hsame] at hback
    exact (decode?_encode.1 hback).2

end Layer

/-- The tag can come last, behind the fields and a member that no decision has. -/
theorem comes_back_tag_last :
    let slower : Decision Float := .changeFrequency 3 2.5 "quiet"
    let endless : Decision Float := .changeFrequency 3 (1.0 / 0.0) "quiet"
    decode? (.record [("note", .array [.bool true, .null]), ("reason", .text "quiet"),
        ("new_frequency", encode (2.5 : Float)), ("domain_id", .count 3),
        ("action", .text "CHANGE_FREQUENCY")]) = some slower ∧
      (decode? (encode endless) : Option (Decision Float)) = none := by
  intro slower endless
  let note : Json.Literal × Json := (.ofString "note", .array [.bool true, .null])
  constructor
  · have hforeign : ∀ m ∈ [note], slower.action.Foreign m := by
      intro m hm
      rw [List.mem_singleton] at hm
      subst hm
      exact ⟨⟨"note", Json.Literal.text?_ofString _, by decide⟩, by decide, by decide⟩
    have hall : (note :: slower.members.reverse).Perm (slower.members ++ [note]) :=
      ((List.reverse_perm _).cons note).trans (List.perm_append_singleton note _).symm
    have hfinite : slower.Finite := by
      change (2.5 : Float).isFinite
      decide
    have htag : slower.action.tag = "CHANGE_FREQUENCY" := Action.tag_eq_name _
    have hback := ((comes_back_among slower).2.2.1 _ _ _ rfl hforeign hall).1 hfinite
    rw [members, htag] at hback
    exact hback
  · have hall : endless.members.Perm (endless.members ++ []) := by rw [List.append_nil]
    have hnot : ¬ endless.Finite := by
      change ¬ (1.0 / 0.0 : Float).isFinite
      decide
    exact ((comes_back_among endless).2.2.1 _ _ _ rfl (by simp) hall).2 hnot

end Decision
end MovingTarget
