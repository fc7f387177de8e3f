import MovingTarget.Proofs.Settings.Fields
import MovingTarget.Proofs.Wire.Settings
/-!
# Documents that give some of the settings

A document may give any fields of the settings and leave out the others, in any order and among
members under names that nobody knows. An object that lists some items like this is told apart
member by member (`Lists`); what its reader finds under the known names are the items and nothing
else (`Lists.exists_found`). So every field given is taken over, and every other one is preset,
whether its section is there or not (`Settings.document_overlays_presets`).
-/
namespace MovingTarget
open Wire

/-! ## Objects that list some items -/

namespace Json
variable {ι : Type} [DecidableEq ι] {name : ι → String} {known : List String}
  {May : ι → Json → Prop} {items : Finset ι} {members : List (Literal × Json)}

/-- The members of an object are one for each of some items, with a value that it may have, and
others under names that are not known. They stand in any order, and a name is spelt in any way. -/
inductive Lists (name : ι → String) (known : List String) (May : ι → Json → Prop) :
    Finset ι → List (Literal × Json) → Prop where
  | nil : Lists name known May ∅ []
  | item {items members l j} (i : ι) (hname : l.text? = some (name i)) (hvalue : May i j)
      (hnew : i ∉ items) (hrest : Lists name known May items members) :
      Lists name known May (insert i items) ((l, j) :: members)
  | foreign {items members l j} (t : String) (hname : l.text? = some t) (hunknown : t ∉ known)
      (hrest : Lists name known May items members) : Lists name known May items ((l, j) :: members)

/-- The values found for some items by their names, and for no others. -/
structure Found (name : ι → String) (May : ι → Json → Prop) (items : Finset ι)
    (given : List (String × Json)) : Prop where
  present : ∀ i ∈ items, ∃ j, given.lookup (name i) = some j ∧ May i j
  absent : ∀ i ∉ items, given.lookup (name i) = none

theorem namedMembers?_cons {l : Literal} {t : String} (hl : l.text? = some t) {j : Json}
    {named : List (String × Json)} (hnamed : namedMembers? members = some named) :
    namedMembers? ((l, j) :: members) = some ((t, j) :: named) := by
  rw [namedMembers?, hl, hnamed]
  rfl

/-- One more item is found in front. -/
theorem Found.cons {given : List (String × Json)} (h : Found name May items given)
    (hname : name.Injective) {i : ι} {j : Json} (hvalue : May i j) :
    Found name May (insert i items) ((name i, j) :: given) := by
  have hlookup : ∀ k, ((name i, j) :: given).lookup (name k) =
      if k = i then some j else given.lookup (name k) := by
    intro k
    simp only [Table.lookup_entry, hname.eq_iff]
  constructor
  · intro k hk
    rw [hlookup]
    by_cases hki : k = i
    · exact ⟨j, if_pos hki, hki ▸ hvalue⟩
    · rw [if_neg hki]
      exact h.present k ((Finset.mem_insert.1 hk).resolve_left hki)
  · intro k hk
    rw [Finset.mem_insert, not_or] at hk
    rw [hlookup, if_neg hk.1]
    exact h.absent k hk.2

/-- The known members of an object that lists some items are the items, each of them once. -/
theorem Lists.exists_named (h : Lists name known May items members) (hname : name.Injective)
    (hknown : ∀ i ∈ items, name i ∈ known) :
    ∃ named, namedMembers? members = some named ∧
      ((named.filter fun m => known.contains m.1).map (·.1)).Nodup ∧
      Found name May items (named.filter fun m => known.contains m.1) := by
  induction h with
  | nil =>
    exact ⟨[], rfl, List.nodup_nil, fun _ hi => absurd hi (Finset.notMem_empty _), fun _ _ => rfl⟩
  | @item items members l j i hl hvalue hnew _ ih =>
    obtain ⟨hi, hitems⟩ := (Finset.forall_mem_insert _ _ _).1 hknown
    obtain ⟨named, hnamed, hnodup, hfound⟩ := ih hitems
    have hkept : ((name i, j) :: named).filter (fun m => known.contains m.1) =
        (name i, j) :: named.filter fun m => known.contains m.1 :=
      List.filter_cons_of_pos (List.contains_iff_mem.2 hi)
    -- An item that was not listed yet is not found among the others.
    have hother : name i ∉ (named.filter fun m => known.contains m.1).map (·.1) := by
      intro hmem
      obtain ⟨m, hm, heq⟩ := List.mem_map.1 hmem
      have hnot := List.lookup_eq_none_iff.1 (hfound.absent i hnew) m hm
      simp [heq] at hnot
    refine ⟨(name i, j) :: named, namedMembers?_cons hl hnamed, ?_⟩
    rw [hkept, List.map_cons, List.nodup_cons]
    exact ⟨⟨hother, hnodup⟩, hfound.cons hname hvalue⟩
  | @foreign items members l j t hl hunknown _ ih =>
    obtain ⟨named, hnamed, hown⟩ := ih hknown
    have hdropped : ((t, j) :: named).filter (fun m => known.contains m.1) =
        named.filter fun m => known.contains m.1 :=
      List.filter_cons_of_neg (mt List.contains_iff_mem.1 hunknown)
    refine ⟨(t, j) :: named, namedMembers?_cons hl hnamed, ?_⟩
    rwa [hdropped]

/-- A reader of an object that lists some items finds these, and nothing for any other. -/
theorem Lists.exists_found (h : Lists name known May items members) (hname : name.Injective)
    (hknown : ∀ i ∈ items, name i ∈ known) :
    ∃ given, fields? known (.object members) = some given ∧ Found name May items given := by
  obtain ⟨named, hnamed, hnodup, hfound⟩ := h.exists_named hname hknown
  refine ⟨_, ?_, hfound⟩
  rw [fields?, hnamed, Option.bind_eq_bind, Option.bind_some, if_pos hnodup]

/-- What is read of an item, with a preset for the case that the object does not list it. -/
theorem Found.fieldOr? {β : Type} [Wire β] {given : List (String × Json)}
    (h : Found name May items given) {i : ι} {preset x : β}
    (hread : ∀ j, May i j → decode? j = some x) :
    fieldOr? given (name i) preset = some (if i ∈ items then x else preset) := by
  rw [Wire.fieldOr?]
  by_cases hi : i ∈ items
  · obtain ⟨j, hj, hmay⟩ := h.present i hi
    rw [hj, if_pos hi]
    exact hread j hmay
  · rw [h.absent i hi, if_neg hi]

/-- The record of some items lists them. -/
theorem lists_record {is : List ι} {value : ι → Json} (hnodup : is.Nodup)
    (hvalue : ∀ i ∈ is, May i (value i)) :
    Lists name known May is.toFinset (is.map fun i => (.ofString (name i), value i)) := by
  induction is with
  | nil => exact .nil
  | cons i is ih =>
    obtain ⟨hnew, hnodup⟩ := List.nodup_cons.1 hnodup
    obtain ⟨hi, his⟩ := List.forall_mem_cons.1 hvalue
    rw [List.toFinset_cons]
    exact .item i (Literal.text?_ofString _) hi (mt List.mem_toFinset.1 hnew) (ih hnodup his)

end Json

namespace Settings

/-- The names of all sections. -/
def sections : List String := ["scorer", "classifier", "strategy", "algorithm", "engine"]

theorem bind_eq_some {β γ : Type} {o : Option β} {x : β} {k : β → Option γ} {y : γ}
    (h : o = some x) (hk : k x = some y) : (o >>= k) = some y :=
  Option.bind_eq_some_iff.2 ⟨x, h, hk⟩

section Layer
variable [Json.TextLayer]
variable {c d : Settings Float} {fields : Finset Field} {given : List (String × Json)} {j : Json}

instance : (f : Field) → Wire (f.Content Float)
  | .exempt => inferInstanceAs (Wire (List UserId))
  | .kind => inferInstanceAs (Wire String)
  | .cap => inferInstanceAs (Wire UInt64)
  | .alpha | .rateWeight | .patternWeight | .persistenceWeight | .low | .medium | .high | .ratio
  | .threshold | .base | .min | .max => inferInstanceAs (Wire Float)

instance : (s : Part) → Wire (s.Content Float)
  | .scorer => inferInstanceAs (Wire (Scorer Float))
  | .ladder => inferInstanceAs (Wire (LadderSettings Float))
  | .pools => inferInstanceAs (Wire (ProxyPools Float))
  | .policy => inferInstanceAs (Wire (PolicySettings Float))
  | .engine => inferInstanceAs (Wire CapSettings)

/-! ## Documents that give some fields -/

/-- A value stands for what the settings hold for a field. -/
def Gives (c : Settings Float) (f : Field) (j : Json) : Prop := decode? j = some (c.get f)

/-- A section gives what the settings hold for those of some fields that belong to it. -/
def GivesPart (c : Settings Float) (fields : Finset Field) (s : Part) (j : Json) : Prop :=
  ∃ members, j = .object members ∧
    Json.Lists Field.name (s.fields.map Field.name) c.Gives (fields.filter (·.part = s)) members

/-- A document gives what the settings hold for some fields, in whatever sections it has. -/
def Document (c : Settings Float) (fields : Finset Field) (members : List (Json.Literal × Json)) :
    Prop :=
  ∃ parts : Finset Part, (∀ f ∈ fields, f.part ∈ parts) ∧
    Json.Lists Part.name sections (c.GivesPart fields) parts members

/-! ## What is read of them -/

/-- A part is read if its fields are. -/
theorem decode?_part {s : Part} (hgiven : Json.fields? (s.fields.map Field.name) j = some given)
    (h : ∀ f, f.part = s → fieldOr? given f.name (standard.get f) = some (d.get f)) :
    decode? j = some (d.part s) := by
  cases s with
  | scorer =>
    refine bind_eq_some hgiven ?_
    refine bind_eq_some (h .alpha rfl) ?_
    refine bind_eq_some (h .rateWeight rfl) ?_
    refine bind_eq_some (h .patternWeight rfl) ?_
    exact bind_eq_some (h .persistenceWeight rfl) rfl
  | ladder =>
    refine bind_eq_some hgiven ?_
    refine bind_eq_some (h .low rfl) ?_
    refine bind_eq_some (h .medium rfl) ?_
    refine bind_eq_some (h .high rfl) ?_
    exact bind_eq_some (h .exempt rfl) rfl
  | pools =>
    refine bind_eq_some hgiven ?_
    exact bind_eq_some (h .ratio rfl) rfl
  | policy =>
    refine bind_eq_some hgiven ?_
    refine bind_eq_some (h .kind rfl) ?_
    refine bind_eq_some (h .threshold rfl) ?_
    refine bind_eq_some (h .base rfl) ?_
    refine bind_eq_some (h .min rfl) ?_
    exact bind_eq_some (h .max rfl) rfl
  | engine =>
    refine bind_eq_some hgiven ?_
    exact bind_eq_some (h .cap rfl) rfl

/-- Settings are read if their parts are. -/
theorem decode?_of_parts (hgiven : Json.fields? sections j = some given)
    (h : ∀ s, fieldOr? given s.name (standard.part s) = some (d.part s)) :
    decode? j = some d := by
  refine bind_eq_some hgiven ?_
  refine bind_eq_some (h .scorer) ?_
  refine bind_eq_some (h .ladder) ?_
  refine bind_eq_some (h .pools) ?_
  refine bind_eq_some (h .policy) ?_
  exact bind_eq_some (h .engine) rfl

/-- Of a section that gives some fields, these are taken over and the others are preset. -/
theorem GivesPart.decode? {s : Part} (h : c.GivesPart fields s j) :
    decode? j = some ((c.overlay fields).part s) := by
  obtain ⟨members, rfl, hlists⟩ := h
  have hknown : ∀ f ∈ fields.filter (·.part = s), f.name ∈ s.fields.map Field.name := fun f hf =>
    List.mem_map_of_mem (Field.mem_fields_iff.2 (Finset.mem_filter.1 hf).2)
  obtain ⟨given, hgiven, hfound⟩ := hlists.exists_found Field.name_injective hknown
  refine decode?_part hgiven fun f hf => ?_
  rw [hfound.fieldOr? (x := c.get f) fun _ hj => hj, get_overlay]
  simp only [Finset.mem_filter, hf, and_true]

/-- Whatever a document leaves out is preset. -/
theorem Document.decode? {members : List (Json.Literal × Json)} (h : c.Document fields members) :
    decode? (.object members) = some (c.overlay fields) := by
  obtain ⟨parts, hparts, hlists⟩ := h
  have hknown : ∀ s ∈ parts, s.name ∈ sections := by
    intro s _
    cases s <;> decide
  obtain ⟨given, hgiven, hfound⟩ := hlists.exists_found Part.name_injective hknown
  refine decode?_of_parts hgiven fun s => ?_
  rw [hfound.fieldOr? fun _ hj => hj.decode?]
  -- A section that is missing gives none of the fields, so its part is preset all the same.
  split
  · rfl
  · next hs =>
    have hnone : ∀ f ∈ fields, f.part ≠ s := fun f hf heq => hs (heq ▸ hparts f hf)
    rw [part_overlay hnone]

theorem ofText_document {text : String} {members : List (Json.Literal × Json)}
    (hparse : Json.TextLayer.read? text = some (.object members)) (h : c.Document fields members) :
    ofText text = .ok (c.overlay fields) := by
  rw [ofText, hparse, Option.bind_some, h.decode?]

/-! ## The document with all fields -/

variable [Json.TextLayer.Lawful]

instance : (f : Field) → Faithful (f.Content Float)
  | .exempt => inferInstanceAs (Faithful (List UserId))
  | .kind => inferInstanceAs (Faithful String)
  | .cap => inferInstanceAs (Faithful UInt64)
  | .alpha | .rateWeight | .patternWeight | .persistenceWeight | .low | .medium | .high | .ratio
  | .threshold | .base | .min | .max => inferInstanceAs (Faithful Float)

theorem finite_get (hc : c.Finite) (f : Field) : Wire.Finite (c.get f) := by
  obtain ⟨⟨halpha, hrate, hpattern, hpersistence⟩, ⟨hlow, hmedium, hhigh⟩, hratio,
    ⟨hthreshold, hbase, hmin, hmax⟩⟩ := hc
  cases f with
  | exempt => exact fun _ _ => trivial
  | kind => trivial
  | cap => trivial
  | _ => assumption

/-- A part is written as a section that gives all its fields. -/
theorem givesPart_encode (hc : c.Finite) (s : Part) :
    c.GivesPart Finset.univ s (encode (c.part s)) := by
  have hencode : encode (c.part s) =
      .object (s.fields.map fun f => (.ofString f.name, encode (c.get f))) := by
    cases s <;> rfl
  have hfields : s.fields.toFinset = Finset.univ.filter (·.part = s) := by
    ext f
    simp [Field.mem_fields_iff]
  refine ⟨_, hencode, hfields ▸ Json.lists_record ?_ fun f _ => ?_⟩
  · cases s <;> decide
  · exact Faithful.decode?_encode.2 ⟨finite_get hc f, rfl⟩

/-- Settings are written as a document that gives all fields. -/
theorem document_encode (hc : c.Finite) :
    ∃ members, encode c = .object members ∧ c.Document Finset.univ members := by
  let parts : List Part := [.scorer, .ladder, .pools, .policy, .engine]
  refine ⟨parts.map fun s => (.ofString s.name, encode (c.part s)), rfl, parts.toFinset, ?_, ?_⟩
  · intro f _
    cases f <;> decide
  · exact Json.lists_record (by decide) fun s _ => givesPart_encode hc s

/-- A document that gives some fields, in any order, with or without sections for the other parts
and whatever stands under names that nobody knows, is read as the presets with exactly these fields
replaced. Settings whose doubles are finite are written as such a document for all fields, and come
back from it. -/
theorem document_overlays_presets (c : Settings Float) :
    (∀ fields text members, Json.TextLayer.read? text = some (.object members) →
      c.Document fields members → ofText text = .ok (c.overlay fields)) ∧
    (c.Finite → (∃ members, Json.TextLayer.read? c.toText = some (.object members) ∧
      c.Document Finset.univ members) ∧ ofText c.toText = .ok c) := by
  constructor
  · intro fields text members hparse h
    exact ofText_document hparse h
  · intro hc
    obtain ⟨members, hencode, h⟩ := document_encode hc
    have hparse : Json.TextLayer.read? c.toText = some (.object members) :=
      (Json.TextLayer.Lawful.read?_lines (Faithful.wellSpelt c)).trans (congrArg some hencode)
    have hread := ofText_document hparse h
    rw [overlay_univ] at hread
    exact ⟨⟨members, hparse, h⟩, hread⟩

end Layer

/-- A section that nobody knows, an empty one, and one with a field that nobody knows: of the
settings the document gives the share alone, and their cap is not taken over. Written in full, the
same settings come back. -/
theorem document_overlays_presets_ratio :
    let c : Settings Float := { standard with pools := ⟨0.5⟩, engine := ⟨4⟩ }
    let text := "\x7b\"telemetry\":\x7b\"port\":9000\x7d,\"engine\":\x7b\x7d,"
      ++ "\"strategy\":\x7b\"seed\":4,\"isolation_ratio\":0.5\x7d\x7d"
    ∃ members, Json.parse? text = some (.object members) ∧ c.Document {Field.ratio} members ∧
      ofText text = .ok { standard with pools := ⟨0.5⟩ } ∧ ofText c.toText = .ok c := by
  intro c text
  let telemetry : Json := .record [("port", .count 9000)]
  let strategy : Json := .record [("seed", .count 4), ("isolation_ratio", encode (0.5 : Float))]
  let members := [("telemetry", telemetry), ("engine", .record []), ("strategy", strategy)].map
    fun m => (Json.Literal.ofString m.1, m.2)
  have hspelt : (Json.object members).WellSpelt := by
    refine wellSpelt_record fun m hm => ?_
    simp only [List.mem_cons, List.not_mem_nil, or_false] at hm
    rcases hm with rfl | rfl | rfl <;> refine wellSpelt_record ?_ <;>
      simp [Json.WellSpelt, Json.count, Faithful.wellSpelt]
  have hparse : Json.parse? text = some (.object members) := by
    have htext : text = (Json.object members).compact := by decide +kernel
    rw [htext, Json.parse?_compact hspelt]
  have hengine : c.GivesPart {Field.ratio} .engine (.record []) := ⟨[], rfl, .nil⟩
  have hstrategy : c.GivesPart {Field.ratio} .pools strategy := by
    have hratio : ({Field.ratio} : Finset Field).filter (·.part = .pools) = insert .ratio ∅ := by
      decide
    have hhalf : c.Gives .ratio (encode (0.5 : Float)) :=
      Faithful.decode?_encode.2 ⟨finite_float.2 (by decide), rfl⟩
    refine ⟨_, rfl, hratio ▸ .foreign "seed" (Json.Literal.text?_ofString _) (by decide) ?_⟩
    exact .item Field.ratio (Json.Literal.text?_ofString _) hhalf (by decide) .nil
  have hdocument : c.Document {Field.ratio} members := by
    refine ⟨insert .engine (insert .pools ∅), by decide, ?_⟩
    refine .foreign "telemetry" (Json.Literal.text?_ofString _) (by decide) ?_
    refine .item Part.engine (Json.Literal.text?_ofString _) hengine (by decide) ?_
    exact .item Part.pools (Json.Literal.text?_ofString _) hstrategy (by decide) .nil
  have hfinite : c.Finite := by
    simp only [Settings.Finite, Scorer.Finite, LadderSettings.Finite, PolicySettings.Finite]
    decide +kernel
  obtain ⟨hgiven, hwritten⟩ := document_overlays_presets c
  exact ⟨members, hparse, hdocument, hgiven {Field.ratio} text members hparse hdocument,
    (hwritten hfinite).2⟩

end Settings
end MovingTarget
