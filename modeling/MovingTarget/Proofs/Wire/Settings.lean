import MovingTarget.Proofs.Settings.Validation
import MovingTarget.Proofs.Wire.Faithful
import MovingTarget.Settings.Codec
/-!
# Settings come back from their text and their file

Settings are faithful, so over any lawful text layer they come back if and only if all their doubles
are finite. Acceptance bounds only some of them: the others can be infinite or no number in accepted
settings, which then are written and not read again (`Settings.accepted_comes_back`).
-/
namespace MovingTarget
open Wire

/-! ## Every section is faithful -/

def Scorer.Finite (k : Scorer Float) : Prop :=
  k.alpha.isFinite ∧ k.rateWeight.isFinite ∧ k.patternWeight.isFinite ∧
    k.persistenceWeight.isFinite

def LadderSettings.Finite (l : LadderSettings Float) : Prop :=
  l.low.isFinite ∧ l.medium.isFinite ∧ l.high.isFinite

def PolicySettings.Finite (p : PolicySettings Float) : Prop :=
  p.threshold.isFinite ∧ p.pace.base.isFinite ∧ p.pace.min.isFinite ∧ p.pace.max.isFinite

def Settings.Finite (c : Settings Float) : Prop :=
  c.scorer.Finite ∧ c.ladder.Finite ∧ c.pools.ratio.isFinite ∧ c.policy.Finite

theorem Settings.finite_standard : (standard : Settings Float).Finite := by
  simp only [Settings.Finite, Scorer.Finite, LadderSettings.Finite, PolicySettings.Finite]
  decide +kernel

instance : Faithful CapSettings where
  Finite _ := True
  decode?_encode {c d} := by
    refine (bind_fields?_record (by rfl) (by decide)).trans ?_
    rw [bind_fieldOr?_encode rfl]
    simp
  finite_of_decode? _ := trivial
  wellSpelt c := wellSpelt_record (by simp [Faithful.wellSpelt])

@[simp] theorem finite_capSettings (c : CapSettings) : Wire.Finite c := trivial

section Layer
variable [Json.TextLayer] [Json.TextLayer.Lawful]

instance : Faithful (Scorer Float) where
  Finite := Scorer.Finite
  decode?_encode {k l} := by
    refine (bind_fields?_record (by rfl) (by decide)).trans ?_
    iterate 4 rw [bind_fieldOr?_encode rfl]
    simp [Scorer.Finite, and_assoc]
  finite_of_decode? {j k} h := by
    simp only [decode?, Option.bind_eq_bind, Option.bind_eq_some_iff] at h
    obtain ⟨given, -, al, hal, rw', hrw, pw, hpw, sw, hsw, heq⟩ := h
    cases heq
    obtain ⟨h₁, h₂, h₃, h₄⟩ := Settings.finite_standard.1
    exact ⟨finite_of_fieldOr? h₁ hal, finite_of_fieldOr? h₂ hrw, finite_of_fieldOr? h₃ hpw,
      finite_of_fieldOr? h₄ hsw⟩
  wellSpelt k := wellSpelt_record (by simp [Faithful.wellSpelt])

@[simp] theorem finite_scorer {k : Scorer Float} : Wire.Finite k ↔ k.Finite := Iff.rfl

instance : Faithful (LadderSettings Float) where
  Finite := LadderSettings.Finite
  decode?_encode {l m} := by
    refine (bind_fields?_record (by rfl) (by decide)).trans ?_
    iterate 4 rw [bind_fieldOr?_encode rfl]
    simp [LadderSettings.Finite, and_assoc]
  finite_of_decode? {j l} h := by
    simp only [decode?, Option.bind_eq_bind, Option.bind_eq_some_iff] at h
    obtain ⟨given, -, lo, hlo, me, hme, hi, hhi, _, -, heq⟩ := h
    cases heq
    obtain ⟨h₁, h₂, h₃⟩ := Settings.finite_standard.2.1
    exact ⟨finite_of_fieldOr? h₁ hlo, finite_of_fieldOr? h₂ hme, finite_of_fieldOr? h₃ hhi⟩
  wellSpelt l := wellSpelt_record (by simp [Faithful.wellSpelt])

@[simp] theorem finite_ladderSettings {l : LadderSettings Float} : Wire.Finite l ↔ l.Finite :=
  Iff.rfl

instance : Faithful (ProxyPools Float) where
  Finite p := p.ratio.isFinite
  decode?_encode {p q} := by
    refine (bind_fields?_record (by rfl) (by decide)).trans ?_
    rw [bind_fieldOr?_encode rfl]
    simp
  finite_of_decode? {j p} h := by
    simp only [decode?, Option.bind_eq_bind, Option.bind_eq_some_iff] at h
    obtain ⟨given, -, ra, hra, heq⟩ := h
    cases heq
    exact finite_of_fieldOr? Settings.finite_standard.2.2.1 hra
  wellSpelt p := wellSpelt_record (by simp [Faithful.wellSpelt])

@[simp] theorem finite_proxyPools {p : ProxyPools Float} : Wire.Finite p ↔ p.ratio.isFinite :=
  Iff.rfl

instance : Faithful (PolicySettings Float) where
  Finite := PolicySettings.Finite
  decode?_encode {p q} := by
    refine (bind_fields?_record (by rfl) (by decide)).trans ?_
    iterate 5 rw [bind_fieldOr?_encode rfl]
    simp [PolicySettings.Finite, and_assoc]
  finite_of_decode? {j p} h := by
    simp only [decode?, Option.bind_eq_bind, Option.bind_eq_some_iff] at h
    obtain ⟨given, -, _, -, th, hth, ba, hba, mi, hmi, ma, hma, heq⟩ := h
    cases heq
    obtain ⟨h₁, h₂, h₃, h₄⟩ := Settings.finite_standard.2.2.2
    exact ⟨finite_of_fieldOr? h₁ hth, finite_of_fieldOr? h₂ hba, finite_of_fieldOr? h₃ hmi,
      finite_of_fieldOr? h₄ hma⟩
  wellSpelt p := wellSpelt_record (by simp [Faithful.wellSpelt])

@[simp] theorem finite_policySettings {p : PolicySettings Float} : Wire.Finite p ↔ p.Finite :=
  Iff.rfl

instance : Faithful (Settings Float) where
  Finite := Settings.Finite
  decode?_encode {c d} := by
    refine (bind_fields?_record (by rfl) (by decide)).trans ?_
    iterate 5 rw [bind_fieldOr?_encode rfl]
    simp [Settings.Finite, and_assoc]
  finite_of_decode? {j c} h := by
    simp only [decode?, Option.bind_eq_bind, Option.bind_eq_some_iff] at h
    obtain ⟨given, -, sc, hsc, la, hla, po, hpo, pl, hpl, _, -, heq⟩ := h
    cases heq
    obtain ⟨h₁, h₂, h₃, h₄⟩ := Settings.finite_standard
    exact ⟨finite_of_fieldOr? h₁ hsc, finite_of_fieldOr? h₂ hla, finite_of_fieldOr? h₃ hpo,
      finite_of_fieldOr? h₄ hpl⟩
  wellSpelt c := wellSpelt_record (by simp [Faithful.wellSpelt])

end Layer

/-! ## Files -/

theorem FileStore.readText_write {f g : FileStore} {path text : String}
    (h : f.write path text.toUTF8 = .ok g) : g.readText path = .ok text := by
  have hdecode : String.fromUTF8? text.toUTF8 = some text := dif_pos text.isValidUTF8
  simp only [readText, read_write h, bind, Except.bind, hdecode]

namespace Settings

section Layer
variable [Json.TextLayer] {c : Settings Float}

/-- A file that settings were saved to is read as their text is. -/
theorem load_save {f g : FileStore} {path : String} (h : c.save f path = .ok g) :
    load g path = ofText c.toText := by
  have hwrite : f.write path c.toText.toUTF8 = .ok g := by
    unfold save at h
    cases hw : f.write path c.toText.toUTF8 with
    | ok g' =>
      rw [hw] at h
      cases h
      rfl
    | error cause =>
      rw [hw] at h
      cases h
  rw [load, FileStore.readText_write hwrite]

variable [Json.TextLayer.Lawful]

theorem ofText_toText (hc : c.Finite) : ofText c.toText = .ok c := by
  have hdecode : decode? (encode c) = some c := Faithful.decode?_encode.2 ⟨hc, rfl⟩
  rw [ofText, toText, Json.TextLayer.Lawful.read?_lines (Faithful.wellSpelt c), Option.bind_some,
    hdecode]

theorem ofText_toText_of_not_finite (hc : ¬ c.Finite) : ofText c.toText = .error .malformed := by
  have hdecode : decode? (encode c) = none :=
    Option.eq_none_iff_forall_ne_some.2 fun d hd => hc (Faithful.decode?_encode.1 hd).1
  rw [ofText, toText, Json.TextLayer.Lawful.read?_lines (Faithful.wellSpelt c), Option.bind_some,
    hdecode]

/-! ## Accepted settings -/

/-- The doubles of settings that no check bounds on both sides. -/
def unbounded (c : Settings Float) : List Float :=
  [c.scorer.rateWeight, c.scorer.patternWeight, c.scorer.persistenceWeight, c.ladder.low,
    c.ladder.high, c.policy.threshold, c.policy.pace.base, c.policy.pace.min, c.policy.pace.max]

/-- Acceptance sees to it that the other doubles are finite. -/
theorem finite_iff_of_validate (hc : c.validate = .ok ()) :
    c.Finite ↔ ∀ x ∈ c.unbounded, x.isFinite := by
  obtain ⟨⟨hlow, hhigh⟩, -, ⟨halpha, halpha'⟩, hratio, hratio'⟩ := validate_eq_ok_iff.1 hc
  have hzero : (0.0 : Float).isFinite := finite_zero
  have hone : (1.0 : Float).isFinite := finite_one
  have hmedium := Scalar.isFinite_of_lt_of_lt hlow hhigh
  have halpha := Scalar.isFinite_of_le_of_le hzero hone halpha halpha'
  have hratio := Scalar.isFinite_of_le_of_le hzero hone hratio hratio'
  simp only [Settings.Finite, Scorer.Finite, LadderSettings.Finite, PolicySettings.Finite,
    unbounded, List.forall_mem_cons, List.not_mem_nil, hmedium, halpha, hratio]
  tauto

/-- Over any lawful text layer accepted settings come back from their text, and from a file that
they were saved to, if every double that no check bounds on both sides is finite. If one is not, the
text is written all the same, and is refused. -/
theorem accepted_comes_back (hc : c.validate = .ok ()) :
    ((∀ x ∈ c.unbounded, x.isFinite) → ofText c.toText = .ok c ∧
      ∀ f g path, c.save f path = .ok g → load g path = .ok c) ∧
    ((∃ x ∈ c.unbounded, ¬ x.isFinite) → ofText c.toText = .error .malformed ∧
      ∀ f g path, c.save f path = .ok g → load g path = .error .malformed) := by
  constructor
  · intro hall
    have htext := ofText_toText ((finite_iff_of_validate hc).2 hall)
    exact ⟨htext, fun f g path h => (load_save h).trans htext⟩
  · rintro ⟨x, hx, hnot⟩
    have htext := ofText_toText_of_not_finite fun hfinite =>
      hnot ((finite_iff_of_validate hc).1 hfinite x hx)
    exact ⟨htext, fun f g path h => (load_save h).trans htext⟩

end Layer

/-- The presets come back. -/
theorem standard_comes_back :
    (standard : Settings Float).validate = .ok () ∧
      ofText (standard : Settings Float).toText = .ok standard := by
  have hc : (standard : Settings Float).validate = .ok () := by decide +kernel
  have hfinite : ∀ x ∈ unbounded standard, x.isFinite := by decide +kernel
  exact ⟨hc, ((accepted_comes_back hc).1 hfinite).1⟩

/-- Settings with no upper bound on the interval are accepted and written, but not read again. -/
theorem endless_interval_refused :
    let endless : Pace Float := { Pace.standard with max := 1.0 / 0.0 }
    let c : Settings Float :=
      { standard with policy := { PolicySettings.standard with pace := endless } }
    c.validate = .ok () ∧ ofText c.toText = .error .malformed := by
  intro endless c
  have hnot : ¬ c.Finite := by
    rintro ⟨-, -, -, -, -, -, hmax⟩
    exact absurd hmax (by decide)
  exact ⟨by decide +kernel, ofText_toText_of_not_finite hnot⟩

end Settings
end MovingTarget
