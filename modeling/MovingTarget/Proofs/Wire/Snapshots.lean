import MovingTarget.Proofs.Wire.Faithful
import MovingTarget.Snapshot.Codec
/-!
# Snapshots come back from their text

Every record of a snapshot is faithful, so the snapshot is: over any lawful text layer, a snapshot
comes back from its text if and only if all its doubles are finite, and whatever is read of any text
is such a snapshot (`Snapshot.comes_back`).
-/
namespace MovingTarget
open Wire

instance : Vocabulary.Distinct AttackType where
  ofName?_name e := by cases e <;> rfl

instance : Vocabulary.Distinct EventType where
  ofName?_name e := by cases e <;> rfl

instance : Vocabulary.Distinct RiskLevel where
  ofName?_name e := by cases e <;> rfl

/-! ## The doubles of every record -/

def Traffic.Finite (t : Traffic Float) : Prop :=
  t.packetRate.isFinite ∧ t.byteRate.isFinite ∧ t.averageLatency.isFinite

def Observation.Finite (o : Observation Float) : Prop :=
  o.rateAnomaly.isFinite ∧ o.connectionAnomaly.isFinite ∧ o.patternAnomaly.isFinite ∧
    o.persistence.isFinite ∧ o.confidence.isFinite

def UserScore.Finite (u : UserScore Float) : Prop := u.score.isFinite

def Domain.Finite (d : Domain Float) : Prop := d.load.isFinite ∧ d.interval.isFinite

def Snapshot.Finite (s : Snapshot Float) : Prop :=
  (∀ d ∈ s.domains.values, d.Finite) ∧ (∀ u ∈ s.scores.values, u.Finite) ∧
    (∀ t ∈ s.traffic.values, t.Finite) ∧ ∀ o ∈ s.observations.values, o.Finite

/-! ## Every record is faithful -/

instance : Faithful Event where
  Finite _ := True
  decode?_encode {e f} := by
    refine (bind_fields?_record (by rfl) (by decide)).trans ?_
    iterate 4 rw [bind_fieldOr?_encode rfl]
    simp
  finite_of_decode? _ := trivial
  wellSpelt e := wellSpelt_record (by simp [Faithful.wellSpelt])

@[simp] theorem finite_event (e : Event) : Wire.Finite e := trivial

section Layer
variable [Json.TextLayer] [Json.TextLayer.Lawful]

instance : Faithful (Traffic Float) where
  Finite := Traffic.Finite
  decode?_encode {t u} := by
    refine (bind_fields?_record (by rfl) (by decide)).trans ?_
    iterate 8 rw [bind_fieldOr?_encode rfl]
    simp [Traffic.Finite, and_assoc]
  finite_of_decode? {j t} h := by
    simp only [decode?, Option.bind_eq_bind, Option.bind_eq_some_iff] at h
    obtain ⟨given, -, _, -, _, -, _, -, _, -, pr, hpr, br, hbr, _, -, al, hal, heq⟩ := h
    cases heq
    exact ⟨finite_of_fieldOr? finite_zero hpr, finite_of_fieldOr? finite_zero hbr,
      finite_of_fieldOr? finite_zero hal⟩
  wellSpelt t := wellSpelt_record (by simp [Faithful.wellSpelt])

@[simp] theorem finite_traffic {t : Traffic Float} : Wire.Finite t ↔ t.Finite := Iff.rfl

instance : Faithful (Observation Float) where
  Finite := Observation.Finite
  decode?_encode {o p} := by
    refine (bind_fields?_record (by rfl) (by decide)).trans ?_
    iterate 7 rw [bind_fieldOr?_encode rfl]
    simp [Observation.Finite, and_assoc]
  finite_of_decode? {j o} h := by
    simp only [decode?, Option.bind_eq_bind, Option.bind_eq_some_iff] at h
    obtain ⟨given, -, ra, hra, ca, hca, pa, hpa, pf, hpf, _, -, co, hco, _, -, heq⟩ := h
    cases heq
    exact ⟨finite_of_fieldOr? finite_zero hra, finite_of_fieldOr? finite_zero hca,
      finite_of_fieldOr? finite_zero hpa, finite_of_fieldOr? finite_zero hpf,
      finite_of_fieldOr? finite_zero hco⟩
  wellSpelt o := wellSpelt_record (by simp [Faithful.wellSpelt])

@[simp] theorem finite_observation {o : Observation Float} : Wire.Finite o ↔ o.Finite := Iff.rfl

instance : Faithful (UserScore Float) where
  Finite := UserScore.Finite
  decode?_encode {u v} := by
    refine (bind_fields?_record (by rfl) (by decide)).trans ?_
    iterate 4 rw [bind_fieldOr?_encode rfl]
    simp [UserScore.Finite]
  finite_of_decode? {j u} h := by
    simp only [decode?, Option.bind_eq_bind, Option.bind_eq_some_iff] at h
    obtain ⟨given, -, _, -, sc, hsc, _, -, _, -, heq⟩ := h
    cases heq
    exact finite_of_fieldOr? finite_zero hsc
  wellSpelt u := wellSpelt_record (by simp [Faithful.wellSpelt])

@[simp] theorem finite_userScore {u : UserScore Float} : Wire.Finite u ↔ u.Finite := Iff.rfl

instance : Faithful (Domain Float) where
  Finite := Domain.Finite
  decode?_encode {d e} := by
    refine (bind_fields?_record (by rfl) (by decide)).trans ?_
    iterate 6 rw [bind_fieldOr?_encode rfl]
    simp [Domain.Finite, and_assoc]
  finite_of_decode? {j d} h := by
    simp only [decode?, Option.bind_eq_bind, Option.bind_eq_some_iff] at h
    obtain ⟨given, -, _, -, _, -, _, -, _, -, ld, hld, iv, hiv, heq⟩ := h
    cases heq
    exact ⟨finite_of_fieldOr? finite_zero hld, finite_of_fieldOr? finite_one hiv⟩
  wellSpelt d := wellSpelt_record (by simp [Faithful.wellSpelt])

@[simp] theorem finite_domain {d : Domain Float} : Wire.Finite d ↔ d.Finite := Iff.rfl

instance : Faithful (Snapshot Float) where
  Finite := Snapshot.Finite
  decode?_encode {s t} := by
    refine (bind_fields?_record (by rfl) (by decide)).trans ?_
    iterate 6 rw [bind_fieldOr?_encode rfl]
    simp [Snapshot.Finite, and_assoc]
  finite_of_decode? {j s} h := by
    simp only [decode?, Option.bind_eq_bind, Option.bind_eq_some_iff] at h
    obtain ⟨given, -, _, -, ds, hds, us, hus, ts, hts, os, hos, _, -, heq⟩ := h
    cases heq
    exact ⟨finite_table.1 (finite_of_fieldOr? finite_empty hds),
      finite_table.1 (finite_of_fieldOr? finite_empty hus),
      finite_table.1 (finite_of_fieldOr? finite_empty hts),
      finite_table.1 (finite_of_fieldOr? finite_empty hos)⟩
  wellSpelt s := wellSpelt_record (by simp [Faithful.wellSpelt])

/-! ## Snapshots and their text -/

namespace Snapshot

theorem ofText?_toText {s t : Snapshot Float} : ofText? s.toText = some t ↔ s.Finite ∧ s = t := by
  rw [ofText?, toText, Json.TextLayer.Lawful.read?_line (Faithful.wellSpelt s), Option.bind_some]
  exact Faithful.decode?_encode

theorem finite_of_ofText? {text : String} {s : Snapshot Float} (h : ofText? text = some s) :
    s.Finite := by
  obtain ⟨j, -, hj⟩ := Option.bind_eq_some_iff.1 h
  exact Faithful.finite_of_decode? hj

/-- Over any lawful text layer a snapshot comes back from its text, unchanged, if all its doubles
are finite, and otherwise not at all. What is read of any text has only finite doubles, so that it
comes back from its own text. -/
theorem comes_back :
    (∀ s : Snapshot Float, (s.Finite → ofText? s.toText = some s) ∧
      (¬ s.Finite → ofText? s.toText = none)) ∧
    ∀ (text : String) (s : Snapshot Float), ofText? text = some s →
      s.Finite ∧ ofText? s.toText = some s := by
  refine ⟨fun s => ⟨fun hs => ofText?_toText.2 ⟨hs, rfl⟩, fun hs => ?_⟩, fun text s h => ?_⟩
  · refine Option.eq_none_iff_forall_ne_some.2 fun t ht => hs ?_
    exact (ofText?_toText.1 ht).1
  · have hs := finite_of_ofText? h
    exact ⟨hs, ofText?_toText.2 ⟨hs, rfl⟩⟩

end Snapshot
end Layer

namespace Snapshot

/-- A domain under another key than its id comes back; one whose load is not a number does not. -/
theorem comes_back_domain :
    let loaded (x : Float) : Snapshot Float :=
      { empty 0 with domains := .ofList [(7, ⟨1, "edge", [2], [3], x, 1.0⟩)] }
    ofText? (loaded 0.5).toText = some (loaded 0.5) ∧
      ofText? (loaded (0.0 / 0.0)).toText = none := by
  intro loaded
  have hvalues (x : Float) : (loaded x).domains.values = [⟨1, "edge", [2], [3], x, 1.0⟩] := rfl
  constructor
  · refine (comes_back.1 (loaded 0.5)).1 ⟨?_, ?_, ?_, ?_⟩
    · intro d hd
      rw [hvalues, List.mem_singleton] at hd
      subst hd
      exact ⟨by decide, by decide⟩
    all_goals
      intro _ h
      exact absurd h List.not_mem_nil
  · refine (comes_back.1 (loaded (0.0 / 0.0))).2 fun h => ?_
    have hload := (h.1 _ (by rw [hvalues]; exact List.mem_cons_self)).1
    exact absurd hload (by decide)

end Snapshot
end MovingTarget
