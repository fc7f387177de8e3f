import Mathlib.Data.List.Find
import MovingTarget.Policy.Layered
import MovingTarget.Proofs.Runs
import MovingTarget.Proofs.Tables
/-!
# What one epoch does

`assess_next` and `assess_decisions` sum up the turn of one domain. A turn touches what is kept for
its own domain and the alarm, nothing else (`assess_frame`), so an epoch can be read off the state
that it met: `evaluate_decisions` gives the decisions in order, `evaluate_lastShuffle`,
`evaluate_history` and `evaluate_alarmed` the memory that it leaves behind.
-/
namespace MovingTarget

namespace Outcome
variable {σ τ ι α : Type}

@[simp] theorem next_quiet (s : σ) : (quiet s : Outcome σ α).next = s := rfl

@[simp] theorem decisions_quiet (s : σ) : (quiet s : Outcome σ α).decisions = [] := rfl

@[simp] theorem next_andThen (o : Outcome σ α) (f : σ → Outcome τ α) :
    (o.andThen f).next = (f o.next).next := rfl

@[simp] theorem decisions_andThen (o : Outcome σ α) (f : σ → Outcome τ α) :
    (o.andThen f).decisions = o.decisions ++ (f o.next).decisions := rfl

@[simp] theorem log_quiet (s : σ) : (quiet s : Outcome σ α).log = [] := rfl

@[simp] theorem log_andThen (o : Outcome σ α) (f : σ → Outcome τ α) :
    (o.andThen f).log = o.log ++ (f o.next).log := rfl

/-- A step that only proposes and reports leaves the state alone, and what it proposes and reports
stands in order. -/
theorem forEach_of_next_eq {step : σ → ι → Outcome σ α} (h : ∀ s i, (step s i).next = s) (s : σ)
    (is : List ι) :
    (forEach step s is).next = s ∧
      (forEach step s is).decisions = is.flatMap (fun i => (step s i).decisions) ∧
      (forEach step s is).log = is.flatMap fun i => (step s i).log := by
  induction is with
  | nil => exact ⟨rfl, rfl, rfl⟩
  | cons i rest ih =>
    simp only [forEach, next_andThen, decisions_andThen, log_andThen, h, List.flatMap_cons]
    obtain ⟨hnext, hdecisions, hlog⟩ := ih
    exact ⟨hnext, by rw [hdecisions], by rw [hlog]⟩

end Outcome

namespace Layered
variable {α : Type}

/-- The scores kept for a domain once this epoch's is among them, newest first. -/
def window (p : Layered α) (e : DomainId × DomainSummary α) : List α :=
  (e.2.meanScore :: p.scores e.1).take historyCapacity

theorem scores_remember (p : Layered α) (e : DomainId × DomainSummary α) :
    (p.remember e.1 e.2.meanScore).scores e.1 = p.window e := by
  simp [remember, scores, window, Table.find?_insert]

/-- The shuffle away from attackers. -/
def avoid (d : DomainId) : Decision α := .triggerShuffle d .attackerAvoid "Attack pattern detected"

variable [Scalar α]

/-- Whether the domain shows signs of an attack in this epoch. -/
def attacked (p : Layered α) (s : Snapshot α) (e : DomainId × DomainSummary α) : Bool :=
  attackObserved s || spiked (p.window e)

/-- What an epoch proposes for a domain whatever happens to other domains. -/
def routine (p : Layered α) (s : Snapshot α) (e : DomainId × DomainSummary α) :
    List (Decision α) :=
  (p.shuffle s.seconds e.1 e.2).decisions ++
    ((p.remember e.1 e.2.meanScore).adjust e.1 e.2).decisions

/-! ## One domain -/

theorem shuffle_next (p : Layered α) (now : α) (d : DomainId) (m : DomainSummary α) :
    (p.shuffle now d m).next = { p with
      lastShuffle := if p.shuffleDue now d m then p.lastShuffle.insert d now
        else p.lastShuffle } := by
  unfold shuffle
  by_cases h : p.shuffleDue now d m <;> simp [h]

theorem shuffle_decisions (p : Layered α) (now : α) (d : DomainId) (m : DomainSummary α) :
    (p.shuffle now d m).decisions =
      if p.shuffleDue now d m then
        [.triggerShuffle d .scoreDriven
          s!"Avg score {Scalar.fixed 2 m.meanScore} > threshold {Scalar.fixed 2 p.threshold}"]
      else [] := by
  unfold shuffle
  by_cases h : p.shuffleDue now d m <;> simp [h]

theorem adjust_next (p : Layered α) (d : DomainId) (m : DomainSummary α) :
    (p.adjust d m).next = p := by
  unfold adjust
  by_cases h : tolerance < Scalar.distance (p.target d m) m.interval <;> simp [h]

theorem adjust_decisions (p : Layered α) (d : DomainId) (m : DomainSummary α) :
    (p.adjust d m).decisions =
      if tolerance < Scalar.distance (p.target d m) m.interval then
        [.changeFrequency d (p.target d m) "Adaptive frequency adjustment based on risk trend"]
      else [] := by
  unfold adjust
  by_cases h : tolerance < Scalar.distance (p.target d m) m.interval <;> simp [h]

theorem alarm_next (p : Layered α) (s : Snapshot α) (d : DomainId) :
    (p.alarm s d).next =
      { p with alarmed := p.alarmed || (attackObserved s || spiked (p.scores d)) } := by
  unfold alarm
  generalize (attackObserved s || spiked (p.scores d)) = sign
  obtain ⟨_, _, _, _, _, alarmed⟩ := p
  cases alarmed <;> cases sign <;> rfl

theorem alarm_decisions (p : Layered α) (s : Snapshot α) (d : DomainId) :
    (p.alarm s d).decisions =
      if !p.alarmed && (attackObserved s || spiked (p.scores d)) then [avoid d] else [] := by
  unfold alarm
  generalize (attackObserved s || spiked (p.scores d)) = sign
  cases p.alarmed <;> cases sign <;> rfl

theorem attacked_eq (p : Layered α) (s : Snapshot α) (e : DomainId × DomainSummary α) :
    p.attacked s e =
      (attackObserved s || spiked ((p.remember e.1 e.2.meanScore).scores e.1)) := by
  rw [attacked, scores_remember]

/-- What the turn of a domain leaves behind. -/
theorem assess_next (p : Layered α) (s : Snapshot α) (e : DomainId × DomainSummary α) :
    (assess s p e).next = { p with
      lastShuffle := if p.shuffleDue s.seconds e.1 e.2 then p.lastShuffle.insert e.1 s.seconds
        else p.lastShuffle
      history := p.history.insert e.1 (p.window e)
      alarmed := p.alarmed || p.attacked s e } := by
  simp only [assess, Outcome.next_andThen, Outcome.next_quiet, adjust_next, alarm_next,
    shuffle_next, attacked_eq]
  rfl

/-- What the turn of a domain proposes. -/
theorem assess_decisions (p : Layered α) (s : Snapshot α) (e : DomainId × DomainSummary α) :
    (assess s p e).decisions = p.routine s e ++
      if !p.alarmed && p.attacked s e then [avoid e.1] else [] := by
  simp only [assess, Outcome.decisions_andThen, Outcome.next_andThen, Outcome.next_quiet,
    Outcome.decisions_quiet, List.nil_append, adjust_next, alarm_decisions, attacked_eq, routine,
    shuffle_next, shuffle_decisions, adjust_decisions]
  rfl

/-! ## A turn changes what belongs to its domain -/

/-- Two states that agree on the parameters and on what is kept for a domain. -/
structure SameAt (d : DomainId) (p q : Layered α) : Prop where
  threshold : p.threshold = q.threshold
  pace : p.pace = q.pace
  lastShuffle : p.lastShuffle.find? d = q.lastShuffle.find? d
  history : p.history.find? d = q.history.find? d

namespace SameAt
variable {d : DomainId} {p q r : Layered α}

omit [Scalar α] in
theorem refl (d : DomainId) (p : Layered α) : SameAt d p p := ⟨rfl, rfl, rfl, rfl⟩

omit [Scalar α] in
theorem symm (h : SameAt d p q) : SameAt d q p :=
  ⟨h.threshold.symm, h.pace.symm, h.lastShuffle.symm, h.history.symm⟩

omit [Scalar α] in
theorem trans (h : SameAt d p q) (h' : SameAt d q r) : SameAt d p r :=
  ⟨h.threshold.trans h'.threshold, h.pace.trans h'.pace, h.lastShuffle.trans h'.lastShuffle,
    h.history.trans h'.history⟩

omit [Scalar α] in
theorem scores (h : SameAt d p q) : p.scores d = q.scores d := by
  rw [Layered.scores, h.history, Layered.scores]

omit [Scalar α] in
theorem window {e : DomainId × DomainSummary α} (h : SameAt e.1 p q) : p.window e = q.window e := by
  rw [Layered.window, h.scores, Layered.window]

theorem shuffleDue (h : SameAt d p q) (now : α) (m : DomainSummary α) :
    p.shuffleDue now d m = q.shuffleDue now d m := by
  rw [Layered.shuffleDue, lastShuffleTime, h.threshold, h.pace, h.lastShuffle]
  rfl

theorem attacked {e : DomainId × DomainSummary α} (h : SameAt e.1 p q) (s : Snapshot α) :
    p.attacked s e = q.attacked s e := by
  rw [Layered.attacked, h.window, Layered.attacked]

theorem routine {e : DomainId × DomainSummary α} (h : SameAt e.1 p q) (s : Snapshot α) :
    p.routine s e = q.routine s e := by
  have ht : (p.remember e.1 e.2.meanScore).target e.1 e.2 =
      (q.remember e.1 e.2.meanScore).target e.1 e.2 := by
    rw [target, target, scores_remember, scores_remember, h.window]
    simp only [remember, h.pace]
  simp only [Layered.routine, shuffle_decisions, adjust_decisions, h.shuffleDue, h.threshold, ht]

/-- The turn of a domain does the same to it in two states that agree on it. -/
theorem assess {e : DomainId × DomainSummary α} (h : SameAt e.1 p q) (s : Snapshot α) :
    SameAt e.1 (assess s p e).next (assess s q e).next := by
  rw [assess_next, assess_next]
  refine ⟨h.threshold, h.pace, ?_, ?_⟩
  · simp only [h.shuffleDue]
    split <;> simp [Table.find?_insert, h.lastShuffle]
  · simp [Table.find?_insert, h.window]

end SameAt

/-- The turn of another domain leaves a domain alone. -/
theorem assess_frame {d : DomainId} {e : DomainId × DomainSummary α} (h : d ≠ e.1)
    (s : Snapshot α) (p : Layered α) : SameAt d (assess s p e).next p := by
  rw [assess_next]
  refine ⟨rfl, rfl, ?_, ?_⟩
  · dsimp only
    split
    · rw [Table.find?_insert, if_neg h]
    · rfl
  · rw [Table.find?_insert, if_neg h]

/-- Domains without a turn are left alone. -/
theorem forEach_frame {d : DomainId} {es : List (DomainId × DomainSummary α)}
    (h : d ∉ es.map (·.1)) (s : Snapshot α) (p : Layered α) :
    SameAt d (Outcome.forEach (assess s) p es).next p := by
  induction es generalizing p with
  | nil => exact .refl d p
  | cons e rest ih =>
    simp only [List.map_cons, List.mem_cons, not_or] at h
    exact (ih h.2 _).trans (assess_frame h.1 s p)

/-- A domain ends an epoch as its own turn alone would leave it. -/
theorem forEach_at {e : DomainId × DomainSummary α} {es : List (DomainId × DomainSummary α)}
    (hn : (es.map (·.1)).Nodup) (he : e ∈ es) (s : Snapshot α) (p : Layered α) :
    SameAt e.1 (Outcome.forEach (assess s) p es).next (assess s p e).next := by
  induction es generalizing p with
  | nil => cases he
  | cons f rest ih =>
    simp only [List.map_cons, List.nodup_cons] at hn
    rcases List.mem_cons.1 he with rfl | he
    · exact forEach_frame hn.1 s _
    · -- An earlier turn leaves the domain alone, so its own turn starts from the same things.
      have hne : e.1 ≠ f.1 := fun h => hn.1 (h ▸ List.mem_map_of_mem he)
      exact (ih hn.2 he _).trans ((assess_frame hne s p).assess s)

/-! ## All domains in turn -/

/-- The first of some domains at which the alarm is raised, if it is raised at all. -/
def firstAttacked? (p : Layered α) (s : Snapshot α) (es : List (DomainId × DomainSummary α)) :
    Option DomainId :=
  if p.alarmed then none else (es.find? (p.attacked s)).map (·.1)

/-- What an epoch proposes for a domain, when the alarm is raised at domain `first`. -/
def verdict (p : Layered α) (s : Snapshot α) (first : Option DomainId)
    (e : DomainId × DomainSummary α) : List (Decision α) :=
  p.routine s e ++ if first = some e.1 then [avoid e.1] else []

theorem forEach_decisions {es : List (DomainId × DomainSummary α)} (hn : (es.map (·.1)).Nodup)
    (s : Snapshot α) (p : Layered α) :
    (Outcome.forEach (assess s) p es).decisions =
      es.flatMap (p.verdict s (p.firstAttacked? s es)) := by
  induction es generalizing p with
  | nil => rfl
  | cons e rest ih =>
    simp only [List.map_cons, List.nodup_cons] at hn
    have hne : ∀ f ∈ rest, f.1 ≠ e.1 := fun f hf h => hn.1 (h ▸ List.mem_map_of_mem hf)
    have hsame : ∀ f ∈ rest, SameAt f.1 (assess s p e).next p :=
      fun f hf => assess_frame (hne f hf) s p
    rw [Outcome.forEach, Outcome.decisions_andThen, ih hn.2, assess_decisions, List.flatMap_cons]
    -- The alarm is raised here, or later as if this domain were not there.
    have hfirst : ∀ f ∈ rest, ((assess s p e).next.firstAttacked? s rest = some f.1 ↔
        p.firstAttacked? s (e :: rest) = some f.1) := by
      intro f hf
      have hfind : rest.find? ((assess s p e).next.attacked s) = rest.find? (p.attacked s) :=
        List.find?_congr fun g hg => (hsame g hg).attacked s
      have ha : (assess s p e).next.alarmed = (p.alarmed || p.attacked s e) := by rw [assess_next]
      rw [firstAttacked?, firstAttacked?, hfind, ha, List.find?_cons]
      cases p.alarmed <;> cases p.attacked s e <;> simp [(hne f hf).symm]
    have hhere : (p.firstAttacked? s (e :: rest) = some e.1) ↔
        (!p.alarmed && p.attacked s e) = true := by
      rw [firstAttacked?, List.find?_cons]
      cases p.alarmed <;> cases p.attacked s e <;> simp
      intro m hm
      exact hne _ (List.mem_of_find?_eq_some hm) rfl
    congr 1
    · rw [verdict]
      simp only [hhere]
    · refine List.flatMap_congr fun f hf => ?_
      rw [verdict, verdict, (hsame f hf).routine]
      simp only [hfirst f hf]

theorem forEach_alarmed {es : List (DomainId × DomainSummary α)} (hn : (es.map (·.1)).Nodup)
    (s : Snapshot α) (p : Layered α) :
    (Outcome.forEach (assess s) p es).next.alarmed = (p.alarmed || es.any (p.attacked s)) := by
  induction es generalizing p with
  | nil => simp [Outcome.forEach]
  | cons e rest ih =>
    simp only [List.map_cons, List.nodup_cons] at hn
    have hany : rest.any ((assess s p e).next.attacked s) = rest.any (p.attacked s) := by
      rw [Bool.eq_iff_iff, List.any_eq_true, List.any_eq_true]
      refine exists_congr fun f => and_congr_right fun hf => ?_
      rw [(assess_frame (fun h => hn.1 (h ▸ List.mem_map_of_mem hf)) s p).attacked s]
    rw [Outcome.forEach, Outcome.next_andThen, ih hn.2, hany, List.any_cons, ← Bool.or_assoc,
      assess_next]

theorem forEach_parameters (s : Snapshot α) (p : Layered α)
    (es : List (DomainId × DomainSummary α)) :
    (Outcome.forEach (assess s) p es).next.threshold = p.threshold ∧
      (Outcome.forEach (assess s) p es).next.pace = p.pace ∧
      (Outcome.forEach (assess s) p es).next.isolationLevel = p.isolationLevel := by
  induction es generalizing p with
  | nil => exact ⟨rfl, rfl, rfl⟩
  | cons e rest ih =>
    rw [Outcome.forEach, Outcome.next_andThen, assess_next]
    exact ih _

/-! ## Spreading users proposes migrations only -/

omit [Scalar α] in
theorem spreadUser_next (s : Snapshot α) (ms : Table DomainId (DomainSummary α)) (p : Layered α)
    (u : UserId) : (spreadUser s ms p u).next = p := by
  unfold spreadUser
  split
  · rfl
  · split <;> rfl

omit [Scalar α] in
theorem spread_next (s : Snapshot α) (ms : Table DomainId (DomainSummary α)) (p : Layered α) :
    (spread s ms p).next = p :=
  (Outcome.forEach_of_next_eq (spreadUser_next s ms) p _).1

omit [Scalar α] in
/-- The migration of a user who is spread, if there is a domain to move to. -/
def relocation? (s : Snapshot α) (ms : Table DomainId (DomainSummary α)) (u : UserId) :
    Option (Decision α) :=
  (s.domainOf? u).bind fun home => (destination? ms home).map fun d =>
    .migrateUser u d s!"Distributing high-risk user {u}"

omit [Scalar α] in
theorem spreadUser_decisions (s : Snapshot α) (ms : Table DomainId (DomainSummary α))
    (p : Layered α) (u : UserId) :
    (spreadUser s ms p u).decisions = (relocation? s ms u).toList := by
  unfold spreadUser relocation?
  cases s.domainOf? u with
  | none => rfl
  | some home => cases h : destination? ms home <;> simp [h]

omit [Scalar α] in
/-- Spreading looks at the users one by one; of the policy it reads the isolation level alone. -/
theorem spread_decisions (s : Snapshot α) (ms : Table DomainId (DomainSummary α))
    (p : Layered α) :
    (spread s ms p).decisions =
      ((s.usersAtLeast p.isolationLevel).take isolationsPerEpoch).filterMap (relocation? s ms) := by
  rw [spread, (Outcome.forEach_of_next_eq (spreadUser_next s ms) p _).2.1,
    List.filterMap_eq_flatMap_toList]
  exact List.flatMap_congr fun u _ => spreadUser_decisions s ms p u

omit [Scalar α] in
theorem eq_migrateUser_of_relocation? {s : Snapshot α} {ms : Table DomainId (DomainSummary α)}
    {u : UserId} {x : Decision α} (h : relocation? s ms u = some x) :
    ∃ home d, s.domainOf? u = some home ∧ destination? ms home = some d ∧
      x = .migrateUser u d s!"Distributing high-risk user {u}" := by
  obtain ⟨home, hhome, h⟩ := Option.bind_eq_some_iff.1 h
  obtain ⟨d, hd, rfl⟩ := Option.map_eq_some_iff.1 h
  exact ⟨home, d, hhome, hd, rfl⟩

omit [Scalar α] in
theorem mem_spread {s : Snapshot α} {ms : Table DomainId (DomainSummary α)} {p : Layered α}
    {x : Decision α} (h : x ∈ (spread s ms p).decisions) :
    ∃ u d reason, x = .migrateUser u d reason := by
  rw [spread_decisions] at h
  obtain ⟨u, -, hu⟩ := List.mem_filterMap.1 h
  obtain ⟨home, d, -, -, rfl⟩ := eq_migrateUser_of_relocation? hu
  exact ⟨u, d, _, rfl⟩

omit [Scalar α] in
theorem filter_spread_eq_nil {q : Decision α → Bool}
    (h : ∀ u d reason, q (.migrateUser u d reason) = false) (s : Snapshot α)
    (ms : Table DomainId (DomainSummary α)) (p : Layered α) :
    (spread s ms p).decisions.filter q = [] := by
  refine List.filter_eq_nil_iff.2 fun x hx => ?_
  obtain ⟨u, d, reason, rfl⟩ := mem_spread hx
  rw [h]
  exact Bool.false_ne_true

/-! ## The epoch -/

/-- Domain by domain in key order, then the users that are spread. -/
theorem evaluate_decisions (p : Layered α) (s : Snapshot α) :
    (p.evaluate s).decisions =
      s.summaries.entries.flatMap (p.verdict s (p.firstAttacked? s s.summaries.entries)) ++
        (spread s s.summaries p).decisions := by
  rw [evaluate, Outcome.decisions_andThen, forEach_decisions s.summaries.nodup_keys,
    spread_decisions, spread_decisions, (forEach_parameters s p _).2.2]

theorem evaluate_next (p : Layered α) (s : Snapshot α) :
    (p.evaluate s).next = (Outcome.forEach (assess s) p s.summaries.entries).next := by
  rw [evaluate, Outcome.next_andThen, spread_next]

theorem evaluate_parameters (p : Layered α) (s : Snapshot α) :
    (p.evaluate s).next.threshold = p.threshold ∧ (p.evaluate s).next.pace = p.pace ∧
      (p.evaluate s).next.isolationLevel = p.isolationLevel := by
  rw [evaluate_next]
  exact forEach_parameters s p _

theorem evaluate_alarmed (p : Layered α) (s : Snapshot α) :
    (p.evaluate s).next.alarmed = (p.alarmed || s.summaries.entries.any (p.attacked s)) := by
  rw [evaluate_next, forEach_alarmed s.summaries.nodup_keys]

/-- A domain of the snapshot ends the epoch as its own turn alone would leave it. -/
theorem evaluate_at {s : Snapshot α} {d : DomainId} {m : DomainSummary α}
    (h : s.summaries.find? d = some m) (p : Layered α) :
    SameAt d (p.evaluate s).next (assess s p (d, m)).next := by
  rw [evaluate_next]
  exact forEach_at (e := (d, m)) s.summaries.nodup_keys (Table.find?_eq_some_iff.1 h) s p

/-- A domain that the snapshot leaves out is left alone. -/
theorem evaluate_frame {s : Snapshot α} {d : DomainId} (h : s.summaries.find? d = none)
    (p : Layered α) : SameAt d (p.evaluate s).next p := by
  rw [evaluate_next]
  exact forEach_frame (Table.find?_eq_none_iff.1 h) s p

theorem evaluate_lastShuffle (p : Layered α) (s : Snapshot α) (d : DomainId) :
    (p.evaluate s).next.lastShuffle.find? d =
      if (s.summaries.find? d).any (p.shuffleDue s.seconds d) then some s.seconds
      else p.lastShuffle.find? d := by
  cases h : s.summaries.find? d with
  | none => rw [(evaluate_frame h p).lastShuffle]; rfl
  | some m =>
    rw [(evaluate_at h p).lastShuffle, assess_next, Option.any_some]
    dsimp only
    split
    · rw [Table.find?_insert, if_pos rfl]
    · rfl

theorem evaluate_history (p : Layered α) (s : Snapshot α) (d : DomainId) :
    (p.evaluate s).next.history.find? d =
      ((s.summaries.find? d).map fun m => p.window (d, m)).or (p.history.find? d) := by
  cases h : s.summaries.find? d with
  | none => rw [(evaluate_frame h p).history]; rfl
  | some m => rw [(evaluate_at h p).history, assess_next, Table.find?_insert, if_pos rfl]; rfl

/-! ## The shuffles of an epoch -/

theorem shuffle_shuffles (p : Layered α) (now : α) (k d : DomainId) (m : DomainSummary α)
    (mode : ShuffleMode) :
    (p.shuffle now k m).decisions.any (·.shuffles d mode) =
      (k = d && (mode = .scoreDriven && p.shuffleDue now k m)) := by
  rw [shuffle_decisions]
  cases p.shuffleDue now k m
  · simp
  · simp [Decision.shuffles, eq_comm]

theorem adjust_shuffles (p : Layered α) (k d : DomainId) (m : DomainSummary α)
    (mode : ShuffleMode) : (p.adjust k m).decisions.any (·.shuffles d mode) = false := by
  rw [adjust_decisions]
  split <;> rfl

omit [Scalar α] in
theorem spread_shuffles (s : Snapshot α) (ms : Table DomainId (DomainSummary α)) (p : Layered α)
    (d : DomainId) (mode : ShuffleMode) :
    (spread s ms p).decisions.any (·.shuffles d mode) = false := by
  rw [List.any_eq_false]
  intro x hx
  obtain ⟨u, k, reason, rfl⟩ := mem_spread hx
  simp [Decision.shuffles]

/-- A domain is shuffled for its score when its mean score and the last shuffle ask for it. -/
theorem evaluate_shuffles_scoreDriven (p : Layered α) (s : Snapshot α) (d : DomainId) :
    (p.evaluate s).decisions.any (·.shuffles d .scoreDriven) =
      (s.summaries.find? d).any (p.shuffleDue s.seconds d) := by
  -- Only the verdict on `d` itself can shuffle `d`, and the alarm shuffles in another mode.
  have hv : ∀ first, ∀ e : DomainId × DomainSummary α,
      (p.verdict s first e).any (·.shuffles d .scoreDriven) =
        (e.1 = d && p.shuffleDue s.seconds d e.2) := by
    intro first e
    rw [verdict, routine, List.any_append, List.any_append, shuffle_shuffles, adjust_shuffles]
    by_cases hk : e.1 = d
    · subst hk
      split <;> simp [avoid, Decision.shuffles]
    · split <;> simp [avoid, Decision.shuffles, hk]
  rw [evaluate_decisions, List.any_append, List.any_flatMap, spread_shuffles, Bool.or_false]
  simp only [hv]
  exact s.summaries.any_entries_eq d _

theorem firstAttacked?_mem {p : Layered α} {s : Snapshot α} {d : DomainId}
    {es : List (DomainId × DomainSummary α)} (h : p.firstAttacked? s es = some d) :
    d ∈ es.map (·.1) := by
  unfold firstAttacked? at h
  split at h
  · cases h
  · obtain ⟨e, he, rfl⟩ := Option.map_eq_some_iff.1 h
    exact List.mem_map_of_mem (List.mem_of_find?_eq_some he)

/-- An epoch shuffles away from attackers where the alarm is raised, and nowhere else. -/
theorem evaluate_alarms (p : Layered α) (s : Snapshot α) :
    (p.evaluate s).decisions.filter (fun x => x.mode? = some .attackerAvoid) =
      (p.firstAttacked? s s.summaries.entries).toList.map avoid := by
  have hv : ∀ first, ∀ e : DomainId × DomainSummary α,
      (p.verdict s first e).filter (fun x => x.mode? = some .attackerAvoid) =
        if first = some e.1 then [avoid e.1] else [] := by
    intro first e
    rw [verdict, routine, List.filter_append, List.filter_append, shuffle_decisions,
      adjust_decisions]
    repeat' split
    all_goals simp [avoid, Decision.mode?]
  have hs := filter_spread_eq_nil (q := fun x => x.mode? = some .attackerAvoid)
    (fun _ _ _ => rfl) s s.summaries p
  rw [evaluate_decisions, List.filter_append, List.filter_flatMap, hs, List.append_nil]
  simp only [hv]
  cases h : p.firstAttacked? s s.summaries.entries with
  | none => simp
  | some d =>
    obtain ⟨m, hm⟩ := Table.mem_keys_iff.1 (firstAttacked?_mem h)
    have hkey : s.summaries.entries.lookup d = some m := hm
    simp only [Option.some.injEq, @eq_comm _ d]
    rw [Table.flatMap_key s.summaries.nodup_keys d fun e => [avoid e.1], hkey]
    rfl

theorem avoids_iff {p : Layered α} {s : Snapshot α} {d : DomainId} :
    (∃ reason, .triggerShuffle d .attackerAvoid reason ∈ (p.evaluate s).decisions) ↔
      p.firstAttacked? s s.summaries.entries = some d := by
  have hm : ∀ x : Decision α, x ∈ (p.evaluate s).decisions ∧ x.mode? = some .attackerAvoid ↔
      ∃ k, p.firstAttacked? s s.summaries.entries = some k ∧ avoid k = x := by
    intro x
    have := congrArg (x ∈ ·) (evaluate_alarms p s)
    simpa [List.mem_filter] using this
  constructor
  · rintro ⟨reason, h⟩
    obtain ⟨k, hk, hx⟩ := (hm _).1 ⟨h, rfl⟩
    obtain ⟨rfl, -, -⟩ := Decision.triggerShuffle.inj hx
    exact hk
  · intro h
    exact ⟨_, ((hm (avoid d)).2 ⟨d, h, rfl⟩).1⟩

end Layered
end MovingTarget
