import MovingTarget.Policy.Catalogue
import MovingTarget.Proofs.Layered.Memory
/-!
# The window loses nothing

Next to the layered policy runs one that keeps every mean score of a domain. Cutting its scores
down to the window gives the state of the layered policy (`evaluate_cut`), so in every run the two
return the same decisions, and the window holds the newest of all scores.
-/
namespace MovingTarget

namespace Outcome
variable {σ τ ι α : Type}

@[simp] theorem map_quiet (f : σ → τ) (s : σ) : (quiet s : Outcome σ α).map f = quiet (f s) := rfl

theorem map_andThen {o : Outcome σ α} {o' : Outcome τ α} {f : σ → τ} {step : σ → Outcome σ α}
    {step' : τ → Outcome τ α} (ho : o' = o.map f) (h : ∀ s, step' (f s) = (step s).map f) :
    o'.andThen step' = (o.andThen step).map f := by
  subst ho
  rw [andThen, map, h]
  rfl

theorem map_forEach {f : σ → τ} {step : σ → ι → Outcome σ α} {step' : τ → ι → Outcome τ α}
    (h : ∀ s i, step' (f s) i = (step s i).map f) (s : σ) (is : List ι) :
    forEach step' (f s) is = (forEach step s is).map f := by
  induction is generalizing s with
  | nil => rfl
  | cons i rest ih => exact map_andThen (h s i) ih

end Outcome

namespace Layered
variable {α : Type}

/-- The mean scores kept for a domain that has been seen, oldest first. -/
def riskHistory? (p : Layered α) (d : DomainId) : Option (List α) :=
  (p.history.find? d).map List.reverse

/-- Put the newest mean score in front of all others. -/
def rememberAll (p : Layered α) (d : DomainId) (score : α) : Layered α :=
  { p with history := p.history.insert d (score :: p.scores d) }

/-- The state with the window of every domain cut to size. -/
def cut (p : Layered α) : Layered α :=
  { p with history := p.history.mapValues (·.take historyCapacity) }

variable [Scalar α]

/-- Everything that concerns one domain, when every score is kept. -/
def assessAll (s : Snapshot α) (p : Layered α) (e : DomainId × DomainSummary α) :
    Outcome (Layered α) α :=
  ((((Outcome.quiet (p.rememberAll e.1 e.2.meanScore)).andThen
    fun p => p.shuffle s.seconds e.1 e.2).andThen
    fun p => p.adjust e.1 e.2).andThen
    fun p => p.alarm s e.1)

/-- An epoch, when every score is kept. -/
def evaluateAll (p : Layered α) (s : Snapshot α) : Outcome (Layered α) α :=
  let summaries := s.summaries
  (Outcome.forEach (assessAll s) p summaries.entries).andThen (spread s summaries)

end Layered

/-- The layered policy with every mean score of a domain in place of a window. -/
structure Unbounded (α : Type) where
  layered : Layered α

instance {α : Type} [Scalar α] : Policy (Unbounded α) α where
  name u := Policy.name u.layered
  evaluate u s := (u.layered.evaluateAll s).map Unbounded.mk
  configure u given := ⟨Policy.configure u.layered given⟩
  reset u := ⟨Policy.reset u.layered⟩
  statistics u := Policy.statistics u.layered

namespace Layered
variable {α : Type}

/-! ## Cutting commutes with every step -/

theorem scores_cut (p : Layered α) (d : DomainId) :
    p.cut.scores d = (p.scores d).take historyCapacity := by
  rw [scores, cut, Table.find?_mapValues, scores]
  cases p.history.find? d <;> rfl

theorem remember_cut (p : Layered α) (d : DomainId) (score : α) :
    p.cut.remember d score = (p.rememberAll d score).cut := by
  rw [remember, scores_cut, take_cons_take, rememberAll]
  simp only [cut, Table.insert_mapValues]

variable [Scalar α]

theorem shuffle_cut (p : Layered α) (now : α) (d : DomainId) (m : DomainSummary α) :
    p.cut.shuffle now d m = (p.shuffle now d m).map cut := by
  have h : p.cut.shuffleDue now d m = p.shuffleDue now d m := rfl
  rw [shuffle, h, shuffle]
  split <;> rfl

theorem adjust_cut (p : Layered α) (d : DomainId) (m : DomainSummary α) :
    p.cut.adjust d m = (p.adjust d m).map cut := by
  have h : p.cut.target d m = p.target d m := by
    rw [target, scores_cut, trend?_take, target]
    rfl
  rw [adjust, h, adjust]
  split <;> rfl

theorem alarm_cut (p : Layered α) (s : Snapshot α) (d : DomainId) :
    p.cut.alarm s d = (p.alarm s d).map cut := by
  have h : p.cut.alarmed = p.alarmed := rfl
  rw [alarm, h, scores_cut, spiked_take, alarm]
  split <;> rfl

theorem assess_cut (s : Snapshot α) (p : Layered α) (e : DomainId × DomainSummary α) :
    assess s p.cut e = (assessAll s p e).map cut := by
  refine Outcome.map_andThen (Outcome.map_andThen (Outcome.map_andThen ?_ ?_) ?_) ?_
  · rw [remember_cut, Outcome.map_quiet]
  · exact fun p => p.shuffle_cut s.seconds e.1 e.2
  · exact fun p => p.adjust_cut e.1 e.2
  · exact fun p => p.alarm_cut s e.1

omit [Scalar α] in
theorem spread_cut (s : Snapshot α) (ms : Table DomainId (DomainSummary α)) (p : Layered α) :
    spread s ms p.cut = (spread s ms p).map cut := by
  refine Outcome.map_forEach (fun p u => ?_) p _
  unfold spreadUser
  split
  · rfl
  · split <;> rfl

/-- An epoch cuts nothing off that it would have looked at. -/
theorem evaluate_cut (p : Layered α) (s : Snapshot α) :
    p.cut.evaluate s = (p.evaluateAll s).map cut :=
  Outcome.map_andThen (Outcome.map_forEach (assess_cut s) p _) (spread_cut s s.summaries)

/-! ## Runs side by side -/

theorem after_cut (u : Unbounded α) (c : Call α) :
    Policy.after u.layered.cut c = (Policy.after u c).layered.cut := by
  cases c with
  | evaluate s => exact congrArg Outcome.next (u.layered.evaluate_cut s)
  | configure given => rfl
  | reset => rfl
  | event e => rfl

/-- The states of the layered policy are those of the one without a window, cut to size. -/
theorem run_cut (threshold : α) (pace : Pace α) (level : RiskLevel) (calls : List (Call α)) :
    run (fresh threshold pace level) calls =
      (run (Unbounded.mk (fresh threshold pace level)) calls).map (·.layered.cut) :=
  run_map (f := fun u : Unbounded α => u.layered.cut) after_cut ⟨fresh threshold pace level⟩ calls

theorem epochs_cut (threshold : α) (pace : Pace α) (level : RiskLevel) (calls : List (Call α)) :
    (run (fresh threshold pace level) calls).epochs =
      (run (Unbounded.mk (fresh threshold pace level)) calls).epochs.map
        (Epoch.map (·.layered.cut)) := by
  rw [run_cut, epochs_map]

theorem decisions_cut (e : Epoch (Unbounded α) α) :
    (e.map (·.layered.cut)).decisions = e.decisions := by
  change (e.before.layered.cut.evaluate e.snapshot).decisions = _
  rw [evaluate_cut]
  rfl

theorem assessAll_history (p : Layered α) (s : Snapshot α) (e : DomainId × DomainSummary α) :
    (assessAll s p e).next.history = p.history.insert e.1 (e.2.meanScore :: p.scores e.1) := by
  simp only [assessAll, Outcome.next_andThen, Outcome.next_quiet, adjust_next, alarm_next,
    shuffle_next]
  rfl

theorem forEach_assessAll_history {es : List (DomainId × DomainSummary α)}
    (hn : (es.map (·.1)).Nodup) (s : Snapshot α) (p : Layered α) (d : DomainId) :
    (Outcome.forEach (assessAll s) p es).next.history.find? d =
      ((es.lookup d).map fun m => m.meanScore :: p.scores d).or (p.history.find? d) := by
  induction es generalizing p with
  | nil => rfl
  | cons e rest ih =>
    simp only [List.map_cons, List.nodup_cons] at hn
    rw [Outcome.forEach, Outcome.next_andThen, ih hn.2, scores, assessAll_history,
      Table.find?_insert, Table.lookup_entry]
    by_cases h : d = e.1
    · -- No later turn is for this domain, so its score stays in front.
      have hrest : rest.lookup d = none := Table.lookup_eq_none_of_notMem (h ▸ hn.1)
      rw [hrest, if_pos h, if_pos h]
      simp [h]
    · rw [if_neg h, if_neg h]
      rfl

/-- Without a window all scores of a domain are kept. -/
theorem run_history_all (threshold : α) (pace : Pace α) (level : RiskLevel)
    (calls : List (Call α)) (d : DomainId) :
    let r := run (Unbounded.mk (fresh threshold pace level)) calls
    r.state.layered.history.find? d =
      if (averages r.epochs d).isEmpty then none else some (averages r.epochs d).reverse := by
  refine run_induction (motive := fun (u : Unbounded α) es => u.layered.history.find? d =
      if (averages es d).isEmpty then none else some (averages es d).reverse)
    rfl ?_ (fun _ _ _ ih => ih) (fun _ _ _ ih => ih) (fun _ _ _ => rfl) calls
  intro u es s _ ih
  have hscores : u.layered.scores d = (averages es d).reverse := by
    rw [scores, ih]
    cases averages es d <;> simp
  change (spread s s.summaries _).next.history.find? d = _
  rw [spread_next, forEach_assessAll_history s.summaries.nodup_keys, averages_concat, hscores, ih]
  change ((s.summaries.find? d).map _).or _ = _
  cases s.summaries.find? d <;> simp

/-! ## What a host can see of the window -/

/-- The policy reads the scores of a domain, oldest first, at places that are there. -/
structure ReadsInRange (scores : List α) : Prop where
  last : scores ≠ [] → ∃ x, scores[scores.length - 1]? = some x ∧ scores.reverse.head? = some x
  trend : 5 ≤ scores.length → ∃ x y, scores[scores.length - 5]? = some x ∧
    scores[scores.length - 1]? = some y ∧ trend? scores.reverse = some ((y - x) / 5.0)
  noTrend : scores.length < 5 → trend? scores.reverse = none
  spike : 3 ≤ scores.length → ∃ x y, scores[scores.length - 3]? = some x ∧
    scores[scores.length - 1]? = some y ∧ spiked scores.reverse = decide (spike < y - x)
  noSpike : scores.length < 3 → spiked scores.reverse = false

theorem readsInRange (scores : List α) : ReadsInRange scores := by
  obtain ⟨l, rfl⟩ : ∃ l, scores = l.reverse := ⟨scores.reverse, scores.reverse_reverse.symm⟩
  -- The place `i` of the scores, newest first, is the place `i + 1` from the end, oldest first.
  have hget : ∀ i x, l[i]? = some x → l.reverse[l.length - (i + 1)]? = some x := by
    intro i x h
    have hi := (List.getElem?_eq_some_iff.1 h).1
    rw [List.getElem?_reverse (by omega), ← h]
    exact congrArg (l[·]?) (by omega)
  constructor <;> rw [List.reverse_reverse, List.length_reverse]
  · intro h
    obtain ⟨x, rest, rfl⟩ := List.exists_cons_of_ne_nil (mt List.reverse_eq_nil_iff.2 h)
    exact ⟨x, hget 0 x rfl, rfl⟩
  · intro h
    rcases l with _ | ⟨y, _ | ⟨_, _ | ⟨_, _ | ⟨_, _ | ⟨x, rest⟩⟩⟩⟩⟩
    iterate 5 exact absurd h (by simp only [List.length_cons, List.length_nil]; omega)
    exact ⟨x, y, hget 4 x rfl, hget 0 y rfl, rfl⟩
  · intro h
    rcases l with _ | ⟨y, _ | ⟨_, _ | ⟨_, _ | ⟨_, _ | ⟨x, rest⟩⟩⟩⟩⟩
    iterate 5 rfl
    exact absurd h (by simp only [List.length_cons]; omega)
  · intro h
    rcases l with _ | ⟨y, _ | ⟨_, _ | ⟨x, rest⟩⟩⟩
    iterate 3 exact absurd h (by simp only [List.length_cons, List.length_nil]; omega)
    exact ⟨x, y, hget 2 x rfl, hget 0 y rfl, rfl⟩
  · intro h
    rcases l with _ | ⟨y, _ | ⟨_, _ | ⟨x, rest⟩⟩⟩
    iterate 3 rfl
    exact absurd h (by simp only [List.length_cons]; omega)

theorem find?_statistics (p : Layered α) :
    (statistics p).find? "domains_tracked" = some (Scalar.ofCount p.history.size) ∧
      (statistics p).find? "avg_current_risk" = p.currentRisk? := by
  rw [statistics, Table.find?_ofList, Table.find?_ofList]
  cases p.currentRisk? <;> exact ⟨rfl, rfl⟩

omit [Scalar α] in
theorem mem_values_iff {p : Layered α} {l : List α} :
    l ∈ p.history.values ↔ ∃ d, p.history.find? d = some l := by
  simp only [Table.find?_eq_some_iff]
  constructor
  · intro h
    obtain ⟨⟨d, _⟩, he, rfl⟩ := List.mem_map.1 h
    exact ⟨d, he⟩
  · rintro ⟨d, h⟩
    exact List.mem_map.2 ⟨(d, l), h, rfl⟩

theorem isSome_currentRisk? (p : Layered α) :
    p.currentRisk?.isSome = true ↔ ∃ d x l, p.history.find? d = some (x :: l) := by
  have h : p.history.values.filterMap List.head? ≠ [] ↔
      ∃ d x l, p.history.find? d = some (x :: l) := by
    rw [Ne, List.filterMap_eq_nil_iff, not_forall]
    constructor
    · rintro ⟨l, h⟩
      obtain ⟨hl, hx⟩ := Classical.not_imp.1 h
      obtain ⟨d, hd⟩ := mem_values_iff.1 hl
      obtain ⟨x, rest, rfl⟩ := List.exists_cons_of_ne_nil (mt List.head?_eq_none_iff.2 hx)
      exact ⟨d, x, rest, hd⟩
    · rintro ⟨d, x, l, hd⟩
      exact ⟨x :: l, Classical.not_imp.2 ⟨mem_values_iff.2 ⟨d, hd⟩, nofun⟩⟩
  rw [← h, currentRisk?]
  cases p.history.values.filterMap List.head? <;> simp

theorem riskHistory?_eq (threshold : α) (pace : Pace α) (level : RiskLevel)
    (calls : List (Call α)) (d : DomainId) :
    let r := run (fresh threshold pace level) calls
    r.state.riskHistory? d = if d ∈ seen r.epochs then
      some ((averages r.epochs d).drop ((averages r.epochs d).length - historyCapacity))
    else none := by
  intro r
  rw [riskHistory?, run_history]
  by_cases h : averages r.epochs d = []
  · rw [if_neg fun hd => mem_seen_iff.1 hd h, if_pos (List.isEmpty_iff.2 h)]
    rfl
  · rw [if_pos (mem_seen_iff.2 h), if_neg (mt List.isEmpty_iff.1 h), Option.map_some,
      List.take_reverse, List.reverse_reverse]

theorem riskHistory?_all (threshold : α) (pace : Pace α) (level : RiskLevel)
    (calls : List (Call α)) (d : DomainId) :
    let r := run (fresh threshold pace level) calls
    let full := run (Unbounded.mk (fresh threshold pace level)) calls
    full.state.layered.riskHistory? d =
      if d ∈ seen r.epochs then some (averages r.epochs d) else none := by
  intro r full
  have haverages : averages full.epochs d = averages r.epochs d := by
    change _ = averages (run _ calls).epochs d
    rw [epochs_cut, averages_map]
  have hall : full.state.layered.history.find? d =
      if (averages full.epochs d).isEmpty then none else some (averages full.epochs d).reverse :=
    run_history_all threshold pace level calls d
  rw [haverages] at hall
  simp only [riskHistory?, hall, mem_seen_iff]
  cases averages r.epochs d <;> simp

omit [Scalar α] in
theorem scores_of_riskHistory? {p : Layered α} {d : DomainId} {scores : List α}
    (h : p.riskHistory? d = some scores) : p.scores d = scores.reverse := by
  obtain ⟨l, hl, rfl⟩ := Option.map_eq_some_iff.1 h
  rw [Layered.scores, hl, List.reverse_reverse]
  rfl

theorem riskHistory?_ne_nil {threshold : α} {pace : Pace α} {level : RiskLevel}
    {calls : List (Call α)} {d : DomainId} {scores : List α}
    (h : (run (fresh threshold pace level) calls).state.riskHistory? d = some scores) :
    scores ≠ [] := by
  rw [riskHistory?_eq] at h
  split at h
  · next hd =>
    have hlen := List.length_pos_iff.2 (mem_seen_iff.1 hd)
    obtain rfl := Option.some.inj h
    refine mt List.drop_eq_nil_iff.1 (Nat.not_le_of_lt ?_)
    exact Nat.sub_lt hlen (by decide)
  · cases h

theorem size_history (threshold : α) (pace : Pace α) (level : RiskLevel)
    (calls : List (Call α)) :
    let r := run (fresh threshold pace level) calls
    r.state.history.size = (seen r.epochs).length := by
  intro r
  refine Table.size_eq_of_mem (List.nodup_dedup _) fun d => ?_
  have h := riskHistory?_eq threshold pace level calls d
  rw [Table.mem_keys_iff, ← Option.isSome_iff_exists, ← Option.isSome_map, ← riskHistory?, h]
  split <;> simpa

theorem isSome_currentRisk?_run (threshold : α) (pace : Pace α) (level : RiskLevel)
    (calls : List (Call α)) :
    let r := run (fresh threshold pace level) calls
    r.state.currentRisk?.isSome = true ↔ 0 < (seen r.epochs).length := by
  intro r
  rw [isSome_currentRisk?, List.length_pos_iff_exists_mem]
  refine exists_congr fun d => ?_
  rw [run_history, mem_seen_iff]
  constructor
  · rintro ⟨x, l, h⟩ hnil
    rw [if_pos (List.isEmpty_iff.2 hnil)] at h
    cases h
  · intro h
    have hne : (averages r.epochs d).reverse.take historyCapacity ≠ [] := by
      simpa [historyCapacity] using h
    obtain ⟨x, l, hx⟩ := List.exists_cons_of_ne_nil hne
    exact ⟨x, l, by rw [if_neg (mt List.isEmpty_iff.1 h), hx]⟩

/-- In every run the layered policy returns what the policy without a window returns. That one
keeps all scores of every domain seen, the layered policy the newest of them, which it reads in
range; both numbers about them in its statistics are about the domains seen. -/
theorem window_refines_full_history (threshold : α) (pace : Pace α) (level : RiskLevel)
    (calls : List (Call α)) :
    let r := run (fresh threshold pace level) calls
    let full := run (Unbounded.mk (fresh threshold pace level)) calls
    r.epochs.map Epoch.decisions = full.epochs.map Epoch.decisions ∧
    (∀ d, full.state.layered.riskHistory? d =
      if d ∈ seen r.epochs then some (averages r.epochs d) else none) ∧
    (∀ d, r.state.riskHistory? d = if d ∈ seen r.epochs then
        some ((averages r.epochs d).drop ((averages r.epochs d).length - historyCapacity))
      else none) ∧
    (∀ d scores, r.state.riskHistory? d = some scores →
      scores ≠ [] ∧ r.state.scores d = scores.reverse ∧ ReadsInRange scores) ∧
    (Policy.statistics r.state).find? "domains_tracked" =
      some (Scalar.ofCount (seen r.epochs).length) ∧
    (((Policy.statistics r.state).find? "avg_current_risk").isSome = true ↔
      0 < (seen r.epochs).length) := by
  intro r full
  obtain ⟨hsize, hrisk⟩ := find?_statistics r.state
  refine ⟨?_, riskHistory?_all threshold pace level calls,
    riskHistory?_eq threshold pace level calls, fun d scores h => ?_, ?_, ?_⟩
  · change (run _ calls).epochs.map _ = _
    rw [epochs_cut, List.map_map]
    exact List.map_congr_left fun e _ => decisions_cut e
  · exact ⟨riskHistory?_ne_nil h, scores_of_riskHistory? h, readsInRange scores⟩
  · rw [← size_history threshold pace level calls]
    exact hsize
  · change (Table.find? (statistics r.state) _).isSome = true ↔ _
    rw [hrisk]
    exact isSome_currentRisk?_run threshold pace level calls

end Layered
end MovingTarget
