import MovingTarget.Policy.ScoreThreshold
import MovingTarget.Proofs.Comparisons
import MovingTarget.Proofs.Decimal.Doubles
import MovingTarget.Proofs.Layered.Cooldown
/-!
# Two tests of one threshold

One policy shuffles a domain if its mean score exceeds the threshold, the other one unless the mean
score is at most the threshold. Of a mean score and a threshold that are numbers both ask the same,
and then the two policies differ by the cooldown alone (`filter_rated`). What is no number is
neither above the threshold nor at most it, so the second policy shuffles where the first does not.
-/
namespace MovingTarget
variable {α : Type}

/-- The domains that some decisions shuffle in a mode, in the order of the decisions. -/
def shuffledIn (mode : ShuffleMode) (ds : List (Decision α)) : List DomainId :=
  ds.filterMap fun x => if x.mode? = some mode then x.domain? else none

section Policies
variable [Scalar α]

/-- The mean score of the domain and the threshold are numbers. -/
def Snapshot.rated (s : Snapshot α) (threshold : α) (d : DomainId) : Bool :=
  Scalar.isNumber threshold && (s.summaries.find? d).any fun m => Scalar.isNumber m.meanScore

theorem Snapshot.rated_key {s : Snapshot α} {e : DomainId × DomainSummary α}
    (he : e ∈ s.summaries.entries) (threshold : α) :
    s.rated threshold e.1 = (Scalar.isNumber threshold && Scalar.isNumber e.2.meanScore) := by
  have hfind : s.summaries.find? e.1 = some e.2 := Table.find?_eq_some_iff.2 he
  rw [rated, hfind, Option.any_some]

theorem ScoreThreshold.shuffledIn_evaluate (p : ScoreThreshold α) (s : Snapshot α) :
    shuffledIn .scoreDriven (p.evaluate s).decisions =
      (s.summaries.entries.filter fun e => p.threshold < e.2.meanScore).map (·.1) := by
  change ((s.summaries.entries.filter _).map p.decision).filterMap _ = _
  rw [List.filterMap_map]
  exact congrFun (List.filterMap_eq_map (f := Prod.fst)) _

theorem Layered.shuffledIn_verdict (p : Layered α) (s : Snapshot α) (first : Option DomainId)
    (e : DomainId × DomainSummary α) :
    shuffledIn .scoreDriven (p.verdict s first e) =
      if p.shuffleDue s.seconds e.1 e.2 then [e.1] else [] := by
  rw [verdict, routine, shuffle_decisions, adjust_decisions]
  repeat' split
  all_goals rfl

theorem Layered.shuffledIn_evaluate (p : Layered α) (s : Snapshot α) :
    shuffledIn .scoreDriven (p.evaluate s).decisions =
      (s.summaries.entries.filter fun e => p.shuffleDue s.seconds e.1 e.2).map (·.1) := by
  have hspread : shuffledIn .scoreDriven (spread s s.summaries p).decisions = [] := by
    refine List.filterMap_eq_nil_iff.2 fun x hx => ?_
    obtain ⟨u, d, reason, rfl⟩ := mem_spread hx
    rfl
  rw [evaluate_decisions, shuffledIn, List.filterMap_append, ← shuffledIn, ← shuffledIn, hspread,
    List.append_nil, shuffledIn, List.filterMap_flatMap, ← List.filterMap_eq_map,
    List.filterMap_filter, List.filterMap_eq_flatMap_toList]
  refine List.flatMap_congr fun e _ => (p.shuffledIn_verdict s _ e).trans ?_
  split <;> rfl

/-- The last shuffle of the domain is longer ago than the shortest interval. -/
def Layered.cooledDown (p : Layered α) (now : α) (d : DomainId) : Bool :=
  !decide (now - p.lastShuffleTime d ≤ p.pace.min)

/-- Among the domains that are rated, the layered policy shuffles those that are above the threshold
and have cooled down. -/
theorem Layered.filter_rated (hα : Scalar.Comparable α) {p : Layered α} {q : ScoreThreshold α}
    (h : q.threshold = p.threshold) (s : Snapshot α) :
    (shuffledIn .scoreDriven (p.evaluate s).decisions).filter (s.rated p.threshold) =
      (shuffledIn .scoreDriven (q.evaluate s).decisions).filter (p.cooledDown s.seconds) := by
  rw [shuffledIn_evaluate, ScoreThreshold.shuffledIn_evaluate, List.filter_map, List.filter_map,
    List.filter_filter, List.filter_filter, h]
  refine congrArg (List.map _) (List.filter_congr fun e he => ?_)
  have habove : (!decide (e.2.meanScore ≤ p.threshold) && s.rated p.threshold e.1) =
      decide (p.threshold < e.2.meanScore) := by
    rw [Snapshot.rated_key he, Bool.eq_iff_iff]
    simp only [Bool.and_eq_true, Bool.not_eq_true', decide_eq_false_iff_not, decide_eq_true_eq]
    constructor
    · rintro ⟨hnot, ht, hm⟩
      exact hα.lt_of_not_le hm ht hnot
    · intro hlt
      obtain ⟨hle, hnot⟩ := (hα.lt_iff _ _).1 hlt
      exact ⟨hnot, hα.numbers_of_le _ _ hle⟩
  simp only [Function.comp_apply]
  rw [← habove, shuffleDue, cooledDown]
  ac_rfl

/-- Only rated domains are found above a threshold. -/
theorem ScoreThreshold.rated_of_mem (hα : Scalar.Comparable α) {p : ScoreThreshold α}
    {s : Snapshot α} {d : DomainId} (h : d ∈ shuffledIn .scoreDriven (p.evaluate s).decisions) :
    s.rated p.threshold d = true := by
  rw [shuffledIn_evaluate, Table.mem_keys_filter_iff] at h
  obtain ⟨m, hm, hlt⟩ := h
  obtain ⟨ht, hscore⟩ := hα.numbers_of_le _ _ (hα.le_of_lt (of_decide_eq_true hlt))
  rw [Snapshot.rated, hm, Option.any_some, ht, hscore]
  rfl

/-- A domain that is not rated is shuffled by the layered policy as soon as it has cooled down. -/
theorem Layered.mem_of_not_rated (hα : Scalar.Comparable α) {p : Layered α} {s : Snapshot α}
    {d : DomainId} (hd : d ∈ s.domains.keys) (hrated : s.rated p.threshold d = false)
    (hcool : p.cooledDown s.seconds d = true) :
    d ∈ shuffledIn .scoreDriven (p.evaluate s).decisions := by
  obtain ⟨m, hm⟩ := Snapshot.mem_keys_iff_summary.1 hd
  rw [shuffledIn_evaluate, Table.mem_keys_filter_iff]
  refine ⟨m, hm, Bool.and_eq_true_iff.2 ⟨?_, hcool⟩⟩
  rw [Bool.not_eq_true', decide_eq_false_iff_not]
  intro hle
  obtain ⟨hscore, ht⟩ := hα.numbers_of_le _ _ hle
  rw [Snapshot.rated, hm, Option.any_some, ht, hscore] at hrated
  cases hrated

theorem Layered.key_of_mem {p : Layered α} {s : Snapshot α} {d : DomainId}
    (h : d ∈ shuffledIn .scoreDriven (p.evaluate s).decisions) : d ∈ s.domains.keys := by
  rw [shuffledIn_evaluate, Table.mem_keys_filter_iff] at h
  obtain ⟨m, hm, -⟩ := h
  exact Snapshot.mem_keys_iff_summary.2 ⟨m, hm⟩

theorem Layered.cooledDown_run (threshold : α) (pace : Pace α) (level : RiskLevel)
    (calls : List (Call α)) (now : α) (d : DomainId) :
    let r := run (fresh threshold pace level) calls
    r.state.cooledDown now d = !decide (now - lastShuffled r.epochs d ≤
      (configured (fresh threshold pace level) calls).pace.min) := by
  intro r
  rw [cooledDown, lastShuffleTime, run_lastShuffle, ← lastShuffled,
    (run_parameters (fresh threshold pace level) calls).2.1]

end Policies

/-! ## Doubles -/

theorem float_sub_zero_le_iff {x y : Float} : x - 0.0 ≤ y ↔ x ≤ y := by
  rw [Scalar.float_le_iff, Decimal.unpack_sub_zero, Scalar.float_le_iff]

/-- Before the first epoch a domain counts as shuffled at the start, so it has cooled down as soon
as the shortest interval is over. -/
theorem Layered.cooledDown_start (threshold : Float) (pace : Pace Float) (level : RiskLevel)
    {calls : List (Call Float)} {now : Float}
    (hfresh : (run (fresh threshold pace level) calls).epochs = [])
    (hlate : (configured (fresh threshold pace level) calls).pace.min < now) (d : DomainId) :
    (run (fresh threshold pace level) calls).state.cooledDown now d = true := by
  rw [cooledDown_run, hfresh, Bool.not_eq_true', decide_eq_false_iff_not]
  change ¬ now - 0.0 ≤ _
  rw [float_sub_zero_le_iff]
  exact ((Scalar.comparable_float.lt_iff _ _).1 hlate).2

/-- Over a whole run, of the domains that an epoch of the layered policy shuffles for their score
the policy with the plain threshold shuffles exactly those whose mean score and threshold are
numbers; and of the domains with that property the layered policy shuffles those that the plain one
does and that have cooled down. Before the first epoch, once the shortest interval is over, these
are all of them, and both shuffle the same domains in the same order exactly if every domain has
that property. -/
theorem Layered.shuffles_agree_on_numbers (threshold : Float) (pace : Pace Float)
    (level : RiskLevel) (calls : List (Call Float)) (s : Snapshot Float)
    (evaluations shuffles : Nat) :
    let r := run (fresh threshold pace level) calls
    let current := configured (fresh threshold pace level) calls
    let plain : ScoreThreshold Float := ⟨current.threshold, evaluations, shuffles⟩
    let ours := shuffledIn .scoreDriven (r.state.evaluate s).decisions
    let plains := shuffledIn .scoreDriven (plain.evaluate s).decisions
    (∀ d ∈ ours, d ∈ plains ↔ s.rated current.threshold d = true) ∧
    ours.filter (s.rated current.threshold) =
      plains.filter (fun d => !decide (s.seconds - lastShuffled r.epochs d ≤ current.pace.min)) ∧
    (r.epochs = [] → current.pace.min < s.seconds →
      ours.filter (s.rated current.threshold) = plains ∧
      (ours = plains ↔ ∀ d ∈ s.domains.keys, s.rated current.threshold d = true)) := by
  intro r current plain ours plains
  have hα := Scalar.comparable_float
  have ht : r.state.threshold = current.threshold :=
    (run_parameters (fresh threshold pace level) calls).1
  have hfilter : ours.filter (s.rated current.threshold) =
      plains.filter (r.state.cooledDown s.seconds) := by
    rw [← ht]
    exact filter_rated hα ht.symm s
  refine ⟨fun d hd => ⟨fun h => plain.rated_of_mem hα h, fun h => ?_⟩, ?_, fun hfresh hlate => ?_⟩
  · exact List.mem_of_mem_filter (hfilter ▸ List.mem_filter.2 ⟨hd, h⟩)
  · rw [hfilter]
    exact List.filter_congr fun d _ => cooledDown_run threshold pace level calls s.seconds d
  · have hcool := cooledDown_start threshold pace level hfresh hlate
    rw [List.filter_eq_self.2 fun d _ => hcool d] at hfilter
    refine ⟨hfilter, fun heq d hd => ?_, fun hall => ?_⟩
    · -- A domain that is not rated would be shuffled by the layered policy alone.
      by_contra hrated
      rw [Bool.not_eq_true, ← ht] at hrated
      have hshuffled : d ∈ ours := mem_of_not_rated hα hd hrated (hcool d)
      rw [heq] at hshuffled
      have := plain.rated_of_mem hα hshuffled
      rw [ht] at hrated
      exact Bool.false_ne_true (hrated.symm.trans this)
    · rw [← hfilter, List.filter_eq_self.2 fun d hd => hall d (key_of_mem hd)]

/-- One domain with a user whose score is no number, ten seconds into the run. -/
def unscorable : Snapshot Float :=
  ((Snapshot.empty 10000000000).addDomain ⟨1, "", [], [1], 0.0, 30.0⟩).addScore
    ⟨1, 0.0 / 0.0, .low, 0⟩

/-- A new layered policy shuffles that domain, and the policy with the same threshold does not. -/
theorem Layered.shuffles_unscorable :
    let p : Layered Float := fresh 0.6 .standard .high
    let q : ScoreThreshold Float := ⟨0.6, 0, 0⟩
    p.pace.min < unscorable.seconds ∧
      shuffledIn .scoreDriven (p.evaluate unscorable).decisions = [1] ∧
      shuffledIn .scoreDriven (q.evaluate unscorable).decisions = [] := by
  decide +kernel

end MovingTarget
