import Mathlib.Data.List.DropRight
import MovingTarget.Proofs.Engine.Runs
/-!
# What the history of an engine holds

Every decision that an engine hands on goes into its history, which drops its older half when it
outgrows its limit. So the history is the end of the full log of the decisions handed on since the
last reset, and how much of the log it holds depends on the length of the log alone: `kept` of it.
-/
namespace MovingTarget

/-! ## Recording entry by entry -/

namespace History
variable {α : Type}

/-- How many of `n` entries recorded one after the other are held. -/
def kept (n : Nat) : Nat := if n ≤ limit then n else 5001 + (n - 10001) % 5000

theorem kept_le_limit (n : Nat) : kept n ≤ limit := by
  unfold kept limit
  split <;> omega

/-- The newest 5001 entries are always held. -/
theorem min_le_kept (n : Nat) : min n 5001 ≤ kept n := by
  unfold kept limit
  split <;> omega

/-- One entry more is held, or half of them go. -/
theorem kept_succ (n : Nat) :
    kept (n + 1) =
      if limit < kept n + 1 then kept n + 1 - (kept n + 1) / 2 else kept n + 1 := by
  unfold kept limit
  split <;> split <;> split <;> omega

example : kept 10000 = 10000 ∧ kept 10001 = 5001 ∧ kept 15000 = 10000 ∧ kept 15001 = 5001 := by
  decide

theorem length_entries (h : History α) : h.entries.toList.length = h.size := Array.length_toList

theorem entries_record (h : History α) (e : HistoryEntry α) :
    (h.record e).entries.toList =
      (h.entries.toList ++ [e]).drop (if limit < h.size + 1 then (h.size + 1) / 2 else 0) := by
  have hsize : (h.entries.push e).size = h.size + 1 := Array.size_push e
  simp only [record, hsize]
  by_cases hfull : limit < h.size + 1
  · rw [if_pos hfull, if_pos hfull, Array.toList_extract, Array.toList_push,
      List.extract_eq_take_drop]
    refine List.take_of_length_le ?_
    rw [List.length_drop, List.length_append, length_entries, List.length_singleton]
  · rw [if_neg hfull, if_neg hfull, Array.toList_push, List.drop_zero]

/-- A history holds the end of a log, as much of it as is kept. -/
structure Retains (h : History α) (log : List (HistoryEntry α)) : Prop where
  suffix : h.entries.toList <:+ log
  size : h.size = kept log.length

theorem retains_empty : (empty : History α).Retains [] := ⟨List.suffix_rfl, rfl⟩

theorem Retains.record {h : History α} {log : List (HistoryEntry α)} (hr : h.Retains log)
    (e : HistoryEntry α) : (h.record e).Retains (log ++ [e]) where
  suffix := by
    obtain ⟨front, hlog⟩ := hr.suffix
    rw [entries_record]
    refine (List.drop_suffix _ _).trans ⟨front, ?_⟩
    rw [← List.append_assoc, hlog]
  size := by
    have hsize : (h.record e).size =
        h.size + 1 - if limit < h.size + 1 then (h.size + 1) / 2 else 0 := by
      rw [← length_entries, entries_record, List.length_drop, List.length_append, length_entries]
      rfl
    rw [hsize, hr.size, List.length_append, List.length_singleton, kept_succ]
    split <;> rfl

/-- Recording a batch is recording its decisions in order, whatever the size of the batch. -/
theorem Retains.recordAll {h : History α} {log : List (HistoryEntry α)} (hr : h.Retains log)
    (time : Timestamp) (ds : List (Decision α)) :
    (h.recordAll time ds).Retains (log ++ ds.map (⟨time, ·⟩)) := by
  induction ds generalizing h log with
  | nil => simpa [History.recordAll] using hr
  | cons d ds ih => simpa [History.recordAll] using ih (hr.record ⟨time, d⟩)

theorem Retains.entries_eq {h : History α} {log : List (HistoryEntry α)} (hr : h.Retains log) :
    h.entries.toList = log.rtake (kept log.length) := by
  rw [← hr.size, ← length_entries]
  exact List.suffix_iff_eq_drop.1 hr.suffix

theorem Retains.latest_eq {h : History α} {log : List (HistoryEntry α)} (hr : h.Retains log)
    (count : Nat) : h.latest count = log.rtake (min count (kept log.length)) := by
  have hle : kept log.length ≤ log.length := by
    rw [← hr.size, ← length_entries]
    exact hr.suffix.length_le
  rw [latest, hr.entries_eq, hr.size, List.rtake, List.rtake, List.drop_drop]
  congr 1
  omega

end History

/-! ## The full log of a run -/

variable {σ α : Type} [Scalar α] [Policy σ α]

/-- What an engine handed on in a turn, with the time of the snapshot or of the event. -/
def Turn.records : Turn (Engine σ α) α → List (HistoryEntry α)
  | ⟨e, .evaluate s⟩ => (Policy.evaluate e s).decisions.map (⟨s.time, ·⟩)
  | ⟨e, .event x⟩ => (Policy.onEvent e x).2.toList.map (⟨x.time, ·⟩)
  | _ => []

/-- Everything that an engine handed on since the last reset, in order. -/
def Run.decisionLog (r : Run (Engine σ α) α) : List (HistoryEntry α) := r.turns.flatMap Turn.records

theorem decisionLog_after_evaluate (r : Run (Engine σ α) α) (s : Snapshot α) :
    (r.after (.evaluate s)).decisionLog =
      r.decisionLog ++ (r.state.evaluate s).decisions.map (⟨s.time, ·⟩) := by
  simp [Run.decisionLog, Run.after, Turn.records, Policy.evaluate]

theorem decisionLog_after_configure (r : Run (Engine σ α) α) (given : Figures α) :
    (r.after (.configure given)).decisionLog = r.decisionLog := by
  simp [Run.decisionLog, Run.after, Turn.records]

theorem decisionLog_after_event (r : Run (Engine σ α) α) (x : Event) :
    (r.after (.event x)).decisionLog =
      r.decisionLog ++ (r.state.handleEvent x).2.toList.map (⟨x.time, ·⟩) := by
  simp [Run.decisionLog, Run.after, Turn.records, Policy.onEvent]

theorem decisionLog_after_reset (r : Run (Engine σ α) α) : (r.after .reset).decisionLog = [] := rfl

namespace Engine

/-- The history holds the end of a log and the counter its length. -/
structure Recorded (e : Engine σ α) (log : List (HistoryEntry α)) : Prop where
  history : e.history.Retains log
  decisions : e.decisions = log.length

omit [Scalar α] in
theorem Recorded.reset (e : Engine σ α) : e.reset.Recorded [] := ⟨History.retains_empty, rfl⟩

theorem Recorded.evaluate {e : Engine σ α} {log : List (HistoryEntry α)} (h : e.Recorded log)
    (s : Snapshot α) :
    (e.evaluate s).next.Recorded (log ++ (e.evaluate s).decisions.map (⟨s.time, ·⟩)) where
  history := h.history.recordAll s.time _
  decisions := by
    rw [List.length_append, List.length_map, ← h.decisions]
    rfl

omit [Scalar α] in
theorem Recorded.handleEvent {e : Engine σ α} {log : List (HistoryEntry α)} (h : e.Recorded log)
    (x : Event) :
    (e.handleEvent x).1.Recorded (log ++ (e.handleEvent x).2.toList.map (⟨x.time, ·⟩)) := by
  rw [handleEvent_eq]
  refine ⟨h.history.recordAll x.time _, ?_⟩
  rw [List.length_append, List.length_map, ← h.decisions]

/-- Whatever the calls since the reset were, what was handed on is recorded and counted. -/
theorem run_recorded (policy : σ) (tools : Toolkit α) (cap : Nat) (calls : List (Call α)) :
    (run (fresh policy tools cap) calls).state.Recorded
      (run (fresh policy tools cap) calls).decisionLog := by
  induction calls using List.reverseRecOn with
  | nil => exact ⟨History.retains_empty, rfl⟩
  | append_singleton calls c ih =>
    rw [run_concat, state_after]
    cases c with
    | evaluate s =>
      rw [decisionLog_after_evaluate]
      exact ih.evaluate s
    | configure given =>
      rw [decisionLog_after_configure]
      exact ⟨ih.history, ih.decisions⟩
    | reset =>
      rw [decisionLog_after_reset]
      exact Recorded.reset _
    | event x =>
      rw [decisionLog_after_event]
      exact ih.handleEvent x

/-- Over a whole run, with epochs and events in any order and batches of any size, the history is
the end of the full log: all of it up to the limit, from then on at least the newest 5001 entries,
in a sawtooth that drops the older half one entry above the limit. Asking for the latest entries
gives the end of the log, oldest first. -/
theorem history_eq_end_of_log (policy : σ) (tools : Toolkit α) (cap : Nat)
    (calls : List (Call α)) :
    let r := run (fresh policy tools cap) calls
    let n := r.decisionLog.length
    let held := if n ≤ 10000 then n else 5001 + (n - 10001) % 5000
    r.state.history.entries.toList = r.decisionLog.rtake held ∧
    r.state.history.size = held ∧
    r.state.history.size ≤ 10000 ∧
    r.decisionLog.rtake (min n 5001) <:+ r.state.history.entries.toList ∧
    ∀ count, r.state.history.latest count = r.decisionLog.rtake (min count held) := by
  intro r n held
  have h : r.state.history.Retains r.decisionLog := (run_recorded policy tools cap calls).history
  refine ⟨h.entries_eq, h.size, ?_, ?_, h.latest_eq⟩
  · rw [h.size]
    exact History.kept_le_limit _
  · refine List.suffix_of_suffix_length_le (List.drop_suffix _ _) h.suffix ?_
    rw [List.rtake, List.length_drop, History.length_entries, h.size]
    have := History.min_le_kept r.decisionLog.length
    omega

end Engine
end MovingTarget
