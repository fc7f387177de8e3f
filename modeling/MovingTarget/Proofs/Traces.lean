import MovingTarget.Proofs.Runs
/-!
# What a host sees

A host sees what comes back from each of its calls, what is logged on the way and what can be read
off the state afterwards. A trace has all of it, through resets and whatever else is called;
`proposals` keeps what the epochs returned.
-/
namespace MovingTarget

/-- What comes back from a call and what was logged on the way. -/
structure Answer (α : Type) where
  /-- What an epoch returned. -/
  decisions : List (Decision α)
  /-- What an event was answered with. -/
  reply : Option (Decision α)
  log : List LogEntry

def Call.isEvent {α : Type} : Call α → Bool
  | .event _ => true
  | _ => false

variable {σ α : Type} [Policy σ α]

def Policy.answer (p : σ) : Call α → Answer α
  | .evaluate s => ⟨(Policy.evaluate p s).decisions, none, (Policy.evaluate p s).log⟩
  | .event e => ⟨[], (Policy.onEvent p e).2, []⟩
  | .configure _ => ⟨[], none, []⟩
  | .reset => ⟨[], none, []⟩

/-- The answer to every call of a list, with the state that the call left behind. -/
def trace (p : σ) : List (Call α) → List (Answer α × σ)
  | [] => []
  | c :: calls => (Policy.answer p c, Policy.after p c) :: trace (Policy.after p c) calls

/-- Every answer, and the statistics after it. -/
def sights (p : σ) (calls : List (Call α)) : List (Answer α × Figures α) :=
  (trace p calls).map fun t => (t.1, Policy.statistics t.2)

/-- What every epoch returned, through resets. -/
def proposals (p : σ) : List (Call α) → List (List (Decision α))
  | [] => []
  | .evaluate s :: calls =>
    (Policy.evaluate p s).decisions :: proposals (Policy.evaluate p s).next calls
  | c :: calls => proposals (Policy.after p c) calls

@[simp] theorem length_trace (p : σ) (calls : List (Call α)) :
    (trace p calls).length = calls.length := by
  induction calls generalizing p with
  | nil => rfl
  | cons c calls ih => exact congrArg (· + 1) (ih _)

/-- The state of a run is that of its calls, made one after the other. -/
theorem state_run (p : σ) (calls : List (Call α)) :
    (run p calls).state = calls.foldl Policy.after p := by
  induction calls using List.reverseRecOn with
  | nil => rfl
  | append_singleton calls c ih =>
    rw [run_concat, state_after, ih, List.foldl_append, List.foldl_cons, List.foldl_nil]

/-- A trace goes on from the state that its first part leads to. -/
theorem trace_append (p : σ) (xs ys : List (Call α)) :
    trace p (xs ++ ys) = trace p xs ++ trace (run p xs).state ys := by
  simp only [state_run]
  induction xs generalizing p with
  | nil => rfl
  | cons c xs ih => exact congrArg (_ :: ·) (ih _)

/-- Events that leave the state alone do not matter to the epochs. -/
theorem proposals_filter_isEvent (h : ∀ (p : σ) x, (Policy.onEvent p x).1 = p) (p : σ)
    (calls : List (Call α)) : proposals p (calls.filter (!·.isEvent)) = proposals p calls := by
  induction calls generalizing p with
  | nil => rfl
  | cons c calls ih =>
    cases c with
    | evaluate s => exact congrArg (_ :: ·) (ih _)
    | configure given => exact ih _
    | reset => exact ih _
    | event x => exact (ih p).trans (congrArg (proposals · calls) (h p x).symm)

/-- After a reset the trace is that of the state that was reset. -/
theorem drop_trace_reset (p : σ) (xs ys : List (Call α)) :
    (trace p (xs ++ .reset :: ys)).drop (xs.length + 1) =
      trace (Policy.reset (run p xs).state) ys := by
  have h : xs ++ .reset :: ys = (xs ++ [.reset]) ++ ys := by simp
  rw [h, trace_append, run_concat]
  exact List.drop_left' (by simp)

end MovingTarget
