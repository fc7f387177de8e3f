import Mathlib.Algebra.Ring.Nat
import Mathlib.Data.List.Induction
import MovingTarget.Policy.Basic
/-!
# Runs

A host makes one call after another. A run holds the state that the policy has come to and, since
the last reset, every call with the state that it met, so what any epoch returned can be read off
again. `run_induction` is the induction over runs; `exists_run_of_epoch` says that every epoch met
a state that some run leads to.
-/
namespace MovingTarget

/-- What a host can ask of a policy. -/
inductive Call (α : Type) where
  | evaluate (s : Snapshot α)
  | configure (given : Figures α)
  | reset
  | event (e : Event)

/-- A call and the state that it met. -/
structure Turn (σ α : Type) where
  before : σ
  call : Call α

/-- A snapshot and the state that it met. -/
structure Epoch (σ α : Type) where
  before : σ
  snapshot : Snapshot α

structure Run (σ α : Type) where
  state : σ
  /-- The calls since the last reset, oldest first. -/
  turns : List (Turn σ α)

def Turn.epoch? {σ α : Type} : Turn σ α → Option (Epoch σ α)
  | ⟨p, .evaluate s⟩ => some ⟨p, s⟩
  | _ => none

/-- The epochs since the last reset, oldest first. -/
def Run.epochs {σ α : Type} (r : Run σ α) : List (Epoch σ α) := r.turns.filterMap Turn.epoch?

variable {σ α : Type} [Policy σ α]

/-- The state that a call leads to. -/
def Policy.after (p : σ) : Call α → σ
  | .evaluate s => (Policy.evaluate p s).next
  | .configure given => Policy.configure p given
  | .reset => Policy.reset p
  | .event e => (Policy.onEvent p e).1

def Run.after (r : Run σ α) : Call α → Run σ α
  | .reset => ⟨Policy.reset r.state, []⟩
  | c => ⟨Policy.after r.state c, r.turns ++ [⟨r.state, c⟩]⟩

/-- The run of a policy through a list of calls. -/
def run (p : σ) (calls : List (Call α)) : Run σ α := calls.foldl Run.after ⟨p, []⟩

/-- The state that a call leads to if nothing but configurations counts. -/
def Policy.tuned (p : σ) : Call α → σ
  | .configure given => Policy.configure p given
  | _ => p

/-- The policy that was configured by the same calls, and asked for nothing else. -/
def configured (p : σ) (calls : List (Call α)) : σ := calls.foldl Policy.tuned p

/-- What an epoch returned. -/
def Epoch.decisions (e : Epoch σ α) : List (Decision α) :=
  (Policy.evaluate e.before e.snapshot).decisions

/-- What the event of a turn was answered with, if it was one and was answered. -/
def Turn.reply? : Turn σ α → Option (Decision α)
  | ⟨p, .event e⟩ => (Policy.onEvent p e).2
  | _ => none

/-- The decisions that answered the events since the last reset, oldest first. -/
def Run.replies (r : Run σ α) : List (Decision α) := r.turns.filterMap Turn.reply?

/-! ## Shuffles -/

omit [Policy σ α] in
/-- Whether a decision shuffles a domain in a mode. -/
def Decision.shuffles (d : DomainId) (mode : ShuffleMode) : Decision α → Bool
  | .triggerShuffle k m _ => k = d ∧ m = mode
  | _ => false

def Epoch.shuffles (e : Epoch σ α) (d : DomainId) (mode : ShuffleMode) : Bool :=
  e.decisions.any (·.shuffles d mode)

/-- The last of some epochs that shuffled a domain in a mode. -/
def lastShuffling? (es : List (Epoch σ α)) (d : DomainId) (mode : ShuffleMode) :
    Option (Epoch σ α) :=
  (es.filter (·.shuffles d mode)).getLast?

omit [Policy σ α] in
theorem any_shuffles_iff {ds : List (Decision α)} {d : DomainId} {mode : ShuffleMode} :
    ds.any (·.shuffles d mode) = true ↔ ∃ reason, .triggerShuffle d mode reason ∈ ds := by
  rw [List.any_eq_true]
  constructor
  · rintro ⟨x, hx, h⟩
    cases x <;> simp only [Decision.shuffles, decide_eq_true_eq, Bool.false_eq_true] at h
    obtain ⟨rfl, rfl⟩ := h
    exact ⟨_, hx⟩
  · rintro ⟨reason, h⟩
    exact ⟨_, h, by simp [Decision.shuffles]⟩

theorem lastShuffling?_concat (es : List (Epoch σ α)) (e : Epoch σ α) (d : DomainId)
    (mode : ShuffleMode) :
    lastShuffling? (es ++ [e]) d mode =
      if e.shuffles d mode then some e else lastShuffling? es d mode := by
  unfold lastShuffling?
  rw [List.filter_append]
  by_cases h : e.shuffles d mode <;> simp [h]

/-- The last epoch that shuffled a domain is one that did, with none that did after it. -/
theorem lastShuffling?_eq_some_iff {es : List (Epoch σ α)} {e : Epoch σ α} {d : DomainId}
    {mode : ShuffleMode} :
    lastShuffling? es d mode = some e ↔ ∃ before after, es = before ++ e :: after ∧
      e.shuffles d mode = true ∧ ∀ f ∈ after, f.shuffles d mode = false := by
  constructor
  · intro h
    induction es using List.reverseRecOn with
    | nil => cases h
    | append_singleton es f ih =>
      rw [lastShuffling?_concat] at h
      by_cases hf : f.shuffles d mode = true
      · rw [if_pos hf] at h
        obtain rfl := Option.some.inj h
        exact ⟨es, [], rfl, hf, nofun⟩
      · rw [if_neg hf] at h
        obtain ⟨before, after, rfl, he, hafter⟩ := ih h
        refine ⟨before, after ++ [f], by simp, he, fun g hg => ?_⟩
        rcases List.mem_append.1 hg with hg | hg
        · exact hafter g hg
        · rw [List.mem_singleton.1 hg]
          exact Bool.eq_false_iff.2 hf
  · rintro ⟨before, after, rfl, he, hafter⟩
    have hnil : after.filter (·.shuffles d mode) = [] :=
      List.filter_eq_nil_iff.2 fun f hf => by simp [hafter f hf]
    have hcons : (e :: after).filter (·.shuffles d mode) = [e] := by
      rw [List.filter_cons, if_pos he, hnil]
    rw [lastShuffling?, List.filter_append, hcons, List.getLast?_concat]

/-! ## Induction over runs -/

theorem run_concat (p : σ) (calls : List (Call α)) (c : Call α) :
    run p (calls ++ [c]) = (run p calls).after c := by
  simp only [run, List.foldl_append, List.foldl_cons, List.foldl_nil]

theorem configured_concat (p : σ) (calls : List (Call α)) (c : Call α) :
    configured p (calls ++ [c]) = Policy.tuned (configured p calls) c := by
  simp only [configured, List.foldl_append, List.foldl_cons, List.foldl_nil]

@[simp] theorem state_after (r : Run σ α) (c : Call α) :
    (r.after c).state = Policy.after r.state c := by
  cases c <;> rfl

@[simp] theorem epochs_after_evaluate (r : Run σ α) (s : Snapshot α) :
    (r.after (.evaluate s)).epochs = r.epochs ++ [⟨r.state, s⟩] := by
  simp [Run.epochs, Run.after, Turn.epoch?]

@[simp] theorem epochs_after_configure (r : Run σ α) (given : Figures α) :
    (r.after (.configure given)).epochs = r.epochs := by
  simp [Run.epochs, Run.after, Turn.epoch?]

@[simp] theorem epochs_after_event (r : Run σ α) (e : Event) :
    (r.after (.event e)).epochs = r.epochs := by
  simp [Run.epochs, Run.after, Turn.epoch?]

@[simp] theorem epochs_after_reset (r : Run σ α) : (r.after .reset).epochs = [] := rfl

/-- What holds at the start, is kept by every epoch that a run leads to, by configurations and by
events, and is restored by a reset holds after every run. -/
theorem run_induction {motive : σ → List (Epoch σ α) → Prop} {p : σ} (start : motive p [])
    (evaluate : ∀ q es s, (∃ calls, (run p calls).state = q ∧ (run p calls).epochs = es) →
      motive q es → motive (Policy.evaluate q s).next (es ++ [⟨q, s⟩]))
    (configure : ∀ q es given, motive q es → motive (Policy.configure q given) es)
    (event : ∀ q es e, motive q es → motive (Policy.onEvent q e).1 es)
    (reset : ∀ q es, motive q es → motive (Policy.reset q) []) (calls : List (Call α)) :
    motive (run p calls).state (run p calls).epochs := by
  induction calls using List.reverseRecOn with
  | nil => exact start
  | append_singleton calls c ih =>
    rw [run_concat, state_after]
    cases c with
    | evaluate s =>
      rw [epochs_after_evaluate]
      exact evaluate _ _ s ⟨calls, rfl, rfl⟩ ih
    | configure given =>
      rw [epochs_after_configure]
      exact configure _ _ given ih
    | reset => exact reset _ _ ih
    | event e =>
      rw [epochs_after_event]
      exact event _ _ e ih

/-- A list with an item at its end is cut in two at that item or earlier. -/
theorem concat_eq_append_cons_iff {β : Type} {l as bs : List β} {x y : β} :
    l ++ [x] = as ++ y :: bs ↔
      l = as ∧ x = y ∧ bs = [] ∨ ∃ bs', bs = bs' ++ [x] ∧ l = as ++ y :: bs' := by
  constructor
  · intro h
    rcases List.eq_nil_or_concat bs with rfl | ⟨bs', z, rfl⟩
    · obtain ⟨hl, hx⟩ := List.append_inj' h rfl
      exact .inl ⟨hl, List.singleton_inj.1 hx, rfl⟩
    · rw [List.concat_eq_append, ← List.cons_append, ← List.append_assoc] at h
      obtain ⟨hl, hx⟩ := List.append_inj' h rfl
      exact .inr ⟨bs', by rw [List.concat_eq_append, hx], hl⟩
  · rintro (⟨rfl, rfl, rfl⟩ | ⟨bs', rfl, rfl⟩) <;> simp

/-- A run leads to the state that an epoch met, through the epochs before it. -/
theorem exists_run_of_epoch {p : σ} {calls : List (Call α)} {e : Epoch σ α}
    {before after : List (Epoch σ α)} (h : (run p calls).epochs = before ++ e :: after) :
    ∃ calls', (run p calls').state = e.before ∧ (run p calls').epochs = before := by
  induction calls using List.reverseRecOn generalizing before after with
  | nil => simp [run, Run.epochs] at h
  | append_singleton calls c ih =>
    rw [run_concat] at h
    cases c with
    | evaluate s =>
      rw [epochs_after_evaluate] at h
      -- The epoch is the one just run, or one that the shorter run holds already.
      rcases concat_eq_append_cons_iff.1 h with ⟨hb, rfl, -⟩ | ⟨after', -, hsplit⟩
      · exact ⟨calls, rfl, hb⟩
      · exact ih hsplit
    | configure given =>
      rw [epochs_after_configure] at h
      exact ih h
    | reset =>
      rw [epochs_after_reset] at h
      simp at h
    | event e' =>
      rw [epochs_after_event] at h
      exact ih h

theorem exists_run_of_getElem? {p : σ} {calls : List (Call α)} {e : Epoch σ α} {i : Nat}
    (h : (run p calls).epochs[i]? = some e) :
    ∃ calls', (run p calls').state = e.before ∧
      (run p calls').epochs = (run p calls).epochs.take i ∧
      (run p calls').epochs ++ [e] = (run p calls).epochs.take (i + 1) := by
  obtain ⟨hi, he⟩ := List.getElem?_eq_some_iff.1 h
  have hsplit : (run p calls).epochs =
      (run p calls).epochs.take i ++ e :: (run p calls).epochs.drop (i + 1) := by
    rw [← he, List.getElem_cons_drop, List.take_append_drop]
  obtain ⟨calls', hs, hes⟩ := exists_run_of_epoch hsplit
  exact ⟨calls', hs, hes, by rw [hes, ← he, List.take_append_getElem hi]⟩

/-! ## Counters -/

/-- A counter of the states goes up by the weight of every epoch, stays as it is in configurations
and events, and starts again at zero on a reset. -/
structure Tallies (count : σ → Nat) (weight : Epoch σ α → Nat) : Prop where
  evaluate : ∀ p s, count (Policy.evaluate p s).next = count p + weight ⟨p, s⟩
  configure : ∀ p (given : Figures α), count (Policy.configure p given) = count p
  event : ∀ p e, count (Policy.onEvent p e).1 = count p
  reset : ∀ p, count (Policy.reset p) = 0

/-- A counter that starts at zero holds the weight of the epochs since the last reset. -/
theorem Tallies.run_eq {count : σ → Nat} {weight : Epoch σ α → Nat} (h : Tallies count weight)
    {p : σ} (hp : count p = 0) (calls : List (Call α)) :
    count (run p calls).state = ((run p calls).epochs.map weight).sum := by
  refine run_induction (motive := fun q es => count q = (es.map weight).sum) hp ?_ ?_ ?_ ?_ calls
  · intro q es s _ ih
    rw [h.evaluate, ih, List.map_append, List.sum_append, List.map_singleton, List.sum_singleton]
  · exact fun q es given ih => (h.configure q given).trans ih
  · exact fun q es e ih => (h.event q e).trans ih
  · exact fun q es _ => h.reset q

/-! ## A run seen through a function of its states -/

section View
variable {τ : Type}

omit [Policy σ α]

def Turn.map (f : σ → τ) (t : Turn σ α) : Turn τ α := ⟨f t.before, t.call⟩

def Epoch.map (f : σ → τ) (e : Epoch σ α) : Epoch τ α := ⟨f e.before, e.snapshot⟩

def Run.map (f : σ → τ) (r : Run σ α) : Run τ α := ⟨f r.state, r.turns.map (Turn.map f)⟩

theorem epochs_map (f : σ → τ) (r : Run σ α) : (r.map f).epochs = r.epochs.map (Epoch.map f) := by
  have h : ∀ t : Turn σ α, (t.map f).epoch? = t.epoch?.map (Epoch.map f) := by
    rintro ⟨p, c⟩
    cases c <;> rfl
  rw [Run.epochs, Run.map, List.filterMap_map, Run.epochs, List.map_filterMap]
  exact congrArg (List.filterMap · r.turns) (funext h)

end View

/-- If every call does the same to a view of a state as to the state, a run of the view is the
view of a run. -/
theorem run_map {τ : Type} [Policy τ α] {f : σ → τ}
    (h : ∀ q (c : Call α), Policy.after (f q) c = f (Policy.after q c)) (p : σ)
    (calls : List (Call α)) : run (f p) calls = (run p calls).map f := by
  induction calls using List.reverseRecOn with
  | nil => rfl
  | append_singleton calls c ih =>
    rw [run_concat, run_concat, ih]
    have hc := h (run p calls).state c
    cases c with
    | reset => simpa [Run.after, Run.map, Policy.after] using hc
    | evaluate s => simpa [Run.after, Run.map, Turn.map] using hc
    | configure given => simpa [Run.after, Run.map, Turn.map] using hc
    | event e => simpa [Run.after, Run.map, Turn.map] using hc

end MovingTarget
