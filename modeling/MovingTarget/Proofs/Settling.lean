import MovingTarget.Proofs.Isolation
import MovingTarget.Proofs.Scalars
/-!
# What is left to propose

Some policies propose what is not as it should be, and nothing else: once the first proposal is
carried out they propose the others (`Sheds`), so once the front of a list of proposals is carried
out they propose the rest, in the same order and the same words (`Sheds.carryOutAll_take`). Setting
intervals by the risk is of this kind, and so is isolating users, if records lie under their ids.
-/
namespace MovingTarget
variable {α : Type}

/-- Carrying out the first proposal leaves the others to propose, and the snapshot as good as it
was. -/
structure Sheds (good : Snapshot α → Prop) (proposal : Snapshot α → List (Decision α)) : Prop where
  keeps : ∀ {s d rest}, good s → proposal s = d :: rest → good (s.carryOut d)
  others : ∀ {s d rest}, good s → proposal s = d :: rest → proposal (s.carryOut d) = rest

theorem Sheds.carryOutAll_take {good : Snapshot α → Prop}
    {proposal : Snapshot α → List (Decision α)} (h : Sheds good proposal) {s : Snapshot α}
    (hs : good s) (n : Nat) :
    good (s.carryOutAll ((proposal s).take n)) ∧
      proposal (s.carryOutAll ((proposal s).take n)) = (proposal s).drop n := by
  -- The snapshot changes with every decision, the list that is left gets shorter.
  induction n generalizing s with
  | zero => exact ⟨hs, rfl⟩
  | succ n ih =>
    cases hp : proposal s with
    | nil => exact ⟨hs, hp⟩
    | cons d rest =>
      have hrest := ih (h.keeps hs hp)
      rw [h.others hs hp] at hrest
      exact hrest

/-- If one hit stops being one and nothing else changes, the later hits are left. -/
theorem filter_eq_tail {β : Type} {l : List β} (hn : l.Nodup) {p q : β → Bool} {x : β}
    {rest : List β} (h : l.filter p = x :: rest) (hx : q x = false)
    (hq : ∀ y ∈ l, y ≠ x → q y = p y) : l.filter q = rest := by
  obtain ⟨as, bs, rfl, has, -, rfl⟩ := List.filter_eq_cons_iff.1 h
  rw [List.nodup_middle, List.nodup_cons, List.mem_append, not_or] at hn
  obtain ⟨⟨hxas, hxbs⟩, -⟩ := hn
  have hbefore : as.filter q = [] := by
    refine List.filter_eq_nil_iff.2 fun y hy => ?_
    rw [hq y (List.mem_append_left _ hy) (ne_of_mem_of_not_mem hy hxas)]
    exact has y hy
  have hafter : bs.filter q = bs.filter p := by
    refine List.filter_congr fun y hy => hq y ?_ (ne_of_mem_of_not_mem hy hxbs)
    exact List.mem_append_right _ (List.mem_cons_of_mem x hy)
  rw [List.filter_append, hbefore, List.nil_append, List.filter_cons_of_neg (by simp [hx]), hafter]

/-- If the first hit is changed so that it is none and nothing else changes, the later ones are
left. -/
theorem filter_map_eq_tail {β : Type} {l : List β} (hn : l.Nodup) {p : β → Bool} {g : β → β} {x : β}
    {rest : List β} (h : l.filter p = x :: rest) (hx : p (g x) = false)
    (hg : ∀ y ∈ l, y ≠ x → g y = y) : (l.map g).filter p = rest := by
  have hfilter : l.filter (p ∘ g) = rest :=
    filter_eq_tail hn h hx fun y hy hne => congrArg p (hg y hy hne)
  have hcons : (x :: rest).Nodup := h ▸ hn.filter p
  have hmap : rest.map g = rest := by
    refine (List.map_congr_left fun y hy => ?_).trans (List.map_id rest)
    have hyl : y ∈ l := List.mem_of_mem_filter (h ▸ List.mem_cons_of_mem x hy)
    exact hg y hyl (ne_of_mem_of_not_mem hy (List.nodup_cons.1 hcons).1)
  rw [List.filter_map, hfilter, hmap]

/-! ## Intervals -/

namespace AdaptiveInterval
variable [Scalar α]

/-- The entry of a domain in the summaries, once its interval is set if it is domain `d`. -/
def retimed (d : DomainId) (interval : α) (e : DomainId × DomainSummary α) :
    DomainId × DomainSummary α :=
  if e.1 = d then (e.1, { e.2 with interval }) else e

theorem summaries_carryOut (s : Snapshot α) (d : DomainId) (interval : α) (reason : String) :
    (s.carryOut (.changeFrequency d interval reason)).summaries.entries =
      s.summaries.entries.map (retimed d interval) := by
  simp only [Snapshot.summaries, Snapshot.carryOut, Table.mapEntries, Table.entries_mapValues,
    List.map_map]
  refine List.map_congr_left fun e _ => ?_
  simp only [Function.comp_apply, Domain.revised, retimed]
  split <;> rfl

/-- A domain whose interval has been set is on time, and the others are as they were. -/
theorem mistimed_carryOut (hα : Scalar.Cancelling α) {p : AdaptiveInterval α} {s : Snapshot α}
    {e : DomainId × DomainSummary α} {rest : List (DomainId × DomainSummary α)}
    (h : p.mistimed s = e :: rest) : p.mistimed (s.carryOut (p.decision e)) = rest := by
  have he : e ∈ s.summaries.entries :=
    List.mem_of_mem_filter (h ▸ List.mem_cons_self : e ∈ p.mistimed s)
  have hontime : ¬ tolerance < Scalar.distance (p.target (retimed e.1 (p.target e.2) e).2)
      (retimed e.1 (p.target e.2) e).2.interval := by
    rw [retimed, if_pos rfl]
    exact hα.near_self (p.target e.2)
  -- No other entry has the key of `e`.
  have hother : ∀ y ∈ s.summaries.entries, y ≠ e → retimed e.1 (p.target e.2) y = y := by
    intro y hy hne
    refine if_neg fun hkey => hne (Prod.ext hkey ?_)
    have hye := Table.find?_eq_some_iff.2 (hkey ▸ hy : (e.1, y.2) ∈ s.summaries.entries)
    exact Option.some.inj (hye.symm.trans (Table.find?_eq_some_iff.2 he))
  rw [mistimed, decision, summaries_carryOut]
  exact filter_map_eq_tail s.summaries.nodup_entries h (decide_eq_false hontime) hother

/-- Of the policy its proposals take the pace alone. -/
theorem decisions_of_pace (p : AdaptiveInterval α) (s : Snapshot α) :
    (Policy.evaluate p s).decisions = ((fresh p.pace).mistimed s).map (fresh p.pace).decision := rfl

theorem sheds (hα : Scalar.Cancelling α) (p : AdaptiveInterval α) :
    Sheds (fun _ => True) fun s => (p.mistimed s).map p.decision where
  keeps _ _ := trivial
  others _ h := by
    obtain ⟨e, rest, hmistimed, rfl, rfl⟩ := List.map_eq_cons_iff.1 h
    rw [mistimed_carryOut hα hmistimed]

end AdaptiveInterval

/-! ## Isolation -/

namespace Isolation

/-- The domain that the policy isolates users in lies under the id that its name leads to. -/
theorem find?_of_namedDomain? {p : Isolation α} {s : Snapshot α} (hs : s.Keyed) {t : DomainId}
    (h : p.namedDomain? s = some t) : ∃ x, s.domains.find? t = some x := by
  obtain ⟨k, x, hk, -, rfl, -⟩ := namedDomain?_eq_some_iff.1 h
  exact ⟨x, hs k x hk ▸ hk⟩

theorem namedDomain?_carryOut (p : Isolation α) (s : Snapshot α) (d : Decision α) :
    p.namedDomain? (s.carryOut d) = p.namedDomain? s := by
  refine s.map_id_find?_carryOut d fun k x => ?_
  rw [(revised_frame k x d).2]

/-- A user who has been moved is not at large any more, and the others are as they were. -/
theorem atLarge_carryOut {s : Snapshot α} (hs : s.Keyed) {t : DomainId} {x : Domain α}
    (hx : s.domains.find? t = some x) {u : UserId} {rest : List UserId}
    (h : atLarge s t = u :: rest) : atLarge (s.carryOut (decision t u)) t = rest := by
  refine filter_eq_tail (s.nodup_usersAtLeast .high) h ?_ fun v _ hne => ?_
  · rw [decision, Snapshot.domainOf?_carryOut_self hs hx]
    simp
  · rw [decision, Snapshot.domainOf?_carryOut_other s hne]

theorem decisions_of_namedDomain? {p : Isolation α} {s : Snapshot α} {t : DomainId}
    (h : p.namedDomain? s = some t) :
    (p.evaluate s).decisions = (atLarge s t).map (decision t) := by
  simp only [evaluate, h, Option.some_or]

theorem sheds (p : Isolation α) (t : DomainId) :
    Sheds (fun s => s.Keyed ∧ p.namedDomain? s = some t) fun s =>
      (atLarge s t).map (decision t) where
  keeps hs _ := ⟨hs.1.carryOut _, (p.namedDomain?_carryOut _ _).trans hs.2⟩
  others hs h := by
    obtain ⟨x, hx⟩ := find?_of_namedDomain? hs.1 hs.2
    obtain ⟨u, rest, hlarge, rfl, rfl⟩ := List.map_eq_cons_iff.1 h
    rw [atLarge_carryOut hs.1 hx hlarge]

end Isolation
end MovingTarget
