import Mathlib.Data.List.Induction
import Mathlib.Data.List.Nodup
import MovingTarget.Table
/-!
# What a table holds

The keys of a table are the keys that can be looked up, each of them once. `insert_mapValues`,
`find?_ofList` and `find?_mapEntries` say how the ways to build a table act on its look-ups,
`lookup_perm` and `lookup_map_key` when a list of entries can be rearranged, `flatMap_key` what
one key contributes.

A search walks the entries, or any list, and keeps what it has to know of the best item so far. It
is enough to say how an item that comes along is compared with an earlier one that is kept: the
search then ends at an item that is as good as any (`foldl_best_cases`).
-/
namespace MovingTarget.Table

section Keys
variable {κ ν : Type} [LT κ] [LE κ] [Std.LawfulOrderLT κ] [DecidableEq κ]

theorem mem_keys_iff {t : Table κ ν} {k : κ} : k ∈ t.keys ↔ ∃ x, t.find? k = some x := by
  constructor
  · intro h
    obtain ⟨⟨j, x⟩, he, rfl⟩ := List.mem_map.1 h
    exact ⟨x, find?_eq_some_iff.2 he⟩
  · rintro ⟨x, h⟩
    exact List.mem_map.2 ⟨(k, x), find?_eq_some_iff.1 h, rfl⟩

theorem find?_eq_none_iff {t : Table κ ν} {k : κ} : t.find? k = none ↔ k ∉ t.keys := by
  rw [mem_keys_iff, Option.eq_none_iff_forall_ne_some, not_exists]

theorem mem_keys_filter_iff {t : Table κ ν} {test : κ × ν → Bool} {k : κ} :
    k ∈ (t.entries.filter test).map (·.1) ↔ ∃ x, t.find? k = some x ∧ test (k, x) = true := by
  simp only [find?_eq_some_iff, List.mem_map, List.mem_filter]
  constructor
  · rintro ⟨⟨j, x⟩, h, rfl⟩
    exact ⟨x, h⟩
  · rintro ⟨x, h⟩
    exact ⟨(k, x), h, rfl⟩

/-- Asking the entries for a key asks what stands under it. -/
theorem any_entries_eq (t : Table κ ν) (k : κ) (test : ν → Bool) :
    (t.entries.any fun e => e.1 = k && test e.2) = (t.find? k).any test := by
  rw [Bool.eq_iff_iff, List.any_eq_true, Option.any_eq_true]
  constructor
  · rintro ⟨⟨j, x⟩, he, h⟩
    rw [Bool.and_eq_true, decide_eq_true_eq] at h
    obtain ⟨rfl, hx⟩ := h
    exact ⟨x, find?_eq_some_iff.2 he, hx⟩
  · rintro ⟨x, h, hx⟩
    exact ⟨(k, x), find?_eq_some_iff.1 h, by simpa using hx⟩

/-- The first entry with a property is the one with the least key. -/
theorem find?_entries_iff [Std.IsLinearOrder κ] {t : Table κ ν} {test : κ × ν → Bool} {k : κ}
    {x : ν} :
    t.entries.find? test = some (k, x) ↔
      t.find? k = some x ∧ test (k, x) = true ∧
        ∀ j y, t.find? j = some y → test (j, y) = true → k ≤ j := by
  rw [List.find?_eq_some_iff_append, find?_eq_some_iff]
  constructor
  · rintro ⟨hx, as, bs, he, has⟩
    have hp := he ▸ t.ascending
    refine ⟨by simp [he], hx, fun j y hj hy => ?_⟩
    rw [find?_eq_some_iff, he, List.mem_append, List.mem_cons] at hj
    -- What stands before the hit lacks the property, what stands after it has a greater key.
    rcases hj with hj | hj | hj
    · have := has _ hj
      simp [hy] at this
    · cases hj
      exact Std.le_refl k
    · exact Std.le_of_lt ((List.pairwise_cons.1 (List.pairwise_append.1 hp).2.1).1 _ hj)
  · rintro ⟨hm, hx, hleast⟩
    obtain ⟨as, bs, he⟩ := List.append_of_mem hm
    have hp := he ▸ t.ascending
    refine ⟨hx, as, bs, he, fun a ha => ?_⟩
    have hlt : a.1 < k := (List.pairwise_append.1 hp).2.2 a ha _ List.mem_cons_self
    cases ht : test a with
    | false => rfl
    | true =>
      have hle := hleast a.1 a.2 (find?_eq_some_iff.2 (he ▸ List.mem_append_left _ ha)) ht
      exact absurd hlt (Std.not_lt.2 hle)

/-- The first value with a property is the one with the least key. -/
theorem find?_values_eq_some_iff [Std.IsLinearOrder κ] {t : Table κ ν} {test : ν → Bool} {x : ν} :
    t.values.find? test = some x ↔
      ∃ k, t.find? k = some x ∧ test x = true ∧
        ∀ j y, t.find? j = some y → test y = true → k ≤ j := by
  rw [values, List.find?_map, Option.map_eq_some_iff]
  constructor
  · rintro ⟨⟨k, x⟩, h, rfl⟩
    exact ⟨k, find?_entries_iff.1 h⟩
  · rintro ⟨k, h⟩
    exact ⟨(k, x), find?_entries_iff.2 h, rfl⟩

omit [DecidableEq κ] in
/-- The first key is the lowest. -/
theorem lowest_key_iff [Std.IsLinearOrder κ] {t : Table κ ν} {k : κ} :
    (k ∈ t.keys ∧ ∀ j ∈ t.keys, k ≤ j) ↔ t.keys.head? = some k := by
  have hkeys : t.keys.Pairwise (· < ·) := List.pairwise_map.2 t.ascending
  revert hkeys
  cases t.keys with
  | nil => simp
  | cons first rest =>
    intro hkeys
    have hfirst := (List.pairwise_cons.1 hkeys).1
    rw [List.head?_cons, Option.some.injEq]
    constructor
    · rintro ⟨hmem, hleast⟩
      rcases List.mem_cons.1 hmem with rfl | hmem
      · rfl
      · exact absurd (hfirst k hmem) (Std.not_lt.2 (hleast first List.mem_cons_self))
    · rintro rfl
      refine ⟨List.mem_cons_self, fun j hj => ?_⟩
      rcases List.mem_cons.1 hj with rfl | hj
      · exact Std.le_refl _
      · exact Std.le_of_lt (hfirst j hj)

omit [DecidableEq κ] in
theorem nodup_keys (t : Table κ ν) : t.keys.Nodup :=
  List.pairwise_map.2 (t.ascending.imp fun {a b} (h : a.1 < b.1) (he : a.1 = b.1) =>
    Std.lt_irrefl (he ▸ h))

omit [DecidableEq κ] in
/-- A table is as large as any list of its keys that names none twice. -/
theorem size_eq_of_mem {t : Table κ ν} {ks : List κ} (hn : ks.Nodup)
    (h : ∀ k, k ∈ t.keys ↔ k ∈ ks) : t.size = ks.length := by
  have hp : t.keys.Perm ks := (List.perm_ext_iff_of_nodup t.nodup_keys hn).2 h
  rw [← hp.length_eq, keys, List.length_map, size]

end Keys

section Lists
variable {κ ν : Type} [DecidableEq κ]

theorem lookup_eq_none_of_notMem {l : List (κ × ν)} {k : κ} (h : k ∉ l.map (·.1)) :
    l.lookup k = none := by
  refine List.lookup_eq_none_iff.2 fun e he => bne_iff_ne.2 fun hk => h ?_
  rw [hk]
  exact List.mem_map_of_mem he

/-- If no key stands twice, the order of the entries does not matter to a look-up. -/
theorem lookup_perm {l l' : List (κ × ν)} (hp : l.Perm l') (h : (l.map (·.1)).Nodup) (k : κ) :
    l.lookup k = l'.lookup k := by
  induction hp with
  | nil => rfl
  | cons e _ ih => rw [lookup_entry, lookup_entry, ih (List.nodup_cons.1 h).2]
  | swap e e' rest =>
    have hne : e'.1 ≠ e.1 := fun heq => (List.nodup_cons.1 h).1 (List.mem_cons.2 (.inl heq))
    simp only [lookup_entry]
    by_cases hk : k = e.1
    · rw [if_neg (fun hk' => hne (hk'.symm.trans hk)), if_pos hk, if_pos hk]
    · rw [if_neg hk, if_neg hk]
  | trans hp _ ih ih' => rw [ih h, ih' ((hp.map _).nodup_iff.1 h)]

theorem lookup_reverse {l : List (κ × ν)} (h : (l.map (·.1)).Nodup) (k : κ) :
    l.reverse.lookup k = l.lookup k := (lookup_perm l.reverse_perm.symm h k).symm

/-- If no key stands twice, what the entries with one key contribute comes from the look-up. -/
theorem flatMap_key {β : Type} {l : List (κ × ν)} (h : (l.map (·.1)).Nodup) (k : κ)
    (f : κ × ν → List β) :
    (l.flatMap fun e => if e.1 = k then f e else []) =
      (l.lookup k).elim [] fun x => f (k, x) := by
  induction l with
  | nil => rfl
  | cons e rest ih =>
    rw [List.map_cons, List.nodup_cons] at h
    rw [List.flatMap_cons, lookup_entry]
    by_cases hk : e.1 = k
    · have hrest : (rest.flatMap fun e => if e.1 = k then f e else []) = [] := by
        rw [List.flatMap_eq_nil_iff]
        intro e' he'
        rw [if_neg]
        intro hk'
        exact h.1 (hk ▸ hk' ▸ List.mem_map_of_mem he')
      rw [hrest, List.append_nil, if_pos hk, if_pos hk.symm, ← hk]
      rfl
    · rw [if_neg hk, if_neg (Ne.symm hk), List.nil_append, ih h.2]

/-- Renaming the keys apart from each other renames what a look-up asks for. -/
theorem lookup_map_key {μ : Type} [DecidableEq μ] {f : κ → μ} (hf : f.Injective)
    (l : List (κ × ν)) (k : κ) : (l.map fun e => (f e.1, e.2)).lookup (f k) = l.lookup k := by
  induction l with
  | nil => rfl
  | cons e rest ih => simp only [List.map_cons, lookup_entry, ih, hf.eq_iff]

/-- A look-up among what keyed items give asks the item with that key. -/
theorem lookup_filterMap_key {ι : Type} [DecidableEq ι] {key : ι → κ} (hkey : key.Injective)
    (g : ι → Option ν) (is : List ι) (i : ι) :
    (is.filterMap fun i => (g i).map (key i, ·)).lookup (key i) = if i ∈ is then g i else none := by
  induction is with
  | nil => rfl
  | cons j is ih =>
    rw [List.filterMap_cons]
    cases hj : g j with
    | none =>
      rw [Option.map_none, ih]
      by_cases hij : i = j
      · rw [hij, hj, if_pos List.mem_cons_self, ite_self]
      · simp only [List.mem_cons, hij, false_or]
    | some x =>
      simp only [Option.map_some, lookup_entry, ih, hkey.eq_iff]
      by_cases hij : i = j
      · rw [if_pos hij, hij, hj, if_pos List.mem_cons_self]
      · simp only [List.mem_cons, hij, false_or, if_false]

end Lists

section Entrywise
variable {κ ν μ : Type} [LT κ]

/-- Apply `f` to every value and its key, which leaves the keys as they are. -/
def mapEntries (f : κ → ν → μ) (t : Table κ ν) : Table κ μ where
  entries := t.entries.map fun e => (e.1, f e.1 e.2)
  ascending := t.ascending.map _ fun _ _ h => h

theorem find?_mapEntries [DecidableEq κ] (f : κ → ν → μ) (t : Table κ ν) (k : κ) :
    (t.mapEntries f).find? k = (t.find? k).map (f k) := by
  change (t.entries.map fun e => (e.1, f e.1 e.2)).lookup k = (t.entries.lookup k).map (f k)
  induction t.entries with
  | nil => rfl
  | cons e rest ih =>
    rw [List.map_cons, lookup_entry, lookup_entry, ih]
    by_cases hk : k = e.1
    · rw [if_pos hk, if_pos hk, hk, Option.map_some]
    · rw [if_neg hk, if_neg hk]

end Entrywise

section Building
variable {κ ν μ : Type} [LT κ] [DecidableLT κ] [LE κ] [Std.IsLinearOrder κ] [Std.LawfulOrderLT κ]
  [DecidableEq κ]

theorem insert_mapValues (f : ν → μ) (t : Table κ ν) (k : κ) (x : ν) :
    (t.mapValues f).insert k (f x) = (t.insert k x).mapValues f := by
  refine ext_find? fun j => ?_
  rw [find?_insert, find?_mapValues, find?_mapValues, find?_insert]
  split <;> rfl

/-- Of the entries for a key the last one counts. -/
theorem find?_ofList (l : List (κ × ν)) (k : κ) : (ofList l).find? k = l.reverse.lookup k := by
  induction l using List.reverseRecOn with
  | nil => rfl
  | append_singleton l e ih =>
    have h : ofList (l ++ [e]) = (ofList l).insert e.1 e.2 := by
      simp only [ofList, List.foldl_append, List.foldl_cons, List.foldl_nil]
    rw [h, find?_insert, ih, List.reverse_append, List.reverse_singleton, List.singleton_append,
      lookup_entry]

/-- A table is built again from its entries. -/
theorem ofList_entries (t : Table κ ν) : ofList t.entries = t := by
  refine ext_find? fun k => ?_
  rw [find?_ofList, lookup_reverse t.nodup_keys, find?]

/-- No entry is made up in building. -/
theorem mem_of_mem_ofList {l : List (κ × ν)} {e : κ × ν} (h : e ∈ (ofList l).entries) : e ∈ l := by
  have hfind : (ofList l).find? e.1 = some e.2 := find?_eq_some_iff.2 h
  rw [find?_ofList, List.lookup_eq_some_iff] at hfind
  obtain ⟨as, bs, heq, -⟩ := hfind
  rw [← List.mem_reverse, heq]
  exact List.mem_append_right _ List.mem_cons_self

end Building
end MovingTarget.Table

/-! ## Searches for the best item of a list -/

namespace MovingTarget

/-- A search passes over items that may not be chosen, starts with the first one that may, and of an
item kept and a later one keeps one that is at least as good as the other. So it finds nothing only
if no item may be chosen, and otherwise ends at one that is at least as good as every other. -/
theorem foldl_best_cases {ε β : Type} {step : Option β → ε → Option β} {view : ε → β}
    {May : ε → Prop} {le : ε → ε → Prop} {es : List ε}
    (hskip : ∀ best e, ¬ May e → step best e = best)
    (hstart : ∀ e, May e → step none e = some (view e))
    (hmeet : es.Pairwise fun e f => May e → May f →
      step (some (view e)) f = some (view e) ∧ le e f ∨
        step (some (view e)) f = some (view f) ∧ le f e)
    (hrefl : ∀ e, May e → le e e) (htrans : ∀ e f g, le e f → le f g → le e g) :
    (es.foldl step none = none ∧ ∀ e ∈ es, ¬ May e) ∨
      ∃ e, es.foldl step none = some (view e) ∧ e ∈ es ∧ May e ∧ ∀ f ∈ es, May f → le e f := by
  induction es using List.reverseRecOn with
  | nil => exact .inl ⟨rfl, nofun⟩
  | append_singleton es f ih =>
    obtain ⟨hmeet, -, hlast⟩ := List.pairwise_append.1 hmeet
    have hlast := fun e he => hlast e he f List.mem_cons_self
    simp only [List.foldl_append, List.foldl_cons, List.foldl_nil, List.mem_append,
      List.mem_singleton, or_imp, forall_and, forall_eq]
    by_cases hf : May f
    · rcases ih hmeet with ⟨hfold, hnone⟩ | ⟨e, hfold, he, hmay, hbest⟩
      · rw [hfold, hstart f hf]
        exact .inr ⟨f, rfl, .inr rfl, hf, fun e he hmay => absurd hmay (hnone e he),
          fun _ => hrefl f hf⟩
      · rw [hfold]
        rcases hlast e he hmay hf with ⟨hkeep, hle⟩ | ⟨htake, hle⟩
        · exact .inr ⟨e, hkeep, .inl he, hmay, hbest, fun _ => hle⟩
        · exact .inr ⟨f, htake, .inr rfl, hf,
            fun g hg hg' => htrans f e g hle (hbest g hg hg'), fun _ => hrefl f hf⟩
    · rcases ih hmeet with ⟨hfold, hnone⟩ | ⟨e, hfold, he, hmay, hbest⟩
      · exact .inl ⟨(hskip _ f hf).trans hfold, hnone, hf⟩
      · exact .inr ⟨e, (hskip _ f hf).trans hfold, .inl he, hmay, hbest,
          fun hf' => absurd hf' hf⟩

end MovingTarget
