/-!
# Tables kept in key order

A table is a list of entries whose keys ascend strictly, so two tables with the same look-ups are
the same value, and walking a table meets its keys in ascending order. `find?_insert` says what an
insertion does to every look-up; `ext_find?` says that look-ups determine the table.
-/
namespace MovingTarget

/-- Entries with strictly ascending keys. -/
structure Table (κ ν : Type) [LT κ] where
  entries : List (κ × ν)
  ascending : entries.Pairwise (fun a b => a.1 < b.1)

namespace Table

section Basics
variable {κ ν μ : Type} [LT κ]

theorem ext {s t : Table κ ν} (h : s.entries = t.entries) : s = t := by
  cases s; cases t; cases h; rfl

instance [DecidableEq κ] [DecidableEq ν] : DecidableEq (Table κ ν) := fun s t =>
  decidable_of_iff (s.entries = t.entries) ⟨ext, fun h => h ▸ rfl⟩

instance [BEq κ] [BEq ν] : BEq (Table κ ν) := ⟨fun s t => s.entries == t.entries⟩

def empty : Table κ ν := ⟨[], .nil⟩

instance : EmptyCollection (Table κ ν) := ⟨empty⟩
instance : Inhabited (Table κ ν) := ⟨empty⟩

def keys (t : Table κ ν) : List κ := t.entries.map (·.1)

def values (t : Table κ ν) : List ν := t.entries.map (·.2)

def size (t : Table κ ν) : Nat := t.entries.length

/-- Apply `f` to every value, which leaves the keys as they are. -/
def mapValues (f : ν → μ) (t : Table κ ν) : Table κ μ where
  entries := t.entries.map fun e => (e.1, f e.2)
  ascending := t.ascending.map _ fun _ _ h => h

def find? [BEq κ] (t : Table κ ν) (k : κ) : Option ν := t.entries.lookup k

def contains [BEq κ] (t : Table κ ν) (k : κ) : Bool := (t.find? k).isSome

@[simp] theorem entries_empty : (∅ : Table κ ν).entries = [] := rfl

@[simp] theorem entries_mapValues (f : ν → μ) (t : Table κ ν) :
    (t.mapValues f).entries = t.entries.map fun e => (e.1, f e.2) := rfl

@[simp] theorem keys_mapValues (f : ν → μ) (t : Table κ ν) : (t.mapValues f).keys = t.keys := by
  simp [keys, Function.comp_def]

omit [LT κ] in
theorem lookup_entry [DecidableEq κ] (k : κ) (e : κ × ν) (rest : List (κ × ν)) :
    (e :: rest).lookup k = if k = e.1 then some e.2 else rest.lookup k := by
  obtain ⟨j, x⟩ := e
  rw [List.lookup_cons]
  by_cases h : k = j
  · simp [h]
  · simp [beq_false_of_ne h, h]

theorem find?_mapValues [BEq κ] (f : ν → μ) (t : Table κ ν) (k : κ) :
    (t.mapValues f).find? k = (t.find? k).map f := by
  simp only [find?, entries_mapValues]
  induction t.entries with
  | nil => rfl
  | cons e rest ih =>
    obtain ⟨j, x⟩ := e
    simp only [List.map_cons, List.lookup_cons]
    split
    · rfl
    · exact ih

end Basics

section Insertion
variable {κ ν : Type} [LT κ] [DecidableLT κ]

/-- Put `x` under `k` into an ascending list of entries, in place of what stood there. -/
def insertEntry (k : κ) (x : ν) : List (κ × ν) → List (κ × ν)
  | [] => [(k, x)]
  | e :: rest =>
    if k < e.1 then (k, x) :: e :: rest
    else if e.1 < k then e :: insertEntry k x rest
    else (k, x) :: rest

theorem key_of_mem_insertEntry {k : κ} {x : ν} {e : κ × ν} {l : List (κ × ν)}
    (h : e ∈ insertEntry k x l) : e = (k, x) ∨ e ∈ l := by
  induction l with
  | nil => simpa [insertEntry] using h
  | cons a rest ih => grind [insertEntry]

variable [LE κ] [Std.IsLinearOrder κ] [Std.LawfulOrderLT κ]

theorem ascending_insertEntry (k : κ) (x : ν) {l : List (κ × ν)}
    (h : l.Pairwise (fun a b => a.1 < b.1)) :
    (insertEntry k x l).Pairwise (fun a b => a.1 < b.1) := by
  induction l with
  | nil => simp [insertEntry]
  | cons e rest ih =>
    rw [List.pairwise_cons] at h
    rw [insertEntry]
    split
    · next hk =>
      refine .cons (fun a ha => ?_) (.cons h.1 h.2)
      rcases List.mem_cons.1 ha with rfl | ha
      · exact hk
      · exact Std.lt_trans hk (h.1 a ha)
    · split
      · next hk =>
        refine .cons (fun a ha => ?_) (ih h.2)
        rcases key_of_mem_insertEntry ha with rfl | ha
        · exact hk
        · exact h.1 a ha
      · next h₁ h₂ =>
        have he : e.1 = k := Std.le_antisymm (Std.not_lt.1 h₁) (Std.not_lt.1 h₂)
        exact .cons (fun a ha => he ▸ h.1 a ha) h.2

def insert (t : Table κ ν) (k : κ) (x : ν) : Table κ ν where
  entries := insertEntry k x t.entries
  ascending := ascending_insertEntry k x t.ascending

/-- Later entries replace earlier ones with the same key. -/
def ofList (l : List (κ × ν)) : Table κ ν := l.foldl (fun t e => t.insert e.1 e.2) ∅

theorem lookup_insertEntry [DecidableEq κ] (k : κ) (x : ν) (j : κ) {l : List (κ × ν)}
    (h : l.Pairwise (fun a b => a.1 < b.1)) :
    (insertEntry k x l).lookup j = if j = k then some x else l.lookup j := by
  induction l with
  | nil => simp [insertEntry, lookup_entry]
  | cons e rest ih =>
    have hr := ih (List.pairwise_cons.1 h).2
    rw [insertEntry]
    split
    · rw [lookup_entry]
    · split
      · next hk =>
        have : e.1 ≠ k := fun h => Std.lt_irrefl (h ▸ hk)
        rw [lookup_entry, lookup_entry, hr]
        grind
      · next h₁ h₂ =>
        have he : e.1 = k := Std.le_antisymm (Std.not_lt.1 h₁) (Std.not_lt.1 h₂)
        rw [lookup_entry, lookup_entry, he]
        grind

theorem find?_insert [DecidableEq κ] (t : Table κ ν) (k j : κ) (x : ν) :
    (t.insert k x).find? j = if j = k then some x else t.find? j :=
  lookup_insertEntry k x j t.ascending

end Insertion

/-! ## Look-ups determine a table -/

section Uniqueness
variable {κ ν : Type} [LT κ] [LE κ] [Std.LawfulOrderLT κ]

theorem find?_eq_some_iff [DecidableEq κ] {t : Table κ ν} {k : κ} {x : ν} :
    t.find? k = some x ↔ (k, x) ∈ t.entries := by
  have h := t.ascending
  unfold find?
  revert h
  induction t.entries with
  | nil => simp
  | cons e rest ih =>
    intro h
    rw [List.pairwise_cons] at h
    rw [lookup_entry, List.mem_cons]
    by_cases hk : k = e.1
    · have : (k, x) ∉ rest := fun hm => Std.lt_irrefl (hk ▸ h.1 _ hm)
      rw [if_pos hk]
      grind
    · simp [ih h.2, Prod.ext_iff, hk]

theorem nodup_entries (t : Table κ ν) : t.entries.Nodup :=
  t.ascending.imp fun {a b} (hab : a.1 < b.1) (he : a = b) => Std.lt_irrefl (he ▸ hab)

theorem ext_find? [DecidableEq κ] [Std.IsLinearOrder κ] {s t : Table κ ν}
    (h : ∀ k, s.find? k = t.find? k) : s = t := by
  refine ext (List.Perm.eq_of_pairwise (fun a b _ _ hab hba => ?_) s.ascending t.ascending ?_)
  · exact absurd (Std.lt_trans hab hba) Std.lt_irrefl
  · refine (List.perm_ext_iff_of_nodup s.nodup_entries t.nodup_entries).2 fun e => ?_
    rw [← Prod.eta e, ← find?_eq_some_iff, ← find?_eq_some_iff, h]

end Uniqueness
end Table
end MovingTarget
