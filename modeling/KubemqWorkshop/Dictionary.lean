import Mathlib.Data.List.Basic
import Mathlib.Data.List.Nodup

/-!
# Insertion-ordered dictionaries

A finite map whose entries keep the order they were added in and whose keys are
pairwise distinct — the second half is a field, so a dictionary with a doubled
key cannot be built. There is no removal, hence enumeration follows insertion.

Two updates are all that is needed: `modify` rewrites the value at one key,
`mapValues` rewrites every value. Neither touches the keys.
-/

namespace KubemqWorkshop

universe u v

/-- A dictionary from `κ` to `ν`, in insertion order. -/
structure Dictionary (κ : Type u) (ν : Type v) where
  /-- the key-value pairs, oldest first -/
  entries : List (κ × ν)
  /-- no key occurs twice -/
  nodup : (entries.map Prod.fst).Nodup

namespace Dictionary

variable {κ : Type u} {ν : Type v}

@[ext] theorem ext {d d' : Dictionary κ ν} (h : d.entries = d'.entries) : d = d' := by
  cases d; cases d'
  subst h
  rfl

instance [DecidableEq κ] [DecidableEq ν] : DecidableEq (Dictionary κ ν) := fun d d' =>
  decidable_of_iff (d.entries = d'.entries) ⟨ext, congrArg entries⟩

/-- The keys, in insertion order. -/
def keys (d : Dictionary κ ν) : List κ := d.entries.map Prod.fst

/-- The values, in insertion order. -/
def values (d : Dictionary κ ν) : List ν := d.entries.map Prod.snd

/-- Rewrite every value. -/
def mapValues (d : Dictionary κ ν) (f : ν → ν) : Dictionary κ ν where
  entries := d.entries.map fun e => (e.1, f e.2)
  nodup := by simpa [Function.comp_def] using d.nodup

@[simp] theorem keys_mapValues (d : Dictionary κ ν) (f : ν → ν) :
    (d.mapValues f).keys = d.keys := by
  simp [keys, mapValues, Function.comp_def]

variable [DecidableEq κ]

/-- Look a key up. -/
def get? (d : Dictionary κ ν) (k : κ) : Option ν := d.entries.lookup k

/-- Rewrite the value at one key; nothing happens at an unknown key. -/
def modify (d : Dictionary κ ν) (k : κ) (f : ν → ν) : Dictionary κ ν where
  entries := d.entries.map fun e => if e.1 = k then (e.1, f e.2) else e
  nodup := by
    have hfst : (d.entries.map fun e => if e.1 = k then (e.1, f e.2) else e).map Prod.fst
        = d.entries.map Prod.fst := by
      rw [List.map_map]
      refine List.map_congr_left fun e _ => ?_
      by_cases he : e.1 = k <;> simp [he]
    rw [hfst]
    exact d.nodup

@[simp] theorem keys_modify (d : Dictionary κ ν) (k : κ) (f : ν → ν) :
    (d.modify k f).keys = d.keys := by
  simp only [keys, modify, List.map_map]
  refine List.map_congr_left fun e _ => ?_
  by_cases he : e.1 = k <;> simp [he]

/-! ## Lookup after an update -/

theorem get?_mapValues (d : Dictionary κ ν) (f : ν → ν) (k : κ) :
    (d.mapValues f).get? k = (d.get? k).map f := by
  obtain ⟨es, hes⟩ := d
  simp only [get?, mapValues]
  clear hes
  induction es with
  | nil => rfl
  | cons e es ih =>
    rw [List.map_cons, List.lookup_cons, List.lookup_cons]
    rcases k == e.1 with - | -
    · exact ih
    · rfl

theorem get?_modify (d : Dictionary κ ν) (k k' : κ) (f : ν → ν) :
    (d.modify k f).get? k' = if k' = k then (d.get? k').map f else d.get? k' := by
  obtain ⟨es, hes⟩ := d
  simp only [get?, modify]
  clear hes
  induction es with
  | nil => simp
  | cons e es ih =>
    obtain ⟨a, b⟩ := e
    by_cases hk' : k' = a
    · subst hk'
      by_cases hk : k' = k <;> simp [hk]
    · have hbeq : (k' == a) = false := by simpa using hk'
      rw [List.map_cons]
      by_cases ha : a = k
      · subst ha
        simp only [if_true, List.lookup_cons, hbeq, ih]
      · simp only [if_neg ha, List.lookup_cons, hbeq, ih]

/-! ## Lookup and membership -/

theorem get?_eq_none_iff {d : Dictionary κ ν} {k : κ} : d.get? k = none ↔ k ∉ d.keys := by
  obtain ⟨es, hes⟩ := d
  simp only [get?, keys]
  clear hes
  induction es with
  | nil => simp
  | cons e es ih =>
    obtain ⟨a, b⟩ := e
    by_cases hk : k = a
    · subst hk
      simp
    · have hbeq : (k == a) = false := by simpa using hk
      simp only [List.lookup_cons, hbeq, ih, List.map_cons, List.mem_cons, hk, false_or]

theorem get?_isSome_iff {d : Dictionary κ ν} {k : κ} : (d.get? k).isSome ↔ k ∈ d.keys := by
  rw [Option.isSome_iff_ne_none, ne_eq, get?_eq_none_iff, not_not]

/-- Distinct keys: an entry is what its key looks up. -/
theorem get?_of_mem {d : Dictionary κ ν} {k : κ} {v : ν} (h : (k, v) ∈ d.entries) :
    d.get? k = some v := by
  obtain ⟨es, hes⟩ := d
  simp only [get?] at h ⊢
  induction es with
  | nil => cases h
  | cons e es ih =>
    obtain ⟨a, b⟩ := e
    rw [List.map_cons, List.nodup_cons] at hes
    rcases List.mem_cons.mp h with heq | hmem
    · obtain ⟨rfl, rfl⟩ := Prod.mk.inj heq
      simp
    · have hne : k ≠ a := by
        rintro rfl
        exact hes.1 (List.mem_map.mpr ⟨(k, v), hmem, rfl⟩)
      have hbeq : (k == a) = false := by simpa using hne
      rw [List.lookup_cons, hbeq]
      exact ih hes.2 hmem

/-- What a key looks up is its entry. -/
theorem mem_of_get? {d : Dictionary κ ν} {k : κ} {v : ν} (h : d.get? k = some v) :
    (k, v) ∈ d.entries := by
  have hkey : k ∈ d.keys := get?_isSome_iff.mp (by rw [h]; rfl)
  obtain ⟨⟨k', v'⟩, hmem, rfl⟩ := List.mem_map.mp hkey
  obtain rfl : v' = v := Option.some.inj ((get?_of_mem hmem).symm.trans h)
  exact hmem

end Dictionary

end KubemqWorkshop
