import Mathlib.Data.List.DropRight

/-!
# Sliding windows

A window of width `n` is filled with a value `c` at first and shows the last `n`
of the values that came in since (`window`). Pushing a value and dropping the
oldest keeps it up (`window_concat`); a push goes unnoticed only by a window
that shows nothing but the value pushed (`slide_eq_self_iff`).
-/

namespace KubemqWorkshop

universe u

variable {α : Type u}

/-- Push a value and drop the oldest. -/
def slide (xs : List α) (y : α) : List α := (xs ++ [y]).drop 1

/-- The last `n` elements of `n` times `c` and then `ys`. -/
def window (n : ℕ) (c : α) (ys : List α) : List α := (List.replicate n c ++ ys).rtake n

variable {n : ℕ} {c : α}

@[simp] theorem length_slide (xs : List α) (y : α) : (slide xs y).length = xs.length := by
  rw [slide, List.length_drop, List.length_append, List.length_singleton, Nat.add_sub_cancel]

theorem mem_slide {xs : List α} {x y : α} (h : x ∈ slide xs y) : x ∈ xs ∨ x = y := by
  have hmem := List.mem_of_mem_drop h
  rwa [List.mem_append, List.mem_singleton] at hmem

theorem window_eq_drop (ys : List α) :
    window n c ys = (List.replicate n c ++ ys).drop ys.length := by
  rw [window, List.rtake, List.length_append, List.length_replicate, Nat.add_sub_cancel_left]

@[simp] theorem window_nil : window n c [] = List.replicate n c := by
  rw [window_eq_drop, List.append_nil, List.length_nil, List.drop_zero]

/-- **A window moves on** by a slide. -/
theorem window_concat (ys : List α) (y : α) :
    window n c (ys ++ [y]) = slide (window n c ys) y := by
  have hle : ys.length ≤ (List.replicate n c ++ ys).length := by
    rw [List.length_append]
    exact Nat.le_add_left _ _
  rw [window_eq_drop, window_eq_drop, slide, ← List.append_assoc, List.length_append,
    List.length_singleton, ← List.drop_append_of_le_length hle, List.drop_drop]

theorem slide_replicate : slide (List.replicate n c) c = List.replicate n c := by
  rw [slide, ← List.replicate_succ', List.drop_replicate, Nat.add_sub_cancel]

/-- **When a push goes unnoticed.** -/
theorem slide_eq_self_iff {xs : List α} {y : α} : slide xs y = xs ↔ ∀ x ∈ xs, x = y := by
  refine ⟨fun h => ?_, fun h => ?_⟩
  · induction xs with
    | nil => simp
    | cons x xs ih =>
      have hxs : xs ++ [y] = x :: xs := h
      cases xs with
      | nil => simpa [eq_comm] using hxs
      | cons x' xs =>
        obtain ⟨rfl, htail⟩ := List.cons.inj hxs
        have hall := ih htail
        exact List.forall_mem_cons.mpr ⟨hall x' (List.mem_cons_self ..), hall⟩
  · rw [List.eq_replicate_of_mem h, slide_replicate]

end KubemqWorkshop
