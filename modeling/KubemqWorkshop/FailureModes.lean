import Mathlib.Data.List.Basic

/-!
# What one failure costs: delivering batches item by item

A source is polled; a poll fails (`none`) or yields a batch. Every item is
handed on, which succeeds or not (`ok`). Two disciplines are compared:

* `isolated` — a failed item costs itself, a failed poll costs nothing;
* `aborted` — a failed item costs the rest of its batch, a failed poll costs
  everything after it.

What the second hands on is a sublist of what the first does
(`aborted_sublist_isolated`), and they agree exactly when nothing that could
have been handed on comes after a failure (`aborted_eq_isolated_iff`).
-/

namespace KubemqWorkshop

universe u v

variable {α : Type u} {β : Type v}

/-! ## Sublists -/

/-- Sublists of two lists concatenate to the whole only if both are whole. -/
theorem append_eq_append_iff_of_sublist {l₁ l₂ m₁ m₂ : List α} (h₁ : l₁.Sublist m₁)
    (h₂ : l₂.Sublist m₂) : l₁ ++ l₂ = m₁ ++ m₂ ↔ l₁ = m₁ ∧ l₂ = m₂ := by
  refine ⟨?_, ?_⟩
  · intro h
    have hlen := congrArg List.length h
    rw [List.length_append, List.length_append] at hlen
    have hl₁ := h₁.length_le
    have hl₂ := h₂.length_le
    exact ⟨h₁.eq_of_length (by omega), h₂.eq_of_length (by omega)⟩
  · rintro ⟨rfl, rfl⟩
    rfl

/-- A sublist whose images are all the images is the whole list. -/
theorem map_eq_map_iff_of_sublist {l m : List α} (h : l.Sublist m) (f : α → β) :
    l.map f = m.map f ↔ l = m := by
  refine ⟨?_, ?_⟩
  · intro hmap
    have hlen := congrArg List.length hmap
    rw [List.length_map, List.length_map] at hlen
    exact h.eq_of_length hlen
  · rintro rfl
    rfl

namespace FailureModes

variable (ok : α → Bool)

/-! ## One batch -/

theorem takeWhile_sublist_filter (batch : List α) :
    (batch.takeWhile ok).Sublist (batch.filter ok) := by
  induction batch with
  | nil => exact List.Sublist.refl _
  | cons x rest ih =>
    by_cases hx : ok x = true
    · rw [List.takeWhile_cons_of_pos hx, List.filter_cons_of_pos hx]
      exact ih.cons_cons x
    · rw [List.takeWhile_cons_of_neg hx]
      exact List.nil_sublist _

/-- Stopping at the first failure costs nothing when everything after it fails
too. -/
theorem takeWhile_eq_filter_iff (batch : List α) :
    batch.takeWhile ok = batch.filter ok ↔ ∀ x ∈ batch.dropWhile ok, ok x = false := by
  induction batch with
  | nil => simp
  | cons x rest ih =>
    by_cases hx : ok x = true
    · rw [List.takeWhile_cons_of_pos hx, List.filter_cons_of_pos hx,
        List.dropWhile_cons_of_pos hx, List.cons_inj_right]
      exact ih
    · rw [List.takeWhile_cons_of_neg hx, List.filter_cons_of_neg hx,
        List.dropWhile_cons_of_neg hx, eq_comm, List.filter_eq_nil_iff]
      simp only [List.mem_cons, forall_eq_or_imp, Bool.not_eq_true]
      exact ⟨fun h => ⟨by simpa using hx, h⟩, fun h => h.2⟩

/-! ## A sequence of polls -/

/-- A failed item costs itself. -/
def isolated (polls : List (Option (List α))) : List α :=
  polls.flatMap fun poll => (poll.getD []).filter ok

/-- A failed item costs the rest of its batch, a failed poll everything after it. -/
def aborted : List (Option (List α)) → List α
  | [] => []
  | none :: _ => []
  | some batch :: polls => batch.takeWhile ok ++ aborted polls

/-- Nothing that could have been handed on comes after a failure: neither after
a failed item in its batch nor after a failed poll. -/
def NothingAfterFailure : List (Option (List α)) → Prop
  | [] => True
  | none :: polls => ∀ poll ∈ polls, ∀ x ∈ poll.getD [], ok x = false
  | some batch :: polls =>
    (∀ x ∈ batch.dropWhile ok, ok x = false) ∧ NothingAfterFailure polls

instance decidableNothingAfterFailure :
    (polls : List (Option (List α))) → Decidable (NothingAfterFailure ok polls)
  | [] => .isTrue trivial
  | none :: polls => inferInstanceAs (Decidable (∀ poll ∈ polls, ∀ x ∈ poll.getD [], ok x = false))
  | some batch :: polls =>
    have := decidableNothingAfterFailure polls
    inferInstanceAs (Decidable ((∀ x ∈ batch.dropWhile ok, ok x = false) ∧
      NothingAfterFailure ok polls))

@[simp] theorem isolated_nil : isolated ok [] = [] := rfl

@[simp] theorem isolated_cons (poll : Option (List α)) (polls : List (Option (List α))) :
    isolated ok (poll :: polls) = (poll.getD []).filter ok ++ isolated ok polls :=
  List.flatMap_cons

theorem isolated_eq_nil_iff {polls : List (Option (List α))} :
    isolated ok polls = [] ↔ ∀ poll ∈ polls, ∀ x ∈ poll.getD [], ok x = false := by
  simp only [isolated, List.flatMap_eq_nil_iff, List.filter_eq_nil_iff, Bool.not_eq_true]

theorem aborted_sublist_isolated (polls : List (Option (List α))) :
    (aborted ok polls).Sublist (isolated ok polls) := by
  induction polls with
  | nil => exact List.Sublist.refl _
  | cons poll polls ih =>
    rcases poll with - | batch
    · exact List.nil_sublist _
    · rw [aborted, isolated_cons]
      exact (takeWhile_sublist_filter ok batch).append ih

/-- **When aborting costs nothing.** -/
theorem aborted_eq_isolated_iff (polls : List (Option (List α))) :
    aborted ok polls = isolated ok polls ↔ NothingAfterFailure ok polls := by
  induction polls with
  | nil => exact ⟨fun _ => trivial, fun _ => rfl⟩
  | cons poll polls ih =>
    rcases poll with - | batch
    · rw [aborted, NothingAfterFailure, isolated_cons, Option.getD_none, List.filter_nil,
        List.nil_append, eq_comm]
      exact isolated_eq_nil_iff ok
    · rw [aborted, NothingAfterFailure, isolated_cons, Option.getD_some,
        append_eq_append_iff_of_sublist (takeWhile_sublist_filter ok batch)
          (aborted_sublist_isolated ok polls), takeWhile_eq_filter_iff, ih]

end FailureModes

end KubemqWorkshop
