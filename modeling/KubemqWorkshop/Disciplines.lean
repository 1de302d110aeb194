import KubemqWorkshop.FailStop
import Mathlib.Data.List.TakeWhile

/-!
# Four ways to fail

One trace of polls under four disciplines:

* `stopped` — any failure costs everything after it;
* `FailureModes.aborted` — a failed item costs the rest of its batch, a failed
  poll everything after it;
* `unguarded` — a failed item costs itself, a failed poll everything after it;
* `FailureModes.isolated` — a failed item costs itself, a failed poll nothing.

Each hands on a part of what the next one does, and in the same order, and a
discipline that overlooks some failed polls hands on no less
(`aborted_sublist_unguarded`). `stopped_eq_takeWhile` and `isolated_eq_filter` are
the closed forms; `unguarded_eq_isolated_iff` says when a failed poll costs nothing,
`stopped_eq_isolated_iff` when a failure does.
-/

namespace KubemqWorkshop

namespace Disciplines

open FailureModes

universe u

variable {α : Type u} (ok : α → Bool)

/-- A failure costs everything after it. -/
def stopped (polls : List (Option (List α))) : List α := (FailStop.handled ok polls).filter ok

/-- A failed item costs itself, a failed poll everything after it. -/
def unguarded (polls : List (Option (List α))) : List α :=
  isolated ok (polls.takeWhile Option.isSome)

/-! ## Stopping -/

theorem filter_through (xs : List α) : (FailStop.through ok xs).filter ok = xs.takeWhile ok := by
  induction xs with
  | nil => rfl
  | cons x xs ih =>
    by_cases hx : ok x = true
    · rw [FailStop.through_cons_of_pos hx, List.filter_cons_of_pos hx,
        List.takeWhile_cons_of_pos hx, ih]
    · rw [FailStop.through_cons_of_neg hx, List.filter_cons_of_neg hx,
        List.takeWhile_cons_of_neg hx, List.filter_nil]

theorem stopped_some_of_all {batch : List α} (h : batch.all ok = true)
    (polls : List (Option (List α))) :
    stopped ok (some batch :: polls) = batch ++ stopped ok polls := by
  have hpos : FailStop.pollOk ok (some batch) = true := h
  rw [stopped, FailStop.handled_cons_of_pos hpos, Option.getD_some, List.filter_append,
    List.filter_eq_self.mpr (List.all_eq_true.mp h), ← stopped]

theorem stopped_some_of_not_all {batch : List α} (h : ¬ batch.all ok = true)
    (polls : List (Option (List α))) :
    stopped ok (some batch :: polls) = batch.takeWhile ok := by
  have hneg : ¬ FailStop.pollOk ok (some batch) = true := h
  rw [stopped, FailStop.handled, FailStop.through_cons_of_neg hneg, List.flatMap_singleton,
    Option.getD_some, filter_through]

theorem takeWhile_eq_self_of_all {batch : List α} (h : batch.all ok = true) :
    batch.takeWhile ok = batch :=
  List.takeWhile_eq_self_iff.mpr (List.all_eq_true.mp h)

/-- Stopping hands on the beginning of what aborting does. -/
theorem stopped_prefix_aborted (polls : List (Option (List α))) :
    stopped ok polls <+: aborted ok polls := by
  induction polls with
  | nil => exact List.prefix_rfl
  | cons poll polls ih =>
    rcases poll with - | batch
    · exact List.prefix_rfl
    · rw [aborted]
      by_cases h : batch.all ok = true
      · rw [stopped_some_of_all ok h, takeWhile_eq_self_of_all ok h]
        exact (List.prefix_append_right_inj batch).mpr ih
      · rw [stopped_some_of_not_all ok h]
        exact List.prefix_append _ _

/-- **Stopping**: of the items before the first poll that fails, those before the
first one that fails. -/
theorem stopped_eq_takeWhile (polls : List (Option (List α))) :
    stopped ok polls =
      ((polls.takeWhile Option.isSome).flatMap fun poll => poll.getD []).takeWhile ok := by
  induction polls with
  | nil => rfl
  | cons poll polls ih =>
    rcases poll with - | batch
    · rfl
    · rw [List.takeWhile_cons_of_pos rfl, List.flatMap_cons, Option.getD_some]
      by_cases h : batch.all ok = true
      · rw [stopped_some_of_all ok h, ih, List.takeWhile_append_of_pos (List.all_eq_true.mp h)]
      · have hlen : (batch.takeWhile ok).length ≠ batch.length := by
          intro hlen
          have heq := (List.takeWhile_prefix ok).eq_of_length hlen
          exact h (List.all_eq_true.mpr (List.takeWhile_eq_self_iff.mp heq))
        rw [stopped_some_of_not_all ok h, List.takeWhile_append, if_neg hlen]

/-- Stopping, when every poll has a batch. -/
theorem stopped_map_some (batches : List (List α)) :
    stopped ok (batches.map some) = batches.flatten.takeWhile ok := by
  have hall : (batches.map some).takeWhile Option.isSome = batches.map some := by
    rw [List.takeWhile_eq_self_iff, List.forall_mem_map]
    exact fun _ _ => rfl
  rw [stopped_eq_takeWhile, hall, List.flatMap_map, List.flatMap_def]
  simp only [Option.getD_some, List.map_id']

/-- What comes before the first failure is the beginning of what goes through. -/
theorem takeWhile_prefix_filter (xs : List α) : xs.takeWhile ok <+: xs.filter ok := by
  refine ⟨(xs.dropWhile ok).filter ok, ?_⟩
  have hall : (xs.takeWhile ok).filter ok = xs.takeWhile ok :=
    List.filter_eq_self.mpr fun _ hx => List.mem_takeWhile_imp hx
  rw [← hall, ← List.filter_append, List.takeWhile_append_dropWhile]

/-! ## Polls that fail -/

/-- The items that go through, when a failed poll costs nothing. -/
theorem isolated_eq_filter (polls : List (Option (List α))) :
    isolated ok polls = (polls.flatMap fun poll => poll.getD []).filter ok := by
  rw [isolated, List.filter_flatMap]

/-- The trace `polls'` is `polls` with some of the failed polls overlooked: taken
for batches. -/
def Overlooks (polls polls' : List (Option (List α))) : Prop :=
  List.Forall₂ (fun poll poll' => poll = none ∨ poll = poll') polls polls'

/-- Aborting hands on a part of what the next discipline does, also when that one
overlooks some of the failed polls. -/
theorem aborted_sublist_unguarded {polls polls' : List (Option (List α))}
    (h : Overlooks polls polls') : (aborted ok polls).Sublist (unguarded ok polls') := by
  induction h with
  | nil => exact List.Sublist.refl _
  | @cons poll poll' polls polls' hpoll hpolls ih =>
    rcases hpoll with rfl | rfl
    · exact List.nil_sublist _
    · rcases poll with - | batch
      · exact List.nil_sublist _
      · rw [aborted, unguarded, List.takeWhile_cons_of_pos rfl, isolated_cons, ← unguarded]
        exact (takeWhile_sublist_filter ok batch).append ih

theorem isolated_append (polls polls' : List (Option (List α))) :
    isolated ok (polls ++ polls') = isolated ok polls ++ isolated ok polls' :=
  List.flatMap_append

/-- What the last discipline hands on, cut at the first poll that fails. -/
theorem unguarded_append (polls : List (Option (List α))) :
    unguarded ok polls ++ isolated ok (polls.dropWhile Option.isSome) = isolated ok polls := by
  rw [unguarded, ← isolated_append, List.takeWhile_append_dropWhile]

/-- Up to the first poll that fails the last two disciplines are the same. -/
theorem unguarded_prefix_isolated (polls : List (Option (List α))) :
    unguarded ok polls <+: isolated ok polls := ⟨_, unguarded_append ok polls⟩

/-- **A failed poll costs nothing** exactly when nothing after it goes through. -/
theorem unguarded_eq_isolated_iff (polls : List (Option (List α))) :
    unguarded ok polls = isolated ok polls ↔
      ∀ poll ∈ polls.dropWhile Option.isSome, ∀ x ∈ poll.getD [], ok x = false := by
  rw [← unguarded_append, List.self_eq_append_right, isolated_eq_nil_iff]

/-- The items of a trace, cut at the first poll that fails. -/
theorem items_append (polls : List (Option (List α))) :
    ((polls.takeWhile Option.isSome).flatMap fun poll => poll.getD []) ++
        ((polls.dropWhile Option.isSome).flatMap fun poll => poll.getD []) =
      polls.flatMap fun poll => poll.getD [] := by
  rw [← List.flatMap_append, List.takeWhile_append_dropWhile]

/-- Stopping hands on the beginning of what comes before the first item that fails,
failed polls overlooked. -/
theorem stopped_prefix_takeWhile (polls : List (Option (List α))) :
    stopped ok polls <+: (polls.flatMap fun poll => poll.getD []).takeWhile ok := by
  rw [stopped_eq_takeWhile, ← items_append polls, List.takeWhile_append]
  split
  · rename_i hlen
    rw [(List.takeWhile_prefix ok).eq_of_length hlen]
    exact List.prefix_append _ _
  · exact List.prefix_rfl

/-- Stopping hands on the beginning of what the third discipline does. -/
theorem stopped_prefix_unguarded (polls : List (Option (List α))) :
    stopped ok polls <+: unguarded ok polls := by
  rw [stopped_eq_takeWhile, unguarded, isolated_eq_filter]
  exact takeWhile_prefix_filter ok _

/-- **Stopping costs nothing** exactly when nothing goes through after a failed
poll, and nothing after a failed item. -/
theorem stopped_eq_isolated_iff (polls : List (Option (List α))) :
    stopped ok polls = isolated ok polls ↔ unguarded ok polls = isolated ok polls ∧
      ∀ x ∈ (polls.flatMap fun poll => poll.getD []).dropWhile ok, ok x = false := by
  have hchain := unguarded_prefix_isolated ok polls
  rw [← FailureModes.takeWhile_eq_filter_iff, ← isolated_eq_filter]
  refine ⟨fun h => ?_, fun h => ?_⟩
  · refine ⟨hchain.eq_of_length_le ?_, ?_⟩
    · rw [← h]
      exact (stopped_prefix_unguarded ok polls).length_le
    · rw [← h]
      refine ((stopped_prefix_takeWhile ok polls).eq_of_length_le ?_).symm
      rw [h, isolated_eq_filter]
      exact (takeWhile_prefix_filter ok _).length_le
  · -- what follows the failed poll adds nothing to either side
    obtain ⟨hpoll, hitem⟩ := h
    rw [← hitem, stopped_eq_takeWhile, ← items_append polls, List.takeWhile_append]
    split
    · rename_i hlen
      have hnone : ((polls.dropWhile Option.isSome).flatMap fun poll => poll.getD []).takeWhile
          ok = [] := by
        rw [List.eq_nil_iff_forall_not_mem]
        intro x hx
        obtain ⟨poll, hp, hxp⟩ := List.mem_flatMap.mp (List.takeWhile_subset _ hx)
        have hfails := (unguarded_eq_isolated_iff ok polls).mp hpoll poll hp x hxp
        exact Bool.false_ne_true (hfails.symm.trans (List.mem_takeWhile_imp hx))
      rw [hnone, List.append_nil, (List.takeWhile_prefix ok).eq_of_length hlen]
    · rfl

end Disciplines

end KubemqWorkshop
