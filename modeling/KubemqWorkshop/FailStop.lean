import KubemqWorkshop.FailureModes

/-!
# Fail-stop loops

A third discipline: a failure, of an item or of a poll, costs everything after
it, because the loop is left. Such a loop is a fold over what it gets to see
(`loop_eq_foldl`), which is the list **through** the first failure, that one
included. For polls of batches this makes two lists: the items that were
`handled`, and the items that were `taken` off the source, the rest of the last
batch included (`handled_prefix_taken`).

A fail-stop loop is prefix-closed in what it hands on only if a success is told
from a failure correctly; `filter_prefix_of_pairwise` is what is left to ask
when it is not.
-/

namespace KubemqWorkshop

namespace FailStop

universe u v w

variable {α : Type u} {σ : Type v}

/-! ## Through the first failure -/

section

variable {ok : α → Bool} {x : α} {xs : List α}

/-- The items up to the first failure, and that one. -/
def through (ok : α → Bool) : List α → List α
  | [] => []
  | x :: xs => if ok x then x :: through ok xs else [x]

theorem through_cons_of_pos (h : ok x = true) : through ok (x :: xs) = x :: through ok xs :=
  if_pos h

theorem through_cons_of_neg (h : ¬ ok x = true) : through ok (x :: xs) = [x] := if_neg h

theorem through_prefix (ok : α → Bool) (xs : List α) : through ok xs <+: xs := by
  induction xs with
  | nil => exact List.prefix_rfl
  | cons x xs ih =>
    by_cases h : ok x = true
    · rw [through_cons_of_pos h]
      exact (List.prefix_cons_inj x).mpr ih
    · rw [through_cons_of_neg h]
      exact List.prefix_append [x] xs

theorem through_eq_self (h : ∀ x ∈ xs, ok x = true) : through ok xs = xs := by
  induction xs with
  | nil => rfl
  | cons x xs ih =>
    rw [through_cons_of_pos (h x (List.mem_cons_self ..)),
      ih fun y hy => h y (List.mem_cons_of_mem x hy)]

/-- Nothing comes after a failure. -/
theorem through_pairwise (ok : α → Bool) (xs : List α) :
    (through ok xs).Pairwise fun x _ => ok x = true := by
  induction xs with
  | nil => exact List.Pairwise.nil
  | cons x xs ih =>
    by_cases h : ok x = true
    · rw [through_cons_of_pos h]
      exact List.pairwise_cons.mpr ⟨fun _ _ => h, ih⟩
    · rw [through_cons_of_neg h]
      exact List.pairwise_singleton _ x

theorem through_map {β : Type w} (f : β → α) (ys : List β) :
    through ok (ys.map f) = (through (fun y => ok (f y)) ys).map f := by
  induction ys with
  | nil => rfl
  | cons y ys ih =>
    rw [List.map_cons, through, through, ih]
    split_ifs <;> rfl

end

/-! ## The loop -/

section

variable {running : σ → Bool} {turn : σ → α → σ} {s : σ}

/-- Run a loop over a list: its body is not entered again once the loop has been
left. -/
def loop (running : σ → Bool) (turn : σ → α → σ) (s : σ) (xs : List α) : σ :=
  xs.foldl (fun s x => if running s then turn s x else s) s

theorem loop_cons (hs : running s = true) (x : α) (xs : List α) :
    loop running turn s (x :: xs) = loop running turn (turn s x) xs := by
  rw [loop, List.foldl_cons, if_pos hs, loop]

/-- A loop that has been left stays as it is. -/
theorem loop_left (hs : running s = false) (xs : List α) : loop running turn s xs = s := by
  induction xs with
  | nil => rfl
  | cons x xs ih =>
    rw [loop, List.foldl_cons, if_neg (by simp [hs])]
    exact ih

/-- **The invariant rule**: what the body keeps while the loop runs, the loop
keeps. -/
theorem loop_preserves {I : σ → Prop} (hturn : ∀ s x, running s = true → I s → I (turn s x))
    (hI : I s) (xs : List α) : I (loop running turn s xs) := by
  induction xs generalizing s with
  | nil => exact hI
  | cons x xs ih =>
    by_cases hs : running s = true
    · rw [loop_cons hs]
      exact ih (hturn s x hs hI)
    · rw [loop_left (by simpa using hs)]
      exact hI

/-- **The fail-stop law**: a loop that is left exactly on the items that fail is
a fold over the items through the first failure, and runs on when none fails. -/
theorem loop_eq_foldl {ok : α → Bool} (hok : ∀ s x, running s = true → running (turn s x) = ok x)
    (hs : running s = true) (xs : List α) :
    loop running turn s xs = (through ok xs).foldl turn s ∧
      running (loop running turn s xs) = xs.all ok := by
  induction xs generalizing s with
  | nil => exact ⟨rfl, hs⟩
  | cons x xs ih =>
    rw [loop_cons hs, List.all_cons]
    by_cases hx : ok x = true
    · rw [through_cons_of_pos hx, List.foldl_cons, hx, Bool.true_and]
      exact ih ((hok s x hs).trans hx)
    · have hleft : running (turn s x) = false := (hok s x hs).trans (by simpa using hx)
      rw [through_cons_of_neg hx, loop_left hleft]
      exact ⟨rfl, by rw [hleft, Bool.eq_false_iff.mpr hx, Bool.false_and]⟩

end

/-! ## A sequence of polls -/

section

variable (ok : α → Bool)

/-- A poll that goes through, with every item of its batch. -/
def pollOk : Option (List α) → Bool
  | none => false
  | some batch => batch.all ok

/-- The items the loop handles: those through the first failure. -/
def handled (polls : List (Option (List α))) : List α :=
  (through (pollOk ok) polls).flatMap fun poll => through ok (poll.getD [])

/-- The items that were taken off the source: the rest of the last batch too. -/
def taken (polls : List (Option (List α))) : List α :=
  (through (pollOk ok) polls).flatMap fun poll => poll.getD []

variable {ok}

theorem handled_cons_of_pos {poll : Option (List α)} (h : pollOk ok poll = true)
    (polls : List (Option (List α))) :
    handled ok (poll :: polls) = poll.getD [] ++ handled ok polls := by
  have hbatch : through ok (poll.getD []) = poll.getD [] := by
    rcases poll with - | batch
    · rfl
    · exact through_eq_self (by simpa [pollOk] using h)
  rw [handled, through_cons_of_pos h, List.flatMap_cons, hbatch, handled]

theorem taken_cons_of_pos {poll : Option (List α)} (h : pollOk ok poll = true)
    (polls : List (Option (List α))) :
    taken ok (poll :: polls) = poll.getD [] ++ taken ok polls := by
  rw [taken, through_cons_of_pos h, List.flatMap_cons, taken]

/-- Nothing is handled after a failure. -/
theorem handled_pairwise (polls : List (Option (List α))) :
    (handled ok polls).Pairwise fun x _ => ok x = true := by
  induction polls with
  | nil => exact List.Pairwise.nil
  | cons poll polls ih =>
    by_cases h : pollOk ok poll = true
    · have hbatch : ∀ x ∈ poll.getD [], ok x = true := by
        rcases poll with - | batch
        · simp
        · simpa [pollOk] using h
      rw [handled_cons_of_pos h, List.pairwise_append]
      exact ⟨List.pairwise_of_forall_mem_list fun x hx _ _ => hbatch x hx, ih,
        fun x hx _ _ => hbatch x hx⟩
    · rw [handled, through_cons_of_neg h, List.flatMap_singleton]
      exact through_pairwise ok _

/-- What was handled was taken before, in the same order. -/
theorem handled_prefix_taken (polls : List (Option (List α))) :
    handled ok polls <+: taken ok polls := by
  induction polls with
  | nil => exact List.prefix_rfl
  | cons poll polls ih =>
    by_cases h : pollOk ok poll = true
    · rw [handled_cons_of_pos h, taken_cons_of_pos h]
      exact (List.prefix_append_right_inj _).mpr ih
    · rw [handled, taken, through_cons_of_neg h, List.flatMap_singleton, List.flatMap_singleton]
      exact through_prefix ok _

/-- Without a failure everything taken is handled. -/
theorem handled_eq_taken {polls : List (Option (List α))}
    (h : ∀ poll ∈ polls, pollOk ok poll = true) : handled ok polls = taken ok polls := by
  induction polls with
  | nil => rfl
  | cons poll polls ih =>
    have hpoll : pollOk ok poll = true := h poll (List.mem_cons_self ..)
    rw [handled_cons_of_pos hpoll, taken_cons_of_pos hpoll,
      ih fun p hp => h p (List.mem_cons_of_mem poll hp)]

end

/-! ## Holes -/

theorem takeWhile_eq_filter_of_pairwise {good : α → Bool} {xs : List α}
    (h : xs.Pairwise fun x y => good x = false → good y = false) :
    xs.takeWhile good = xs.filter good := by
  rw [FailureModes.takeWhile_eq_filter_iff]
  induction xs with
  | nil => simp
  | cons x xs ih =>
    rw [List.pairwise_cons] at h
    by_cases hx : good x = true
    · rw [List.dropWhile_cons_of_pos hx]
      exact ih h.2
    · rw [List.dropWhile_cons_of_neg hx, List.forall_mem_cons]
      have hx : good x = false := by simpa using hx
      exact ⟨hx, fun y hy => h.1 y hy hx⟩

/-- When no good item follows one that is not, the good items are a prefix. -/
theorem filter_prefix_of_pairwise {good : α → Bool} {xs : List α}
    (h : xs.Pairwise fun x y => good x = false → good y = false) : xs.filter good <+: xs := by
  rw [← takeWhile_eq_filter_of_pairwise h]
  exact List.takeWhile_prefix good

end FailStop

end KubemqWorkshop
