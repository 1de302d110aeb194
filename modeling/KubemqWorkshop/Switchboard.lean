import Mathlib.Data.List.Basic
import Mathlib.Data.List.Induction

/-!
# A switchboard: the abstract view of a table of on/off flags

The abstract state is a position for every switch. An order turns **all**
switches on, **sets** one of them, or **skips**. The point of the model is the
closed form of a history: the position of a switch is what the *last* order
that mentions it says (`obey_last`), or its starting position when none does
(`obey_untouched`).
-/

namespace KubemqWorkshop

universe u

/-- An order to a board whose switches are named by `κ`. -/
inductive Order (κ : Type u) : Type u where
  /-- turn every switch on -/
  | all : Order κ
  /-- put one switch in a position -/
  | set : κ → Bool → Order κ
  /-- leave the board alone -/
  | skip : Order κ
  deriving DecidableEq, Repr

namespace Order

variable {κ : Type u} [DecidableEq κ]

/-- The position an order puts switch `k` in; `none` when it does not mention it. -/
def position : Order κ → κ → Option Bool
  | .all, _ => some true
  | .set k' b, k => if k = k' then some b else none
  | .skip, _ => none

@[simp] theorem position_all (k : κ) : (all : Order κ).position k = some true := rfl

@[simp] theorem position_set (k k' : κ) (b : Bool) :
    (set k' b).position k = if k = k' then some b else none := rfl

@[simp] theorem position_skip (k : κ) : (skip : Order κ).position k = none := rfl

/-- Carry an order out. -/
def apply (o : Order κ) (board : κ → Bool) : κ → Bool := fun k => (o.position k).getD (board k)

theorem apply_of_position {o : Order κ} {k : κ} {b : Bool} (board : κ → Bool)
    (h : o.position k = some b) : o.apply board k = b := by
  rw [apply, h, Option.getD_some]

theorem apply_of_not_mentioned {o : Order κ} {k : κ} (board : κ → Bool)
    (h : o.position k = none) : o.apply board k = board k := by
  rw [apply, h, Option.getD_none]

end Order

variable {κ : Type u}

section Obey

variable [DecidableEq κ]

/-- The board after a history of orders, oldest first. -/
def obey (os : List (Order κ)) (board : κ → Bool) : κ → Bool :=
  os.foldl (fun a o => o.apply a) board

@[simp] theorem obey_nil (board : κ → Bool) : obey [] board = board := rfl

@[simp] theorem obey_cons (o : Order κ) (os : List (Order κ)) (board : κ → Bool) :
    obey (o :: os) board = obey os (o.apply board) := rfl

theorem obey_append (os os' : List (Order κ)) (board : κ → Bool) :
    obey (os ++ os') board = obey os' (obey os board) := List.foldl_append

/-- A switch that no order mentions stays where it was. -/
theorem obey_untouched {os : List (Order κ)} {k : κ} (h : ∀ o ∈ os, o.position k = none)
    (board : κ → Bool) : obey os board k = board k := by
  induction os generalizing board with
  | nil => rfl
  | cons o os ih =>
    rw [obey_cons, ih (fun o' ho' => h o' (List.mem_cons_of_mem _ ho'))]
    exact Order.apply_of_not_mentioned board (h o (List.mem_cons_self ..))

/-- **The last order wins**: a switch is where the last order that mentions it
put it. -/
theorem obey_last {pre post : List (Order κ)} {o : Order κ} {k : κ} {b : Bool}
    (ho : o.position k = some b) (hpost : ∀ o' ∈ post, o'.position k = none)
    (board : κ → Bool) : obey (pre ++ o :: post) board k = b := by
  rw [obey_append, obey_cons, obey_untouched hpost]
  exact Order.apply_of_position _ ho

/-- Some order of the history mentions the switch. -/
def Mentioned (os : List (Order κ)) (k : κ) : Prop := ∃ o ∈ os, (o.position k).isSome

theorem mentioned_concat {os : List (Order κ)} {o : Order κ} {k : κ} :
    Mentioned (os ++ [o]) k ↔ Mentioned os k ∨ (o.position k).isSome := by
  simp [Mentioned, or_and_right, exists_or]

/-- A switch that is mentioned is mentioned a last time. -/
theorem Mentioned.exists_last {os : List (Order κ)} {k : κ} (h : Mentioned os k) :
    ∃ pre o post b, os = pre ++ o :: post ∧ o.position k = some b ∧
      ∀ o' ∈ post, o'.position k = none := by
  induction os using List.reverseRecOn with
  | nil =>
    obtain ⟨o, ho, -⟩ := h
    exact absurd ho List.not_mem_nil
  | append_singleton os o ih =>
    rcases ho : o.position k with - | b
    · obtain ⟨pre, o', post, b, rfl, ho', hpost⟩ :=
        ih ((mentioned_concat.mp h).resolve_right (by simp [ho]))
      refine ⟨pre, o', post ++ [o], b, by simp, ho', fun o'' ho'' => ?_⟩
      rcases List.mem_append.mp ho'' with ho'' | ho''
      · exact hpost o'' ho''
      · rw [List.mem_singleton.mp ho'', ho]
    · exact ⟨os, o, [], b, rfl, ho, fun o' ho' => absurd ho' List.not_mem_nil⟩

/-- A switch that has moved was moved by the last order that mentions it. -/
theorem exists_order_of_obey_ne {os : List (Order κ)} {k : κ} {board : κ → Bool}
    (h : obey os board k ≠ board k) : ∃ o ∈ os, o.position k = some (obey os board k) := by
  by_cases hmentioned : Mentioned os k
  · obtain ⟨pre, o, post, b, rfl, ho, hpost⟩ := hmentioned.exists_last
    rw [obey_last ho hpost]
    exact ⟨o, by simp, ho⟩
  · refine absurd (obey_untouched (fun o ho => ?_) board) h
    by_contra hsome
    exact hmentioned ⟨o, ho, Option.isSome_iff_ne_none.mpr hsome⟩

end Obey

/-! ## Standing assignments

A history of single assignments, numbered from `0`. Assignment `i` *stands* up
to position `n` when none between the two puts the same switch elsewhere. -/

/-- Assignment `i` put switch `k` in position `b`, and it is still there before
assignment `n`. -/
def Stands (as : List (κ × Bool)) (i n : ℕ) (k : κ) (b : Bool) : Prop :=
  as[i]? = some (k, b) ∧ ∀ j b', i < j → j < n → as[j]? = some (k, b') → b' = b

namespace Stands

variable {as : List (κ × Bool)} {i n : ℕ} {k : κ} {b : Bool}

theorem lt_length (h : Stands as i n k b) : i < as.length := (List.getElem?_eq_some_iff.mp h.1).1

theorem mono (h : Stands as i n k b) {m : ℕ} (hm : m ≤ n) : Stands as i m k b :=
  ⟨h.1, fun j b' hij hjm hj => h.2 j b' hij (by omega) hj⟩

/-- What stands after one more assignment stood before it. -/
theorem of_concat {a : κ × Bool} (h : Stands (as ++ [a]) i n k b) (hi : i < as.length) :
    Stands as i n k b := by
  refine ⟨?_, fun j b' hij hjn hj => h.2 j b' hij hjn ?_⟩
  · rw [← h.1, List.getElem?_append_left hi]
  · rw [List.getElem?_append_left (List.getElem?_eq_some_iff.mp hj).1, hj]

/-- An assignment stands past a new one of the same switch only if they agree. -/
theorem concat_eq {k' : κ} {b' : Bool} (h : Stands (as ++ [(k', b')]) i (as.length + 1) k b)
    (hi : i < as.length) (hk : k' = k) : b' = b := by
  subst hk
  exact h.2 as.length b' hi (by omega) (by simp)

/-- The newest assignment is the one just made. -/
theorem concat_last {a : κ × Bool} (h : Stands (as ++ [a]) as.length n k b) : a = (k, b) := by
  have := h.1
  rw [List.getElem?_concat_length] at this
  exact Option.some.inj this

end Stands

end KubemqWorkshop
