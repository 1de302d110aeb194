import Mathlib.Data.List.Zip

/-!
# A pass that may be given up

Things are brought up to date one after the other, each by what belongs to it, and
the pass is given up where one of them throws. What was done till then stays done,
also of the one that threw, and what comes later is left as it was. A pass goes
through exactly when every check does (`pass_snd_iff`), and then everything is up to
date (`pass_fst`).
-/

namespace KubemqWorkshop

universe u v

variable {α : Type u} {β : Type v} (check : α → β → α × Bool)

/-- Check things one after the other, and give up where one throws; what was done
stays done. -/
def pass : List α → List β → List α × Bool
  | a :: as, b :: bs =>
    match check a b with
    | (a, true) => (a :: (pass as bs).1, (pass as bs).2)
    | (a, false) => (a :: as, false)
  | as, _ => (as, true)

variable {check} {a : α} {b : β} {as : List α} {bs : List β}

theorem pass_cons_of_pos (h : (check a b).2 = true) :
    pass check (a :: as) (b :: bs) =
      ((check a b).1 :: (pass check as bs).1, (pass check as bs).2) := by
  rw [pass]
  split
  · rename_i heq
    rw [heq]
  · rename_i heq
    rw [heq] at h
    cases h

theorem pass_cons_of_neg (h : ¬ (check a b).2 = true) :
    pass check (a :: as) (b :: bs) = ((check a b).1 :: as, false) := by
  rw [pass]
  split
  · rename_i heq
    rw [heq] at h
    exact absurd rfl h
  · rename_i heq
    rw [heq]

/-- Nothing comes or goes. -/
theorem length_pass (as : List α) (bs : List β) : (pass check as bs).1.length = as.length := by
  induction as generalizing bs with
  | nil => cases bs <;> rfl
  | cons a as ih =>
    rcases bs with - | ⟨b, bs⟩
    · rfl
    · by_cases h : (check a b).2 = true
      · rw [pass_cons_of_pos h]
        exact congrArg Nat.succ (ih bs)
      · rw [pass_cons_of_neg h]
        rfl

/-- A pass goes through when every check does. -/
theorem pass_snd_iff (as : List α) (bs : List β) :
    (pass check as bs).2 = true ↔ ∀ p ∈ as.zip bs, (check p.1 p.2).2 = true := by
  induction as generalizing bs with
  | nil => cases bs <;> simp [pass]
  | cons a as ih =>
    rcases bs with - | ⟨b, bs⟩
    · simp [pass]
    · rw [List.zip_cons_cons, List.forall_mem_cons, ← ih]
      by_cases h : (check a b).2 = true
      · rw [pass_cons_of_pos h]
        exact ⟨fun hrest => ⟨h, hrest⟩, fun hall => hall.2⟩
      · rw [pass_cons_of_neg h]
        exact ⟨fun hfalse => absurd hfalse Bool.false_ne_true, fun hall => absurd hall.1 h⟩

/-- A pass that goes through has checked all. -/
theorem pass_fst (hlength : as.length = bs.length) (h : (pass check as bs).2 = true) :
    (pass check as bs).1 = List.zipWith (fun a b => (check a b).1) as bs := by
  induction as generalizing bs with
  | nil => cases bs <;> rfl
  | cons a as ih =>
    rcases bs with - | ⟨b, bs⟩
    · cases hlength
    · have hab : (check a b).2 = true :=
        (pass_snd_iff (a :: as) (b :: bs)).mp h (a, b) (List.mem_cons_self ..)
      rw [pass_cons_of_pos hab] at h ⊢
      rw [List.zipWith_cons_cons, ← ih (Nat.succ.inj hlength) h]

end KubemqWorkshop
