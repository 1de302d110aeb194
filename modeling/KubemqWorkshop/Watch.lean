import Mathlib.Data.List.Forall2

/-!
# Watched values

A watch looks at a value again and again, and keeps a mark of its last change: a
value with another key than the one seen before is a change, and is marked by the
two (`look`). A watch forgets what it was marked with when the value changes, so two
watches of one value agree from the first change on (`looks_eq_of_changed`); and
watches of two values agree when the values change together and the same way
(`looks_mark_eq`).
-/

namespace KubemqWorkshop

universe u v w x

/-- A value as it was seen last, and the mark of its last change. -/
structure Watch (α : Type u) (β : Type v) where
  seen : α
  mark : β

namespace Watch

variable {α : Type u} {β : Type v} {κ : Type w} [DecidableEq κ] (key : α → κ) (change : α → α → β)

/-- A look at the value. -/
def look (s : Watch α β) (v : α) : Watch α β where
  seen := v
  mark := if key s.seen = key v then s.mark else change s.seen v

/-- One look after the other. -/
def looks (s : Watch α β) (vs : List α) : Watch α β := vs.foldl (look key change) s

variable {key change}

@[simp] theorem looks_nil (s : Watch α β) : s.looks key change [] = s := rfl

@[simp] theorem looks_cons (s : Watch α β) (v : α) (vs : List α) :
    s.looks key change (v :: vs) = (s.look key change v).looks key change vs := rfl

theorem looks_append (s : Watch α β) (vs us : List α) :
    s.looks key change (vs ++ us) = (s.looks key change vs).looks key change us :=
  List.foldl_append

/-- Looking at what was seen last changes nothing. -/
@[simp] theorem look_seen (s : Watch α β) : s.look key change s.seen = s := by
  rw [look, if_pos rfl]

/-- **A change is all that counts**: two watches that have seen the same value
agree once it has changed. -/
theorem looks_eq_of_changed {s t : Watch α β} (hseen : s.seen = t.seen) {vs : List α}
    (hchanged : ∃ v ∈ vs, key v ≠ key s.seen) : s.looks key change vs = t.looks key change vs := by
  induction vs generalizing s t with
  | nil =>
    obtain ⟨v, hv, -⟩ := hchanged
    cases hv
  | cons v vs ih =>
    rw [looks_cons, looks_cons]
    by_cases hv : key s.seen = key v
    · -- no change yet
      refine ih rfl ?_
      obtain ⟨v', hv', hne⟩ := hchanged
      rcases List.mem_cons.mp hv' with rfl | hv'
      · exact absurd hv.symm hne
      · exact ⟨v', hv', fun heq => hne (heq.trans hv.symm)⟩
    · rw [look, look, ← hseen, if_neg hv, if_neg hv]

/-- While there is no change the mark stays. -/
theorem looks_mark_of_unchanged {s : Watch α β} {vs : List α}
    (h : ∀ v ∈ vs, key v = key s.seen) : (s.looks key change vs).mark = s.mark := by
  induction vs generalizing s with
  | nil => rfl
  | cons v vs ih =>
    obtain ⟨hv, hvs⟩ := List.forall_mem_cons.mp h
    have hmark : (s.look key change v).mark = s.mark := if_pos hv.symm
    rw [looks_cons, ih (fun v' hv' => (hvs v' hv').trans hv.symm), hmark]

/-- **Values that change together**: where two values change at the same looks, and
their changes are marked alike, the watches agree. -/
theorem looks_mark_eq {γ : Type x} {κ' : Type w} [DecidableEq κ'] {key' : γ → κ'}
    {change' : γ → γ → β} {R : α → γ → Prop}
    (hkey : ∀ {a b : α} {c d : γ}, R a c → R b d → (key a = key b ↔ key' c = key' d))
    (hchange : ∀ {a b : α} {c d : γ}, R a c → R b d → key a ≠ key b → change a b = change' c d)
    {vs : List α} {us : List γ} (h : List.Forall₂ R vs us) {s : Watch α β} {t : Watch γ β}
    (hseen : R s.seen t.seen) (hmark : s.mark = t.mark) :
    (s.looks key change vs).mark = (t.looks key' change' us).mark := by
  induction h generalizing s t with
  | nil => exact hmark
  | @cons v u vs us hv _ ih =>
    rw [looks_cons, looks_cons]
    refine ih hv ?_
    rw [look, look]
    by_cases hsame : key s.seen = key v
    · rw [if_pos hsame, if_pos ((hkey hseen hv).mp hsame), hmark]
    · rw [if_neg hsame, if_neg (fun h => hsame ((hkey hseen hv).mpr h)), hchange hseen hv hsame]

end Watch

end KubemqWorkshop
