import Mathlib.Data.List.Basic
import Mathlib.Data.List.Induction

/-!
# Event machines: runs, invariants, histories

A machine reads one event at a time; an event that the current state does not
enable is answered by `none`. A few rules carry every result about runs:

* `run_induction` — a property of *(history, state)* that holds at the start
  and survives one more event holds after every run;
* `run_invariant` — a state invariant that survives every step **meeting a side
  condition** `C` survives every run all of whose steps meet `C` (`Meets`);
  `run_preserves` is the case without a condition, `forall_prefix_iff_meets` the
  one where the condition is exact;
* `run_append` — runs compose, so a run may be cut at any point;
* `run_map` — a part of the state that steps on its own runs on its own;
* `attempt_reached` — a list of events of which some may not be enabled (`attempt`)
  leads to a state that one of its sublists runs to.
-/

namespace KubemqWorkshop

universe u v

/-- A deterministic event machine over states `σ` and events `ε`. -/
structure Machine (σ : Type u) (ε : Type v) where
  /-- one event; `none` when the state does not enable it -/
  step : σ → ε → Option σ

namespace Machine

variable {σ : Type u} {ε : Type v} (M : Machine σ ε)

/-- Run a list of events; `none` as soon as one of them is not enabled. -/
def run : σ → List ε → Option σ
  | s, [] => some s
  | s, e :: es => (M.step s e).bind fun s' => run s' es

@[simp] theorem run_nil (s : σ) : M.run s [] = some s := rfl

@[simp] theorem run_cons (s : σ) (e : ε) (es : List ε) :
    M.run s (e :: es) = (M.step s e).bind fun s' => M.run s' es := rfl

/-- Runs compose. -/
theorem run_append (s : σ) (es fs : List ε) :
    M.run s (es ++ fs) = (M.run s es).bind fun s' => M.run s' fs := by
  induction es generalizing s with
  | nil => rfl
  | cons e es ih =>
    rw [List.cons_append, run_cons, run_cons]
    rcases M.step s e with _ | s'
    · rfl
    · exact ih s'

/-- Inversion: the last step of a run. -/
theorem run_concat_eq_some {s s'' : σ} {es : List ε} {e : ε} :
    M.run s (es ++ [e]) = some s'' ↔ ∃ s', M.run s es = some s' ∧ M.step s' e = some s'' := by
  rw [run_append, Option.bind_eq_some_iff]
  refine exists_congr fun s' => and_congr_right fun _ => ?_
  rw [run_cons]
  rcases M.step s' e with _ | t <;> simp

/-- **History induction**: what holds of the empty history and survives one
more event holds of every history and the state it leads to. -/
theorem run_induction {s₀ : σ} {P : List ε → σ → Prop} (h₀ : P [] s₀)
    (hstep : ∀ es s e s', M.run s₀ es = some s → P es s → M.step s e = some s' →
      P (es ++ [e]) s') :
    ∀ {es : List ε} {s : σ}, M.run s₀ es = some s → P es s := by
  intro es
  induction es using List.reverseRecOn with
  | nil =>
    intro s hs
    obtain rfl := Option.some.inj hs
    exact h₀
  | append_singleton es e ih =>
    intro s'' hs
    obtain ⟨s', hrun, he⟩ := M.run_concat_eq_some.mp hs
    exact hstep es s' e s'' hrun (ih hrun) he

/-- Every step that the run takes meets the side condition `C` in the state it
is taken from. -/
def Meets (C : σ → ε → Prop) : σ → List ε → Prop
  | _, [] => True
  | s, e :: es => C s e ∧ ∀ s', M.step s e = some s' → Meets C s' es

@[simp] theorem meets_nil (C : σ → ε → Prop) (s : σ) : M.Meets C s [] := trivial

theorem meets_cons {C : σ → ε → Prop} {s : σ} {e : ε} {es : List ε} :
    M.Meets C s (e :: es) ↔ C s e ∧ ∀ s', M.step s e = some s' → M.Meets C s' es := Iff.rfl

/-- A run and its side conditions, one event more at the front. -/
theorem run_meets_cons {C : σ → ε → Prop} {s t s' : σ} {e : ε} {es : List ε}
    (hstep : M.step s e = some t) (hC : C s e) (hrun : M.run t es = some s' ∧ M.Meets C t es) :
    M.run s (e :: es) = some s' ∧ M.Meets C s (e :: es) := by
  refine ⟨Option.bind_eq_some_iff.mpr ⟨t, hstep, hrun.1⟩, hC, fun t' ht' => ?_⟩
  obtain rfl := Option.some.inj (hstep.symm.trans ht')
  exact hrun.2

theorem meets_of_forall {C : σ → ε → Prop} (h : ∀ s e, C s e) (s : σ) (es : List ε) :
    M.Meets C s es := by
  induction es generalizing s with
  | nil => trivial
  | cons e es ih => exact ⟨h s e, fun s' _ => ih s'⟩

theorem meets_concat {C : σ → ε → Prop} {s : σ} {es : List ε} {e : ε} :
    M.Meets C s (es ++ [e]) ↔ M.Meets C s es ∧ ∀ s', M.run s es = some s' → C s' e := by
  induction es generalizing s with
  | nil => simp [Meets]
  | cons e' es ih =>
    rw [List.cons_append, meets_cons, meets_cons, and_assoc]
    refine and_congr_right fun _ => ?_
    simp only [ih, run_cons]
    rcases M.step s e' with - | t <;> simp

/-- **Conditional invariance**: an invariant kept by the steps that meet `C`
is kept by the runs whose steps all meet `C`. -/
theorem run_invariant {C : σ → ε → Prop} {I : σ → Prop}
    (hstep : ∀ s e s', I s → C s e → M.step s e = some s' → I s') :
    ∀ {es : List ε} {s s' : σ}, I s → M.Meets C s es → M.run s es = some s' → I s' := by
  intro es
  induction es with
  | nil =>
    intro s s' hI _ hs
    obtain rfl := Option.some.inj hs
    exact hI
  | cons e es ih =>
    intro s s' hI hC hs
    obtain ⟨hCe, hCes⟩ := M.meets_cons.mp hC
    rw [run_cons] at hs
    obtain ⟨t, ht, hrun⟩ := Option.bind_eq_some_iff.mp hs
    exact ih (hstep s e t hI hCe ht) (hCes t ht) hrun

/-- **Invariance**: what every step keeps, every run keeps. -/
theorem run_preserves {I : σ → Prop} (hstep : ∀ s e s', I s → M.step s e = some s' → I s')
    {es : List ε} {s s' : σ} (hI : I s) (hs : M.run s es = some s') : I s' :=
  M.run_invariant (C := fun _ _ => True) (fun s e s' hI _ => hstep s e s' hI) hI
    (M.meets_of_forall (fun _ _ => trivial) s es) hs

/-- **Runs of a part**: where a part of the state steps as another machine, whatever
the rest does, the runs of the machine are those of the part. -/
theorem run_map {τ : Type*} {N : Machine τ ε} {part : τ → σ}
    (hstep : ∀ t e, (N.step t e).map part = M.step (part t) e) (t : τ) (es : List ε) :
    (N.run t es).map part = M.run (part t) es := by
  induction es generalizing t with
  | nil => rfl
  | cons e es ih =>
    rw [run_cons, run_cons, ← hstep, Option.bind_map, Option.map_bind]
    exact congrArg _ (funext fun t' => ih t')

/-- **The exact condition**: if, in every state a prefix of the history leads to
with `P`, the next step keeps `P` just when it meets `C`, then `P` holds all
along the run exactly when all its steps meet `C`. -/
theorem forall_prefix_iff_meets {s₀ : σ} {C : σ → ε → Prop} {P : List ε → σ → Prop}
    (h₀ : P [] s₀) {es : List ε}
    (hstep : ∀ pre e post s s', es = pre ++ e :: post → M.run s₀ pre = some s → P pre s →
      M.step s e = some s' → (P (pre ++ [e]) s' ↔ C s e)) {s : σ} (hs : M.run s₀ es = some s) :
    (∀ pre post s', es = pre ++ post → M.run s₀ pre = some s' → P pre s') ↔ M.Meets C s₀ es := by
  induction es using List.reverseRecOn generalizing s with
  | nil =>
    refine ⟨fun _ => trivial, fun _ pre post s' hsplit hrun => ?_⟩
    obtain ⟨rfl, -⟩ := List.append_eq_nil_iff.mp hsplit.symm
    obtain rfl := Option.some.inj hrun
    exact h₀
  | append_singleton es e ih =>
    obtain ⟨t, ht, he⟩ := M.run_concat_eq_some.mp hs
    have ih := ih (fun pre e' post s s' hsplit =>
      hstep pre e' (post ++ [e]) s s' (by rw [hsplit]; simp)) ht
    have hlast : P es t → (P (es ++ [e]) s ↔ C t e) := fun hP =>
      hstep es e [] t s rfl ht hP he
    rw [meets_concat]
    refine ⟨fun h => ?_, ?_⟩
    · have hes := fun pre post s' (hsplit : es = pre ++ post) =>
        h pre (post ++ [e]) s' (by rw [hsplit, List.append_assoc])
      refine ⟨ih.mp hes, fun s' hs' => ?_⟩
      obtain rfl := Option.some.inj (ht.symm.trans hs')
      exact (hlast (hes es [] t (List.append_nil es).symm ht)).mp
        (h (es ++ [e]) [] s (List.append_nil _).symm hs)
    · rintro ⟨hmeets, hC⟩ pre post s' hsplit hrun
      have hes := ih.mpr hmeets
      -- the prefix is the whole history, or one of the shorter one
      rcases post.eq_nil_or_concat' with rfl | ⟨post', e', rfl⟩
      · rw [List.append_nil] at hsplit
        subst hsplit
        obtain rfl := Option.some.inj (hs.symm.trans hrun)
        exact (hlast (hes es [] t (List.append_nil es).symm ht)).mpr (hC t ht)
      · rw [← List.append_assoc] at hsplit
        exact hes pre post' s' (List.append_inj' hsplit rfl).1 hrun

/-! ## Events that may not be enabled -/

/-- Try a list of events; one that is not enabled is passed over. -/
def attempt (s : σ) (es : List ε) : σ := es.foldl (fun s e => (M.step s e).getD s) s

@[simp] theorem attempt_nil (s : σ) : M.attempt s [] = s := rfl

theorem attempt_append (s : σ) (es fs : List ε) :
    M.attempt s (es ++ fs) = M.attempt (M.attempt s es) fs := List.foldl_append

theorem attempt_cons {s s' : σ} {e : ε} (h : M.step s e = some s') (es : List ε) :
    M.attempt s (e :: es) = M.attempt s' es := by
  rw [attempt, List.foldl_cons, h, Option.getD_some, attempt]

/-- Where no event is enabled the state stays. -/
theorem attempt_eq_self {s : σ} (h : ∀ e, M.step s e = none) (es : List ε) :
    M.attempt s es = s := by
  induction es with
  | nil => rfl
  | cons e es ih =>
    rw [attempt, List.foldl_cons, h e, Option.getD_none]
    exact ih

/-- The events that were enabled make a run. -/
theorem attempt_reached (s : σ) (es : List ε) :
    ∃ es', es'.Sublist es ∧ M.run s es' = some (M.attempt s es) := by
  induction es generalizing s with
  | nil => exact ⟨[], List.Sublist.refl _, rfl⟩
  | cons e es ih =>
    cases hstep : M.step s e with
    | none =>
      obtain ⟨es', hsublist, hrun⟩ := ih s
      refine ⟨es', hsublist.cons e, ?_⟩
      rw [hrun, attempt, attempt, List.foldl_cons, hstep, Option.getD_none]
    | some s' =>
      obtain ⟨es', hsublist, hrun⟩ := ih s'
      refine ⟨e :: es', hsublist.cons_cons e, ?_⟩
      rw [run_cons, hstep, Option.bind_some, hrun, M.attempt_cons hstep]

end Machine

end KubemqWorkshop
