import Mathlib.Algebra.Order.Field.Basic
import Mathlib.Order.Interval.Set.Defs
import Mathlib.Tactic.Linarith

/-!
# Random walks that redraw at the edges of a band

A walk proposes a value near the current one. A proposal under the band is
replaced by a draw from a second interval, one over it by a draw from a third,
and the replacement is not checked again. Whether the walk stays in the band is
then a matter of the three intervals alone: the inequalities are the fields of
`BandWalk`, and `run_mem` is what they are for.

The moves are another matter. `move_mem_iff` says when a move stays within the
proposed change: always, but for a redraw under the band that overshoots it.
-/

namespace KubemqWorkshop

universe u

variable {K : Type u} [Field K]

/-! ## Scaled draws -/

/-- The draw `t` of `[0, 1]`, scaled to the interval from `a` to `b`. -/
def scale (a b t : K) : K := t * (b - a) + a

variable [LinearOrder K] [IsStrictOrderedRing K]

theorem le_scale {a b t : K} (hab : a ≤ b) (ht : 0 ≤ t) : a ≤ scale a b t := by
  have h : 0 ≤ t * (b - a) := mul_nonneg ht (sub_nonneg.mpr hab)
  rw [scale]
  exact le_add_of_nonneg_left h

theorem scale_le {a b t : K} (hab : a ≤ b) (ht : t ≤ 1) : scale a b t ≤ b := by
  have h : t * (b - a) ≤ b - a := mul_le_of_le_one_left (sub_nonneg.mpr hab) ht
  rw [scale]
  exact le_sub_iff_add_le.mp h

/-! ## The walk -/

/-- A walk on the band from `lo` to `hi`. The intervals are relative to the
current value; each is given by its two ends. -/
structure BandWalk (K : Type u) [Field K] [LinearOrder K] [IsStrictOrderedRing K] where
  /-- the lower edge of the band -/
  lo : K
  /-- the upper edge of the band -/
  hi : K
  /-- where the proposals are drawn from -/
  propose : K × K
  /-- where the replacements of proposals under the band are drawn from -/
  below : K × K
  /-- where the replacements of proposals over the band are drawn from -/
  above : K × K
  /-- the ends are in order -/
  propose_le : propose.1 ≤ propose.2
  /-- the ends are in order -/
  below_le : below.1 ≤ below.2
  /-- the ends are in order -/
  above_le : above.1 ≤ above.2
  /-- a replacement under the band does not go down -/
  below_fst : 0 ≤ below.1
  /-- nor does it reach from one edge beyond the other -/
  below_snd : below.2 - propose.1 ≤ hi - lo
  /-- a replacement over the band does not go up -/
  above_snd : above.2 ≤ 0
  /-- nor does it reach from one edge beyond the other -/
  above_fst : propose.2 - above.1 ≤ hi - lo

namespace BandWalk

variable (W : BandWalk K)

/-- The change that is proposed. -/
def proposal (first : Set.Icc (0 : K) 1) : K := scale W.propose.1 W.propose.2 first

/-- The change that is made. -/
def move (v : K) (first redraw : Set.Icc (0 : K) 1) : K :=
  if v + W.proposal first < W.lo then scale W.below.1 W.below.2 redraw
  else if W.hi < v + W.proposal first then scale W.above.1 W.above.2 redraw
  else W.proposal first

/-- One step of the walk. -/
def step (v : K) (d : Set.Icc (0 : K) 1 × Set.Icc (0 : K) 1) : K := v + W.move v d.1 d.2

/-- The walk, driven by a list of draws. -/
def run (v : K) (ds : List (Set.Icc (0 : K) 1 × Set.Icc (0 : K) 1)) : K := ds.foldl W.step v

/-- A step, by where its proposal lies. -/
theorem step_eq (v : K) (d : Set.Icc (0 : K) 1 × Set.Icc (0 : K) 1) :
    W.step v d =
      if v + W.proposal d.1 < W.lo then v + scale W.below.1 W.below.2 d.2
      else if W.hi < v + W.proposal d.1 then v + scale W.above.1 W.above.2 d.2
      else v + W.proposal d.1 := by
  simp only [step, move, add_ite]

/-! ## The band -/

theorem proposal_mem (first : Set.Icc (0 : K) 1) :
    W.proposal first ∈ Set.Icc W.propose.1 W.propose.2 :=
  ⟨le_scale W.propose_le first.2.1, scale_le W.propose_le first.2.2⟩

/-- **One step keeps the band**: a value whose proposal leaves the band on one
side is too far from the other edge for the replacement to cross it. -/
theorem step_mem {v : K} (hv : v ∈ Set.Icc W.lo W.hi)
    (d : Set.Icc (0 : K) 1 × Set.Icc (0 : K) 1) : W.step v d ∈ Set.Icc W.lo W.hi := by
  obtain ⟨hlo, hhi⟩ := hv
  obtain ⟨hleft, hright⟩ := W.proposal_mem d.1
  rw [step_eq]
  split_ifs with hunder hover
  · have hge : W.below.1 ≤ scale W.below.1 W.below.2 d.2 := le_scale W.below_le d.2.2.1
    have hle : scale W.below.1 W.below.2 d.2 ≤ W.below.2 := scale_le W.below_le d.2.2.2
    have := W.below_fst
    have := W.below_snd
    exact ⟨by linarith, by linarith⟩
  · have hge : W.above.1 ≤ scale W.above.1 W.above.2 d.2 := le_scale W.above_le d.2.2.1
    have hle : scale W.above.1 W.above.2 d.2 ≤ W.above.2 := scale_le W.above_le d.2.2.2
    have := W.above_fst
    have := W.above_snd
    exact ⟨by linarith, by linarith⟩
  · exact ⟨not_lt.mp hunder, not_lt.mp hover⟩

/-- **The band is kept**, by any number of steps and whatever is drawn. -/
theorem run_mem {v : K} (hv : v ∈ Set.Icc W.lo W.hi)
    (ds : List (Set.Icc (0 : K) 1 × Set.Icc (0 : K) 1)) : W.run v ds ∈ Set.Icc W.lo W.hi := by
  induction ds generalizing v with
  | nil => exact hv
  | cons d ds ih => exact ih (W.step_mem hv d)

/-! ## The moves -/

/-- **When a move stays within the proposed change**, for a walk whose
replacements over the band do: the replacement of a proposal under the band must
not overshoot. -/
theorem move_mem_iff (hleft : W.propose.1 ≤ W.below.1)
    (habove : W.propose.1 ≤ W.above.1 ∧ W.above.2 ≤ W.propose.2) (v : K)
    (first redraw : Set.Icc (0 : K) 1) :
    W.move v first redraw ∈ Set.Icc W.propose.1 W.propose.2 ↔
      (W.lo ≤ v + W.proposal first ∨ scale W.below.1 W.below.2 redraw ≤ W.propose.2) := by
  rw [move]
  split_ifs with hunder hover
  · have hge : W.below.1 ≤ scale W.below.1 W.below.2 redraw := le_scale W.below_le redraw.2.1
    refine ⟨fun h => Or.inr h.2, ?_⟩
    rintro (h | h)
    · exact absurd hunder (not_lt.mpr h)
    · exact ⟨hleft.trans hge, h⟩
  · have hge : W.above.1 ≤ scale W.above.1 W.above.2 redraw := le_scale W.above_le redraw.2.1
    have hle : scale W.above.1 W.above.2 redraw ≤ W.above.2 := scale_le W.above_le redraw.2.2
    exact ⟨fun _ => Or.inl (not_lt.mp hunder),
      fun _ => ⟨habove.1.trans hge, hle.trans habove.2⟩⟩
  · exact ⟨fun _ => Or.inl (not_lt.mp hunder), fun _ => W.proposal_mem first⟩

end BandWalk

end KubemqWorkshop
