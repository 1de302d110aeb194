import KubemqWorkshop.BandWalk
import KubemqWorkshop.Activation

/-!
# The prices of an instrument

`OnRateChangeEvent` moves both prices as one and the same band walk does
(`rateWalk`, `run_prices`), so they stay between 1 and 2 (`price_band`), in the
table of a started generator too (`startUp_run_inBand`).

How far they move is documented by the parameters of `GetDoubleRandomNumber`,
"Minimum Change" and "Maximum Change". The branch that redraws a value over 2
takes 0.05 off the interval; the branch that redraws a value under 1 adds 0.05
to the interval's lower end and leaves its length, so it reaches 0.05 too far
(`price_step_iff`).
-/

namespace KubemqWorkshop

/-- The walk of a price. -/
def rateWalk : BandWalk ℚ where
  lo := 1
  hi := 2
  propose := (-(5 / 100), 5 / 100)
  below := (0, 10 / 100)
  above := (-(5 / 100), 0)
  propose_le := by norm_num
  below_le := by norm_num
  above_le := by norm_num
  below_fst := by norm_num
  below_snd := by norm_num
  above_snd := by norm_num
  above_fst := by norm_num

/-- A random value, as a draw of the walk. -/
def NextDouble.draw (u : NextDouble) : Set.Icc (0 : ℚ) 1 := ⟨u.1, u.2.1, u.2.2.le⟩

/-- The two draws of a call that can matter. -/
def Draws.draws (d : Draws) : Set.Icc (0 : ℚ) 1 × Set.Icc (0 : ℚ) 1 :=
  (d.first.draw, d.redraw.draw)

/-- `v` and `w` are apart by no more than the change the caller asks for. -/
def WithinChange (v w : ℚ) : Prop := v - 5 / 100 ≤ w ∧ w ≤ v + 5 / 100

namespace Rates

/-- Any number of `OnRateChangeEvent` steps. -/
def run (r : Rates) (ds : List (Draws × Draws)) : Rates :=
  ds.foldl (fun r d => r.onRateChangeEvent d.1 d.2) r

/-! ## The walk behind the branches -/

/-- The three branches are the three intervals of the walk. -/
theorem getDoubleRandomNumber_eq_step (v : ℚ) (d : Draws) :
    getDoubleRandomNumber (v - 5 / 100) (v + 5 / 100) v d = rateWalk.step v d.draws := by
  have hfirst : d.first.1 * |(v + 5 / 100) - (v - 5 / 100)| + (v - 5 / 100) =
      v + rateWalk.proposal d.first.draw := by
    rw [BandWalk.proposal, scale, abs_of_nonneg (by linarith)]
    simp only [rateWalk, NextDouble.draw]
    ring
  have hunder : d.redraw.1 * |(v + 5 / 100) - (v - 5 / 100)| + (v - 5 / 100) + 5 / 100 =
      v + scale rateWalk.below.1 rateWalk.below.2 (d.redraw.draw : ℚ) := by
    rw [scale, abs_of_nonneg (by linarith)]
    simp only [rateWalk, NextDouble.draw]
    ring
  have hover : d.redraw.1 * |((v + 5 / 100) - 5 / 100) - (v - 5 / 100)| + (v - 5 / 100) =
      v + scale rateWalk.above.1 rateWalk.above.2 (d.redraw.draw : ℚ) := by
    rw [scale, abs_of_nonneg (by linarith)]
    simp only [rateWalk, NextDouble.draw]
    ring
  rw [getDoubleRandomNumber, hfirst, hunder, hover, BandWalk.step_eq]
  rfl

/-- **Refinement**: both prices of an instrument follow the walk. -/
theorem run_prices (r : Rates) (ds : List (Draws × Draws)) :
    (r.run ds).buy = rateWalk.run r.buy (ds.map fun d => d.1.draws) ∧
      (r.run ds).sell = rateWalk.run r.sell (ds.map fun d => d.2.draws) := by
  induction ds generalizing r with
  | nil => exact ⟨rfl, rfl⟩
  | cons d ds ih =>
    obtain ⟨hbuy, hsell⟩ := ih (r.onRateChangeEvent d.1 d.2)
    refine ⟨?_, ?_⟩
    · rw [List.map_cons, BandWalk.run, List.foldl_cons, ← BandWalk.run,
        ← getDoubleRandomNumber_eq_step]
      exact hbuy
    · rw [List.map_cons, BandWalk.run, List.foldl_cons, ← BandWalk.run,
        ← getDoubleRandomNumber_eq_step]
      exact hsell

/-! ## The band -/

/-- The band the documentation of `GetDoubleRandomNumber` promises. -/
def InBand (r : Rates) : Prop := (1 ≤ r.buy ∧ r.buy ≤ 2) ∧ 1 ≤ r.sell ∧ r.sell ≤ 2

/-- `Random.Next(1, 2)` excludes its upper bound. -/
theorem getRateInitialValue_eq_one (sample : NextDouble) : getRateInitialValue sample = 1 := by
  have h : ⌊sample.1⌋ = 0 := Int.floor_eq_zero_iff.mpr sample.2
  rw [getRateInitialValue, rndNext]
  norm_num [h]

theorem new_inBand (pName : String) (pId : ℤ) (pIsActive : Bool)
    (samples : NextDouble × NextDouble) : (new pName pId pIsActive samples).InBand := by
  simp [InBand, new, getRateInitialValue_eq_one]

theorem InBand.run {r : Rates} (h : r.InBand) (ds : List (Draws × Draws)) :
    (r.run ds).InBand := by
  obtain ⟨hbuy, hsell⟩ := run_prices r ds
  rw [InBand, hbuy, hsell]
  exact ⟨rateWalk.run_mem h.1 _, rateWalk.run_mem h.2 _⟩

/-- **The price band**: however often the prices have moved, and whatever was
drawn, both are between 1 and 2. -/
theorem price_band (pName : String) (pId : ℤ) (pIsActive : Bool)
    (samples : NextDouble × NextDouble) (ds : List (Draws × Draws)) :
    let r := (new pName pId pIsActive samples).run ds
    (1 ≤ r.buy ∧ r.buy ≤ 2) ∧ 1 ≤ r.sell ∧ r.sell ≤ 2 :=
  (new_inBand pName pId pIsActive samples).run ds

/-! ## The step -/

/-- A price change moves neither price by more than the change asked for. -/
def StepBound (r : Rates) (d : Draws × Draws) : Prop :=
  WithinChange r.buy (r.onRateChangeEvent d.1 d.2).buy ∧
    WithinChange r.sell (r.onRateChangeEvent d.1 d.2).sell

/-- What is drawn for a price `v`: the first value does not take it under 1, or
the second one is at most one half. -/
def NoOvershoot (v : ℚ) (d : Draws) : Prop :=
  1 ≤ v - 5 / 100 + d.first.1 * (10 / 100) ∨ d.redraw.1 ≤ 1 / 2

/-- When one call of `GetDoubleRandomNumber` keeps to the change asked for. -/
theorem withinChange_iff_noOvershoot (v : ℚ) (d : Draws) :
    WithinChange v (getDoubleRandomNumber (v - 5 / 100) (v + 5 / 100) v d) ↔ NoOvershoot v d := by
  have hmove : WithinChange v (rateWalk.step v d.draws) ↔
      rateWalk.move v d.first.draw d.redraw.draw ∈
        Set.Icc rateWalk.propose.1 rateWalk.propose.2 := by
    rw [BandWalk.step, WithinChange, sub_eq_add_neg, add_le_add_iff_left, add_le_add_iff_left]
    rfl
  have hleft : rateWalk.propose.1 ≤ rateWalk.below.1 := by norm_num [rateWalk]
  have habove : rateWalk.propose.1 ≤ rateWalk.above.1 ∧ rateWalk.above.2 ≤ rateWalk.propose.2 := by
    norm_num [rateWalk]
  rw [getDoubleRandomNumber_eq_step, hmove, rateWalk.move_mem_iff hleft habove, NoOvershoot]
  refine or_congr ?_ ?_
  · simp only [BandWalk.proposal, scale, rateWalk, NextDouble.draw]
    ring_nf
  · simp only [scale, rateWalk, NextDouble.draw]
    exact ⟨fun h => by linarith, fun h => by linarith⟩

theorem stepBound_iff (r : Rates) (d : Draws × Draws) :
    r.StepBound d ↔ NoOvershoot r.buy d.1 ∧ NoOvershoot r.sell d.2 :=
  and_congr (withinChange_iff_noOvershoot r.buy d.1) (withinChange_iff_noOvershoot r.sell d.2)

/-- **When consecutive prices keep to the change asked for**: in the runs whose
every step has, for both prices, a first value that does not take the price
under 1 or a second one of at most one half. -/
theorem price_step_iff (pName : String) (pId : ℤ) (pIsActive : Bool)
    (samples : NextDouble × NextDouble) (ds : List (Draws × Draws)) :
    (∀ pre d post, ds = pre ++ d :: post →
        ((new pName pId pIsActive samples).run pre).StepBound d) ↔
      ∀ pre d post, ds = pre ++ d :: post →
        NoOvershoot ((new pName pId pIsActive samples).run pre).buy d.1 ∧
          NoOvershoot ((new pName pId pIsActive samples).run pre).sell d.2 := by
  refine ⟨?_, ?_⟩
  · intro h pre d post hds
    exact (stepBound_iff _ d).mp (h pre d post hds)
  · intro h pre d post hds
    exact (stepBound_iff _ d).mpr (h pre d post hds)

/-- The least first value and a large second one. -/
def lowThenHigh : Draws where
  next := (zeroDraws 0).1
  first := (zeroDraws 0).1
  redraw := ⟨9 / 10, by norm_num⟩

/-- The very first step can take a price from 1 to 1.09. -/
theorem price_step_overshoots :
    let r := (new "EURUSD" 1 true (lowThenHigh.first, lowThenHigh.first)).run []
    r.buy = 1 ∧ (r.onRateChangeEvent lowThenHigh lowThenHigh).buy = 109 / 100 ∧
      ¬ r.StepBound (lowThenHigh, lowThenHigh) := by
  intro r
  have hbuy : r.buy = 1 := by
    simp [r, Rates.run, new, getRateInitialValue_eq_one]
  have hnext : (r.onRateChangeEvent lowThenHigh lowThenHigh).buy = 109 / 100 := by
    rw [onRateChangeEvent, hbuy]
    norm_num [getDoubleRandomNumber, lowThenHigh, zeroDraws]
  refine ⟨hbuy, hnext, ?_⟩
  intro h
  have hle : (r.onRateChangeEvent lowThenHigh lowThenHigh).buy ≤ r.buy + 5 / 100 := h.1.2
  rw [hnext, hbuy] at hle
  norm_num at hle

end Rates

/-! ## The prices that are reported -/

namespace RateTable

/-- Every price of the table is in the band. -/
def InBand (table : RateTable) : Prop := ∀ e ∈ table.entries, e.2.InBand

theorem InBand.modify {table : RateTable} (h : table.InBand) (name : String) {f : Rates → Rates}
    (hf : ∀ r : Rates, r.InBand → (f r).InBand) : RateTable.InBand (table.modify name f) := by
  intro e he
  obtain ⟨e', he', rfl⟩ := List.mem_map.mp he
  split_ifs
  · exact hf e'.2 (h e' he')
  · exact h e' he'

theorem InBand.execute {table : RateTable} (h : table.InBand) (o : Order String) :
    (table.execute o).InBand := by
  cases o with
  | all =>
    intro e he
    obtain ⟨e', he', rfl⟩ := List.mem_map.mp he
    exact h e' he'
  | set name b => exact h.modify name fun r hr => hr
  | skip => exact h

theorem initialRates_inBand (autoStart : Bool) (rnd : ℤ → NextDouble × NextDouble) :
    (initialRates autoStart rnd).InBand := by
  intro e he
  simp only [initialRates, List.mem_cons, List.not_mem_nil, or_false] at he
  rcases he with rfl | rfl | rfl | rfl | rfl | rfl | rfl <;>
    exact Rates.new_inBand _ _ autoStart _

end RateTable

section

variable (deserializeObject : List UInt8 → Except Exn (Option RateRequest))

variable {deserializeObject} in
theorem step_inBand {g : Generator} (h : g.rates.InBand) (e : Event) :
    (g.step deserializeObject e).rates.InBand := by
  cases e with
  | command request ack utcNow =>
    rw [Generator.step, Generator.rates_handle]
    exact h.execute _
  | rateChange name b s => exact h.modify name fun r hr => hr.run [(b, s)]
  | tick => exact h

/-- **The band of a started generator**: no history of commands, price changes
and ticks takes a price out of it. -/
theorem startUp_run_inBand (rnd : ℤ → NextDouble × NextDouble) (s : Settings) (es : List Event) :
    ((Generator.startUp rnd s).run deserializeObject es).rates.InBand := by
  have hrun : ∀ g : Generator, g.rates.InBand → (g.run deserializeObject es).rates.InBand := by
    induction es with
    | nil => exact fun _ h => h
    | cons e es ih => exact fun g h => ih (g.step deserializeObject e) (step_inBand h e)
  exact hrun _ (RateTable.initialRates_inBand s.autoStart rnd)

/-- **What is reported**: after any history the prices of a rate report are
written from numbers between 1 and 2. -/
theorem report_prices (toString : ℚ → String) (rnd : ℤ → NextDouble × NextDouble) (s : Settings)
    (es : List Event) :
    ∀ line ∈ onRateSend toString ((Generator.startUp rnd s).run deserializeObject es).rates,
      ∀ text, line.ask = some text ∨ line.bid = some text →
        ∃ v : ℚ, 1 ≤ v ∧ v ≤ 2 ∧ text = toString v := by
  intro line hline text htext
  obtain ⟨e, he, rfl⟩ := mem_onRateSend.mp hline
  obtain ⟨⟨hbuy, hbuy'⟩, hsell, hsell'⟩ := startUp_run_inBand deserializeObject rnd s es e he
  simp only [reportLine, Option.ite_none_right_eq_some, Option.some.injEq] at htext
  rcases htext with ⟨-, rfl⟩ | ⟨-, rfl⟩
  · exact ⟨e.2.buy, hbuy, hbuy', rfl⟩
  · exact ⟨e.2.sell, hsell, hsell', rfl⟩

end

end KubemqWorkshop
