import Mathlib.Algebra.Order.Ring.Rat
import Mathlib.Data.Rat.Floor

/-!
# One instrument of the generator (`rate_generate/Rates.cs`)

A `Rates` object holds the activity flag, the name, the id and the two prices of
an instrument; its own timer moves the prices. Prices are `double`s in the
source and exact rationals here. The random source is not modelled: every call
of `Random.NextDouble` is an argument, a rational of `[0, 1)`, so that a result
about all arguments is a result about all seeds.
-/

namespace KubemqWorkshop

/-- A value returned by `Random.NextDouble`. -/
abbrev NextDouble : Type := {q : ℚ // 0 ≤ q ∧ q < 1}

/-- `Random.Next(minValue, maxValue)`: the upper bound is exclusive. -/
def rndNext (minValue maxValue : ℤ) (sample : NextDouble) : ℤ :=
  ⌊sample.1 * (maxValue - minValue)⌋ + minValue

/-- An instrument. -/
structure Rates where
  /-- whether the rate report carries its prices -/
  isActive : Bool
  /-- the instrument's name -/
  rateName : String
  /-- the price reported as `Ask` -/
  buy : ℚ
  /-- the price reported as `Bid` -/
  sell : ℚ
  /-- the id the report and the dashboard share -/
  id : ℤ
  deriving DecidableEq

/-- The values `Manager.rnd.NextDouble()` returns to one call of
`GetDoubleRandomNumber`; the third one is asked for in two of its branches only. -/
structure Draws where
  /-- assigned to `next`, which nothing reads -/
  next : NextDouble
  /-- the draw every call makes -/
  first : NextDouble
  /-- the draw of the branches that leave the band -/
  redraw : NextDouble

namespace Rates

/-- `GetRateInitialValue`. -/
def getRateInitialValue (sample : NextDouble) : ℤ := rndNext 1 2 sample

/-- The constructor. -/
def new (pName : String) (pId : ℤ) (pIsActive : Bool) (samples : NextDouble × NextDouble) :
    Rates where
  isActive := pIsActive
  rateName := pName
  buy := getRateInitialValue samples.1
  sell := getRateInitialValue samples.2
  id := pId

/-- `GetDoubleRandomNumber`: the parameter `currentValue` is overwritten before
it is read. -/
def getDoubleRandomNumber (minimum maximum _currentValue : ℚ) (d : Draws) : ℚ :=
  let currentValue := d.first.1 * |maximum - minimum| + minimum
  if currentValue < 1 then
    d.redraw.1 * |maximum - minimum| + minimum + 5 / 100
  else if 2 < currentValue then
    d.redraw.1 * |(maximum - 5 / 100) - minimum| + minimum
  else currentValue

/-- `OnRateChangeEvent`: `buy` first, then `sell`. -/
def onRateChangeEvent (r : Rates) (buyDraws sellDraws : Draws) : Rates :=
  { r with
    buy := getDoubleRandomNumber (r.buy - 5 / 100) (r.buy + 5 / 100) r.buy buyDraws
    sell := getDoubleRandomNumber (r.sell - 5 / 100) (r.sell + 5 / 100) r.sell sellDraws }

@[simp] theorem onRateChangeEvent_rateName (r : Rates) (b s : Draws) :
    (r.onRateChangeEvent b s).rateName = r.rateName := rfl

@[simp] theorem onRateChangeEvent_id (r : Rates) (b s : Draws) :
    (r.onRateChangeEvent b s).id = r.id := rfl

/-- Assignment to `isActive`. -/
def setActive (b : Bool) (r : Rates) : Rates := { r with isActive := b }

end Rates

end KubemqWorkshop
