import KubemqWorkshop.EndToEnd
import KubemqWorkshop.Rendering

/-!
# The prices on the screen

A page colours a price by comparing it with the one before, and it compares texts.
The generator writes prices between 1 and 2 as decimals with one digit before the
point, and as texts those are in the order of the numbers (`decimalText_lt_iff`). So
in every run of the whole system the colours are right: a colour is the direction of
the last change of the instrument's price, as it is written, in the reports the page
has got, where a price that is off counts as zero (`colors_follow_prices`). And the
number pipe shows each of these prices as the nearest ten-thousandth
(`screen_shows_rounded_prices`). It can show them all, so every check of the page goes
through, and what the components are told is drawn (`page_drawn_of_run`).
-/

namespace KubemqWorkshop

/-! ## The direction of prices -/

/-- The colour of a change. -/
def direction (a b : ℚ) : Color := if a < b then .green else if b < a then .red else .gray

/-- The colour of the last change in a course of values. -/
def trend (start : ℚ) (values : List ℚ) : Color :=
  (Watch.looks id direction ⟨start, .gray⟩ values).mark

/-- The price of an instrument that a side is bound to. -/
def Rates.price (r : Rates) : Side → ℚ
  | .sell => r.buy
  | .buy => r.sell

/-- What an instrument is worth, in units of the last place that is written (`scaled`);
nothing when it is inactive. -/
def worth (scaled : ℚ → ℕ) (r : Option Rates) (side : Side) : ℚ :=
  match r with
  | some r => if r.isActive then scaled (r.price side) else 0
  | none => 0

/-- What a row is worth as it comes. Two rows come with the ask 1411.46471002079, which
as a text lies right under 2. -/
def builtInWorth (n : ℕ) (v : Option Json) : ℚ :=
  if bindingKey v = bindingKey (some (.str "")) then 0 else 2 * 10 ^ n - 1 / 2

/-! ## How prices are written -/

/-- How prices are written and read: `double.ToString` rounds to `n` places and writes
them without zeros at the end, and `Number` reads a price as more than zero. -/
structure Platform.WritesPrices {ν : Type} [Zero ν] [LT ν] (P : Platform ν) (n : ℕ)
    (scaled : ℚ → ℕ) : Prop where
  between : ∀ q, 1 ≤ q → q ≤ 2 → 10 ^ n ≤ scaled q ∧ scaled q ≤ 2 * 10 ^ n
  toString_eq : ∀ q, 1 ≤ q → q ≤ 2 → P.toString q = decimalText n (scaled q)
  number_null : P.number (some .null) = 0
  number_empty : P.number (some (.str "")) = 0
  number_price : ∀ q, 1 ≤ q → q ≤ 2 → 0 < P.number (some (.str (P.toString q)))
  number_builtIn : 0 < P.number (some (.str "1411.46471002079"))

/-- A value a price component can be told of, and what it is worth. -/
inductive Platform.Worth {ν : Type} (P : Platform ν) (n : ℕ) (scaled : ℚ → ℕ) :
    Option Json → ℚ → Prop
  | off : P.Worth n scaled (some .null) 0
  | price {q : ℚ} (hlow : 1 ≤ q) (hhigh : q ≤ 2) :
    P.Worth n scaled (some (.str (P.toString q))) (scaled q)
  | builtIn : P.Worth n scaled (some (.str "1411.46471002079")) (2 * 10 ^ n - 1 / 2)

theorem builtInWorth_pos (n : ℕ) : (0 : ℚ) < 2 * 10 ^ n - 1 / 2 := by
  have hone : (1 : ℚ) ≤ 10 ^ n := one_le_pow₀ (by norm_num)
  linarith

/-- The built-in ask is no price. -/
theorem scaled_ne_builtIn (n s : ℕ) : (s : ℚ) ≠ 2 * 10 ^ n - 1 / 2 := by
  intro h
  have hodd : 2 * s + 1 = 4 * 10 ^ n := by
    have hrat : 2 * (s : ℚ) + 1 = 4 * 10 ^ n := by linarith
    exact_mod_cast hrat
  omega

/-- Values that are not numbers have keys of their own. -/
theorem bindingKey_inj {v w : Json} (hv : ∀ m e, v ≠ .num m e) (hw : ∀ m e, w ≠ .num m e)
    (h : bindingKey (some v) = bindingKey (some w)) : v = w := by
  have hkey : ∀ v : Json, (∀ m e, v ≠ .num m e) →
      bindingKey (some v) = some (.inl (Json.stringify v)) := by
    intro v hv
    cases v with
    | num m e => exact absurd rfl (hv m e)
    | _ => rfl
  rw [hkey v hv, hkey w hw, Option.some.injEq, Sum.inl.injEq] at h
  have hparse := congrArg Json.parse h
  rwa [Json.parse_stringify, Json.parse_stringify, Option.some.injEq] at hparse

theorem Platform.Worth.exists_value {ν : Type} {P : Platform ν} {n : ℕ} {scaled : ℚ → ℕ}
    {a : Option Json} {x : ℚ} (ha : P.Worth n scaled a x) :
    ∃ v, a = some v ∧ ∀ m e, v ≠ .num m e := by
  cases ha <;> exact ⟨_, rfl, nofun⟩

section

variable {ν : Type} [Zero ν] [Preorder ν] {P : Platform ν} {n : ℕ} {scaled : ℚ → ℕ}

namespace Platform.WritesPrices

variable (h : P.WritesPrices n scaled)
include h

/-- A price has one digit before the point. -/
theorem digit {q : ℚ} (hlow : 1 ≤ q) (hhigh : q ≤ 2) : scaled q / 10 ^ n < 10 := by
  have hpos : 0 < 10 ^ n := Nat.pow_pos (by decide)
  have hto := (h.between q hlow hhigh).2
  rw [Nat.div_lt_iff_lt_mul hpos]
  omega

theorem scaled_pos {q : ℚ} (hlow : 1 ≤ q) (hhigh : q ≤ 2) : (0 : ℚ) < scaled q := by
  have hpos : 0 < 10 ^ n := Nat.pow_pos (by decide)
  exact Nat.cast_pos.mpr (hpos.trans_le (h.between q hlow hhigh).1)

/-- As a text the built-in ask lies between 2 and everything under 2. -/
theorem lt_builtIn {q : ℚ} (hlow : 1 ≤ q) (hhigh : q ≤ 2) :
    (codeUnits (P.toString q) < codeUnits "1411.46471002079" ↔
        (scaled q : ℚ) < 2 * 10 ^ n - 1 / 2) ∧
      (codeUnits "1411.46471002079" < codeUnits (P.toString q) ↔
        2 * 10 ^ n - 1 / 2 < (scaled q : ℚ)) := by
  obtain ⟨hfrom, hto⟩ := h.between q hlow hhigh
  have hpos : 0 < 10 ^ n := Nat.pow_pos (by decide)
  have hbuiltIn : codeUnits "1411.46471002079" =
      49 :: 52 :: [49, 49, 46, 52, 54, 52, 55, 49, 48, 48, 50, 48, 55, 57] := by decide
  rw [h.toString_eq q hlow hhigh, codeUnits_decimalText (h.digit hlow hhigh), hbuiltIn]
  rcases Nat.lt_or_ge (scaled q) (2 * 10 ^ n) with hlt | hge
  · -- the text starts with 1, and goes on with the point if it does
    have hone : scaled q / 10 ^ n = 1 := Nat.div_eq_of_lt_le (by omega) (by omega)
    have hworth : (scaled q : ℚ) < 2 * 10 ^ n - 1 / 2 := by
      have hle : (scaled q : ℚ) + 1 ≤ 2 * 10 ^ n := by exact_mod_cast hlt
      linarith
    rw [hone, fractionUnits]
    simp only [hworth, hworth.le.not_gt, iff_true, iff_false]
    split <;> simp [List.cons_lt_cons_iff]
  · have htwo : scaled q = 2 * 10 ^ n := Nat.le_antisymm hto hge
    have hworth : 2 * 10 ^ n - 1 / 2 < (scaled q : ℚ) := by
      rw [htwo]
      push_cast
      linarith
    rw [htwo, Nat.mul_div_cancel _ hpos, ← htwo]
    simp only [hworth, hworth.le.not_gt, iff_true, iff_false]
    simp [List.cons_lt_cons_iff]

/-- A price is shown rounded. -/
theorem transform_price {numberText : Json → Option String} {q : ℚ} (hlow : 1 ≤ q) (hhigh : q ≤ 2)
    (hreads : numberText (.str (P.toString q)) = some (P.toString q)) :
    transform numberText (some (.str (P.toString q))) =
      some (some (placesText (nearest n (scaled q)))) := by
  obtain ⟨hfrom, hto⟩ := h.between q hlow hhigh
  have hpos : 0 < 10 ^ n := Nat.pow_pos (by decide)
  have hne : P.toString q ≠ "" := by
    intro hempty
    have hunits := codeUnits_decimalText (h.digit hlow hhigh)
    rw [← h.toString_eq q hlow hhigh, hempty] at hunits
    cases hunits
  rw [transform_str numberText hne, hreads, h.toString_eq q hlow hhigh, Option.map_some,
    formatNumber_decimalText hfrom (by omega)]

variable [DecidableLT ν]

/-- **Texts and null are in the order of what they are worth.** -/
theorem jsLess_iff {a b : Option Json} {x y : ℚ} (ha : P.Worth n scaled a x)
    (hb : P.Worth n scaled b y) : jsLess P.number a b = true ↔ x < y := by
  have hhalf := builtInWorth_pos n
  cases ha with
  | off =>
    cases hb with
    | off => simp [jsLess]
    | price hlow hhigh =>
      simp [jsLess, h.number_null, h.number_price _ hlow hhigh, h.scaled_pos hlow hhigh]
    | builtIn => simp only [jsLess, h.number_null, h.number_builtIn, decide_true, hhalf]
  | price hlow hhigh =>
    cases hb with
    | off =>
      simp [jsLess, h.number_null, (h.number_price _ hlow hhigh).not_gt,
        (h.scaled_pos hlow hhigh).le]
    | price hlow' hhigh' =>
      rw [jsLess, decide_eq_true_iff, h.toString_eq _ hlow hhigh, h.toString_eq _ hlow' hhigh',
        decimalText_lt_iff (h.digit hlow hhigh) (h.digit hlow' hhigh'), Nat.cast_lt]
    | builtIn =>
      rw [jsLess, decide_eq_true_iff]
      exact (h.lt_builtIn hlow hhigh).1
  | builtIn =>
    cases hb with
    | off =>
      simp only [jsLess, h.number_null, h.number_builtIn.not_gt, decide_false, Bool.false_eq_true,
        hhalf.le.not_gt]
    | price hlow hhigh =>
      rw [jsLess, decide_eq_true_iff]
      exact (h.lt_builtIn hlow hhigh).2
    | builtIn =>
      rw [jsLess, decide_eq_true_iff]
      exact iff_of_false (List.lt_irrefl _) (lt_irrefl _)

/-- Values have the same key when they are worth the same. -/
theorem bindingKey_eq_iff {a b : Option Json} {x y : ℚ} (ha : P.Worth n scaled a x)
    (hb : P.Worth n scaled b y) : bindingKey a = bindingKey b ↔ x = y := by
  refine ⟨fun hkey => ?_, fun heq => ?_⟩
  · -- a value is not less than itself
    obtain ⟨v, rfl, hv⟩ := ha.exists_value
    obtain ⟨w, rfl, hw⟩ := hb.exists_value
    obtain rfl : v = w := bindingKey_inj hv hw hkey
    have hxx : ¬ jsLess P.number (some v) (some v) = true := by
      rw [h.jsLess_iff ha ha]
      exact lt_irrefl x
    have hyx : ¬ y < x := by rwa [← h.jsLess_iff hb ha]
    have hxy : ¬ x < y := by rwa [← h.jsLess_iff ha hb]
    exact le_antisymm (not_lt.mp hyx) (not_lt.mp hxy)
  · cases ha with
    | off =>
      cases hb with
      | off => rfl
      | price hlow hhigh => exact absurd heq (h.scaled_pos hlow hhigh).ne
      | builtIn => exact absurd heq (builtInWorth_pos n).ne
    | price hlow hhigh =>
      cases hb with
      | off => exact absurd heq (h.scaled_pos hlow hhigh).ne'
      | price hlow' hhigh' =>
        rw [h.toString_eq _ hlow hhigh, h.toString_eq _ hlow' hhigh', Nat.cast_injective heq]
      | builtIn => exact absurd heq (scaled_ne_builtIn n _)
    | builtIn =>
      cases hb with
      | off => exact absurd heq (builtInWorth_pos n).ne'
      | price hlow hhigh => exact absurd heq.symm (scaled_ne_builtIn n _)
      | builtIn => rfl

/-- So such values are coloured by what they are worth. -/
theorem ngOnChanges_eq {a b : Option Json} {x y : ℚ} (ha : P.Worth n scaled a x)
    (hb : P.Worth n scaled b y) : ngOnChanges P.number a b = direction x y := by
  simp only [ngOnChanges, direction, h.jsLess_iff ha hb, h.jsLess_iff hb ha]

/-- The first look at a row that came with no price. -/
theorem look_empty {b : Option Json} {y : ℚ} (hb : P.Worth n scaled b y) :
    (Watch.look bindingKey (ngOnChanges P.number) ⟨some (.str ""), .gray⟩ b).mark =
      (Watch.look id direction ⟨0, .gray⟩ y).mark := by
  have htext : ∀ {s : String} {y : ℚ}, [] < codeUnits s → 0 < y →
      (Watch.look bindingKey (ngOnChanges P.number) ⟨some (.str ""), .gray⟩
        (some (.str s))).mark = (Watch.look id direction ⟨0, .gray⟩ y).mark := by
    intro s y hs hy
    have hgreen : ngOnChanges P.number (some (.str "")) (some (.str s)) = .green :=
      if_pos (decide_eq_true hs)
    have hne : bindingKey (some (.str "")) ≠ bindingKey (some (.str s)) := by
      intro hkey
      obtain rfl := Json.str.inj (bindingKey_inj nofun nofun hkey)
      exact List.lt_irrefl _ hs
    have hdirection : direction 0 y = .green := if_pos hy
    rw [Watch.look, if_neg hne, hgreen]
    exact ((if_neg hy.ne).trans hdirection).symm
  cases hb with
  | off =>
    have hgray : ngOnChanges P.number (some (.str "")) (some .null) = .gray := by
      simp [ngOnChanges, jsLess, h.number_null, h.number_empty]
    simp [Watch.look, hgray]
  | price hlow hhigh =>
    refine htext ?_ (h.scaled_pos hlow hhigh)
    rw [h.toString_eq _ hlow hhigh, codeUnits_decimalText (h.digit hlow hhigh)]
    exact List.nil_lt_cons ..
  | builtIn => exact htext (by decide) (builtInWorth_pos n)

/-- **The colour of a price** that came with its row and was told of prices and nulls
since, is the direction of what they are worth. -/
theorem mark_eq_trend {v : Option Json}
    (hv : v = some (.str "") ∨ v = some (.str "1411.46471002079")) {values : List (Option Json)}
    {worths : List ℚ} (hall : List.Forall₂ (P.Worth n scaled) values worths) :
    (Watch.looks bindingKey (ngOnChanges P.number) ⟨v, .gray⟩ values).mark =
      trend (builtInWorth n v) worths := by
  have hlooks {s : AppRate} {t : Watch ℚ Color} {vs : List (Option Json)} {us : List ℚ}
      (hvs : List.Forall₂ (P.Worth n scaled) vs us) (hseen : P.Worth n scaled s.seen t.seen)
      (hmark : s.mark = t.mark) : (s.looks bindingKey (ngOnChanges P.number) vs).mark =
        (t.looks id direction us).mark :=
    Watch.looks_mark_eq (fun hac hbd => h.bindingKey_eq_iff hac hbd)
      (fun hac hbd _ => h.ngOnChanges_eq hac hbd) hvs hseen hmark
  rw [trend]
  rcases hv with rfl | rfl
  · have hworth : builtInWorth n (some (.str "")) = 0 := if_pos rfl
    rw [hworth]
    cases hall with
    | nil => rfl
    | cons hfirst hrest =>
      rw [Watch.looks_cons, Watch.looks_cons]
      exact hlooks hrest hfirst (h.look_empty hfirst)
  · have hworth : builtInWorth n (some (.str "1411.46471002079")) = 2 * 10 ^ n - 1 / 2 :=
      if_neg (by decide)
    exact hlooks hall (by rw [hworth]; exact .builtIn) rfl

end Platform.WritesPrices

end

/-! ## The prices a page is fed -/

section

variable {ν : Type} {P : Platform ν} {n : ℕ} {scaled : ℚ → ℕ}

/-- The prices are between 1 and 2. -/
theorem Rates.InBand.price {r : Rates} (h : r.InBand) (side : Side) :
    1 ≤ r.price side ∧ r.price side ≤ 2 := by
  cases side with
  | sell => exact h.1
  | buy => exact h.2

/-- A row that shows an instrument shows its prices, or nothing. -/
theorem Rate.Shows.price_eq {e : Rate} {r : Rates} (h : e.Shows P r) (side : Side) :
    e.price side = some (if r.isActive then .str (P.toString (r.price side)) else .null) := by
  obtain ⟨hask, hbid⟩ := h
  rw [reportLine] at hask hbid
  cases side with
  | sell =>
    apply hask.trans
    cases r.isActive <;> rfl
  | buy =>
    apply hbid.trans
    cases r.isActive <;> rfl

/-- So it shows what the instrument is worth. -/
theorem Rate.Shows.worth {e : Rate} {r : Rates} (h : e.Shows P r) (hr : r.InBand) (side : Side) :
    P.Worth n scaled (e.price side) (worth scaled (some r) side) := by
  obtain ⟨hlow, hhigh⟩ := hr.price side
  rw [h.price_eq side, KubemqWorkshop.worth]
  cases r.isActive with
  | false => exact .off
  | true => exact .price hlow hhigh

/-- A row that is fed by the generator shows what its instrument was worth at the
moments of the reports. -/
theorem worths_of_platform (hserialize : Serializes P.serializeObject)
    {rnd : ℤ → NextDouble × NextDouble} {settings : Settings} {moment : String → List Event}
    {datas : List String}
    (hdatas : ∀ data ∈ datas, P.Carries rnd settings (moment data) data) {e : Rate}
    (he : (e.id, e.name) ∈ listedInstruments) (side : Side) :
    List.Forall₂ (P.Worth n scaled) ((e.quotes datas).map fun r => r.price side)
      (datas.map fun data =>
        worth scaled ((P.table rnd settings (moment data)).get? e.name) side) := by
  induction datas generalizing e with
  | nil => exact .nil
  | cons data datas ih =>
    obtain ⟨hdata, hdatas⟩ := List.forall_mem_cons.mp hdatas
    obtain ⟨r, hget, hquoted⟩ := quoted_of_platform hserialize hdata he
    rw [Rate.quotes, hquoted, List.map_cons, List.map_cons, hget]
    have hshows : (e.showing P.toString r).Shows P r := ⟨rfl, rfl⟩
    exact .cons (hshows.worth (inBand_of_get? hget) side) (ih hdatas he)

end

section

variable {ν : Type} [Zero ν] [Preorder ν] [DecidableLT ν] {P : Platform ν} {n : ℕ}
  {scaled : ℚ → ℕ} {rnd : ℤ → NextDouble × NextDouble} {settings : Settings} {program : Program}
  {events : List (PipelineEvent program.relay)} {s : Pipeline program.relay ν}

/-- **The colours follow the prices**: in every run of the whole system the colour of
every price in the rate bar is the direction of the last change of that price, as it
is written, in the reports the page has got. -/
theorem colors_follow_prices (hP : P.Lawful) (hwrites : P.WritesPrices n scaled)
    (hrun : (pipeline P program.relay).run (.init rnd settings) events = some s) :
    ∃ (moment : String → List Event) (screen : Screen),
      (∀ data ∈ feeds s.visit, (moment data ++ [Event.tick]).IsPrefix s.history ∧
        P.Carries rnd settings (moment data) data) ∧
      (mainPage P.number).run (.init P.number) s.visit = some ⟨s.page, screen⟩ ∧
      ∀ (i : ℕ) (e : Rate), getRatesList[i]? = some e →
        ∃ cells, screen.rows[i]? = some cells ∧ ∀ side, (cells side).mark =
          trend (builtInWorth n (e.price side)) ((feeds s.visit).map fun data =>
            worth scaled ((P.table rnd settings (moment data)).get? e.name) side) := by
  have hsound := sound_of_run hrun
  choose! moment hmoment using fun data (hdata : data ∈ feeds s.visit) =>
    hsound.feeds_carry hP hdata
  obtain ⟨m, hm, hpage⟩ := exists_mainPage_run P.number (.init P.number) hsound.page_eq
  refine ⟨moment, m.screen, hmoment, by rw [hm, ← hpage], fun i e he => ?_⟩
  have hlisted : (Dashboard.init : Dashboard ν).Listed := Dashboard.listed_init
  have hgoes : ∀ data ∈ feeds s.visit, goesThrough data = true := fun data hdata =>
    goesThrough_of_platform hP.serializes (hmoment data hdata).2
  have hinStep : (MainPage.init P.number).InStep := Screen.inStep_check hlisted rfl rfl
  obtain ⟨-, -, -, hrow⟩ := rows_of_run hinStep rfl hm hgoes he (rows_init P.number he)
  refine ⟨_, hrow, fun side => ?_⟩
  have hname : (e.id, e.name) ∈ listedInstruments :=
    List.mem_of_getElem? (hlisted.mem_listedInstruments he)
  have hbuiltIn : ∀ e ∈ getRatesList, ∀ side, e.price side = some (.str "") ∨
      e.price side = some (.str "1411.46471002079") := by
    intro e he side
    cases side <;> revert e <;> simp [getRatesList, Rate.price]
  exact hwrites.mark_eq_trend (hbuiltIn e (List.mem_of_getElem? he) side)
    (worths_of_platform hP.serializes (fun data hdata => (hmoment data hdata).2) hname side)

end

/-! ## The texts a page shows -/

section

variable {ν : Type} [Zero ν] [Preorder ν] {P : Platform ν} {n : ℕ} {scaled : ℚ → ℕ}
  {rnd : ℤ → NextDouble × NextDouble} {settings : Settings} {numberText : Json → Option String}

/-- A row that shows an instrument shows its prices rounded, or nothing. -/
theorem Rate.Shows.transform_price (hwrites : P.WritesPrices n scaled)
    (hreads : ∀ q, 1 ≤ q → q ≤ 2 → numberText (.str (P.toString q)) = some (P.toString q))
    {e : Rate} {r : Rates} (h : e.Shows P r) (hr : r.InBand) (side : Side) :
    transform numberText (e.price side) =
      some (if r.isActive then some (placesText (nearest n (scaled (r.price side))))
        else none) := by
  obtain ⟨hlow, hhigh⟩ := hr.price side
  rw [h.price_eq side]
  cases r.isActive with
  | false => rfl
  | true => exact hwrites.transform_price hlow hhigh (hreads _ hlow hhigh)

/-- The pipe can show the prices of a report. -/
theorem pricesShown_of_platform (hserialize : Serializes P.serializeObject)
    (hwrites : P.WritesPrices n scaled)
    (hreads : ∀ q, 1 ≤ q → q ≤ 2 → numberText (.str (P.toString q)) = some (P.toString q))
    {moment : List Event} {data : String} (hdata : P.Carries rnd settings moment data) :
    PricesShown numberText data := by
  intro i hi t ht
  -- a row of the instrument takes over the prices of its entry
  obtain ⟨e, -, rfl⟩ : ∃ e ∈ getRatesList, e.identity = i := by
    rw [← List.mem_map]
    exact hi
  obtain ⟨r, hget, hquoted⟩ := quoted_of_platform hserialize hdata hi
  have hshows : (e.quoted data).Shows P r := by
    rw [hquoted]
    exact ⟨rfl, rfl⟩
  have hshown : ∀ side, (transform numberText ((e.quoted data).price side)).isSome := by
    intro side
    rw [hshows.transform_price hwrites hreads (inBand_of_get? hget) side]
    rfl
  have hlisting : listing e.id data = some t := ht
  rw [Rate.quoted, hlisting] at hshown
  exact ⟨hshown .sell, hshown .buy⟩

end

section

variable {ν : Type} [Zero ν] [Preorder ν] {P : Platform ν} {n : ℕ} {scaled : ℚ → ℕ}
  {rnd : ℤ → NextDouble × NextDouble} {settings : Settings} {program : Program}
  {events : List (PipelineEvent program.relay)} {s : Pipeline program.relay ν}

/-- **What a page draws**: in every run of the whole system, whatever else happens on
the page, every check goes through and what the components are told is drawn. -/
theorem page_drawn_of_run [DecidableLT ν] {numberText : Json → Option String} (hP : P.Lawful)
    (hwrites : P.WritesPrices n scaled)
    (hreads : ∀ q, 1 ≤ q → q ≤ 2 → numberText (.str (P.toString q)) = some (P.toString q))
    (hbuiltIn : (transform numberText (some (.str "1411.46471002079"))).isSome)
    (hrun : (pipeline P program.relay).run (.init rnd settings) events = some s)
    {es : List (Option DashboardEvent)} (hes : es.reduceOption = s.visit) :
    ∃ (m : RenderedPage ν) (screen : Screen),
      (renderedPage P.number numberText).run (.init P.number numberText) es = some m ∧
        (mainPage P.number).run (.init P.number) s.visit = some ⟨s.page, screen⟩ ∧
        m.dashboard = s.page ∧ m.checked = true ∧ m.screen.Draws numberText screen := by
  have hsound := sound_of_run hrun
  have hvisit := hsound.page_eq
  rw [← hes] at hvisit
  obtain ⟨m, hm, hpage⟩ := exists_renderedPage_run P.number numberText
    (.init P.number numberText) hvisit
  have hfeeds : ∀ data ∈ feeds es.reduceOption,
      goesThrough data = true ∧ PricesShown numberText data := by
    rw [hes]
    intro data hdata
    obtain ⟨moment, -, hcarries⟩ := hsound.feeds_carry hP hdata
    exact ⟨goesThrough_of_platform hP.serializes hcarries,
      pricesShown_of_platform hP.serializes hwrites hreads hcarries⟩
  obtain ⟨p, hp, hfollows⟩ := follows_of_run (RenderedPage.follows_init hbuiltIn) hm hfeeds
  rw [hes] at hp
  refine ⟨m, p.screen, hm, ?_, hpage, hfollows.checked, hfollows.draws⟩
  rw [hp, ← hpage, hfollows.dashboard]

end

/-! ## A platform with six places -/

/-- A price in millionths. -/
def millionths (q : ℚ) : ℕ := ⌊q * 10 ^ 6⌋.toNat

/-- `Number`, as far as JSON has the same numbers. -/
def readNumber : Option Json → ℚ
  | some (.str t) =>
    match Json.parse t with
    | some (.num mantissa exponent) => mantissa * 10 ^ exponent
    | _ => 0
  | _ => 0

/-- A platform on which prices are written with up to six places. -/
def decimalPlatform : Platform ℚ :=
  { samplePlatform with
    toString := fun q => decimalText 6 (millionths q)
    number := readNumber }

theorem ascii_decimalText (n s : ℕ) : Ascii (decimalText n s) := by
  have hdigit : ∀ c : Char, c.isDigit = true → c.toNat < 128 := by
    intro c hc
    have hval : c.val ≤ 57 := of_decide_eq_true (Bool.and_eq_true_iff.mp hc).2
    exact Nat.lt_of_le_of_lt (UInt32.le_iff_toNat_le.mp hval) (by decide)
  intro c hc
  rw [decimalText, String.toList_ofList] at hc
  rcases List.mem_append.mp hc with hc | hc
  · exact hdigit c (Json.isDigit_toDigits c hc)
  · split at hc
    · cases hc
    · rcases List.mem_cons.mp hc with rfl | hc
      · decide
      · obtain ⟨d, hd, rfl⟩ := List.mem_map.mp hc
        have hmod : s % 10 ^ n < 10 ^ n := Nat.mod_lt _ (Nat.pow_pos (by decide))
        apply hdigit
        rw [Nat.isDigit_digitChar]
        exact decide_eq_true (fractionDigits_lt_ten hmod d hd)

theorem lawful_decimalPlatform : decimalPlatform.Lawful :=
  Platform.lawful_stringify rfl fun q => ascii_decimalText 6 (millionths q)

theorem readNumber_decimalText (n s : ℕ) :
    readNumber (some (.str (decimalText n s))) = s / 10 ^ n := by
  obtain ⟨m, e, hparse, hvalue⟩ := parse_decimalText n s
  rw [readNumber, hparse]
  exact hvalue

theorem millionths_between {q : ℚ} (hlow : 1 ≤ q) (hhigh : q ≤ 2) :
    10 ^ 6 ≤ millionths q ∧ millionths q ≤ 2 * 10 ^ 6 := by
  have hfrom : 10 ^ 6 ≤ ⌊q * 10 ^ 6⌋ := Int.le_floor.mpr (by push_cast; linarith)
  have hto : ⌊q * 10 ^ 6⌋ ≤ 2 * 10 ^ 6 := Int.floor_le_iff.mpr (by push_cast; linarith)
  rw [millionths]
  omega

theorem writesPrices_decimalPlatform : decimalPlatform.WritesPrices 6 millionths where
  between _ hlow hhigh := millionths_between hlow hhigh
  toString_eq _ _ _ := rfl
  number_null := rfl
  number_empty := by
    have hparse : Json.parse "" = none := by decide
    change readNumber (some (.str "")) = 0
    rw [readNumber, hparse]
  number_price q hlow hhigh := by
    change 0 < readNumber (some (.str (decimalText 6 (millionths q))))
    rw [readNumber_decimalText]
    have hpos : 0 < millionths q := Nat.lt_of_lt_of_le (by decide) (millionths_between hlow hhigh).1
    exact div_pos (Nat.cast_pos.mpr hpos) (by norm_num)
  number_builtIn := by
    change 0 < readNumber (some (.str "1411.46471002079"))
    decide +kernel

/-- The first report reaches a page through the C# program. -/
theorem colors_follow_prices_firstDelivery :
    ∃ (s : Pipeline (Program.relay .csharp) ℚ) (moment : String → List Event) (screen : Screen),
      feeds s.visit ≠ [] ∧ ∀ (i : ℕ) (e : Rate), getRatesList[i]? = some e →
        ∃ cells, screen.rows[i]? = some cells ∧ ∀ side, (cells side).mark =
          trend (builtInWorth 6 (e.price side)) ((feeds s.visit).map fun data =>
            worth millionths
              ((decimalPlatform.table zeroDraws deployed (moment data)).get? e.name) side) := by
  obtain ⟨events, s, hrun, -, -, -, -, data, -, hvisit, -⟩ := Pipeline.exists_catch_up
    decimalPlatform (Pipeline.init zeroDraws deployed) (Program.relay .csharp).running_start
  obtain ⟨moment, screen, -, -, hcolors⟩ :=
    colors_follow_prices lawful_decimalPlatform writesPrices_decimalPlatform hrun
  exact ⟨s, moment, screen, by rw [hvisit]; exact List.cons_ne_nil _ _, hcolors⟩

end KubemqWorkshop
