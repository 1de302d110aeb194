import KubemqWorkshop.StartStop
import KubemqWorkshop.Window

/-!
# The chart

Three operations write the chart's points: a message may push one, a selection
clears them all, and both drop the oldest. What the chart is for is said by
`Plot`, which has no points to shift: the rows as the messages give them, the
selected row, and the heights since it was selected.

The listener pushes whenever the bid is there, by the slip of `isRateActive`, so
the chart is the window of the plot exactly as long as no message leaves the
selected instrument with a bid and without an ask (`chart_window_iff`).
-/

namespace KubemqWorkshop

variable {ν : Type}

/-! ## What the chart is for -/

/-- A row after a message, if the message lists its instrument. -/
def Rate.quoted (data : String) (e : Rate) : Rate :=
  match listing e.id data with
  | some t => e.setPrices t
  | none => e

/-- `Ask` and `Bid` are both there. -/
def Rate.hasPrices (e : Rate) : Bool := !Json.isNull e.ask && !Json.isNull e.bid

/-- The course of the selected instrument. -/
structure Plot (ν : Type) where
  /-- the rows, as far as the messages write them -/
  rows : List Rate
  /-- the position of the selected row -/
  selected : ℕ
  /-- the heights since the last selection, oldest first -/
  heights : List ν

/-- One event: a message adds the ask of the selected instrument when both
prices are there, a selection starts over. -/
def Plot.step (number : Option Json → ν) (p : Plot ν) : DashboardEvent → Plot ν
  | .feed data =>
    let rows := p.rows.map (Rate.quoted data)
    { p with
      rows := rows
      heights := match rows[p.selected]? with
        | some e => if e.hasPrices then p.heights ++ [number e.ask] else p.heights
        | none => p.heights }
  | .select e => { p with selected := e, heights := [] }

/-- The plot after a history. -/
def plotted (number : Option Json → ν) (es : List DashboardEvent) : Plot ν :=
  es.foldl (Plot.step number) ⟨getRatesList, 0, []⟩

theorem plotted_concat (number : Option Json → ν) (es : List DashboardEvent) (e : DashboardEvent) :
    plotted number (es ++ [e]) = (plotted number es).step number e := by
  rw [plotted, List.foldl_append]
  rfl

/-- What a message reads and writes of a row. -/
def Rate.quote (e : Rate) : ℕ × Option Json × Option Json := (e.id, e.ask, e.bid)

/-- A quote after a message. -/
def requote (data : String) (q : ℕ × Option Json × Option Json) :
    ℕ × Option Json × Option Json :=
  match listing q.1 data with
  | some t => (q.1, t.get? "Ask", t.get? "Bid")
  | none => q

theorem Rate.quote_quoted (data : String) (e : Rate) :
    (e.quoted data).quote = requote data e.quote := by
  have hid : e.quote.1 = e.id := rfl
  rw [quoted, requote, hid]
  rcases listing e.id data with - | t <;> rfl

theorem Rate.map_quote_quoted (data : String) (rows : List Rate) :
    (rows.map (Rate.quoted data)).map Rate.quote = (rows.map Rate.quote).map (requote data) := by
  simp only [List.map_map]
  exact List.map_congr_left fun e _ => e.quote_quoted data

/-- The entries of a message write a row as the plot has it. -/
theorem Rate.applied_eq_quoted {data : String} {entries : List Json}
    (hentries : feedEntries data = some entries) (e : Rate) :
    e.applied entries = e.quoted data := by
  have hlisting : listing e.id data = entries.findRev? fun t => e.hasID t := by
    rw [listing, hentries]
    rfl
  rw [quoted, hlisting]
  rcases hlast : entries.findRev? (fun t => e.hasID t) with - | t
  · refine Rows.settle_eq_self fun t ht => ?_
    simpa using Rows.findRev?_eq_none_iff.mp hlast t ht
  · exact Rate.applied_eq_setPrices hlast

/-! ## One event -/

namespace Dashboard

variable {d : Dashboard ν}

/-- **A message**: the rows are quoted, and the listener pushes the ask of the
selected row when its bid is there. -/
theorem step_feed [Zero ν] (h : d.Listed) (hsub : d.subscribed = true)
    (number : Option Json → ν) {data : String} (hdata : goesThrough data = true) {e : Rate}
    (he : d.selected = some e) {d' : Dashboard ν} (hs : d.step number (.feed data) = some d') :
    d'.selectedItem = d.selectedItem ∧ d'.subscribed = true ∧
      d'.rates.map Rate.quote = (d.rates.map (Rate.quoted data)).map Rate.quote ∧
      d'.chartData = if Json.isNull (e.quoted data).bid then d.chartData
        else slide d.chartData (number (e.quoted data).ask) := by
  obtain ⟨entries, hentries, hwell⟩ := goesThrough_iff.mp hdata
  simp only [Dashboard.step, hsub, if_true, onMessage_eq h number hentries hwell he,
    Option.some.injEq] at hs
  subst hs
  refine ⟨parseNewPoint_selectedItem .., rfl, ?_, ?_⟩
  · rw [parseNewPoint_rates]
    apply List.ext_getElem?
    intro i
    rw [List.getElem?_map, receive_getElem? entries he, List.getElem?_map, List.getElem?_map]
    rcases d.rates[i]? with - | r
    · rfl
    · simp only [Option.map_some, Option.some.injEq, ← Rate.applied_eq_quoted hentries]
      split <;> rfl
  · rw [parseNewPoint, ← Rate.applied_eq_quoted hentries]
    have hactive : (e.refreshed entries).active = some true ↔
        Json.isNull (e.applied entries).bid = false := by
      rw [Rate.refreshed, isRateActive, Option.some.injEq, Bool.not_eq_true']
    by_cases hbid : Json.isNull (e.applied entries).bid = true
    · rw [if_neg (by rw [hactive, hbid]; decide), if_pos hbid]
      rfl
    · rw [if_pos (hactive.mpr (by simpa using hbid)), if_neg hbid]
      rfl

/-- **A selection** clears the chart. -/
theorem step_select [Zero ν] (number : Option Json → ν) {i : ℕ} {d' : Dashboard ν}
    (hs : d.step number (.select i) = some d') :
    d'.selectedItem = i ∧ d'.subscribed = d.subscribed ∧ d'.rates = d.rates ∧
      d'.chartData = List.replicate d.chartData.length 0 := by
  simp only [Dashboard.step] at hs
  split at hs
  · obtain rfl := Option.some.inj hs
    refine ⟨rfl, rfl, rfl, ?_⟩
    rw [setSelectedItem, List.map_const']
    exact slide_replicate
  · cases hs

end Dashboard

/-! ## A history -/

/-- The dashboard after a history, next to the plot. -/
structure Plots (number : Option Json → ν) (es : List DashboardEvent) (d : Dashboard ν) : Prop where
  selected : d.selectedItem = (plotted number es).selected
  subscribed : d.subscribed = true
  quotes : d.rates.map Rate.quote = (plotted number es).rows.map Rate.quote
  length_chartData : d.chartData.length = 30

/-- A message never leaves the selected instrument with a bid and without an ask,
unless all the points show what would be pushed for it. -/
def PricesTogether (number : Option Json → ν) (d : Dashboard ν) : DashboardEvent → Prop
  | .feed data => ∀ e, d.selected = some e → Json.isNull (e.quoted data).ask = true →
      Json.isNull (e.quoted data).bid = false → ∀ y ∈ d.chartData, y = number (some .null)
  | .select _ => True

namespace Plots

variable {number : Option Json → ν} {es : List DashboardEvent} {d d' : Dashboard ν}

theorem init [Zero ν] (number : Option Json → ν) : Plots number [] (.init : Dashboard ν) :=
  ⟨rfl, rfl, rfl, List.length_replicate⟩

/-- A message adds to the plot the ask of the selected row, if it has both prices. -/
theorem heights_feed (h : Plots number es d) (data : String) {e : Rate}
    (he : d.selected = some e) :
    (plotted number (es ++ [.feed data])).heights =
      if (e.quoted data).hasPrices then
        (plotted number es).heights ++ [number (e.quoted data).ask]
      else (plotted number es).heights := by
  -- the plot's row has the quote of the dashboard's
  have hrow := congrArg (·[d.selectedItem]?) h.quotes
  simp only [List.getElem?_map, show d.rates[d.selectedItem]? = some e from he,
    Option.map_some] at hrow
  obtain ⟨e', he', hquote⟩ := Option.map_eq_some_iff.mp hrow.symm
  have hquoted : (e'.quoted data).quote = (e.quoted data).quote := by
    rw [Rate.quote_quoted, Rate.quote_quoted, hquote]
  obtain ⟨-, hprices⟩ := Prod.mk.inj hquoted
  obtain ⟨hask, hbid⟩ := Prod.mk.inj hprices
  rw [plotted_concat]
  simp only [Plot.step, List.getElem?_map, ← h.selected, he', Option.map_some, Rate.hasPrices,
    hask, hbid]
  rfl

theorem step [Zero ν] (h : Plots number es d) (hlisted : d.Listed) {ev : DashboardEvent}
    (hev : ∀ data, ev = .feed data → goesThrough data = true)
    (hs : d.step number ev = some d') : Plots number (es ++ [ev]) d' := by
  cases ev with
  | feed data =>
    obtain ⟨e, he⟩ := hlisted.selected_eq
    obtain ⟨hselected, hsub, hquotes, hchart⟩ :=
      Dashboard.step_feed hlisted h.subscribed number (hev data rfl) he hs
    refine ⟨?_, hsub, ?_, ?_⟩
    · rw [hselected, h.selected, plotted_concat]
      rfl
    · rw [hquotes, Rate.map_quote_quoted, h.quotes, ← Rate.map_quote_quoted, plotted_concat]
      rfl
    · rw [hchart]
      split
      · exact h.length_chartData
      · rw [length_slide, h.length_chartData]
  | select i =>
    obtain ⟨hselected, hsub, hrates, hchart⟩ := Dashboard.step_select number hs
    refine ⟨?_, hsub.trans h.subscribed, ?_, ?_⟩
    · rw [hselected, plotted_concat]
      rfl
    · rw [hrates, h.quotes, plotted_concat]
      rfl
    · rw [hchart, List.length_replicate, h.length_chartData]

/-- **One event keeps the window** exactly when it meets the condition. -/
theorem window_step_iff [Zero ν] (h : Plots number es d) (hlisted : d.Listed)
    (hwindow : d.chartData = window 30 0 (plotted number es).heights) {ev : DashboardEvent}
    (hev : ∀ data, ev = .feed data → goesThrough data = true)
    (hs : d.step number ev = some d') :
    d'.chartData = window 30 0 (plotted number (es ++ [ev])).heights ↔
      PricesTogether number d ev := by
  cases ev with
  | feed data =>
    obtain ⟨e, he⟩ := hlisted.selected_eq
    obtain ⟨-, -, -, hchart⟩ :=
      Dashboard.step_feed hlisted h.subscribed number (hev data rfl) he hs
    have hcond : PricesTogether number d (.feed data) ↔
        (Json.isNull (e.quoted data).ask = true → Json.isNull (e.quoted data).bid = false →
          ∀ y ∈ d.chartData, y = number (some .null)) := by
      simp only [PricesTogether, he, Option.some.injEq, forall_eq']
    rw [hchart, h.heights_feed data he, hcond, Rate.hasPrices]
    rcases hbid : Json.isNull (e.quoted data).bid with - | -
    · rcases hask : Json.isNull (e.quoted data).ask with - | -
      · -- both prices: a point on both sides
        simp [window_concat, hwindow]
      · -- a bid without an ask: a point only in the chart
        have hnull : (e.quoted data).ask = some .null := Json.isNull_iff.mp hask
        simp [hnull, ← hwindow, slide_eq_self_iff]
    · -- no bid: no point on either side
      simp [hwindow]
  | select i =>
    obtain ⟨-, -, -, hchart⟩ := Dashboard.step_select number hs
    refine iff_of_true ?_ trivial
    rw [hchart, h.length_chartData, plotted_concat]
    exact window_nil.symm

end Plots

/-- The dashboard follows the plot along every run of messages that go through. -/
theorem plots_of_run [Zero ν] {number : Option Json → ν} {es : List DashboardEvent}
    {d : Dashboard ν} (hrun : (dashboard number).run .init es = some d)
    (hfeeds : ∀ data ∈ feeds es, goesThrough data = true) : Plots number es d :=
  run_feeds_induction (Plots.init number)
    (fun _ _ _ _ hlisted hplots hev hs => hplots.step hlisted hev hs) hrun hfeeds

/-- **The chart is a window on the selected instrument**: it always has thirty
points, and all along a run they are the last of thirty zeros and the asks of
the selected instrument since its selection exactly when no message leaves the
instrument with a bid and without an ask, or not noticeably. -/
theorem chart_window_iff [Zero ν] (number : Option Json → ν) (es : List DashboardEvent)
    {d : Dashboard ν} (hrun : (dashboard number).run .init es = some d)
    (hfeeds : ∀ data ∈ feeds es, goesThrough data = true) :
    d.chartData.length = 30 ∧
      ((∀ pre post d', es = pre ++ post → (dashboard number).run .init pre = some d' →
          d'.chartData = window 30 0 (plotted number pre).heights) ↔
        (dashboard number).Meets (PricesTogether number) .init es) := by
  refine ⟨(plots_of_run hrun hfeeds).length_chartData, ?_⟩
  refine (dashboard number).forall_prefix_iff_meets
    (P := fun pre d' => d'.chartData = window 30 0 (plotted number pre).heights)
    window_nil.symm ?_ hrun
  intro pre ev post d' d'' hsplit hpre hwindow hs
  have hfeeds' : ∀ data ∈ feeds (pre ++ [ev]), goesThrough data = true := by
    intro data hdata
    apply hfeeds
    rw [hsplit, ← List.singleton_append, ← List.append_assoc, feeds, List.filterMap_append]
    exact List.mem_append_left _ hdata
  rw [feeds_concat] at hfeeds'
  have hplots : Plots number pre d' :=
    plots_of_run hpre fun data hdata => hfeeds' data (List.mem_append_left _ hdata)
  apply hplots.window_step_iff (listed_of_run hpre) hwindow ?_ hs
  rintro data rfl
  exact hfeeds' data (List.mem_append_right _ (List.mem_singleton.mpr rfl))

/-! ## Two histories -/

/-- EURUSD, which is selected at the start. -/
def eurusd : Rate := ⟨1, "EURUSD", some (.str ""), some (.str ""), none⟩

/-- A message goes through when its entries are all meant for EURUSD. -/
theorem goesThrough_of_feedEntries {data : String} {entries : List Json}
    (hentries : feedEntries data = some entries)
    (h : entries.all (fun t => Json.isNumber 1 (t.get? "ID")) = true) : goesThrough data = true :=
  goesThrough_iff.mpr ⟨entries, hentries, fun t ht =>
    ⟨(1, "EURUSD"), List.mem_cons_self .., List.all_eq_true.mp h t ht⟩⟩

/-- EURUSD at this ask, with a bid of one. -/
def eurusdAt (ask : Json) : List Json :=
  [.obj [("ID", .num 1 0), ("Name", .str "EURUSD"), ("Ask", ask), ("Bid", .str "1")]]

theorem bytes_eurusdAt :
    Bytes (Json.stringify (.arr (eurusdAt (.str "1")))) ∧
      Bytes (Json.stringify (.arr (eurusdAt .null))) :=
  ⟨bytes_stringify (by decide +kernel), bytes_stringify (by decide +kernel)⟩

/-- After one message at an ask of one the chart shows it. -/
theorem chart_window_iff_eurusd :
    ∃ data d, feedEntries data = some (eurusdAt (.str "1")) ∧
      (dashboard sampleNumber).run .init [.feed data] = some d ∧
      d.chartData.length = 30 ∧
      d.chartData = window 30 0 (plotted sampleNumber [.feed data]).heights := by
  obtain ⟨data, hdata⟩ := exists_feedEntries bytes_eurusdAt.1
  obtain ⟨d, hrun⟩ := exists_run sampleNumber Dashboard.listed_init [.feed data] (by simp)
  have hfeeds : ∀ data' ∈ feeds [.feed data], goesThrough data' = true := by
    intro data' hdata'
    obtain rfl := List.mem_singleton.mp hdata'
    exact goesThrough_of_feedEntries hdata (by decide)
  obtain ⟨hlength, hiff⟩ := chart_window_iff sampleNumber [.feed data] hrun hfeeds
  refine ⟨data, d, hdata, hrun, hlength, hiff.mpr ⟨?_, fun _ _ => trivial⟩ _ [] d rfl hrun⟩
  intro e he hask
  obtain rfl : eurusd = e := Option.some.inj he
  rw [← Rate.applied_eq_quoted hdata] at hask
  exact absurd hask (by decide)

/-- A message with a bid and no ask is drawn as a point at zero. -/
theorem missing_ask_is_drawn :
    ¬ ∀ (es : List DashboardEvent) (d : Dashboard ℚ),
      (dashboard sampleNumber).run .init es = some d →
      (∀ data ∈ feeds es, goesThrough data = true) →
      d.chartData = window 30 0 (plotted sampleNumber es).heights := by
  intro h
  obtain ⟨data, hdata⟩ := exists_feedEntries bytes_eurusdAt.1
  obtain ⟨data', hdata'⟩ := exists_feedEntries bytes_eurusdAt.2
  have hgoes : goesThrough data = true := goesThrough_of_feedEntries hdata (by decide)
  have hgoes' : goesThrough data' = true := goesThrough_of_feedEntries hdata' (by decide)
  obtain ⟨d, hrun⟩ := exists_run sampleNumber Dashboard.listed_init [.feed data] (by simp)
  obtain ⟨d', hrun'⟩ := exists_run sampleNumber Dashboard.listed_init
    [.feed data, .feed data'] (by simp)
  have hfeed : ∀ data'' ∈ feeds [.feed data], goesThrough data'' = true := by
    simp [feeds, hgoes]
  have hplots := plots_of_run hrun hfeed
  have hlisted := listed_of_run hrun
  have hwindow := h _ d hrun hfeed
  have hwindow' := h _ d' hrun' (by simp [feeds, hgoes, hgoes'])
  -- the second message keeps the window, so every point is a missing ask
  have hcond : PricesTogether sampleNumber d (.feed data') := by
    have hrun'' : (dashboard sampleNumber).run .init ([.feed data] ++ [.feed data']) = some d' :=
      hrun'
    obtain ⟨d₁, hd₁, hs⟩ := (dashboard sampleNumber).run_concat_eq_some.mp hrun''
    obtain rfl : d₁ = d := Option.some.inj (hd₁.symm.trans hrun)
    have hs : d₁.step sampleNumber (.feed data') = some d' := hs
    refine (hplots.window_step_iff hlisted hwindow ?_ hs).mp hwindow'
    rintro data'' heq
    cases heq
    exact hgoes'
  obtain ⟨e, he⟩ := hlisted.selected_eq
  have hid : e.id = 1 := by
    have hidentity := hlisted.mem_listedInstruments he
    rw [show d.selectedItem = 0 from hplots.selected] at hidentity
    exact (congrArg Prod.fst (Option.some.inj hidentity)).symm
  have hquoted : (e.quoted data').ask = some .null ∧ (e.quoted data').bid = some (.str "1") := by
    rw [Rate.quoted, listing, hdata', hid]
    exact ⟨rfl, rfl⟩
  have hzero := hcond e he (by rw [hquoted.1]; rfl) (by rw [hquoted.2]; rfl)
  -- but the first one is there
  have hheights : (plotted sampleNumber [.feed data]).heights = [1] := by
    have hinit := (Plots.init sampleNumber).heights_feed data (e := eurusd) rfl
    rw [← Rate.applied_eq_quoted hdata] at hinit
    exact hinit
  rw [hwindow, hheights] at hzero
  exact absurd (hzero 1 (by decide)) (by decide)

end KubemqWorkshop
