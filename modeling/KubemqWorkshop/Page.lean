import KubemqWorkshop.Chart
import KubemqWorkshop.PriceBand

/-!
# The page on the generator's reports

The dashboard was made for any messages. Here it gets those of a generator only:
reports of a started generator after whatever history. Then the slips of the
dashboard stay without effect but one. A report never has a bid without an ask,
so the chart is the window of the plot in every run (`page_chart`), and what it
draws are prices between 1 and 2 (`page_chart_band`); every row shows the last
report that came (`page_shows`).
-/

namespace KubemqWorkshop

/-! ## The platform -/

/-- The code outside the repository a report goes through. -/
structure Platform (ν : Type) where
  /-- `JsonConvert.DeserializeObject<RateRequest>` on a body -/
  deserializeObject : List UInt8 → Except Exn (Option RateRequest)
  /-- `JsonConvert.SerializeObject` on a report -/
  serializeObject : List SenderMessageBody → String
  /-- `double.ToString` -/
  toString : ℚ → String
  /-- JavaScript's `Number` -/
  number : Option Json → ν

/-- The text an event of the feed carries in its `Body`. -/
def carried (data : String) : Option String :=
  (Json.parse data).bind fun event =>
    match event.get? "Body" with
    | some (.str body) => atob body
    | _ => none

theorem carries_iff {data text : String} : Carries data text ↔ carried data = some text := by
  rw [Carries, carried]
  rcases hparse : Json.parse data with - | event
  · simp
  · rcases hbody : event.get? "Body" with - | body
    · simp [hbody]
    · cases body <;> simp [hbody]

section

variable {ν : Type} (P : Platform ν) (rnd : ℤ → NextDouble × NextDouble) (settings : Settings)

/-- The table of the generator after a history. -/
def Platform.table (es : List Event) : RateTable :=
  ((Generator.startUp rnd settings).run P.deserializeObject es).rates

/-- The message carries the report the generator builds after the history. -/
def Platform.Carries (es : List Event) (data : String) : Prop :=
  carried data = some (P.serializeObject (onRateSend P.toString (P.table rnd settings es)))

theorem Platform.table_identities (es : List Event) :
    (P.table rnd settings es).identities = instruments.map fun i => (i.1, i.1, i.2) :=
  startUp_run_identities rnd settings es

variable {P rnd settings}

/-- The row shows the prices of an instrument, `null` when it is inactive. -/
def Rate.Shows (P : Platform ν) (e : Rate) (r : Rates) : Prop :=
  e.ask = some (textOrNull (reportLine P.toString r).ask) ∧
    e.bid = some (textOrNull (reportLine P.toString r).bid)

/-- Every row shows its instrument. -/
def Dashboard.Shows (P : Platform ν) (d : Dashboard ν) (table : RateTable) : Prop :=
  ∀ e ∈ d.rates, ∃ r, table.get? e.name = some r ∧ e.Shows P r

/-- An instrument of the table has its prices in the band. -/
theorem inBand_of_get? {es : List Event} {name : String} {r : Rates}
    (h : (P.table rnd settings es).get? name = some r) : r.InBand :=
  startUp_run_inBand P.deserializeObject rnd settings es _ (Dictionary.mem_of_get? h)

/-- The ask of a row with prices is the text of a number in the band. -/
theorem number_ask_showing {r : Rates} (hr : r.InBand) {e : Rate}
    (hprices : (e.showing P.toString r).hasPrices = true) :
    ∃ v : ℚ, 1 ≤ v ∧ v ≤ 2 ∧
      P.number (e.showing P.toString r).ask = P.number (some (.str (P.toString v))) := by
  refine ⟨r.buy, hr.1.1, hr.1.2, ?_⟩
  rcases hactive : r.isActive with - | -
  · simp [Rate.hasPrices, Rate.showing, isNull_textOrNull, reportLine, hactive] at hprices
  · simp [Rate.showing, reportLine, hactive, textOrNull]

/-! ## One message -/

variable (hserialize : Serializes P.serializeObject)
include hserialize

theorem feedEntries_of_platform {es : List Event} {data : String}
    (h : P.Carries rnd settings es data) :
    feedEntries data = some
      ((onRateSend P.toString (P.table rnd settings es)).map SenderMessageBody.toJson) :=
  feedEntries_of_carries (carries_iff.mpr h) (hserialize _)

theorem goesThrough_of_platform {es : List Event} {data : String}
    (h : P.Carries rnd settings es data) : goesThrough data = true :=
  goesThrough_iff.mpr ⟨_, feedEntries_of_platform hserialize h,
    wellAddressed_report (P.table_identities rnd settings es) P.toString⟩

/-- A report sets the prices of a row to those of its instrument. -/
theorem quoted_of_platform {es : List Event} {data : String} (h : P.Carries rnd settings es data)
    {e : Rate} (he : (e.id, e.name) ∈ listedInstruments) :
    ∃ r, (P.table rnd settings es).get? e.name = some r ∧
      e.quoted data = e.showing P.toString r := by
  obtain ⟨r, hget, happlied⟩ := applied_report P.toString (P.table_identities rnd settings es) he
  refine ⟨r, hget, ?_⟩
  rw [← happlied]
  exact (Rate.applied_eq_quoted (feedEntries_of_platform hserialize h) e).symm

/-- After a report every row shows it. -/
theorem step_platform [Zero ν] {d d' : Dashboard ν} (hlisted : d.Listed)
    (hsub : d.subscribed = true) {es : List Event} {data : String}
    (h : P.Carries rnd settings es data) (hs : d.step P.number (.feed data) = some d') :
    d'.Shows P (P.table rnd settings es) := by
  obtain ⟨sel, hsel⟩ := hlisted.selected_eq
  have hentries := feedEntries_of_platform hserialize h
  have hwell := wellAddressed_report (P.table_identities rnd settings es) P.toString
  simp only [Dashboard.step, hsub, if_true,
    Dashboard.onMessage_eq hlisted P.number hentries hwell hsel, Option.some.injEq] at hs
  subst hs
  intro e' he'
  rw [Dashboard.parseNewPoint_rates] at he'
  obtain ⟨i, hi⟩ := List.mem_iff_getElem?.mp he'
  rw [Dashboard.receive_getElem? _ hsel] at hi
  obtain ⟨e, he, rfl⟩ := Option.map_eq_some_iff.mp hi
  obtain ⟨r, hget, happlied⟩ := applied_report P.toString (P.table_identities rnd settings es)
    (List.mem_of_getElem? (hlisted.mem_listedInstruments he))
  refine ⟨r, ?_⟩
  by_cases hsel' : i = d.selectedItem
  · rw [if_pos hsel', Rate.refreshed, happlied]
    exact ⟨hget, rfl, rfl⟩
  · rw [if_neg hsel', happlied]
    exact ⟨hget, rfl, rfl⟩

/-- A report has a bid only with an ask. -/
theorem pricesTogether_of_platform {d : Dashboard ν} (hlisted : d.Listed) {es : List Event}
    {data : String} (h : P.Carries rnd settings es data) :
    PricesTogether P.number d (.feed data) := by
  intro e he hask hbid
  obtain ⟨r, -, hquoted⟩ := quoted_of_platform hserialize h
    (List.mem_of_getElem? (hlisted.mem_listedInstruments he))
  rw [hquoted, Rate.showing, isNull_textOrNull] at hask hbid
  rcases hr : r.isActive <;> simp [reportLine, hr] at hask hbid

/-! ## A visit -/

variable [Zero ν] {ds : List DashboardEvent} {d : Dashboard ν}
  (hrun : (dashboard P.number).run .init ds = some d)
  (hfeeds : ∀ data ∈ feeds ds, ∃ es, P.Carries rnd settings es data)
include hrun hfeeds

/-- **The page shows the last report**: in every visit fed by the generator the
listener goes on listening, and once a message has come every row shows the
report the last one carries. -/
theorem page_shows :
    d.subscribed = true ∧ ∀ data es, (feeds ds).getLast? = some data →
      P.Carries rnd settings es data → d.Shows P (P.table rnd settings es) := by
  refine run_feeds_induction
    (P := fun ds d => d.subscribed = true ∧ ∀ data es, (feeds ds).getLast? = some data →
      P.Carries rnd settings es data → d.Shows P (P.table rnd settings es))
    ⟨rfl, fun data es h => by cases h⟩ ?_ hrun hfeeds
  rintro ds d e d' hlisted ⟨hsub, hshows⟩ hev hs
  cases e with
  | feed data =>
    obtain ⟨es, hes⟩ := hev data rfl
    obtain ⟨sel, hsel⟩ := hlisted.selected_eq
    have hstep := Dashboard.step_feed hlisted hsub P.number
      (goesThrough_of_platform hserialize hes) hsel hs
    refine ⟨hstep.2.1, fun data' es' hlast hes' => ?_⟩
    rw [feeds_concat, feeds_feed, List.getLast?_concat] at hlast
    obtain rfl := Option.some.inj hlast
    exact step_platform hserialize hlisted hsub hes' hs
  | select i =>
    obtain ⟨-, hsub', hrates, -⟩ := Dashboard.step_select P.number hs
    refine ⟨hsub'.trans hsub, fun data es hlast hes => ?_⟩
    rw [feeds_concat, feeds_select, List.append_nil] at hlast
    rw [Dashboard.Shows, hrates]
    exact hshows data es hlast hes

/-- **The chart of the page**: in every visit fed by the generator the chart is the
last thirty of thirty zeros and the asks of the selected instrument since its
selection, and those are prices between 1 and 2. -/
theorem page_chart :
    d.chartData = window 30 0 (plotted P.number ds).heights ∧
      ∀ y ∈ (plotted P.number ds).heights,
        ∃ v : ℚ, 1 ≤ v ∧ v ≤ 2 ∧ y = P.number (some (.str (P.toString v))) := by
  have hboth : Plots P.number ds d ∧ d.chartData = window 30 0 (plotted P.number ds).heights ∧
      ∀ y ∈ (plotted P.number ds).heights,
        ∃ v : ℚ, 1 ≤ v ∧ v ≤ 2 ∧ y = P.number (some (.str (P.toString v))) := by
    refine run_feeds_induction
      (P := fun ds d => Plots P.number ds d ∧
        d.chartData = window 30 0 (plotted P.number ds).heights ∧
        ∀ y ∈ (plotted P.number ds).heights,
          ∃ v : ℚ, 1 ≤ v ∧ v ≤ 2 ∧ y = P.number (some (.str (P.toString v))))
      ⟨Plots.init _, window_nil.symm, fun y hy => absurd hy List.not_mem_nil⟩ ?_ hrun hfeeds
    rintro ds d e d' hlisted ⟨hplots, hwindow, hband⟩ hev hs
    have hgoes : ∀ data, e = .feed data → goesThrough data = true := by
      intro data hdata
      obtain ⟨es, hes⟩ := hev data hdata
      exact goesThrough_of_platform hserialize hes
    refine ⟨hplots.step hlisted hgoes hs, (hplots.window_step_iff hlisted hwindow hgoes hs).mpr ?_,
      ?_⟩
    · cases e with
      | feed data =>
        obtain ⟨es, hes⟩ := hev data rfl
        exact pricesTogether_of_platform hserialize hlisted hes
      | select i => trivial
    · cases e with
      | feed data =>
        obtain ⟨es, hes⟩ := hev data rfl
        obtain ⟨sel, hsel⟩ := hlisted.selected_eq
        obtain ⟨r, hget, hquoted⟩ := quoted_of_platform hserialize hes
          (List.mem_of_getElem? (hlisted.mem_listedInstruments hsel))
        rw [hplots.heights_feed data hsel, hquoted]
        split
        · rename_i hprices
          obtain ⟨v, hlo, hhi, hask⟩ := number_ask_showing (inBand_of_get? hget) hprices
          intro y hy
          rcases List.mem_append.mp hy with hy | hy
          · exact hband y hy
          · exact ⟨v, hlo, hhi, (List.mem_singleton.mp hy).trans hask⟩
        · exact hband
      | select i =>
        rw [plotted_concat]
        exact fun y hy => absurd hy List.not_mem_nil
  exact hboth.2

end

end KubemqWorkshop
