import KubemqWorkshop.Chart

/-!
# The canvas of the chart (`kubemq-rate-client`)

The chart component shares the array of points with the rate service and draws it
again only when a differ finds other points in it than before: other objects, not
other heights (`ngDoCheck`). A selection sets the heights of all points to zero where
they are, which no differ sees; but it also puts a new point in, as a message does.
So every change of the heights comes with a new object, and the canvas shows the
points of the moment after every event (`canvas_up_to_date`), drawn once for each
event that puts a point in.
-/

namespace KubemqWorkshop

/-- A point of the chart: an object, and its height. -/
structure Point (ν : Type) where
  object : ℕ
  y : ν

/-- `app-line-chart`, and the array it shares with the rate service. -/
structure LineChart (ν : Type) where
  chartData : List (Point ν)
  /-- the number of points created so far -/
  created : ℕ
  /-- the objects the differ saw last -/
  seen : List ℕ
  /-- the heights on the canvas -/
  drawn : List ν
  /-- how often the canvas was drawn -/
  updates : ℕ

namespace LineChart

variable {ν : Type}

/-- The objects in the array. -/
def objects (c : LineChart ν) : List ℕ := c.chartData.map Point.object

/-- Their heights. -/
def heights (c : LineChart ν) : List ν := c.chartData.map Point.y

/-- The component before the first check; `setEmptyPoints` makes thirty points. -/
def new [Zero ν] : LineChart ν where
  chartData := (List.range 30).map fun object => ⟨object, 0⟩
  created := 30
  seen := []
  drawn := []
  updates := 0

/-- Push a new point and drop the oldest. -/
def push (c : LineChart ν) (y : ν) : LineChart ν :=
  { c with
    chartData := (c.chartData ++ [Point.mk c.created y]).drop 1
    created := c.created + 1 }

/-- `parseNewPoint`. -/
def parseNewPoint (number : Option Json → ν) (c : LineChart ν) (e : Rate) : LineChart ν :=
  if e.active = some true then c.push (number e.ask) else c

/-- The heights are set to zero, each in its point. -/
def flatten [Zero ν] (c : LineChart ν) : LineChart ν :=
  { c with chartData := c.chartData.map fun p => { p with y := 0 } }

/-- `setSelectedItem`. -/
def setSelectedItem [Zero ν] (c : LineChart ν) : LineChart ν := c.flatten.push 0

/-- `ngDoCheck`. -/
def ngDoCheck (c : LineChart ν) : LineChart ν :=
  if c.objects = c.seen then c
  else { c with seen := c.objects, drawn := c.heights, updates := c.updates + 1 }

/-- The callback of `ratesListener`, which passes the row `n` on unless it throws. -/
def onMessage (number : Option Json → ν) (d : Dashboard ν) (data : String) (c : LineChart ν) :
    LineChart ν :=
  let n := d.current
  match d.onMessage number data with
  | (false, _) => c
  | (true, d') =>
    match n.bind fun i => d'.rates[i]? with
    | none => c
    | some row => c.parseNewPoint number row

/-- What an event does to the points. -/
def handle [Zero ν] (number : Option Json → ν) (d : Dashboard ν) (c : LineChart ν) :
    DashboardEvent → LineChart ν
  | .feed data => if d.subscribed then c.onMessage number d data else c
  | .select _ => c.setSelectedItem

end LineChart

/-- The rate service and the chart component. -/
structure ChartPage (ν : Type) where
  dashboard : Dashboard ν
  lineChart : LineChart ν

namespace ChartPage

variable {ν : Type} [Zero ν]

/-- After the first check. -/
def init : ChartPage ν := ⟨.init, LineChart.new.ngDoCheck⟩

/-- One event, and the check after it. -/
def step (number : Option Json → ν) (p : ChartPage ν) (e : DashboardEvent) :
    Option (ChartPage ν) :=
  (p.dashboard.step number e).map fun d =>
    ⟨d, (p.lineChart.handle number p.dashboard e).ngDoCheck⟩

end ChartPage

/-- The rate service and its chart as a machine. -/
def chartPage {ν : Type} [Zero ν] (number : Option Json → ν) :
    Machine (ChartPage ν) DashboardEvent :=
  ⟨ChartPage.step number⟩

/-- The event puts a point into the chart: a selection, or a message that is applied
and leaves the selected instrument with a bid. -/
def Dashboard.plots {ν : Type} (d : Dashboard ν) : DashboardEvent → Bool
  | .feed data => d.subscribed && goesThrough data &&
      d.selected.any fun e => !Json.isNull (e.quoted data).bid
  | .select _ => true

/-! ## The points of the rate service -/

section

variable {ν : Type} {c : LineChart ν}

namespace LineChart

theorem heights_push (y : ν) : (c.push y).heights = slide c.heights y := by
  rw [heights, push, slide, heights, List.map_drop, List.map_append]
  rfl

theorem objects_push (y : ν) : (c.push y).objects = slide c.objects c.created := by
  rw [objects, push, slide, objects, List.map_drop, List.map_append]
  rfl

@[simp] theorem objects_flatten [Zero ν] : c.flatten.objects = c.objects := by
  rw [objects, flatten, List.map_map]
  rfl

@[simp] theorem heights_flatten [Zero ν] :
    c.flatten.heights = List.replicate c.heights.length 0 := by
  rw [heights, flatten, List.map_map, heights, List.length_map]
  exact List.map_const' ..

/-- The listener reaches `parseNewPoint` with the selected row as the message leaves it. -/
theorem onMessage_eq {d : Dashboard ν} (h : d.Listed) (number : Option Json → ν) {data : String}
    (hdata : goesThrough data = true) {e : Rate} (he : d.selected = some e) :
    c.onMessage number d data =
      if Json.isNull (e.quoted data).bid then c else c.push (number (e.quoted data).ask) := by
  obtain ⟨entries, hentries, hwell⟩ := goesThrough_iff.mp hdata
  have hrow : ((d.receive entries e).parseNewPoint number (e.refreshed entries)).rates[
      d.selectedItem]? = some (e.refreshed entries) := by
    rw [Dashboard.parseNewPoint_rates, Dashboard.receive_getElem? entries he,
      Dashboard.selected_row he, Option.map_some, if_pos rfl]
  simp only [onMessage, Dashboard.onMessage_eq h number hentries hwell he, h.current_eq,
    Option.bind_some, hrow]
  rw [parseNewPoint, ← Rate.applied_eq_quoted hentries]
  have hactive : (e.refreshed entries).active = some true ↔
      Json.isNull (e.applied entries).bid = false := by
    rw [Rate.refreshed, isRateActive, Option.some.injEq, Bool.not_eq_true']
  by_cases hbid : Json.isNull (e.applied entries).bid = true
  · rw [if_neg (by rw [hactive, hbid]; decide), if_pos hbid]
  · rw [if_pos (hactive.mpr (by simpa using hbid)), if_neg hbid]
    rfl

/-- What an event does to the points: nothing, or a new point comes. -/
theorem handle_eq [Zero ν] {d d' : Dashboard ν} (h : d.Listed) (number : Option Json → ν)
    {e : DashboardEvent} (hs : d.step number e = some d') (hc : c.heights = d.chartData) :
    (c.handle number d e).heights = d'.chartData ∧
      if d.plots e then ∃ (c₀ : LineChart ν) (y : ν), c.handle number d e = c₀.push y ∧
        c₀.objects = c.objects ∧ c₀.created = c.created ∧ c₀.seen = c.seen ∧
        c₀.updates = c.updates
      else c.handle number d e = c := by
  cases e with
  | select i =>
    obtain ⟨-, -, -, hchart⟩ := Dashboard.step_select number hs
    have hheights : c.setSelectedItem.heights = d'.chartData := by
      rw [hchart, setSelectedItem, heights_push, heights_flatten, hc]
      exact slide_replicate
    exact ⟨hheights, c.flatten, 0, rfl, objects_flatten, rfl, rfl, rfl⟩
  | feed data =>
    obtain ⟨sel, hsel⟩ := h.selected_eq
    by_cases hsub : d.subscribed = true
    · by_cases hdata : goesThrough data = true
      · obtain ⟨-, -, -, hchart⟩ := Dashboard.step_feed h hsub number hdata hsel hs
        simp only [handle, hsub, if_true, onMessage_eq h number hdata hsel, Dashboard.plots, hdata,
          hsel, Option.any_some, Bool.true_and]
        by_cases hbid : Json.isNull (sel.quoted data).bid = true
        · simp [hchart, hbid, hc]
        · simp only [hchart, hbid, Bool.false_eq_true, if_false, Bool.not_false, if_true]
          refine ⟨?_, c, _, rfl, rfl, rfl, rfl, rfl⟩
          rw [heights_push, hc]
      · obtain ⟨rates, hthrows, -⟩ :=
          Dashboard.onMessage_throws h number (by simpa using hdata)
        simp only [Dashboard.step, hsub, if_true, hthrows, Option.some.injEq] at hs
        subst hs
        simp [handle, hsub, onMessage, hthrows, Dashboard.plots, hdata, hc]
    · simp only [Dashboard.step, hsub, Bool.false_eq_true, if_false, Option.some.injEq] at hs
      subst hs
      simp [handle, hsub, Dashboard.plots, hc]

/-- **A new point is seen**: the differ finds an object it has not seen. -/
theorem ngDoCheck_push (hseen : c.seen = c.objects) (hfresh : ∀ o ∈ c.objects, o < c.created)
    (hne : c.objects ≠ []) (y : ν) :
    (c.push y).ngDoCheck =
      { c.push y with
        seen := (c.push y).objects, drawn := (c.push y).heights, updates := c.updates + 1 } := by
  have hchanged : (c.push y).objects ≠ (c.push y).seen := by
    have hpushed : (c.push y).seen = c.objects := hseen
    rw [objects_push, hpushed, Ne, slide_eq_self_iff]
    intro hall
    obtain ⟨o, ho⟩ := List.exists_mem_of_ne_nil _ hne
    exact absurd (hall o ho) (hfresh o ho).ne
  rw [ngDoCheck, if_neg hchanged]
  rfl

end LineChart

end

/-! ## The canvas -/

section

variable {ν : Type} [Zero ν] {number : Option Json → ν} {p p' : ChartPage ν}

/-- The canvas shows the points of the moment, and the next point will be seen. -/
structure ChartPage.UpToDate (p : ChartPage ν) : Prop where
  listed : p.dashboard.Listed
  heights : p.lineChart.heights = p.dashboard.chartData
  seen : p.lineChart.seen = p.lineChart.objects
  drawn : p.lineChart.drawn = p.lineChart.heights
  fresh : ∀ o ∈ p.lineChart.objects, o < p.lineChart.created
  nonempty : p.lineChart.objects ≠ []

theorem ChartPage.objects_init : (init : ChartPage ν).lineChart.objects = List.range 30 := rfl

theorem ChartPage.upToDate_init : (init : ChartPage ν).UpToDate where
  listed := Dashboard.listed_init
  heights := rfl
  seen := rfl
  drawn := rfl
  fresh := by
    rw [objects_init]
    exact fun o ho => List.mem_range.mp ho
  nonempty := by
    rw [objects_init]
    decide

/-- **One event** is drawn once when it puts a point in, and not at all otherwise. -/
theorem ChartPage.UpToDate.step (h : p.UpToDate) {e : DashboardEvent}
    (hs : p.step number e = some p') :
    p'.UpToDate ∧ p'.lineChart.updates =
      p.lineChart.updates + if p.dashboard.plots e then 1 else 0 := by
  obtain ⟨d, hd, rfl⟩ := Option.map_eq_some_iff.mp hs
  obtain ⟨hheights, hhandled⟩ := LineChart.handle_eq h.listed number hd h.heights
  have hlisted := h.listed.step hd
  by_cases hplots : p.dashboard.plots e = true
  · rw [if_pos hplots] at hhandled ⊢
    obtain ⟨c, y, hpush, hobjects, hcreated, hseen, hupdates⟩ := hhandled
    have hfresh : ∀ o ∈ c.objects, o < c.created := by
      rw [hobjects, hcreated]
      exact h.fresh
    have hne : c.objects ≠ [] := by
      rw [hobjects]
      exact h.nonempty
    have hcheck := LineChart.ngDoCheck_push (hseen.trans (h.seen.trans hobjects.symm)) hfresh hne y
    rw [hpush] at hheights ⊢
    rw [hcheck]
    refine ⟨⟨hlisted, hheights, rfl, rfl, ?_, ?_⟩, congrArg (· + 1) hupdates⟩
    · intro o ho
      rcases mem_slide (LineChart.objects_push y ▸ ho) with ho | rfl
      · exact Nat.lt_succ_of_lt (hfresh o ho)
      · exact Nat.lt_succ_self _
    · apply List.ne_nil_of_length_pos
      have hlength := length_slide c.objects c.created
      rw [← LineChart.objects_push y] at hlength
      exact hlength.symm ▸ List.length_pos_of_ne_nil hne
  · rw [if_neg hplots] at hhandled ⊢
    rw [hhandled] at hheights ⊢
    rw [LineChart.ngDoCheck, if_pos h.seen.symm]
    exact ⟨⟨hlisted, hheights, h.seen, h.drawn, h.fresh, h.nonempty⟩, rfl⟩

theorem ChartPage.run_dashboard (number : Option Json → ν) (p₀ : ChartPage ν)
    (es : List DashboardEvent) :
    ((chartPage number).run p₀ es).map dashboard =
      (KubemqWorkshop.dashboard number).run p₀.dashboard es := by
  refine Machine.run_map _ (N := chartPage number) (fun p e => ?_) p₀ es
  exact Option.map_map .. |>.trans (Option.map_id' ..)

/-- **The canvas is up to date**: after every event of every history it shows the heights
of the rate service, and each event that puts a point in is drawn once, no other. -/
theorem canvas_up_to_date {es : List DashboardEvent}
    (hrun : (chartPage number).run .init es = some p) :
    (dashboard number).run .init es = some p.dashboard ∧
      p.lineChart.drawn = p.dashboard.chartData ∧
      ∀ e p', p.step number e = some p' → p'.lineChart.updates =
        p.lineChart.updates + if p.dashboard.plots e then 1 else 0 := by
  have hup : p.UpToDate := (chartPage number).run_preserves (fun _ _ _ hI hs => (hI.step hs).1)
    ChartPage.upToDate_init hrun
  refine ⟨?_, hup.drawn.trans hup.heights, fun e p' hs => (hup.step hs).2⟩
  have hpart := ChartPage.run_dashboard number .init es
  rw [hrun] at hpart
  exact hpart.symm

end

/-- A price of one comes, and then AUDUSD is selected. -/
theorem canvas_up_to_date_eurusd :
    ∃ (data : String) (p : ChartPage ℚ), (chartPage sampleNumber).run .init [.feed data] = some p ∧
      p.lineChart.drawn = List.replicate 29 0 ++ [1] ∧
      ∀ p', p.step sampleNumber (.select 1) = some p' →
        p'.lineChart.updates = p.lineChart.updates + 1 := by
  obtain ⟨data, hdata⟩ := exists_feedEntries bytes_eurusdAt.1
  obtain ⟨d, hd⟩ := exists_run sampleNumber Dashboard.listed_init [.feed data] (by simp)
  obtain ⟨p, hp, rfl⟩ : ∃ p, (chartPage sampleNumber).run .init [.feed data] = some p ∧
      p.dashboard = d := by
    rw [← Option.map_eq_some_iff, ChartPage.run_dashboard]
    exact hd
  obtain ⟨-, hdrawn, hupdates⟩ := canvas_up_to_date hp
  refine ⟨data, p, hp, ?_, fun p' hs => hupdates (.select 1) p' hs⟩
  have hstep : (Dashboard.init : Dashboard ℚ).step sampleNumber (.feed data) =
      some p.dashboard := by simpa [dashboard] using hd
  obtain ⟨-, -, -, hchart⟩ := Dashboard.step_feed Dashboard.listed_init rfl sampleNumber
    (goesThrough_of_feedEntries hdata (by decide)) (e := eurusd) rfl hstep
  rw [← Rate.applied_eq_quoted hdata] at hchart
  exact hdrawn.trans (hchart.trans (by decide))

end KubemqWorkshop
