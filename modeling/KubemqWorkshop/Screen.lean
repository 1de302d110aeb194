import KubemqWorkshop.Chart
import KubemqWorkshop.Decimal
import KubemqWorkshop.Watch

/-!
# What the components are told (`kubemq-rate-client`)

The components of the main page over the rate service: the rate bar with its rows,
and the header of the chart. Angular checks their bindings after every event, and
tells a price component of its value only when that has changed (`ngOnChanges`), so a
colour is the direction of the last change the component was told of.

This is the page as long as Angular gets through its checks: every component is told
everything. The check itself, which a price may bring down halfway, is the module
`Rendering`; there it is shown that where none does, the page is this one.

The components see the table as it is (`inStep_of_run`), with two slips. The icon of
the button tests whether `Active` is `false` and the button whether it is true, so
for a row without `Active` the icon says stop and a click starts (`button_of_run`).
And the header keeps its price components when another row is selected, so until a
price changes its colour compares two instruments (`header_mark_after_selection`).
-/

namespace KubemqWorkshop

/-! ## A price -/

/-- The colours of a price. -/
inductive Color where
  /-- `#32c317` -/
  | green : Color
  /-- `#d13030` -/
  | red : Color
  /-- `#D3D3D3` -/
  | gray : Color
  deriving DecidableEq, Repr

/-- The two prices of a row. -/
inductive Side where
  /-- the type `Sell`, which shows `Ask` -/
  | sell : Side
  /-- the type `Buy`, which shows `Bid` -/
  | buy : Side
  deriving DecidableEq, Repr

/-- The price a component is bound to. -/
def Rate.price (e : Rate) : Side → Option Json
  | .sell => e.ask
  | .buy => e.bid

section

variable {ν : Type} [LT ν] [DecidableLT ν]

/-- JavaScript's `<`, where no value is an array or an object: two texts are compared
unit by unit, anything else as numbers. -/
def jsLess (number : Option Json → ν) : Option Json → Option Json → Bool
  | some (.str s), some (.str t) => codeUnits s < codeUnits t
  | some a, some b => number (some a) < number (some b)
  -- `undefined` is not a number
  | _, _ => false

/-- `ngOnChanges` of `app-rate`. -/
def ngOnChanges (number : Option Json → ν) (previousValue currentValue : Option Json) : Color :=
  if jsLess number previousValue currentValue then .green
  else if jsLess number currentValue previousValue then .red
  else .gray

/-- What tells one value of a binding from another, as `===` does. -/
def bindingKey : Option Json → Option (String ⊕ ℚ)
  | none => none
  | some (.num mantissa exponent) => some (.inr (mantissa * 10 ^ exponent))
  | some v => some (.inl (Json.stringify v))

/-- `app-rate`: the value it was told of last, and its colour. -/
abbrev AppRate := Watch (Option Json) Color

/-- Its constructor. -/
def AppRate.new : AppRate := ⟨none, .gray⟩

/-- A check of its binding. -/
def AppRate.check (number : Option Json → ν) (r : AppRate) (value : Option Json) : AppRate :=
  r.look bindingKey (ngOnChanges number) value

/-- The two price components of a row, or of the header. -/
abbrev RateCells := Side → AppRate

/-- A check of both. -/
def RateCells.check (number : Option Json → ν) (cells : RateCells) (e : Rate) : RateCells :=
  fun side => (cells side).check number (e.price side)

/-! ## The page -/

/-- What the components keep. -/
structure Screen where
  /-- the place of `selectedRate`, the rate bar's own -/
  selectedRate : ℕ
  /-- the rows of the rate bar -/
  rows : List RateCells
  /-- the prices in the header of the chart -/
  header : RateCells

/-- The components before the first check. -/
def Screen.new : Screen where
  selectedRate := 0
  rows := getRatesList.map fun _ _ => .new
  header := fun _ => .new

/-- A check that goes through: every component is told of its value. -/
def Screen.check (number : Option Json → ν) (d : Dashboard ν) (v : Screen) : Screen :=
  { v with
    rows := List.zipWith (RateCells.check number) v.rows d.rates
    header := match d.selected with
      | some e => v.header.check number e
      | none => v.header }

/-- The main page, where every check goes through: the rate service and the components. -/
structure MainPage (ν : Type) where
  dashboard : Dashboard ν
  screen : Screen

namespace MainPage

/-- The page after its first check. -/
def init [Zero ν] (number : Option Json → ν) : MainPage ν :=
  ⟨.init, Screen.new.check number .init⟩

/-- One event, and the check after it. A click on a row selects it in the rate bar
(`primaryActionClicked`) and then in the rate service. -/
def step [Zero ν] (number : Option Json → ν) (m : MainPage ν) (e : DashboardEvent) :
    Option (MainPage ν) :=
  (m.dashboard.step number e).map fun d =>
    let screen := match e with
      | .select i => { m.screen with selectedRate := i }
      | .feed _ => m.screen
    ⟨d, screen.check number d⟩

end MainPage

/-- The button is to show `Stop_BTN.png` and not `play-button.png`. -/
def Rate.stopIcon (e : Rate) : Bool := e.active != some false

/-- The chart is to have the opacity 0.3. -/
def Rate.faded (e : Rate) : Bool := e.active != some true

/-- The main page as a machine. -/
def mainPage [Zero ν] (number : Option Json → ν) : Machine (MainPage ν) DashboardEvent :=
  ⟨MainPage.step number⟩

end

/-! ## The activity a message leaves -/

/-- The row has an activity, `true` or `false`. -/
def Dashboard.known {ν : Type} (d : Dashboard ν) (i : ℕ) : Option Bool :=
  d.rates[i]?.map fun e => e.active.isSome

/-- A message that is applied gives the selected row an activity; nothing else does. -/
theorem Dashboard.step_feed_active {ν : Type} [Zero ν] {d d' : Dashboard ν} (h : d.Listed)
    (number : Option Json → ν) {data : String} (hs : d.step number (.feed data) = some d') :
    d'.selectedItem = d.selectedItem ∧ d'.subscribed = (d.subscribed && goesThrough data) ∧
      ∀ i, d'.known i = (d.known i).map
        (· || (d.subscribed && goesThrough data && d.selectedItem == i)) := by
  simp only [Dashboard.step] at hs
  by_cases hsub : d.subscribed = true
  · rw [if_pos hsub] at hs
    obtain ⟨sel, hsel⟩ := h.selected_eq
    by_cases hdata : goesThrough data = true
    · obtain ⟨entries, hentries, hwell⟩ := goesThrough_iff.mp hdata
      rw [Dashboard.onMessage_eq h number hentries hwell hsel] at hs
      obtain rfl := Option.some.inj hs
      refine ⟨Dashboard.parseNewPoint_selectedItem .., by rw [hsub, hdata]; rfl, fun i => ?_⟩
      rw [Dashboard.known, Dashboard.parseNewPoint_rates, Dashboard.receive_getElem? entries hsel,
        Dashboard.known, Option.map_map, Option.map_map]
      refine Option.map_congr fun e _ => ?_
      by_cases hi : i = d.selectedItem
      · simp [hi, hsub, hdata, Rate.refreshed]
      · simp [hi, Ne.symm hi]
    · obtain ⟨rates, hthrows, hrates⟩ := Dashboard.onMessage_throws h number (by simpa using hdata)
      rw [hthrows] at hs
      obtain rfl := Option.some.inj hs
      refine ⟨rfl, by simp [hdata], fun i => ?_⟩
      have hrow := congrArg (fun l => l[i]?.map fun p : (ℕ × String) × Option Bool => p.2.isSome)
        hrates
      simpa [hdata, Dashboard.known, Function.comp_def] using hrow
  · rw [if_neg hsub] at hs
    obtain rfl := Option.some.inj hs
    simp [hsub]

/-! ## The screen shows the table -/

section

variable {ν : Type} [LT ν] [DecidableLT ν] {number : Option Json → ν} {m m' : MainPage ν}

/-- The components show what the rate service has. -/
structure MainPage.InStep (m : MainPage ν) : Prop where
  listed : m.dashboard.Listed
  selectedRate : m.screen.selectedRate = m.dashboard.selectedItem
  rows : m.screen.rows.map (fun cells side => (cells side).seen) =
    m.dashboard.rates.map Rate.price
  header : ∀ e, m.dashboard.selected = some e → ∀ side, (m.screen.header side).seen = e.price side

/-- After a check the components show the table. -/
theorem Screen.inStep_check {d : Dashboard ν} (hlisted : d.Listed) {v : Screen}
    (hselected : v.selectedRate = d.selectedItem) (hrows : v.rows.length = d.rates.length) :
    MainPage.InStep ⟨d, v.check number d⟩ where
  listed := hlisted
  selectedRate := hselected
  rows := by
    apply List.ext_getElem?
    intro i
    simp only [Screen.check, List.getElem?_map, List.getElem?_zipWith]
    rcases hi : d.rates[i]? with - | e
    · rcases v.rows[i]? with - | cells <;> rfl
    · have hlt : i < v.rows.length := by
        rw [hrows]
        exact (List.getElem?_eq_some_iff.mp hi).1
      rw [List.getElem?_eq_getElem hlt]
      rfl
  header e he side := by
    simp only [Screen.check, he]
    rfl

omit [LT ν] [DecidableLT ν] in
theorem MainPage.InStep.length_rows (h : m.InStep) :
    m.screen.rows.length = m.dashboard.rates.length := by
  have hlength := congrArg List.length h.rows
  rwa [List.length_map, List.length_map] at hlength

omit [LT ν] [DecidableLT ν] in
/-- A row as it was seen. -/
theorem MainPage.InStep.seen_row (h : m.InStep) {i : ℕ} {e : Rate} {cells : RateCells}
    (he : m.dashboard.rates[i]? = some e) (hcells : m.screen.rows[i]? = some cells) (side : Side) :
    (cells side).seen = e.price side := by
  have hget := congrArg (·[i]?) h.rows
  simp only [List.getElem?_map, he, hcells, Option.map_some, Option.some.injEq] at hget
  exact congrFun hget side

/-- The step of the rate service behind a step of the page. -/
theorem MainPage.step_eq_some [Zero ν] {e : DashboardEvent} (hs : m.step number e = some m') :
    ∃ v : Screen, m.dashboard.step number e = some m'.dashboard ∧
      m'.screen = v.check number m'.dashboard ∧ v.rows = m.screen.rows ∧
      v.header = m.screen.header ∧
      v.selectedRate = match e with
        | .select i => i
        | .feed _ => m.screen.selectedRate := by
  obtain ⟨d, hd, rfl⟩ := Option.map_eq_some_iff.mp hs
  cases e with
  | feed data => exact ⟨m.screen, hd, rfl, rfl, rfl, rfl⟩
  | select i => exact ⟨{ m.screen with selectedRate := i }, hd, rfl, rfl, rfl, rfl⟩

theorem MainPage.InStep.step [Zero ν] (h : m.InStep) {e : DashboardEvent}
    (hs : m.step number e = some m') : m'.InStep := by
  obtain ⟨v, hd, hscreen, hrows, -, hselected⟩ := MainPage.step_eq_some hs
  have hlisted := h.listed.step hd
  have hv : v.selectedRate = m'.dashboard.selectedItem := by
    rw [hselected]
    cases e with
    | feed data => exact h.selectedRate.trans (Dashboard.step_feed_active h.listed number hd).1.symm
    | select i => exact (Dashboard.step_select number hd).1.symm
  have hlength : v.rows.length = m'.dashboard.rates.length := by
    rw [hrows, h.length_rows, h.listed.length_rates, hlisted.length_rates]
  have hstep : MainPage.InStep ⟨m'.dashboard, v.check number m'.dashboard⟩ :=
    Screen.inStep_check hlisted hv hlength
  rwa [← hscreen] at hstep

/-- **The screen shows the table**, in every reachable state: whatever messages come
and whatever is clicked. -/
theorem inStep_of_run [Zero ν] {es : List DashboardEvent}
    (hrun : (mainPage number).run (.init number) es = some m) : m.InStep :=
  (mainPage number).run_preserves (fun _ _ _ hI hs => hI.step hs)
    (Screen.inStep_check Dashboard.listed_init rfl rfl) hrun

/-- The rate service goes its own way. -/
theorem run_dashboard [Zero ν] (number : Option Json → ν) (m₀ : MainPage ν)
    (es : List DashboardEvent) :
    ((mainPage number).run m₀ es).map MainPage.dashboard =
      (dashboard number).run m₀.dashboard es := by
  refine (dashboard number).run_map (N := mainPage number) (fun m e => ?_) m₀ es
  exact Option.map_map .. |>.trans (Option.map_id' ..)

theorem dashboard_of_run [Zero ν] {es : List DashboardEvent} {m₀ : MainPage ν}
    (hrun : (mainPage number).run m₀ es = some m) :
    (dashboard number).run m₀.dashboard es = some m.dashboard := by
  rw [← run_dashboard, hrun]
  rfl

/-- The rows after the first check: all prices are gray. -/
theorem rows_init [Zero ν] (number : Option Json → ν) {i : ℕ} {e : Rate}
    (he : getRatesList[i]? = some e) :
    (MainPage.init number).screen.rows[i]? = some fun side => ⟨e.price side, .gray⟩ := by
  have hnew : Screen.new.rows[i]? = some fun _ => AppRate.new := by
    rw [Screen.new, List.getElem?_map, he]
    rfl
  have hrow : (MainPage.init number).screen.rows[i]? =
      some (RateCells.check number (fun _ => AppRate.new) e) := by
    have hrate : (Dashboard.init : Dashboard ν).rates[i]? = some e := he
    simp only [MainPage.init, Screen.check, List.getElem?_zipWith, hnew, hrate]
  rw [hrow, Option.some.injEq]
  funext side
  have hgray : ngOnChanges number none (e.price side) = .gray := by
    simp [ngOnChanges, jsLess]
  have hseen : AppRate.new.seen = none := rfl
  rw [RateCells.check, AppRate.check, Watch.look]
  by_cases hkey : bindingKey AppRate.new.seen = bindingKey (e.price side)
  · rw [if_pos hkey]
    rfl
  · rw [if_neg hkey, hseen, hgray]

/-- Every run of the rate service is shown. -/
theorem exists_mainPage_run [Zero ν] (number : Option Json → ν) (m₀ : MainPage ν)
    {es : List DashboardEvent} {d : Dashboard ν}
    (hrun : (dashboard number).run m₀.dashboard es = some d) :
    ∃ m, (mainPage number).run m₀ es = some m ∧ m.dashboard = d := by
  rw [← run_dashboard] at hrun
  exact Option.map_eq_some_iff.mp hrun

/-- A check of a page that shows the table changes nothing. -/
theorem MainPage.InStep.check_eq (number : Option Json → ν) (h : m.InStep) :
    m.screen.check number m.dashboard = m.screen := by
  have hcells : ∀ (cells : RateCells) (e : Rate), (∀ side, (cells side).seen = e.price side) →
      cells.check number e = cells := by
    intro cells e hseen
    funext side
    rw [RateCells.check, AppRate.check, ← hseen side, Watch.look_seen]
  obtain ⟨sel, hsel⟩ := h.listed.selected_eq
  have hrows : List.zipWith (RateCells.check number) m.screen.rows m.dashboard.rates =
      m.screen.rows := by
    apply List.ext_getElem?
    intro i
    rw [List.getElem?_zipWith]
    rcases hi : m.screen.rows[i]? with - | cells
    · rfl
    · obtain ⟨e, he⟩ : ∃ e, m.dashboard.rates[i]? = some e := by
        have hlt : i < m.dashboard.rates.length := by
          rw [← h.length_rows]
          exact (List.getElem?_eq_some_iff.mp hi).1
        exact ⟨_, List.getElem?_eq_getElem hlt⟩
      simp only [he, hcells cells e (h.seen_row he hi)]
  simp only [Screen.check, hrows, hsel, hcells _ sel (h.header sel hsel)]

end

/-! ## The button -/

/-- The rows are told apart by their names. -/
theorem Dashboard.Listed.name_eq_iff {ν : Type} {d : Dashboard ν} (h : d.Listed) {i j : ℕ}
    {e e' : Rate} (he : d.rates[i]? = some e) (he' : d.rates[j]? = some e') :
    e.name = e'.name ↔ i = j := by
  refine ⟨fun hname => ?_, ?_⟩
  · have hnames : ∀ i ∈ listedInstruments.zipIdx, ∀ j ∈ listedInstruments.zipIdx,
        i.1.2 = j.1.2 → i.2 = j.2 := by decide
    exact hnames (e.identity, i) (List.mem_zipIdx_iff_getElem?.mpr (h.mem_listedInstruments he))
      (e'.identity, j) (List.mem_zipIdx_iff_getElem?.mpr (h.mem_listedInstruments he')) hname
  · rintro rfl
    rw [Option.some.inj (he.symm.trans he')]

/-- The rate service after a history: a row has an activity when it came with one,
or a message was applied with it selected. -/
structure Knows {ν : Type} (es : List DashboardEvent) (d : Dashboard ν) : Prop where
  selected : ∀ rows, (hearing rows es).selected = d.selectedItem
  subscribed : ∀ rows, (hearing rows es).subscribed = d.subscribed
  active : ∀ i, d.known i = getRatesList[i]?.map fun e =>
    e.active.isSome || (lastHeard (· == i) es).isSome

/-- One message more. -/
theorem hearing_feed (rows : ℕ → Bool) (es : List DashboardEvent) (data : String) :
    (hearing rows (es ++ [.feed data])).selected = (hearing rows es).selected ∧
      (hearing rows (es ++ [.feed data])).subscribed =
        ((hearing rows es).subscribed && goesThrough data) ∧
      (lastHeard rows (es ++ [.feed data])).isSome = ((lastHeard rows es).isSome ||
        ((hearing rows es).subscribed && goesThrough data && rows (hearing rows es).selected)) := by
  rw [lastHeard, hearing_concat, hear]
  rcases hdata : (hearing rows es).subscribed && goesThrough data with - | -
  · simp [lastHeard]
  · have hsub := (Bool.and_eq_true_iff.mp hdata).1
    rcases rows (hearing rows es).selected with - | - <;> simp [lastHeard, hsub]

theorem knows_of_run {ν : Type} [Zero ν] {number : Option Json → ν} {es : List DashboardEvent}
    {d : Dashboard ν} (hrun : (dashboard number).run .init es = some d) : Knows es d := by
  refine (dashboard number).run_induction (P := fun es d => Knows es d)
    ⟨fun _ => rfl, fun _ => rfl, fun i => ?_⟩ ?_ hrun
  · simp [Dashboard.known, Dashboard.init, lastHeard, hearing]
  · intro es d e d' hrun ih hs
    cases e with
    | select i =>
      obtain ⟨hselected, hsub, hrates, -⟩ := Dashboard.step_select number hs
      refine ⟨fun rows => ?_, fun rows => ?_, fun j => ?_⟩
      · rw [hearing_concat, hselected]
        rfl
      · rw [hearing_concat, hsub]
        exact ih.subscribed rows
      · rw [Dashboard.known, hrates]
        refine (ih.active j).trans ?_
        rw [lastHeard, lastHeard, hearing_concat]
        rfl
    | feed data =>
      obtain ⟨hselected, hsub, hactive⟩ :=
        Dashboard.step_feed_active (listed_of_run hrun) number hs
      refine ⟨fun rows => ?_, fun rows => ?_, fun j => ?_⟩
      · rw [(hearing_feed rows es data).1, ih.selected, hselected]
      · rw [(hearing_feed rows es data).2.1, ih.subscribed, hsub]
      · rw [hactive, ih.active, Option.map_map, (hearing_feed _ es data).2.2, ih.subscribed,
          ih.selected]
        refine Option.map_congr fun e _ => ?_
        simp only [Function.comp_apply, Bool.or_assoc]

/-- The row came with an activity, or a message was applied with it selected. -/
def ActivityKnown (es : List DashboardEvent) (i : ℕ) (e : Rate) : Prop :=
  e.name ∈ ["AUDUSD", "CHFJPY", "GBPJPY", "USDILS"] ∨ (lastHeard (· == i) es).isSome = true

instance (es : List DashboardEvent) (i : ℕ) (e : Rate) : Decidable (ActivityKnown es i e) :=
  inferInstanceAs (Decidable (_ ∨ _))

/-- **The icon and the button**: the chart is to be faded just when a click starts the
instrument. The icon is to say what a click does, if the activity of the row is known;
if not it is to say stop, and a click starts. -/
theorem button_of_run {ν : Type} [Zero ν] {number : Option Json → ν} {es : List DashboardEvent}
    {d : Dashboard ν} (hrun : (dashboard number).run .init es = some d) {e : Rate}
    (he : d.selected = some e) :
    (e.faded = true ↔ d.Posts "true") ∧
      (ActivityKnown es d.selectedItem e → (e.stopIcon = true ↔ d.Posts "false")) ∧
      (¬ ActivityKnown es d.selectedItem e → e.stopIcon = true ∧ d.Posts "true") := by
  have hlisted := listed_of_run hrun
  have hknown := (knows_of_run hrun).active d.selectedItem
  rw [Dashboard.known, Dashboard.selected_row he, Option.map_some] at hknown
  obtain ⟨e₀, he₀, heq⟩ := Option.map_eq_some_iff.mp hknown.symm
  have hname : e₀.name = e.name := by
    have hidentity := hlisted.mem_listedInstruments he
    rw [Dashboard.listed_init.mem_listedInstruments (ν := ν) he₀, Option.some.injEq] at hidentity
    exact congrArg Prod.snd hidentity
  have hbuiltIn : ∀ e ∈ getRatesList, e.active.isSome = true ↔
      e.name ∈ ["AUDUSD", "CHFJPY", "GBPJPY", "USDILS"] := by
    simp [getRatesList]
  have hactive : ActivityKnown es d.selectedItem e ↔ e.active.isSome = true := by
    rw [ActivityKnown, ← heq, ← hname, ← hbuiltIn e₀ (List.mem_of_getElem? he₀), Bool.or_eq_true]
  rw [hactive, posts_iff hlisted he, posts_iff hlisted he, Rate.faded, Rate.stopIcon]
  rcases e.active with - | (- | -) <;> simp

/-! ## The colours of a row -/

/-- A row after some messages. -/
def Rate.after (e : Rate) (datas : List String) : Rate :=
  datas.foldl (fun e data => e.quoted data) e

/-- A row after each of some messages. -/
def Rate.quotes : Rate → List String → List Rate
  | _, [] => []
  | e, data :: datas => e.quoted data :: (e.quoted data).quotes datas

theorem Rate.after_append (e : Rate) (datas datas' : List String) :
    e.after (datas ++ datas') = (e.after datas).after datas' := List.foldl_append

theorem Rate.quotes_append (e : Rate) (datas datas' : List String) :
    e.quotes (datas ++ datas') = e.quotes datas ++ (e.after datas).quotes datas' := by
  induction datas generalizing e with
  | nil => rfl
  | cons data datas ih =>
    rw [List.cons_append, quotes, ih]
    rfl

/-- What messages make of a row depends on its quote alone. -/
theorem Rate.quote_quotes {e e' : Rate} (h : e.quote = e'.quote) (datas : List String) :
    (e.after datas).quote = (e'.after datas).quote ∧
      (e.quotes datas).map quote = (e'.quotes datas).map quote := by
  induction datas generalizing e e' with
  | nil => exact ⟨h, rfl⟩
  | cons data datas ih =>
    have hquoted : (e.quoted data).quote = (e'.quoted data).quote := by
      rw [quote_quoted, quote_quoted, h]
    obtain ⟨hafter, hquotes⟩ := ih hquoted
    refine ⟨hafter, ?_⟩
    rw [quotes, quotes, List.map_cons, List.map_cons, hquoted, hquotes]

/-- The price in a quote. -/
def quotePrice (q : ℕ × Option Json × Option Json) : Side → Option Json
  | .sell => q.2.1
  | .buy => q.2.2

theorem Rate.quotePrice_quote (e : Rate) (side : Side) :
    quotePrice e.quote side = e.price side := by
  cases side <;> rfl

section

variable {ν : Type} [Zero ν] [LT ν] [DecidableLT ν] {number : Option Json → ν} {m m' : MainPage ν}

/-- Components that look at a row after each of some messages. -/
def RateCells.looks (number : Option Json → ν) (cells : RateCells) (e : Rate)
    (datas : List String) : RateCells := fun side =>
  (cells side).looks bindingKey (ngOnChanges number) ((e.quotes datas).map fun r => r.price side)

omit [Zero ν] in
theorem RateCells.looks_append (cells : RateCells) (e : Rate) (datas datas' : List String) :
    cells.looks number e (datas ++ datas') =
      (cells.looks number e datas).looks number (e.after datas) datas' := by
  funext side
  rw [looks, Rate.quotes_append, List.map_append, Watch.looks_append]
  rfl

omit [Zero ν] in
theorem RateCells.looks_of_quote {e e' : Rate} (h : e.quote = e'.quote) (cells : RateCells)
    (datas : List String) : cells.looks number e datas = cells.looks number e' datas := by
  funext side
  have hprices : ∀ rates : List Rate, rates.map (fun r => r.price side) =
      (rates.map Rate.quote).map fun q => quotePrice q side := by
    intro rates
    rw [List.map_map]
    exact List.map_congr_left fun r _ => (r.quotePrice_quote side).symm
  rw [looks, looks, hprices, (Rate.quote_quotes h datas).2, ← hprices]

omit [Zero ν] in
/-- A check after a message. -/
theorem RateCells.check_eq_looks {e e' : Rate} {data : String}
    (h : e'.quote = (e.quoted data).quote) (cells : RateCells) :
    cells.check number e' = cells.looks number e [data] := by
  funext side
  rw [check, ← e'.quotePrice_quote side, h, Rate.quotePrice_quote]
  rfl

/-- **One step of a row**: its components look at what the message makes of it. -/
theorem MainPage.step_row (h : m.InStep) (hsub : m.dashboard.subscribed = true)
    {ev : DashboardEvent} (hev : ∀ data ∈ feeds [ev], goesThrough data = true)
    (hs : m.step number ev = some m') {i : ℕ} {e : Rate} {cells : RateCells}
    (he : m.dashboard.rates[i]? = some e) (hcells : m.screen.rows[i]? = some cells) :
    m'.dashboard.subscribed = true ∧
      (∃ e', m'.dashboard.rates[i]? = some e' ∧ e'.quote = (e.after (feeds [ev])).quote) ∧
      m'.screen.rows[i]? = some (cells.looks number e (feeds [ev])) := by
  obtain ⟨v, hd, hscreen, hrows, -, -⟩ := MainPage.step_eq_some hs
  have hrow : ∀ e', m'.dashboard.rates[i]? = some e' →
      m'.screen.rows[i]? = some (cells.check number e') := by
    intro e' he'
    rw [hscreen]
    simp only [Screen.check, List.getElem?_zipWith, hrows, hcells, he']
  cases ev with
  | feed data =>
    obtain ⟨sel, hsel⟩ := h.listed.selected_eq
    obtain ⟨-, hsub', hquotes, -⟩ := Dashboard.step_feed h.listed hsub number
      (hev data (List.mem_cons_self ..)) hsel hd
    have hget := congrArg (·[i]?) hquotes
    simp only [List.getElem?_map, he, Option.map_some] at hget
    obtain ⟨e', he', hquote⟩ := Option.map_eq_some_iff.mp hget
    exact ⟨hsub', ⟨e', he', hquote⟩, by rw [hrow e' he', RateCells.check_eq_looks hquote]; rfl⟩
  | select j =>
    obtain ⟨-, hsub', hrates, -⟩ := Dashboard.step_select number hd
    have he' : m'.dashboard.rates[i]? = some e := by rw [hrates]; exact he
    refine ⟨hsub'.trans hsub, ⟨e, he', rfl⟩, ?_⟩
    rw [hrow e he', Option.some.injEq]
    -- the row is looked at again, and is as it was seen
    funext side
    rw [RateCells.check, AppRate.check, ← h.seen_row he hcells side, Watch.look_seen]
    rfl

/-- **The colours of a row** after a run of messages that go through, and any clicks,
are those of components that looked at the row after each message. -/
theorem rows_of_run {m₀ : MainPage ν} (h₀ : m₀.InStep) (hsub₀ : m₀.dashboard.subscribed = true)
    {es : List DashboardEvent} (hrun : (mainPage number).run m₀ es = some m)
    (hfeeds : ∀ data ∈ feeds es, goesThrough data = true) {i : ℕ} {e : Rate} {cells : RateCells}
    (he : m₀.dashboard.rates[i]? = some e) (hcells : m₀.screen.rows[i]? = some cells) :
    m.InStep ∧ m.dashboard.subscribed = true ∧
      (∃ e', m.dashboard.rates[i]? = some e' ∧ e'.quote = (e.after (feeds es)).quote) ∧
      m.screen.rows[i]? = some (cells.looks number e (feeds es)) := by
  revert hfeeds
  refine (mainPage number).run_induction (P := fun es m => (∀ data ∈ feeds es,
    goesThrough data = true) → m.InStep ∧ m.dashboard.subscribed = true ∧
      (∃ e', m.dashboard.rates[i]? = some e' ∧ e'.quote = (e.after (feeds es)).quote) ∧
      m.screen.rows[i]? = some (cells.looks number e (feeds es)))
    (fun _ => ⟨h₀, hsub₀, ⟨e, he, rfl⟩, hcells⟩) ?_ hrun
  intro es m ev m' hrun ih hs hfeeds
  rw [feeds_concat] at hfeeds ⊢
  obtain ⟨hinStep, hsub, ⟨e', he', hquote⟩, hrow⟩ :=
    ih fun data hdata => hfeeds data (List.mem_append_left _ hdata)
  obtain ⟨hsub', ⟨e'', he'', hquote'⟩, hrow'⟩ := MainPage.step_row hinStep hsub
    (fun data hdata => hfeeds data (List.mem_append_right _ hdata)) hs he' hrow
  refine ⟨hinStep.step hs, hsub', ⟨e'', he'', ?_⟩, ?_⟩
  · rw [hquote', Rate.after_append]
    exact (Rate.quote_quotes hquote _).1
  · rw [hrow', RateCells.looks_append, RateCells.looks_of_quote hquote]

/-! ## The colours of the header -/

/-- **The header after some messages** has looked at the selected row after each. -/
theorem header_of_run {m₀ : MainPage ν} (h₀ : m₀.InStep) (hsub₀ : m₀.dashboard.subscribed = true)
    {datas : List String} (hrun : (mainPage number).run m₀ (datas.map .feed) = some m)
    (hfeeds : ∀ data ∈ datas, goesThrough data = true) {e : Rate}
    (he : m₀.dashboard.selected = some e) :
    m.screen.header = m₀.screen.header.looks number e datas := by
  induction datas generalizing m₀ e with
  | nil =>
    obtain rfl := Option.some.inj hrun
    rfl
  | cons data datas ih =>
    obtain ⟨hdata, hdatas⟩ := List.forall_mem_cons.mp hfeeds
    rw [List.map_cons, Machine.run_cons] at hrun
    obtain ⟨m₁, hs, hrun⟩ := Option.bind_eq_some_iff.mp hrun
    obtain ⟨v, hd, hscreen, -, hheader, -⟩ := MainPage.step_eq_some hs
    obtain ⟨hselected, hsub, hquotes, -⟩ := Dashboard.step_feed h₀.listed hsub₀ number hdata he hd
    obtain ⟨e₁, he₁, hquote⟩ : ∃ e₁, m₁.dashboard.selected = some e₁ ∧
        e₁.quote = (e.quoted data).quote := by
      have hget := congrArg (·[m₀.dashboard.selectedItem]?) hquotes
      simp only [List.getElem?_map, Dashboard.selected_row he, Option.map_some] at hget
      obtain ⟨e₁, he₁, heq⟩ := Option.map_eq_some_iff.mp hget
      exact ⟨e₁, by rw [Dashboard.selected, hselected]; exact he₁, heq⟩
    have hlook : m₁.screen.header = m₀.screen.header.looks number e [data] := by
      rw [hscreen, ← hheader, ← RateCells.check_eq_looks hquote]
      simp only [Screen.check, he₁]
    rw [ih (h₀.step hs) hsub hrun hdatas he₁, hlook, RateCells.looks_of_quote hquote]
    exact (RateCells.looks_append _ e [data] datas).symm

/-- **The mark of the header after a selection**: once the price has changed it is that
of the row; until then it compares the price with that of the row selected before, and
where the two are equal the header was not told of anything. -/
theorem header_mark_after_selection {es : List DashboardEvent} {m₁ : MainPage ν}
    (hrun₁ : (mainPage number).run (.init number) es = some m₁) {i : ℕ} {datas : List String}
    (hrun : (mainPage number).run m₁ (.select i :: datas.map .feed) = some m)
    (hfeeds : ∀ data ∈ feeds es ++ datas, goesThrough data = true) {p e : Rate}
    (hp : m₁.dashboard.selected = some p) (he : m₁.dashboard.rates[i]? = some e) (side : Side) :
    ∃ cells, m.screen.rows[i]? = some cells ∧
      ((∃ r ∈ e.quotes datas, bindingKey (r.price side) ≠ bindingKey (e.price side)) →
        (m.screen.header side).mark = (cells side).mark) ∧
      ((∀ r ∈ e.quotes datas, bindingKey (r.price side) = bindingKey (e.price side)) →
        (m.screen.header side).mark =
          if bindingKey (p.price side) = bindingKey (e.price side) then
            (m₁.screen.header side).mark
          else ngOnChanges number (p.price side) (e.price side)) := by
  have h₁ := inStep_of_run hrun₁
  have hsub₁ : m₁.dashboard.subscribed = true :=
    (plots_of_run (dashboard_of_run hrun₁) fun data hdata =>
      hfeeds data (List.mem_append_left _ hdata)).subscribed
  rw [Machine.run_cons] at hrun
  obtain ⟨m₀, hs, hrun⟩ := Option.bind_eq_some_iff.mp hrun
  have h₀ := h₁.step hs
  obtain ⟨v, hd, hscreen, -, hheader, -⟩ := MainPage.step_eq_some hs
  obtain ⟨hselected, hsub, hrates, -⟩ := Dashboard.step_select number hd
  have he₀ : m₀.dashboard.rates[i]? = some e := by rw [hrates]; exact he
  have hsel₀ : m₀.dashboard.selected = some e := by rw [Dashboard.selected, hselected]; exact he₀
  obtain ⟨cells, hcells⟩ : ∃ cells, m₀.screen.rows[i]? = some cells := by
    have hlt : i < m₀.screen.rows.length := by
      rw [h₀.length_rows]
      exact (List.getElem?_eq_some_iff.mp he₀).1
    exact ⟨_, List.getElem?_eq_getElem hlt⟩
  have hdatas : ∀ data ∈ datas, goesThrough data = true := fun data hdata =>
    hfeeds data (List.mem_append_right _ hdata)
  have hfed : feeds (datas.map .feed) = datas := by
    rw [feeds, List.filterMap_map]
    exact List.filterMap_some
  obtain ⟨-, -, -, hrow⟩ :=
    rows_of_run h₀ (hsub.trans hsub₁) hrun (by rw [hfed]; exact hdatas) he₀ hcells
  rw [hfed] at hrow
  have hheader₀ : m₀.screen.header = m₁.screen.header.check number e := by
    rw [hscreen, ← hheader]
    simp only [Screen.check, hsel₀]
  have hlook : m.screen.header side = (m₀.screen.header.looks number e datas) side :=
    congrFun (header_of_run h₀ (hsub.trans hsub₁) hrun hdatas hsel₀) side
  have hseen := h₀.header e hsel₀ side
  refine ⟨_, hrow, fun hchanged => ?_, fun hsame => ?_⟩
  · -- header and row have seen the same price, and see the same ones
    obtain ⟨r, hr, hne⟩ := hchanged
    have hrowSeen : (cells side).seen = e.price side := h₀.seen_row he₀ hcells side
    rw [hlook, RateCells.looks, RateCells.looks,
      Watch.looks_eq_of_changed (hseen.trans hrowSeen.symm)]
    exact ⟨_, List.mem_map_of_mem hr, by rw [hseen]; exact hne⟩
  · rw [hlook, RateCells.looks, Watch.looks_mark_of_unchanged, hheader₀]
    · rw [RateCells.check, AppRate.check, Watch.look, h₁.header p hp side]
    · rw [hseen]
      exact List.forall_mem_map.mpr hsame

end

end KubemqWorkshop
