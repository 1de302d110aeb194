import KubemqWorkshop.NumberPipe
import KubemqWorkshop.Pass
import KubemqWorkshop.Screen
import Mathlib.Data.List.ReduceOption

/-!
# What is drawn (`kubemq-rate-client`)

Angular checks the views of the main page one after the other: the rows of the rate
bar, the header of the chart, the chart. A view first tells its components of their
values, then draws its own texts and images, then has the views of its components
checked. In a price component that is where the number pipe stands, and the pipe
throws on a price that is no number. Nothing catches this before the end of the check:
what comes later keeps what it showed, until a check gets there. The pipe has taken note
of the price by then and is not asked about it again, so the next check gets further
(`RateView.draw_draw_snd`).

A check goes through exactly when the pipe can show every price that is new to it
(`Rendering.check_iff`). After every check that goes through, one row is highlighted,
the one the header and the button are about, and the icon of the button is right for
the rows whose activity is known (`icon_matches_button_iff`). Where all prices can be
shown, every check goes through, and what is drawn is what the components are told
(`follows_of_run`), so what the module `Screen` says of marks can be seen; for the header
this is `header_color_after_selection`.
-/

namespace KubemqWorkshop

/-! ## The views -/

/-- `app-rate` and its view. -/
structure RateView where
  /-- the value it was told of last, and its colour -/
  told : AppRate
  /-- the colour of the label -/
  color : Option Color
  /-- the value the pipe was asked about last -/
  piped : Option (Option Json)
  /-- the text of the label -/
  text : Option String

/-- The two price components of a row, or of the header. -/
abbrev CellViews := Side → RateView

/-- A row of the rate bar. -/
structure RowView where
  /-- it has the class `selected` -/
  selected : Bool
  cells : CellViews

/-- The header of the chart. -/
structure HeaderView where
  /-- the name in the label -/
  name : String
  /-- the image on the button is `Stop_BTN.png` -/
  stopIcon : Bool
  cells : CellViews

/-- What is drawn of the main page. -/
structure Rendering where
  /-- the place of `selectedRate`, the rate bar's own -/
  selectedRate : ℕ
  rows : List RowView
  header : HeaderView
  /-- the chart has the opacity 0.3 -/
  faded : Bool

/-- Its view before the first check. -/
def RateView.new : RateView := ⟨.new, none, none, none⟩

/-- The page before the first check. -/
def Rendering.new : Rendering where
  selectedRate := 0
  rows := getRatesList.map fun _ => ⟨false, fun _ => .new⟩
  header := ⟨"", false, fun _ => .new⟩
  faded := false

/-! ## The check -/

section

variable {ν : Type} [LT ν] [DecidableLT ν] (number : Option Json → ν)
  (numberText : Json → Option String)

/-- The component is told of its value. -/
def RateView.tell (v : RateView) (value : Option Json) : RateView :=
  { v with told := v.told.check number value }

/-- The text of the label, which the pipe makes of the value unless it is the one it was
asked about last; `false` when the pipe throws. It has taken note of the value then. -/
def RateView.pipe (v : RateView) : RateView × Bool :=
  if v.piped.map bindingKey = some (bindingKey v.told.seen) then (v, true)
  else
    match transform numberText v.told.seen with
    | some text => ({ v with piped := some v.told.seen, text := text }, true)
    | none => ({ v with piped := some v.told.seen }, false)

/-- A check of its view: the colour, and the text. -/
def RateView.draw (v : RateView) : RateView × Bool :=
  { v with color := some v.told.mark }.pipe numberText

/-- Both components are told of their values. -/
def CellViews.tell (cells : CellViews) (e : Rate) : CellViews :=
  fun side => (cells side).tell number (e.price side)

/-- The views of both components are checked, the ask first. -/
def CellViews.draw (cells : CellViews) : CellViews × Bool :=
  let sell := (cells .sell).draw numberText
  let buy := (cells .buy).draw numberText
  if sell.2 then (fun | .sell => sell.1 | .buy => buy.1, buy.2)
  else (fun | .sell => sell.1 | .buy => cells .buy, false)

/-- A check of a row, given the name of the selected one. -/
def RowView.check (selectedName : Option String) (row : RowView) (e : Rate) : RowView × Bool :=
  let cells := (row.cells.tell number e).draw numberText
  (⟨some e.name == selectedName, cells.1⟩, cells.2)

/-- A check of the header. -/
def HeaderView.check (header : HeaderView) (e : Rate) : HeaderView × Bool :=
  let cells := (header.cells.tell number e).draw numberText
  (⟨e.name, e.stopIcon, cells.1⟩, cells.2)

/-- A check of the page, as far as it gets; `false` when the pipe throws. -/
def Rendering.check (d : Dashboard ν) (v : Rendering) : Rendering × Bool :=
  let selectedName := d.rates[v.selectedRate]?.map Rate.name
  let rows := pass (RowView.check number numberText selectedName) v.rows d.rates
  if rows.2 then
    match d.selected with
    | none => ({ v with rows := rows.1 }, false)
    | some e =>
      let header := v.header.check number numberText e
      if header.2 then
        ({ v with rows := rows.1, header := header.1, faded := e.faded }, true)
      else ({ v with rows := rows.1, header := header.1 }, false)
  else ({ v with rows := rows.1 }, false)

/-- The rate service and what is drawn. -/
structure RenderedPage (ν : Type) where
  dashboard : Dashboard ν
  screen : Rendering
  /-- the last check went through -/
  checked : Bool

namespace RenderedPage

/-- A check after the rate service has got where it is. -/
def refresh (d : Dashboard ν) (v : Rendering) : RenderedPage ν :=
  ⟨d, (v.check number numberText d).1, (v.check number numberText d).2⟩

/-- The page after its first check. -/
def init [Zero ν] : RenderedPage ν := refresh number numberText .init .new

/-- One event, and the check after it. There is one also after an event that is none of
the rate service, such as a click on the button or the answer to it: `none`. -/
def step [Zero ν] (m : RenderedPage ν) : Option DashboardEvent → Option (RenderedPage ν)
  | none => some (refresh number numberText m.dashboard m.screen)
  | some (.feed data) =>
    (m.dashboard.step number (.feed data)).map fun d => refresh number numberText d m.screen
  | some (.select i) =>
    (m.dashboard.step number (.select i)).map fun d =>
      refresh number numberText d { m.screen with selectedRate := i }

/-- The row has the class `selected`. -/
def highlighted (m : RenderedPage ν) (i : ℕ) : Bool := m.screen.rows[i]?.any RowView.selected

end RenderedPage

/-- The main page as it is drawn, as a machine. -/
def renderedPage [Zero ν] : Machine (RenderedPage ν) (Option DashboardEvent) :=
  ⟨RenderedPage.step number numberText⟩

end

/-! ## One check -/

section

variable {ν : Type} [LT ν] [DecidableLT ν] {number : Option Json → ν}
  {numberText : Json → Option String}

/-- The value is new to the pipe. -/
def RateView.Due (v : RateView) : Prop := v.piped.map bindingKey ≠ some (bindingKey v.told.seen)

/-- The text is what the pipe made of the value it was asked about last. -/
def RateView.Ready (numberText : Json → Option String) (v : RateView) : Prop :=
  ∀ value, v.piped = some value → transform numberText value = some v.text

/-- The view shows what its component was told. -/
structure RateView.Shows (numberText : Json → Option String) (v : RateView) : Prop where
  color : v.color = some v.told.mark
  text : ∃ value, v.piped = some value ∧ bindingKey value = bindingKey v.told.seen ∧
    transform numberText value = some v.text

theorem RateView.Shows.ready {v : RateView} (h : v.Shows numberText) : v.Ready numberText := by
  obtain ⟨value, hpiped, -, htext⟩ := h.text
  intro value' hpiped'
  obtain rfl := Option.some.inj (hpiped.symm.trans hpiped')
  exact htext

namespace RateView

variable (v : RateView)

theorem draw_told : (v.draw numberText).1.told = v.told := by
  rw [draw, pipe]
  split
  · rfl
  · split <;> rfl

/-- The view is drawn unless its value is new and the pipe throws on it. -/
theorem draw_snd_iff :
    (v.draw numberText).2 = true ↔ (v.Due → (transform numberText v.told.seen).isSome) := by
  rw [draw, pipe]
  split
  · rename_i hsame
    exact ⟨fun _ hdue => absurd hsame hdue, fun _ => rfl⟩
  · rename_i hdue
    rcases htransform : transform numberText v.told.seen with - | text
    · exact ⟨fun h => absurd h Bool.false_ne_true, fun h => h hdue⟩
    · exact ⟨fun _ _ => rfl, fun _ => rfl⟩

/-- A price stops no view twice. -/
theorem draw_draw_snd : ((v.draw numberText).1.draw numberText).2 = true := by
  rw [draw_snd_iff]
  intro hdue
  refine absurd ?_ hdue
  rw [draw_told, draw, pipe]
  split
  · rename_i hsame
    exact hsame
  · split <;> rfl

variable {v}

/-- A view that is drawn shows what its component was told. -/
theorem shows_draw (hready : v.Ready numberText) (h : (v.draw numberText).2 = true) :
    (v.draw numberText).1.Shows numberText := by
  have hshown := v.draw_snd_iff.mp h
  rw [draw, pipe]
  split
  · rename_i hsame
    obtain ⟨value, hpiped, hkey⟩ := Option.map_eq_some_iff.mp hsame
    exact ⟨rfl, value, hpiped, hkey, hready value hpiped⟩
  · rename_i hdue
    obtain ⟨text, htransform⟩ := Option.isSome_iff_exists.mp (hshown hdue)
    simp only [htransform]
    exact ⟨rfl, _, rfl, rfl, htransform⟩

end RateView

namespace CellViews

variable (cells : CellViews) (e : Rate)

theorem draw_told (side : Side) :
    ((cells.draw numberText).1 side).told = (cells side).told := by
  rw [draw]
  split
  · cases side <;> exact RateView.draw_told _
  · cases side with
    | sell => exact RateView.draw_told _
    | buy => rfl

theorem draw_snd_iff :
    (cells.draw numberText).2 = true ↔ ∀ side, ((cells side).draw numberText).2 = true := by
  rw [draw]
  split
  · rename_i hsell
    refine ⟨fun hbuy side => ?_, fun h => h .buy⟩
    cases side with
    | sell => exact hsell
    | buy => exact hbuy
  · rename_i hsell
    exact ⟨fun h => absurd h Bool.false_ne_true, fun h => absurd (h .sell) hsell⟩

theorem draw_fst (h : (cells.draw numberText).2 = true) (side : Side) :
    (cells.draw numberText).1 side = ((cells side).draw numberText).1 := by
  rw [draw, if_pos ((cells.draw_snd_iff).mp h .sell)]
  cases side <;> rfl

/-- The prices of the row that are new to the pipe can be shown. -/
def CanShow (number : Option Json → ν) (numberText : Json → Option String) : Prop :=
  ∀ side, (cells.tell number e side).Due → (transform numberText (e.price side)).isSome

theorem draw_tell_snd_iff :
    ((cells.tell number e).draw numberText).2 = true ↔ cells.CanShow e number numberText := by
  rw [draw_snd_iff]
  exact forall_congr' fun side => RateView.draw_snd_iff _

end CellViews

theorem Rendering.check_snd_iff {d : Dashboard ν} {v : Rendering} {e : Rate}
    (he : d.selected = some e) : (v.check number numberText d).2 = true ↔
      (pass (RowView.check number numberText (d.rates[v.selectedRate]?.map Rate.name)) v.rows
        d.rates).2 = true ∧ (v.header.check number numberText e).2 = true := by
  simp only [Rendering.check, he]
  split
  · rename_i hrows
    split
    · rename_i hheader
      exact ⟨fun _ => ⟨hrows, hheader⟩, fun _ => rfl⟩
    · rename_i hheader
      exact ⟨fun h => absurd h Bool.false_ne_true, fun h => absurd h.2 hheader⟩
  · rename_i hrows
    exact ⟨fun h => absurd h Bool.false_ne_true, fun h => absurd h.1 hrows⟩

/-- **A check goes through** exactly when the pipe can show every price that is new to it. -/
theorem Rendering.check_iff {d : Dashboard ν} {v : Rendering} {e : Rate}
    (he : d.selected = some e) : (v.check number numberText d).2 = true ↔
      (∀ p ∈ v.rows.zip d.rates, p.1.cells.CanShow p.2 number numberText) ∧
        v.header.cells.CanShow e number numberText := by
  rw [Rendering.check_snd_iff he, pass_snd_iff]
  refine and_congr (forall₂_congr fun p _ => ?_) (CellViews.draw_tell_snd_iff _ e)
  exact p.1.cells.draw_tell_snd_iff p.2

/-- A check that goes through has drawn everything. -/
theorem Rendering.check_fst {d : Dashboard ν} {v : Rendering} {e : Rate}
    (he : d.selected = some e) (hlength : v.rows.length = d.rates.length)
    (h : (v.check number numberText d).2 = true) :
    (v.check number numberText d).1 =
      { v with
        rows := List.zipWith (fun row e => (row.check number numberText
          (d.rates[v.selectedRate]?.map Rate.name) e).1) v.rows d.rates
        header := (v.header.check number numberText e).1
        faded := e.faded } := by
  obtain ⟨hrows, hheader⟩ := (Rendering.check_snd_iff he).mp h
  rw [← pass_fst hlength hrows]
  simp only [Rendering.check, he, hrows, hheader, if_true]

/-- A check that is given up keeps the rows and the selection, too. -/
theorem Rendering.check_keeps (number : Option Json → ν) (numberText : Json → Option String)
    (d : Dashboard ν) (v : Rendering) :
    (v.check number numberText d).1.selectedRate = v.selectedRate ∧
      (v.check number numberText d).1.rows.length = v.rows.length := by
  have hrows : (v.check number numberText d).1.rows = (pass (RowView.check number numberText
      (d.rates[v.selectedRate]?.map Rate.name)) v.rows d.rates).1 ∧
        (v.check number numberText d).1.selectedRate = v.selectedRate := by
    simp only [Rendering.check]
    split
    · split
      · exact ⟨rfl, rfl⟩
      · split <;> exact ⟨rfl, rfl⟩
    · exact ⟨rfl, rfl⟩
  exact ⟨hrows.2, by rw [hrows.1, length_pass]⟩

end

/-! ## The button -/

section

variable {ν : Type} [Zero ν] [LT ν] [DecidableLT ν] {number : Option Json → ν}
  {numberText : Json → Option String} {m m' : RenderedPage ν}

/-- What a check that went through has drawn. -/
structure RenderedPage.Drawn (m : RenderedPage ν) (e : Rate) : Prop where
  highlighted : ∀ i, m.highlighted i = true ↔ i = m.dashboard.selectedItem
  name : m.screen.header.name = e.name
  stopIcon : m.screen.header.stopIcon = e.stopIcon
  faded : m.screen.faded = e.faded

omit [Zero ν] in
/-- **After a check that goes through** the selected row is drawn. -/
theorem RenderedPage.drawn_refresh {d : Dashboard ν} (hlisted : d.Listed) {v : Rendering}
    (hselected : v.selectedRate = d.selectedItem) (hlength : v.rows.length = d.rates.length)
    (hchecked : (refresh number numberText d v).checked = true) {e : Rate}
    (he : d.selected = some e) : (refresh number numberText d v).Drawn e := by
  have hfst := Rendering.check_fst he hlength hchecked
  have hname : d.rates[v.selectedRate]?.map Rate.name = some e.name := by
    rw [hselected, Dashboard.selected_row he, Option.map_some]
  refine ⟨fun i => ?_, ?_, ?_, ?_⟩
  · simp only [highlighted, refresh, hfst, List.getElem?_zipWith, hname]
    rcases hi : d.rates[i]? with - | r
    · have hnone : i ≠ d.selectedItem := by
        rintro rfl
        rw [Dashboard.selected_row he] at hi
        cases hi
      rcases v.rows[i]? with - | row <;> simp [hnone]
    · obtain ⟨row, hrow⟩ : ∃ row, v.rows[i]? = some row := by
        have hlt : i < v.rows.length := by
          rw [hlength]
          exact (List.getElem?_eq_some_iff.mp hi).1
        exact ⟨_, List.getElem?_eq_getElem hlt⟩
      rw [hrow, ← hlisted.name_eq_iff hi (Dashboard.selected_row he)]
      simp [RowView.check]
  · simp only [refresh, hfst]
    rfl
  · simp only [refresh, hfst]
    rfl
  · simp only [refresh, hfst]

/-- What every event keeps, whether its check goes through or not. -/
structure RenderedPage.Kept (number : Option Json → ν) (es : List (Option DashboardEvent))
    (m : RenderedPage ν) : Prop where
  run_eq : (KubemqWorkshop.dashboard number).run .init es.reduceOption = some m.dashboard
  selectedRate : m.screen.selectedRate = m.dashboard.selectedItem
  length_rows : m.screen.rows.length = m.dashboard.rates.length
  drawn : m.checked = true → ∀ e, m.dashboard.selected = some e → m.Drawn e

theorem RenderedPage.kept_refresh {es : List (Option DashboardEvent)} {d : Dashboard ν}
    (hrun : (KubemqWorkshop.dashboard number).run .init es.reduceOption = some d) {v : Rendering}
    (hselected : v.selectedRate = d.selectedItem) (hlength : v.rows.length = d.rates.length) :
    (refresh number numberText d v).Kept number es := by
  obtain ⟨hkeptSelected, hkeptLength⟩ :=
    Rendering.check_keeps number numberText d v
  exact ⟨hrun, hkeptSelected.trans hselected, hkeptLength.trans hlength,
    fun hchecked e he => drawn_refresh (listed_of_run hrun) hselected hlength hchecked he⟩

theorem RenderedPage.kept_of_run {es : List (Option DashboardEvent)}
    (hrun : (renderedPage number numberText).run (.init number numberText) es = some m) :
    m.Kept number es := by
  refine (renderedPage number numberText).run_induction
    (P := fun es m => RenderedPage.Kept number es m) ?_ ?_ hrun
  · have hstart : (KubemqWorkshop.dashboard number).run .init [] = some .init := rfl
    exact kept_refresh hstart rfl rfl
  · intro es m e m' _ ih hs
    cases e with
    | none =>
      obtain rfl := Option.some.inj hs
      refine kept_refresh ?_ ih.selectedRate ih.length_rows
      rw [List.reduceOption_append, List.reduceOption_singleton, Option.toList_none,
        List.append_nil]
      exact ih.run_eq
    | some e =>
      have hrun' : ∀ {d : Dashboard ν}, m.dashboard.step number e = some d →
          (KubemqWorkshop.dashboard number).run .init (es ++ [some e]).reduceOption = some d := by
        intro d hd
        rw [List.reduceOption_append, List.reduceOption_singleton, Option.toList_some]
        exact (Machine.run_concat_eq_some _).mpr ⟨m.dashboard, ih.run_eq, hd⟩
      have hlisted := listed_of_run ih.run_eq
      cases e with
      | feed data =>
        obtain ⟨d, hd, rfl⟩ := Option.map_eq_some_iff.mp hs
        have hselected := (Dashboard.step_feed_active hlisted number hd).1
        refine kept_refresh (hrun' hd) (ih.selectedRate.trans hselected.symm) ?_
        rw [ih.length_rows, hlisted.length_rates, (hlisted.step hd).length_rates]
      | select i =>
        obtain ⟨d, hd, rfl⟩ := Option.map_eq_some_iff.mp hs
        refine kept_refresh (hrun' hd) (Dashboard.step_select number hd).1.symm ?_
        exact ih.length_rows.trans (by rw [hlisted.length_rates, (hlisted.step hd).length_rates])

/-- Every run of the rate service is drawn, whatever else happens. -/
theorem exists_renderedPage_run (number : Option Json → ν) (numberText : Json → Option String)
    (m₀ : RenderedPage ν) {es : List (Option DashboardEvent)} {d : Dashboard ν}
    (hrun : (dashboard number).run m₀.dashboard es.reduceOption = some d) :
    ∃ m, (renderedPage number numberText).run m₀ es = some m ∧ m.dashboard = d := by
  induction es generalizing m₀ with
  | nil => exact ⟨m₀, rfl, Option.some.inj hrun⟩
  | cons e es ih =>
    cases e with
    | none => exact ih (.refresh number numberText m₀.dashboard m₀.screen) hrun
    | some e =>
      obtain ⟨d₁, hd₁, hrest⟩ := Option.bind_eq_some_iff.mp hrun
      obtain ⟨m₁, hs, rfl⟩ : ∃ m₁, m₀.step number numberText (some e) = some m₁ ∧
          m₁.dashboard = d₁ := by
        cases e with
        | feed data => exact ⟨_, Option.map_eq_some_iff.mpr ⟨d₁, hd₁, rfl⟩, rfl⟩
        | select i => exact ⟨_, Option.map_eq_some_iff.mpr ⟨d₁, hd₁, rfl⟩, rfl⟩
      obtain ⟨m, hm, hd⟩ := ih m₁ hrest
      exact ⟨m, Option.bind_eq_some_iff.mpr ⟨m₁, hs, hm⟩, hd⟩

/-- **The icon and the button**: whatever messages come and whatever is clicked, after
every check that goes through one row is highlighted, the one the header and the button
are about, and the chart is faded just when a click starts the instrument. The icon says
what a click does, if the row came with an activity or a message was applied with it
selected; if not it says stop, and a click starts. -/
theorem icon_matches_button_iff (number : Option Json → ν) (numberText : Json → Option String)
    (es : List (Option DashboardEvent)) {m : RenderedPage ν}
    (hrun : (renderedPage number numberText).run (.init number numberText) es = some m)
    (hchecked : m.checked = true) :
    ∃ e, m.dashboard.selected = some e ∧ m.screen.header.name = e.name ∧
      (∀ i, m.highlighted i = true ↔ i = m.dashboard.selectedItem) ∧
      (m.screen.faded = true ↔ m.dashboard.Posts "true") ∧
      (ActivityKnown es.reduceOption m.dashboard.selectedItem e →
        (m.screen.header.stopIcon = true ↔ m.dashboard.Posts "false")) ∧
      (¬ ActivityKnown es.reduceOption m.dashboard.selectedItem e →
        m.screen.header.stopIcon = true ∧ m.dashboard.Posts "true") := by
  have hkept := RenderedPage.kept_of_run hrun
  obtain ⟨e, he⟩ := (listed_of_run hkept.run_eq).selected_eq
  have hdrawn := hkept.drawn hchecked e he
  obtain ⟨hfaded, hknown, hunknown⟩ := button_of_run hkept.run_eq he
  rw [hdrawn.faded, hdrawn.stopIcon]
  exact ⟨e, he, hdrawn.name, hdrawn.highlighted, hfaded, hknown, hunknown⟩

end

/-- A page that has just been drawn: EURUSD came without an activity. -/
theorem icon_matches_button_iff_start :
    ∃ m : RenderedPage ℚ, m.checked = true ∧ m.screen.header.name = "EURUSD" ∧
      (∀ i, m.highlighted i = true ↔ i = 0) ∧ m.screen.header.stopIcon = true ∧
      m.dashboard.Posts "true" := by
  have hchecked : (RenderedPage.init sampleNumber readText).checked = true := by decide +kernel
  obtain ⟨e, he, hname, hhighlighted, -, -, hunknown⟩ :=
    icon_matches_button_iff sampleNumber readText [] rfl hchecked
  obtain rfl : getRatesList[0] = e := Option.some.inj he
  have hlast : ¬ ActivityKnown [] 0 getRatesList[0] := by decide
  exact ⟨_, hchecked, hname, hhighlighted, hunknown hlast⟩

/-! ## Where every price can be shown -/

/-- The pipe can show the prices of a message. -/
def PricesShown (numberText : Json → Option String) (data : String) : Prop :=
  ∀ i ∈ listedInstruments, ∀ t, listing i.1 data = some t →
    (transform numberText (t.get? "Ask")).isSome ∧ (transform numberText (t.get? "Bid")).isSome

/-- The first report comes with prices, as texts of numbers. -/
theorem pricesShown_of_firstReport {data : String} (h : feedEntries data = some firstReport) :
    PricesShown readText data := by
  have hall : ∀ t ∈ firstReport, (transform readText (t.get? "Ask")).isSome ∧
      (transform readText (t.get? "Bid")).isSome := by decide +kernel
  intro i _ t ht
  rw [listing, h, Option.bind_some, List.findRev?_eq_find?_reverse] at ht
  exact hall t (List.mem_reverse.mp (List.mem_of_find?_eq_some ht))

/-- The pipe can show the prices of the table. -/
def Dashboard.Shown {ν : Type} (numberText : Json → Option String) (d : Dashboard ν) : Prop :=
  ∀ e ∈ d.rates, ∀ side, (transform numberText (e.price side)).isSome

section

variable {ν : Type} {numberText : Json → Option String}

/-- It can if it can show the one price that two of the rows come with. -/
theorem Dashboard.shown_init [Zero ν]
    (h : (transform numberText (some (.str "1411.46471002079"))).isSome) :
    (Dashboard.init : Dashboard ν).Shown numberText := by
  have hempty : (transform numberText (some (.str ""))).isSome := rfl
  intro e he side
  have hbuiltIn : ∀ e ∈ getRatesList, ∀ side, e.price side = some (.str "") ∨
      e.price side = some (.str "1411.46471002079") := by
    intro e he side
    cases side <;> revert e <;> simp [getRatesList, Rate.price]
  rcases hbuiltIn e he side with hprice | hprice
  · rw [hprice]
    exact hempty
  · rw [hprice]
    exact h

theorem Rate.shown_quoted {data : String} (hdata : PricesShown numberText data) {e : Rate}
    (he : e.identity ∈ listedInstruments)
    (hshown : ∀ side, (transform numberText (e.price side)).isSome) (side : Side) :
    (transform numberText ((e.quoted data).price side)).isSome := by
  rw [quoted]
  cases hlisting : listing e.id data with
  | none => exact hshown side
  | some t =>
    obtain ⟨hask, hbid⟩ := hdata e.identity he t hlisting
    cases side with
    | sell => exact hask
    | buy => exact hbid

/-- One event keeps it. -/
theorem Dashboard.Shown.step [Zero ν] {number : Option Json → ν} {d d' : Dashboard ν}
    (h : d.Shown numberText) (hlisted : d.Listed) (hsub : d.subscribed = true)
    {ev : DashboardEvent}
    (hev : ∀ data ∈ feeds [ev], goesThrough data = true ∧ PricesShown numberText data)
    (hs : d.step number ev = some d') : d'.Shown numberText ∧ d'.subscribed = true := by
  cases ev with
  | select i =>
    obtain ⟨-, hsub', hrates, -⟩ := Dashboard.step_select number hs
    refine ⟨?_, hsub'.trans hsub⟩
    rw [Dashboard.Shown, hrates]
    exact h
  | feed data =>
    obtain ⟨hgoes, hprices⟩ := hev data (List.mem_singleton_self data)
    obtain ⟨sel, hsel⟩ := hlisted.selected_eq
    obtain ⟨-, hsub', hquotes, -⟩ := Dashboard.step_feed hlisted hsub number hgoes hsel hs
    refine ⟨fun e' he' side => ?_, hsub'⟩
    have hmem : e'.quote ∈ (d.rates.map (Rate.quoted data)).map Rate.quote := by
      rw [← hquotes]
      exact List.mem_map_of_mem he'
    rw [List.map_map, List.mem_map] at hmem
    obtain ⟨e, he, hquote⟩ := hmem
    have hidentity : e.identity ∈ listedInstruments := by
      rw [← hlisted.identities]
      exact List.mem_map_of_mem he
    rw [← e'.quotePrice_quote, ← hquote, Function.comp_apply, Rate.quotePrice_quote]
    exact Rate.shown_quoted hprices hidentity (h e he) side

/-- Then the check goes through. -/
theorem Rendering.check_of_shown [LT ν] [DecidableLT ν] (number : Option Json → ν)
    {d : Dashboard ν} (hlisted : d.Listed) (hshown : d.Shown numberText) (v : Rendering) :
    (v.check number numberText d).2 = true := by
  obtain ⟨e, he⟩ := hlisted.selected_eq
  rw [Rendering.check_iff he]
  refine ⟨fun p hp side _ => hshown p.2 (List.of_mem_zip hp).2 side, fun side _ => ?_⟩
  exact hshown e (List.mem_of_getElem? (Dashboard.selected_row he)) side

end

/-! ## What is drawn is what is told -/

/-- The components have been told what those of the screen have. -/
structure Rendering.Tells (numberText : Json → Option String) (r : Rendering) (v : Screen) :
    Prop where
  selectedRate : r.selectedRate = v.selectedRate
  rows : r.rows.map (fun row side => (row.cells side).told) = v.rows
  header : (fun side => (r.header.cells side).told) = v.header
  rows_ready : ∀ row ∈ r.rows, ∀ side, (row.cells side).Ready numberText
  header_ready : ∀ side, (r.header.cells side).Ready numberText

/-- And it is drawn. -/
structure Rendering.Draws (numberText : Json → Option String) (r : Rendering) (v : Screen) :
    Prop extends r.Tells numberText v where
  rows_show : ∀ row ∈ r.rows, ∀ side, (row.cells side).Shows numberText
  header_shows : ∀ side, (r.header.cells side).Shows numberText

section

variable {ν : Type} [LT ν] [DecidableLT ν] {number : Option Json → ν}
  {numberText : Json → Option String} {m m₁ : RenderedPage ν}

/-- A check that goes through draws what it tells. -/
theorem CellViews.shows_draw {cells : CellViews} {e : Rate}
    (hready : ∀ side, (cells side).Ready numberText)
    (h : ((cells.tell number e).draw numberText).2 = true) (side : Side) :
    (((cells.tell number e).draw numberText).1 side).Shows numberText := by
  rw [CellViews.draw_fst _ h]
  exact RateView.shows_draw (v := cells.tell number e side) (hready side)
    ((CellViews.draw_snd_iff _).mp h side)

/-- **The page as drawn follows the page as told**, check by check. -/
theorem Rendering.draws_check {d : Dashboard ν} {r : Rendering} {v : Screen}
    (htells : r.Tells numberText v) (hlisted : d.Listed) (hlength : r.rows.length = d.rates.length)
    (h : (r.check number numberText d).2 = true) :
    (r.check number numberText d).1.Draws numberText (v.check number d) := by
  obtain ⟨e, he⟩ := hlisted.selected_eq
  obtain ⟨hrows, hheader⟩ := (Rendering.check_snd_iff he).mp h
  rw [Rendering.check_fst he hlength h]
  have hrowsShow : ∀ row ∈ List.zipWith (fun row e => (RowView.check number numberText
      (d.rates[r.selectedRate]?.map Rate.name) row e).1) r.rows d.rates,
        ∀ side, (row.cells side).Shows numberText := by
    intro row hrow side
    obtain ⟨p, hp, rfl⟩ : ∃ p ∈ r.rows.zip d.rates, (RowView.check number numberText
        (d.rates[r.selectedRate]?.map Rate.name) p.1 p.2).1 = row := by
      rw [← List.mem_map, List.map_zip_eq_zipWith]
      exact hrow
    exact CellViews.shows_draw (htells.rows_ready p.1 (List.of_mem_zip hp).1)
      ((pass_snd_iff _ _).mp hrows p hp) side
  have hheaderShows : ∀ side,
      ((r.header.check number numberText e).1.cells side).Shows numberText :=
    CellViews.shows_draw htells.header_ready hheader
  refine ⟨⟨htells.selectedRate, ?_, ?_, fun row hrow side => (hrowsShow row hrow side).ready,
    fun side => (hheaderShows side).ready⟩, hrowsShow, hheaderShows⟩
  · simp only [Screen.check, ← htells.rows, List.map_zipWith, List.zipWith_map_left]
    refine congrArg (fun f => List.zipWith f r.rows d.rates) (funext fun row => funext fun e => ?_)
    exact funext fun side => CellViews.draw_told _ side
  · simp only [Screen.check, he, ← htells.header]
    exact funext fun side => CellViews.draw_told _ side

variable (number numberText) in
/-- The page as drawn is the page as told. -/
structure RenderedPage.Follows (m : RenderedPage ν) (p : MainPage ν) : Prop where
  dashboard : m.dashboard = p.dashboard
  inStep : p.InStep
  shown : p.dashboard.Shown numberText
  subscribed : p.dashboard.subscribed = true
  checked : m.checked = true
  draws : m.screen.Draws numberText p.screen

theorem Rendering.Tells.length_rows {r : Rendering} {v : Screen} (h : r.Tells numberText v) :
    r.rows.length = v.rows.length := by
  rw [← h.rows, List.length_map]

/-- A check after the same event. -/
theorem RenderedPage.follows_refresh {r : Rendering} {v : Screen} {d : Dashboard ν}
    (htells : r.Tells numberText v) (hinStep : MainPage.InStep ⟨d, v.check number d⟩)
    (hlength : v.rows.length = d.rates.length) (hshown : d.Shown numberText)
    (hsub : d.subscribed = true) :
    (refresh number numberText d r).Follows numberText ⟨d, v.check number d⟩ := by
  have hchecked := Rendering.check_of_shown number hinStep.listed hshown r
  exact ⟨rfl, hinStep, hshown, hsub, hchecked, Rendering.draws_check htells hinStep.listed
    (htells.length_rows.trans hlength) hchecked⟩

/-- An event that is none of the rate service draws nothing new. -/
theorem RenderedPage.Follows.look {p : MainPage ν} (h : m.Follows numberText p) :
    (refresh number numberText m.dashboard m.screen).Follows numberText p := by
  obtain ⟨d, screen, checked⟩ := m
  obtain rfl : d = p.dashboard := h.dashboard
  have hcheck := h.inStep.check_eq number
  have hsame : (⟨p.dashboard, p.screen.check number p.dashboard⟩ : MainPage ν) = p := by
    rw [hcheck]
  have hinStep : MainPage.InStep ⟨p.dashboard, p.screen.check number p.dashboard⟩ := by
    rw [hsame]
    exact h.inStep
  have hfollows := follows_refresh h.draws.toTells hinStep h.inStep.length_rows h.shown h.subscribed
  rwa [hsame] at hfollows

variable [Zero ν]

/-- One event of the rate service. -/
theorem RenderedPage.Follows.step {p : MainPage ν} (h : m.Follows numberText p)
    {ev : DashboardEvent}
    (hev : ∀ data ∈ feeds [ev], goesThrough data = true ∧ PricesShown numberText data)
    (hs : m.step number numberText (some ev) = some m₁) :
    ∃ p₁, p.step number ev = some p₁ ∧ m₁.Follows numberText p₁ := by
  obtain ⟨d, screen, checked⟩ := m
  obtain rfl : d = p.dashboard := h.dashboard
  -- a click selects in both before the check
  obtain ⟨d₁, r, hd, rfl, v, hv, htells, hrows⟩ : ∃ d₁ r, p.dashboard.step number ev = some d₁ ∧
      refresh number numberText d₁ r = m₁ ∧ ∃ v : Screen,
        p.step number ev = some ⟨d₁, v.check number d₁⟩ ∧ r.Tells numberText v ∧
          v.rows = p.screen.rows := by
    cases ev with
    | feed data =>
      obtain ⟨d₁, hd, hm⟩ := Option.map_eq_some_iff.mp hs
      exact ⟨d₁, _, hd, hm, p.screen, Option.map_eq_some_iff.mpr ⟨d₁, hd, rfl⟩,
        h.draws.toTells, rfl⟩
    | select i =>
      obtain ⟨d₁, hd, hm⟩ := Option.map_eq_some_iff.mp hs
      exact ⟨d₁, _, hd, hm, _, Option.map_eq_some_iff.mpr ⟨d₁, hd, rfl⟩,
        { h.draws.toTells with selectedRate := rfl }, rfl⟩
  obtain ⟨hshown, hsub⟩ := h.shown.step h.inStep.listed h.subscribed hev hd
  have hinStep := h.inStep.step hv
  refine ⟨_, hv, follows_refresh htells hinStep ?_ hshown hsub⟩
  rw [hrows, h.inStep.length_rows, h.inStep.listed.length_rates,
    (h.inStep.listed.step hd).length_rates]

/-- **Where every price can be shown** every check goes through, and what is drawn is
what the components are told. -/
theorem follows_of_run {es : List (Option DashboardEvent)} {m₀ : RenderedPage ν} {p₀ : MainPage ν}
    (h₀ : m₀.Follows numberText p₀)
    (hrun : (renderedPage number numberText).run m₀ es = some m)
    (hfeeds : ∀ data ∈ feeds es.reduceOption,
      goesThrough data = true ∧ PricesShown numberText data) :
    ∃ p, (mainPage number).run p₀ es.reduceOption = some p ∧ m.Follows numberText p := by
  induction es generalizing m₀ p₀ with
  | nil =>
    obtain rfl := Option.some.inj hrun
    exact ⟨p₀, rfl, h₀⟩
  | cons e es ih =>
    obtain ⟨m₁, hs, hrest⟩ := Option.bind_eq_some_iff.mp hrun
    cases e with
    | none =>
      obtain rfl := Option.some.inj hs
      exact ih h₀.look hrest hfeeds
    | some ev =>
      rw [List.reduceOption_cons_of_some] at hfeeds ⊢
      have hsplit : feeds (ev :: es.reduceOption) = feeds [ev] ++ feeds es.reduceOption :=
        List.filterMap_append (l := [ev])
      rw [hsplit, List.forall_mem_append] at hfeeds
      obtain ⟨p₁, hp₁, h₁⟩ := h₀.step hfeeds.1 hs
      obtain ⟨p, hp, hfollows⟩ := ih h₁ hrest hfeeds.2
      exact ⟨p, Option.bind_eq_some_iff.mpr ⟨p₁, hp₁, hp⟩, hfollows⟩

/-- Before the first check no pipe was asked. -/
theorem Rendering.tells_new : Rendering.new.Tells numberText Screen.new := by
  refine ⟨rfl, rfl, rfl, fun row hrow side => ?_, fun side value h => by cases h⟩
  obtain ⟨e, -, rfl⟩ := List.mem_map.mp hrow
  intro value h
  cases h

/-- The page after its first check. -/
theorem RenderedPage.follows_init
    (hbuiltIn : (transform numberText (some (.str "1411.46471002079"))).isSome) :
    (init number numberText : RenderedPage ν).Follows numberText (.init number) :=
  follows_refresh Rendering.tells_new (Screen.inStep_check Dashboard.listed_init rfl rfl) rfl
    (Dashboard.shown_init hbuiltIn) rfl

/-- **The colour in the header after a selection**, as long as messages go through and
the pipe can show their prices: once the price has changed it is that of the row. Until
then it compares the price with that of the row selected before; where the two are
equal, the header keeps the colour it had. -/
theorem header_color_after_selection (number : Option Json → ν)
    (numberText : Json → Option String) {es₁ es₂ : List (Option DashboardEvent)}
    {m₁ m : RenderedPage ν} {i : ℕ} {datas : List String}
    (hbuiltIn : (transform numberText (some (.str "1411.46471002079"))).isSome)
    (hrun₁ : (renderedPage number numberText).run (.init number numberText) es₁ = some m₁)
    (hrun₂ : (renderedPage number numberText).run m₁ es₂ = some m)
    (hes₂ : es₂.reduceOption = .select i :: datas.map .feed)
    (hfeeds : ∀ data ∈ feeds es₁.reduceOption ++ datas,
      goesThrough data = true ∧ PricesShown numberText data) {p e : Rate}
    (hp : m₁.dashboard.selected = some p) (he : m₁.dashboard.rates[i]? = some e) (side : Side) :
    ∃ row, m.screen.rows[i]? = some row ∧
      ((∃ r ∈ e.quotes datas, bindingKey (r.price side) ≠ bindingKey (e.price side)) →
        (m.screen.header.cells side).color = (row.cells side).color) ∧
      ((∀ r ∈ e.quotes datas, bindingKey (r.price side) = bindingKey (e.price side)) →
        (m.screen.header.cells side).color =
          if bindingKey (p.price side) = bindingKey (e.price side) then
            (m₁.screen.header.cells side).color
          else some (ngOnChanges number (p.price side) (e.price side))) := by
  have hfed : feeds es₂.reduceOption = datas := by
    rw [hes₂, feeds, List.filterMap_cons_none rfl, List.filterMap_map]
    exact List.filterMap_some
  obtain ⟨p₁, hp₁, hfollows₁⟩ := follows_of_run (RenderedPage.follows_init hbuiltIn) hrun₁
    fun data hdata => hfeeds data (List.mem_append_left _ hdata)
  obtain ⟨p₂, hp₂, hfollows₂⟩ := follows_of_run hfollows₁ hrun₂ fun data hdata =>
    hfeeds data (List.mem_append_right _ (hfed ▸ hdata))
  rw [hes₂] at hp₂
  rw [hfollows₁.dashboard] at hp he
  obtain ⟨cells, hcells, hchanged, hsame⟩ := header_mark_after_selection hp₁ hp₂
    (fun data hdata => (hfeeds data hdata).1) hp he side
  -- what the components are told can be seen
  obtain ⟨row, hrow, rfl⟩ : ∃ row, m.screen.rows[i]? = some row ∧
      (fun side => (row.cells side).told) = cells := by
    rw [← hfollows₂.draws.rows, List.getElem?_map] at hcells
    exact Option.map_eq_some_iff.mp hcells
  have hheader : ∀ {m : RenderedPage ν} {q : MainPage ν}, m.Follows numberText q →
      (m.screen.header.cells side).color = some (q.screen.header side).mark := by
    intro m q hfollows
    rw [(hfollows.draws.header_shows side).color, ← hfollows.draws.header]
  refine ⟨row, hrow, fun h => ?_, fun h => ?_⟩
  · rw [hheader hfollows₂, hchanged h,
      (hfollows₂.draws.rows_show row (List.mem_of_getElem? hrow) side).color]
  · rw [hheader hfollows₂, hheader hfollows₁, hsame h]
    split <;> rfl

end

/-- AUDUSD is selected before its first price comes. -/
theorem header_color_after_selection_firstReport :
    ∃ (m : RenderedPage ℚ) (row : RowView), m.screen.rows[1]? = some row ∧
      (m.screen.header.cells .sell).color = (row.cells .sell).color := by
  obtain ⟨data, hdata⟩ := exists_firstReport
  have hgoes := goesThrough_of_firstReport hdata
  have hshown : PricesShown readText data := pricesShown_of_firstReport hdata
  obtain ⟨d, hd⟩ := exists_run sampleNumber Dashboard.listed_init
    (.select 1 :: [data].map .feed) (by simp)
  let es : List (Option DashboardEvent) := [none, some (.select 1), some (.feed data), none]
  have hes : es.reduceOption = .select 1 :: [data].map .feed := rfl
  obtain ⟨m, hm, -⟩ := exists_renderedPage_run sampleNumber readText
    (.init sampleNumber readText) (hes ▸ hd)
  have hbuiltIn : (transform readText (some (.str "1411.46471002079"))).isSome := by
    decide +kernel
  have hstart : (renderedPage sampleNumber readText).run (.init sampleNumber readText) [] =
      some (.init sampleNumber readText) := rfl
  obtain ⟨row, hrow, hchanged, -⟩ := header_color_after_selection sampleNumber readText hbuiltIn
    hstart hm hes (List.forall_mem_singleton.mpr ⟨hgoes, hshown⟩)
    (p := getRatesList[0]) rfl (e := getRatesList[1]) rfl .sell
  have hlisting : listing getRatesList[1].id data =
      some (SenderMessageBody.mk 2 "AUDUSD" (some "1") (some "1")).toJson := by
    rw [listing, hdata]
    rfl
  refine ⟨m, row, hrow, hchanged ⟨_, List.mem_cons_self .., ?_⟩⟩
  rw [Rate.quoted, hlisting]
  decide

end KubemqWorkshop
