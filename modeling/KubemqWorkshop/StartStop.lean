import KubemqWorkshop.Feed

/-!
# The start/stop button

A click posts a command that asks for the opposite of the selected row's
activity. That flag is written by the listener, and only for the row selected at
the time, while prices are written for all rows; so what the button asks for
depends on the last message *applied with the row selected* (`run_active`), and
on its bid alone. It is the opposite of what the feed shows exactly when that
message and the last one applied agree (`startStop_opposite_iff`).
-/

namespace KubemqWorkshop

/-! ## The command -/

/-- What `startRate` posts. -/
structure SendRequest where
  requestID : String
  requestTypeData : ℕ
  clientID : String
  channel : String
  metadata : String
  body : String
  timeout : ℕ
  cacheKey : String
  cacheTtl : ℕ
  deriving DecidableEq, Repr

/-- The object in the body of a command. -/
def commandJson (e t : String) : Json := .obj [("Name", .str e), ("Active", .str t)]

/-- `startRate`; `none` when `btoa` throws. -/
def startRate (e t : String) : Option SendRequest :=
  (btoa (Json.stringify (commandJson e t))).map fun n =>
    { requestID := "some_id"
      requestTypeData := 1
      clientID := "kubemqmsmqclient"
      channel := "rateCMD"
      metadata := "some_metadata2"
      body := n
      timeout := 1000
      cacheKey := "some_key"
      cacheTtl := 10000 }

/-- `startStopRate`. -/
def startStopRate (e : Rate) : Option SendRequest :=
  startRate e.name (if e.active = some true then "false" else "true")

/-- The object a command carries. -/
def SendRequest.content (request : SendRequest) : Option Json :=
  (atob request.body).bind Json.parse

/-- A click on the button posts a command with this `Active`. -/
def Dashboard.Posts {ν : Type} (d : Dashboard ν) (active : String) : Prop :=
  ∃ e request, d.selected = some e ∧ startStopRate e = some request ∧
    request.content = some (commandJson e.name active)

/-- A posted command carries what it was made of. -/
theorem content_startRate {e t : String} {request : SendRequest}
    (h : startRate e t = some request) : request.content = some (commandJson e t) := by
  obtain ⟨n, hn, rfl⟩ := Option.map_eq_some_iff.mp h
  rw [SendRequest.content, atob_btoa hn, Option.bind_some, Json.parse_stringify]

/-- The names of the table can be posted. -/
theorem startRate_isSome :
    ∀ i ∈ listedInstruments, ∀ t ∈ ["true", "false"], (startRate i.2 t).isSome := by
  have h : listedInstruments.all (fun i => ["true", "false"].all fun t =>
      (Json.print (commandJson i.2 t)).all fun c => c.toNat < 256) = true := by decide +kernel
  intro i hi t ht
  rw [startRate, Option.isSome_map, btoa_isSome_iff]
  exact bytes_stringify (List.all_eq_true.mp (List.all_eq_true.mp h i hi) t ht)

/-- What a click posts. -/
theorem posts_iff {ν : Type} {d : Dashboard ν} (h : d.Listed) {e : Rate}
    (he : d.selected = some e) {active : String} :
    d.Posts active ↔ active = if e.active = some true then "false" else "true" := by
  have hname : (e.id, e.name) ∈ listedInstruments :=
    List.mem_of_getElem? (h.mem_listedInstruments he)
  obtain ⟨request, hrequest⟩ := Option.isSome_iff_exists.mp (startRate_isSome _ hname
    (if e.active = some true then "false" else "true") (by split <;> simp))
  have hcontent := content_startRate hrequest
  refine ⟨?_, ?_⟩
  · rintro ⟨e', request', he', hrequest', hactive⟩
    obtain rfl : e = e' := Option.some.inj (he.symm.trans he')
    obtain rfl : request = request' := Option.some.inj (hrequest.symm.trans hrequest')
    have heq := hactive.symm.trans hcontent
    simpa [commandJson] using heq
  · rintro rfl
    exact ⟨e, request, he, hrequest, hcontent⟩

/-! ## What the feed shows -/

/-- The last entry of a message that lists an instrument. -/
def listing (id : ℕ) (data : String) : Option Json :=
  (feedEntries data).bind fun entries =>
    entries.findRev? fun t => Json.isNumber id (t.get? "ID")

/-- The message lists the instrument with a bid that is not `null`. -/
def ShowsBid (id : ℕ) (data : String) : Prop :=
  ∃ t, listing id data = some t ∧ Json.isNull (t.get? "Bid") = false

/-- The message lists the instrument with an ask and a bid that are not `null`. -/
def ShowsPrices (id : ℕ) (data : String) : Prop :=
  ∃ t, listing id data = some t ∧ Json.isNull (t.get? "Ask") = false ∧
    Json.isNull (t.get? "Bid") = false

/-- The message lists all instruments. -/
def ListsAll (data : String) : Prop :=
  ∃ entries, feedEntries data = some entries ∧
    ∀ i ∈ listedInstruments, ∃ t ∈ entries, Json.isNumber i.1 (t.get? "ID") = true

/-- The messages of a history. -/
def feeds (es : List DashboardEvent) : List String :=
  es.filterMap fun
    | .feed data => some data
    | .select _ => none

/-- What a history leaves behind, with an eye on some of the rows. -/
structure Hearing where
  /-- the selected row -/
  selected : ℕ
  /-- no message has made the listener throw -/
  subscribed : Bool
  /-- the last message applied while one of the rows was selected -/
  last : Option String

/-- One event of a history. A message is applied unless the listener throws, or
has thrown before. -/
def hear (rows : ℕ → Bool) (s : Hearing) : DashboardEvent → Hearing
  | .feed data =>
    if s.subscribed && goesThrough data then
      { s with last := if rows s.selected then some data else s.last }
    else { s with subscribed := false }
  | .select e => { s with selected := e }

/-- A history from the start. -/
def hearing (rows : ℕ → Bool) (es : List DashboardEvent) : Hearing :=
  es.foldl (hear rows) ⟨0, true, none⟩

/-- The last message applied while one of the rows was selected. -/
def lastHeard (rows : ℕ → Bool) (es : List DashboardEvent) : Option String :=
  (hearing rows es).last

/-- The last message applied lists the instrument with both prices. -/
def FeedShowsPrices (id : ℕ) (es : List DashboardEvent) : Prop :=
  ∃ data, lastHeard (fun _ => true) es = some data ∧ ShowsPrices id data

/-! ## One message -/

variable {ν : Type} {d : Dashboard ν}

/-- A refreshed row is active when the message shows its bid. -/
theorem refreshed_active {data : String} (hdata : ListsAll data) {entries : List Json}
    (hentries : feedEntries data = some entries) {e : Rate}
    (he : (e.id, e.name) ∈ listedInstruments) :
    (e.refreshed entries).active = some true ↔ ShowsBid e.id data := by
  obtain ⟨entries', hentries', hall⟩ := hdata
  obtain rfl : entries = entries' := Option.some.inj (hentries.symm.trans hentries')
  rcases hlast : entries.findRev? (fun t => e.hasID t) with - | t
  · obtain ⟨t, ht, hnumber⟩ := hall _ he
    exact absurd hnumber (Rows.findRev?_eq_none_iff.mp hlast t ht)
  · have hlisting : listing e.id data = some t := by
      rw [listing, hentries, Option.bind_some]
      exact hlast
    rw [Rate.refreshed, Rate.applied_eq_setPrices hlast, ShowsBid]
    simp only [hlisting, Option.some.injEq, exists_eq_left', isRateActive, Rate.setPrices,
      Bool.not_eq_true']

/-! ## A history -/

theorem hearing_concat (rows : ℕ → Bool) (es : List DashboardEvent) (e : DashboardEvent) :
    hearing rows (es ++ [e]) = hear rows (hearing rows es) e := by
  rw [hearing, List.foldl_append]
  rfl

theorem feeds_concat (es : List DashboardEvent) (e : DashboardEvent) :
    feeds (es ++ [e]) = feeds es ++ feeds [e] := List.filterMap_append

@[simp] theorem feeds_feed (data : String) : feeds [.feed data] = [data] := rfl

@[simp] theorem feeds_select (i : ℕ) : feeds [.select i] = [] := rfl

/-- The dashboard after a history: a row is active when the last message applied
with it selected shows its bid. -/
structure Hears (es : List DashboardEvent) (d : Dashboard ν) : Prop where
  selected : ∀ rows, (hearing rows es).selected = d.selectedItem
  subscribed : ∀ rows, (hearing rows es).subscribed = d.subscribed
  active : ∀ (i : ℕ) (e : Rate), d.rates[i]? = some e →
    (e.active = some true ↔ ∃ data, lastHeard (· == i) es = some data ∧ ShowsBid e.id data)

theorem hears_init [Zero ν] : Hears [] (Dashboard.init : Dashboard ν) := by
  refine ⟨fun _ => rfl, fun _ => rfl, fun i e he => ?_⟩
  have hmem : e ∈ getRatesList := List.mem_of_getElem? he
  have hinactive : ∀ e ∈ getRatesList, e.active ≠ some true := by
    simp [getRatesList]
  simp [hinactive e hmem, lastHeard, hearing]

/-- The rows keep their IDs and flags, and the history hears nothing new. -/
theorem Hears.of_same {es es' : List DashboardEvent} (h : Hears es d) {d' : Dashboard ν}
    (hselected : ∀ rows, (hearing rows es').selected = d'.selectedItem)
    (hsubscribed : ∀ rows, (hearing rows es').subscribed = d'.subscribed)
    (hlast : ∀ rows, lastHeard rows es' = lastHeard rows es)
    (hrates : d'.rates.map (fun e => (e.identity, e.active)) =
      d.rates.map fun e => (e.identity, e.active)) : Hears es' d' := by
  refine ⟨hselected, hsubscribed, fun i e' he' => ?_⟩
  have hrow := congrArg (·[i]?) hrates
  simp only [List.getElem?_map, he', Option.map_some] at hrow
  obtain ⟨e, he, heq⟩ := Option.map_eq_some_iff.mp hrow.symm
  obtain ⟨hidentity, hactive⟩ := Prod.mk.inj heq
  have hid : e.id = e'.id := congrArg Prod.fst hidentity
  rw [← hactive, ← hid, hlast]
  exact h.active i e he

theorem Hears.select [Zero ν] (number : Option Json → ν) {es : List DashboardEvent}
    (h : Hears es d) {e : ℕ} {d' : Dashboard ν} (hs : d.step number (.select e) = some d') :
    Hears (es ++ [.select e]) d' := by
  simp only [Dashboard.step] at hs
  split at hs
  · obtain rfl := Option.some.inj hs
    refine h.of_same (fun rows => ?_) (fun rows => ?_) (fun rows => ?_) rfl
    · rw [hearing_concat]
      rfl
    · rw [hearing_concat]
      exact h.subscribed rows
    · rw [lastHeard, hearing_concat]
      rfl
  · cases hs

/-- A message that is not applied is not heard. -/
theorem Hears.ignore [Zero ν] (number : Option Json → ν) {es : List DashboardEvent}
    (h : Hears es d) (hlisted : d.Listed) {data : String}
    (hdata : (d.subscribed && goesThrough data) = false) {d' : Dashboard ν}
    (hs : d.step number (.feed data) = some d') : Hears (es ++ [.feed data]) d' := by
  have hhear : ∀ rows, hearing rows (es ++ [.feed data]) =
      { hearing rows es with subscribed := false } := by
    intro rows
    rw [hearing_concat, hear, h.subscribed rows, hdata]
    rfl
  have hlast : ∀ rows, lastHeard rows (es ++ [.feed data]) = lastHeard rows es := by
    intro rows
    rw [lastHeard, hhear]
    rfl
  simp only [Dashboard.step] at hs
  by_cases hsub : d.subscribed = true
  · obtain ⟨rates, hthrows, hrates⟩ :=
      Dashboard.onMessage_throws hlisted number (by simpa [hsub] using hdata)
    rw [if_pos hsub, hthrows] at hs
    obtain rfl := Option.some.inj hs
    exact h.of_same (fun rows => by rw [hhear]; exact h.selected rows)
      (fun rows => by rw [hhear]) hlast hrates
  · rw [if_neg hsub] at hs
    obtain rfl := Option.some.inj hs
    exact h.of_same (fun rows => by rw [hhear]; exact h.selected rows)
      (fun rows => by rw [hhear]; simpa using hsub) hlast rfl

/-- A message that is applied is heard by the selected row. -/
theorem Hears.feed [Zero ν] (number : Option Json → ν) {es : List DashboardEvent}
    (h : Hears es d) (hlisted : d.Listed) {data : String} (hall : ListsAll data)
    (hdata : (d.subscribed && goesThrough data) = true) {d' : Dashboard ν}
    (hs : d.step number (.feed data) = some d') : Hears (es ++ [.feed data]) d' := by
  obtain ⟨hsub, hgoes⟩ := Bool.and_eq_true_iff.mp hdata
  obtain ⟨entries, hentries, hwell⟩ := goesThrough_iff.mp hgoes
  obtain ⟨sel, hsel⟩ := hlisted.selected_eq
  have hhear : ∀ rows, hearing rows (es ++ [.feed data]) = { hearing rows es with
      last := if rows (hearing rows es).selected then some data else (hearing rows es).last } := by
    intro rows
    rw [hearing_concat, hear, if_pos (by rw [h.subscribed rows]; exact hdata)]
  have hlast : ∀ rows, lastHeard rows (es ++ [.feed data]) =
      if rows d.selectedItem then some data else lastHeard rows es := by
    intro rows
    rw [lastHeard, hhear, ← h.selected rows]
    rfl
  simp only [Dashboard.step, hsub, if_true,
    Dashboard.onMessage_eq hlisted number hentries hwell hsel, Option.some.injEq] at hs
  subst hs
  refine ⟨fun rows => ?_, fun rows => ?_, fun i e he => ?_⟩
  · rw [hhear, Dashboard.parseNewPoint_selectedItem]
    exact h.selected rows
  · rw [hhear]
    exact (h.subscribed rows).trans hsub
  · rw [Dashboard.parseNewPoint_rates, Dashboard.receive_getElem? entries hsel] at he
    obtain ⟨e₀, he₀, rfl⟩ := Option.map_eq_some_iff.mp he
    rw [hlast]
    by_cases hi : i = d.selectedItem
    · have hid : (e₀.refreshed entries).id = e₀.id :=
        congrArg Prod.fst (e₀.applied_identity entries)
      have hname : (e₀.id, e₀.name) ∈ listedInstruments :=
        List.mem_of_getElem? (hlisted.mem_listedInstruments he₀)
      rw [if_pos hi, refreshed_active hall hentries hname, hid]
      simp [hi]
    · have hid : (e₀.applied entries).id = e₀.id :=
        congrArg Prod.fst (e₀.applied_identity entries)
      rw [if_neg hi, Rate.applied_active, hid, h.active i e₀ he₀]
      simp [Ne.symm hi]

/-- **Runs of messages with a property**: what holds at the start, and survives
selections and messages with the property, holds after them. -/
theorem run_feeds_induction [Zero ν] {number : Option Json → ν} {Q : String → Prop}
    {P : List DashboardEvent → Dashboard ν → Prop} (h₀ : P [] .init)
    (hstep : ∀ (es : List DashboardEvent) (d : Dashboard ν) (e : DashboardEvent) (d' : Dashboard ν),
      d.Listed → P es d → (∀ data, e = .feed data → Q data) → d.step number e = some d' →
      P (es ++ [e]) d')
    {es : List DashboardEvent} (hrun : (dashboard number).run .init es = some d)
    (hfeeds : ∀ data ∈ feeds es, Q data) : P es d := by
  revert hfeeds
  refine (dashboard number).run_induction
    (P := fun es d => (∀ data ∈ feeds es, Q data) → P es d) (fun _ => h₀) ?_ hrun
  intro es d e d' hrun ih hs hfeeds
  rw [feeds_concat] at hfeeds
  have hes : P es d := ih fun data hdata => hfeeds data (List.mem_append_left _ hdata)
  apply hstep es d e d' (listed_of_run hrun) hes ?_ hs
  rintro data rfl
  exact hfeeds data (List.mem_append_right _ (List.mem_singleton.mpr rfl))

/-- **Activity follows the selection**: after a history of full messages, a row
is active when the last message applied with it selected shows its bid. -/
theorem run_active [Zero ν] {number : Option Json → ν} {es : List DashboardEvent}
    (hrun : (dashboard number).run .init es = some d) (hfeeds : ∀ data ∈ feeds es, ListsAll data) :
    Hears es d := by
  refine run_feeds_induction hears_init ?_ hrun hfeeds
  intro es d e d' hlisted hhears hall hs
  cases e with
  | select e => exact hhears.select number hs
  | feed data =>
    -- a message is applied, or leaves the flags alone
    rcases hdata : d.subscribed && goesThrough data with - | -
    · exact hhears.ignore number hlisted hdata hs
    · exact hhears.feed number hlisted (hall data rfl) hdata hs

/-- **What the button asks for is the opposite of what the feed shows** exactly
when the last message applied with the row selected, by its bid, and the last
message applied, by its prices, agree on the selected instrument. -/
theorem startStop_opposite_iff [Zero ν] (number : Option Json → ν) (es : List DashboardEvent)
    {d : Dashboard ν} (hrun : (dashboard number).run .init es = some d)
    (hfeeds : ∀ data ∈ feeds es, ListsAll data) :
    ∃ e, d.selected = some e ∧
      (((FeedShowsPrices e.id es → d.Posts "false") ∧
          (¬ FeedShowsPrices e.id es → d.Posts "true")) ↔
        ((∃ heard, lastHeard (· == d.selectedItem) es = some heard ∧ ShowsBid e.id heard) ↔
          FeedShowsPrices e.id es)) := by
  have hlisted := listed_of_run hrun
  obtain ⟨e, he⟩ := hlisted.selected_eq
  refine ⟨e, he, ?_⟩
  rw [posts_iff hlisted he, posts_iff hlisted he,
    ← (run_active hrun hfeeds).active d.selectedItem e he]
  by_cases hactive : e.active = some true <;> simp [hactive]

/-! ## Two histories -/

/-- A message with the first report. -/
theorem exists_firstReport : ∃ data, feedEntries data = some firstReport :=
  exists_feedEntries bytes_firstReport

theorem listsAll_of_firstReport {data : String} (h : feedEntries data = some firstReport) :
    ListsAll data := by
  have hall : ∀ i ∈ listedInstruments, ∃ t ∈ firstReport,
      Json.isNumber i.1 (t.get? "ID") = true := by decide
  exact ⟨firstReport, h, hall⟩

theorem goesThrough_of_firstReport {data : String} (h : feedEntries data = some firstReport) :
    goesThrough data = true := by
  have hwell : ∀ t ∈ firstReport, ∃ i ∈ listedInstruments,
      Json.isNumber i.1 (t.get? "ID") = true := by decide
  exact goesThrough_iff.mpr ⟨firstReport, h, hwell⟩

/-- The first report shows the prices of AUDUSD. -/
theorem showsPrices_firstReport {data : String} (h : feedEntries data = some firstReport) :
    ShowsPrices 2 data := by
  refine ⟨(SenderMessageBody.mk 2 "AUDUSD" (some "1") (some "1")).toJson, ?_, rfl, rfl⟩
  rw [listing, h]
  rfl

/-- EURUSD is selected and gets the message. -/
theorem startStop_opposite_iff_firstReport :
    ∃ data d, ListsAll data ∧ (dashboard sampleNumber).run .init [.feed data] = some d ∧
      ∃ e, d.selected = some e ∧
        (((FeedShowsPrices e.id [.feed data] → d.Posts "false") ∧
            (¬ FeedShowsPrices e.id [.feed data] → d.Posts "true")) ↔
          ((∃ heard, lastHeard (· == d.selectedItem) [.feed data] = some heard ∧
              ShowsBid e.id heard) ↔ FeedShowsPrices e.id [.feed data])) := by
  obtain ⟨data, hdata⟩ := exists_firstReport
  obtain ⟨d, hrun⟩ := exists_run sampleNumber Dashboard.listed_init [.feed data] (by simp)
  have hfeeds : ∀ data' ∈ feeds [.feed data], ListsAll data' := by
    intro data' hdata'
    obtain rfl := List.mem_singleton.mp hdata'
    exact listsAll_of_firstReport hdata
  exact ⟨data, d, listsAll_of_firstReport hdata, hrun,
    startStop_opposite_iff sampleNumber [.feed data] hrun hfeeds⟩

/-- EURUSD is selected when the message comes, AUDUSD is clicked afterwards: the
button asks to start what is running. -/
theorem stale_activity_posted :
    ¬ ∀ (es : List DashboardEvent) (d : Dashboard ℚ),
      (dashboard sampleNumber).run .init es = some d → (∀ data ∈ feeds es, ListsAll data) →
      feeds es ≠ [] → ∀ e, d.selected = some e →
        (FeedShowsPrices e.id es → d.Posts "false") ∧
          (¬ FeedShowsPrices e.id es → d.Posts "true") := by
  intro h
  obtain ⟨data, hdata⟩ := exists_firstReport
  obtain ⟨d, hrun⟩ := exists_run sampleNumber Dashboard.listed_init
    [.feed data, .select 1] (by simp)
  have hfeeds : ∀ data' ∈ feeds [.feed data, .select 1], ListsAll data' := by
    intro data' hdata'
    obtain rfl := List.mem_singleton.mp hdata'
    exact listsAll_of_firstReport hdata
  have hlisted := listed_of_run hrun
  obtain ⟨e, he⟩ := hlisted.selected_eq
  have hhears := run_active hrun hfeeds
  have hhearing : ∀ rows, hearing rows [.feed data, .select 1] =
      ⟨1, true, if rows 0 then some data else none⟩ := by
    intro rows
    simp [hearing, hear, goesThrough_of_firstReport hdata]
  have hselected : d.selectedItem = 1 := by
    rw [← hhears.selected fun _ => true, hhearing]
  have hid : e.id = 2 := by
    have hidentity := hlisted.mem_listedInstruments he
    rw [hselected] at hidentity
    exact (congrArg Prod.fst (Option.some.inj hidentity)).symm
  have hshows : FeedShowsPrices e.id [.feed data, .select 1] :=
    ⟨data, by rw [lastHeard, hhearing]; rfl, by rw [hid]; exact showsPrices_firstReport hdata⟩
  have hposts := (h _ d hrun hfeeds (List.cons_ne_nil _ _) e he).1 hshows
  -- no message was heard with AUDUSD selected
  have hinactive : ¬ e.active = some true := by
    rw [hhears.active d.selectedItem e he, hselected, lastHeard, hhearing]
    rintro ⟨heard, hheard, -⟩
    cases hheard
  rw [posts_iff hlisted he, if_neg hinactive] at hposts
  exact absurd hposts (by decide)

end KubemqWorkshop
