import KubemqWorkshop.Base64
import KubemqWorkshop.Json
import KubemqWorkshop.Machine
import KubemqWorkshop.Rows
import Mathlib.Data.List.Nodup

/-!
# The dashboard (`kubemq-rate-client`)

The rate service of the Angular client: a table of seven rows, the chart's
points and the selected row, which is one of the rows of the table itself and
not a copy (`selectedItem` is its position). A message of the feed rewrites
prices entry by entry and then the activity of the *selected* row only; a
selection rewrites the chart and no row. Whatever happens, the table lists the
same instruments (`Listed`). A message whose lookups all succeed rewrites the
table row by row (`onMessage_eq`); any other makes the listener throw, which ends
its subscription, and spares the activity of every row (`onMessage_throws`).

A property that is missing is `undefined`, here `none`. `number` is
JavaScript's `Number`, and `ν` the type of its results.
-/

namespace KubemqWorkshop

/-- A row of the table. -/
structure Rate where
  id : ℕ
  name : String
  ask : Option Json
  bid : Option Json
  active : Option Bool

/-- `getRatesList`. -/
def getRatesList : List Rate :=
  [⟨1, "EURUSD", some (.str ""), some (.str ""), none⟩,
   ⟨2, "AUDUSD", some (.str ""), some (.str ""), some false⟩,
   ⟨3, "USDJPY", some (.str "1411.46471002079"), some (.str ""), none⟩,
   ⟨4, "CHFJPY", some (.str ""), some (.str ""), some false⟩,
   ⟨5, "NZDUSD", some (.str "1411.46471002079"), some (.str ""), none⟩,
   ⟨6, "GBPJPY", some (.str ""), some (.str ""), some false⟩,
   ⟨7, "USDILS", some (.str ""), some (.str ""), some false⟩]

/-- `isRateActive`: `null !== !e.Ask && null !== e.Bid`. The first comparison is
always true, as a negation is never `null`. -/
def isRateActive (e : Rate) : Bool := !Json.isNull e.bid

/-- The row an entry is meant for: `e.ID === t.ID`. -/
def Rate.hasID (t : Json) (e : Rate) : Bool := Json.isNumber e.id (t.get? "ID")

/-- `n.Ask = t.Ask, n.Bid = t.Bid`. -/
def Rate.setPrices (t : Json) (n : Rate) : Rate :=
  { n with ask := t.get? "Ask", bid := t.get? "Bid" }

/-- The entries of a message: `JSON.parse(atob(JSON.parse(data).Body))`, as far
as it has a `forEach`. Every exception on the way is a `none`. A `Body` is taken
for a text, where `atob` would make one of it (of an array with one element, say),
numbers are exact, and texts have no unpaired surrogates. -/
def feedEntries (data : String) : Option (List Json) :=
  (Json.parse data).bind fun event =>
    match event.get? "Body" with
    | some (.str body) => (atob body).bind fun text =>
      match Json.parse text with
      | some (.arr entries) => some entries
      | _ => none
    | _ => none

variable {ν : Type}

/-- The rate service. -/
structure Dashboard (ν : Type) where
  rates : List Rate
  /-- the heights of the chart's points, oldest first -/
  chartData : List ν
  /-- the position of the selected row -/
  selectedItem : ℕ
  /-- the listener has not been unsubscribed by an exception -/
  subscribed : Bool

namespace Dashboard

/-- The constructor; `setEmptyPoints` makes thirty points. -/
def init [Zero ν] : Dashboard ν where
  rates := getRatesList
  chartData := List.replicate 30 0
  selectedItem := 0
  subscribed := true

/-- The selected row. -/
def selected (d : Dashboard ν) : Option Rate := d.rates[d.selectedItem]?

theorem selected_row {d : Dashboard ν} {e : Rate} (h : d.selected = some e) :
    d.rates[d.selectedItem]? = some e := h

/-- The first row with the ID of the selected one. -/
def current (d : Dashboard ν) : Option ℕ :=
  d.selected.bind fun s => d.rates.findIdx? fun t => t.id == s.id

/-- Push a point and drop the oldest. -/
def push (d : Dashboard ν) (y : ν) : Dashboard ν :=
  { d with chartData := (d.chartData ++ [y]).drop 1 }

/-- `parseNewPoint`. -/
def parseNewPoint (number : Option Json → ν) (d : Dashboard ν) (e : Rate) : Dashboard ν :=
  if e.active = some true then d.push (number e.ask) else d

/-- `setSelectedItem`. -/
def setSelectedItem [Zero ν] (d : Dashboard ν) (e : ℕ) : Dashboard ν :=
  push { d with selectedItem := e, chartData := d.chartData.map fun _ => 0 } 0

/-- The end of the listener: the activity of the selected row, and a point. The
row `n` was looked up before the entries were applied. -/
def refresh (number : Option Json → ν) (d : Dashboard ν) (n : Option ℕ) : Bool × Dashboard ν :=
  match n.bind fun i => d.rates[i]? with
  | none => (false, d)
  | some row =>
    -- `selectedItem` is a row of the table, so the table changes with it
    let d := { d with
      rates := d.rates.modify d.selectedItem fun r => { r with active := some (isRateActive row) } }
    match n.bind fun i => d.rates[i]? with
    | none => (false, d)
    | some row => (true, d.parseNewPoint number row)

/-- The callback of `ratesListener`; `false` when it throws. -/
def onMessage (number : Option Json → ν) (d : Dashboard ν) (data : String) :
    Bool × Dashboard ν :=
  let n := d.current
  match feedEntries data with
  | none => (false, d)
  | some entries =>
    match Rows.updateEach Rate.hasID Rate.setPrices entries d.rates with
    -- an entry without a row: the prices written so far stay
    | (false, rates) => (false, { d with rates := rates })
    | (true, rates) => { d with rates := rates }.refresh number n

end Dashboard

/-- What happens to the dashboard. -/
inductive DashboardEvent where
  /-- a message of the feed -/
  | feed (data : String) : DashboardEvent
  /-- a row is clicked -/
  | select (e : ℕ) : DashboardEvent

/-- One event. An exception in the listener unsubscribes it; only listed rows
can be clicked. -/
def Dashboard.step [Zero ν] (number : Option Json → ν) (d : Dashboard ν) :
    DashboardEvent → Option (Dashboard ν)
  | .feed data =>
    if d.subscribed then
      let result := d.onMessage number data
      some { result.2 with subscribed := result.1 }
    else some d
  | .select e => if e < d.rates.length then some (d.setSelectedItem e) else none

/-- The dashboard as a machine. -/
def dashboard [Zero ν] (number : Option Json → ν) : Machine (Dashboard ν) DashboardEvent :=
  ⟨Dashboard.step number⟩

/-! ## The rows -/

/-- The instruments, in the order of the table. -/
def listedInstruments : List (ℕ × String) :=
  [(1, "EURUSD"), (2, "AUDUSD"), (3, "USDJPY"), (4, "CHFJPY"), (5, "NZDUSD"), (6, "GBPJPY"),
   (7, "USDILS")]

/-- What identifies a row. -/
def Rate.identity (e : Rate) : ℕ × String := (e.id, e.name)

/-- The table lists the seven instruments, and one of them is selected. -/
structure Dashboard.Listed (d : Dashboard ν) : Prop where
  identities : d.rates.map Rate.identity = listedInstruments
  selected : d.selectedItem < 7

theorem setPrices_identity (t : Json) (e : Rate) : (e.setPrices t).identity = e.identity := rfl

theorem setPrices_active (t : Json) (e : Rate) : (e.setPrices t).active = e.active := rfl

theorem keeps_setPrices : Rows.Keeps Rate.hasID Rate.setPrices := fun _ _ _ => rfl

theorem setPrices_setPrices (t t' : Json) (e : Rate) :
    (e.setPrices t).setPrices t' = e.setPrices t' := rfl

namespace Dashboard

variable {d : Dashboard ν}

theorem Listed.length_rates (h : d.Listed) : d.rates.length = 7 := by
  rw [← List.length_map (f := Rate.identity), h.identities]
  rfl

/-- The IDs of the rows differ. -/
theorem Listed.nodup_id (h : d.Listed) : (d.rates.map Rate.id).Nodup := by
  have hid : d.rates.map Rate.id = listedInstruments.map Prod.fst := by
    rw [← h.identities, List.map_map]
    rfl
  rw [hid]
  decide

/-- So no entry is meant for two rows. -/
theorem Listed.distinct (h : d.Listed) : Rows.Distinct Rate.hasID d.rates := by
  intro t
  have hpair := List.pairwise_map.mp h.nodup_id
  refine hpair.imp fun {e e'} hne he => ?_
  rcases he' : Rate.hasID t e' with - | -
  · rfl
  · exact absurd (Json.isNumber_inj he he') hne

theorem Listed.selected_eq (h : d.Listed) : ∃ e, d.selected = some e := by
  have hlt : d.selectedItem < d.rates.length := by rw [h.length_rates]; exact h.selected
  exact ⟨_, List.getElem?_eq_getElem hlt⟩

/-- Looking the selected row up by its ID finds the selected row. -/
theorem Listed.current_eq (h : d.Listed) : d.current = some d.selectedItem := by
  have hlt : d.selectedItem < d.rates.length := by rw [h.length_rates]; exact h.selected
  rw [current, Dashboard.selected, List.getElem?_eq_getElem hlt, Option.bind_some,
    List.findIdx?_eq_some_iff_getElem]
  refine ⟨hlt, by simp, fun j hj heq => ?_⟩
  have hne := List.pairwise_iff_getElem.mp (List.pairwise_map.mp h.nodup_id) j d.selectedItem
    (by omega) hlt hj
  exact hne (by simpa using heq)

/-! ## Every event keeps the instruments -/

theorem listed_init [Zero ν] : (init : Dashboard ν).Listed := ⟨rfl, Nat.zero_lt_succ 6⟩

@[simp] theorem parseNewPoint_rates (number : Option Json → ν) (e : Rate) :
    (d.parseNewPoint number e).rates = d.rates := by
  rw [parseNewPoint]
  split <;> rfl

@[simp] theorem parseNewPoint_selectedItem (number : Option Json → ν) (e : Rate) :
    (d.parseNewPoint number e).selectedItem = d.selectedItem := by
  rw [parseNewPoint]
  split <;> rfl

theorem map_identity_modify (rates : List Rate) (i : ℕ) (b : Option Bool) :
    (rates.modify i fun r => { r with active := b }).map Rate.identity =
      rates.map Rate.identity := by
  apply List.ext_getElem?
  intro j
  rw [List.getElem?_map, List.getElem?_map, List.getElem?_modify]
  rcases rates[j]? with - | r
  · rfl
  · by_cases hj : i = j <;> simp [hj, Rate.identity]

theorem refresh_listed (h : d.Listed) (number : Option Json → ν) (n : Option ℕ) :
    (d.refresh number n).2.Listed := by
  rw [refresh]
  rcases n.bind fun i => d.rates[i]? with - | row
  · exact h
  · simp only
    split
    · exact ⟨(map_identity_modify ..).trans h.identities, h.selected⟩
    · refine ⟨?_, ?_⟩
      · rw [parseNewPoint_rates]
        exact (map_identity_modify ..).trans h.identities
      · rw [parseNewPoint_selectedItem]
        exact h.selected

/-- Also a message that throws half-way keeps the instruments. -/
theorem Listed.onMessage (h : d.Listed) (number : Option Json → ν) (data : String) :
    (d.onMessage number data).2.Listed := by
  simp only [Dashboard.onMessage]
  rcases feedEntries data with - | entries
  · exact h
  · have hrates : (Rows.updateEach Rate.hasID Rate.setPrices entries d.rates).2.map
        Rate.identity = d.rates.map Rate.identity :=
      Rows.map_updateEach setPrices_identity entries d.rates
    rcases heach : Rows.updateEach Rate.hasID Rate.setPrices entries d.rates with ⟨found, rates⟩
    rw [heach] at hrates
    have hlisted : Listed { d with rates := rates } := ⟨hrates.trans h.identities, h.selected⟩
    cases found with
    | false =>
      simp only [heach]
      exact hlisted
    | true =>
      simp only [heach]
      exact refresh_listed hlisted number d.current

theorem Listed.step [Zero ν] (h : d.Listed) {number : Option Json → ν} {e : DashboardEvent}
    {d' : Dashboard ν} (hs : d.step number e = some d') : d'.Listed := by
  cases e with
  | feed data =>
    simp only [Dashboard.step] at hs
    split at hs
    · obtain rfl := Option.some.inj hs
      exact ⟨(h.onMessage number data).identities, (h.onMessage number data).selected⟩
    · obtain rfl := Option.some.inj hs
      exact h
  | select e =>
    simp only [Dashboard.step] at hs
    split at hs
    · rename_i he
      obtain rfl := Option.some.inj hs
      exact ⟨h.identities, by rw [← h.length_rates]; exact he⟩
    · cases hs

end Dashboard

/-- **The table lists the same instruments in every reachable state.** -/
theorem listed_of_run [Zero ν] {number : Option Json → ν} {es : List DashboardEvent}
    {d : Dashboard ν} (h : (dashboard number).run .init es = some d) : d.Listed :=
  (dashboard number).run_preserves (fun _ _ _ hI hs => hI.step hs) Dashboard.listed_init h

/-- Messages and clicks on listed rows are possible at any time. -/
theorem exists_run [Zero ν] (number : Option Json → ν) {d : Dashboard ν} (hd : d.Listed)
    (es : List DashboardEvent) (hes : ∀ e, .select e ∈ es → e < 7) :
    ∃ d', (dashboard number).run d es = some d' := by
  induction es generalizing d with
  | nil => exact ⟨d, rfl⟩
  | cons e es ih =>
    obtain ⟨d', hd'⟩ : ∃ d', d.step number e = some d' := by
      cases e with
      | feed data =>
        rw [Dashboard.step]
        split <;> exact ⟨_, rfl⟩
      | select e =>
        have he := hes e (List.mem_cons_self ..)
        exact ⟨_, if_pos (by rw [hd.length_rates]; exact he)⟩
    obtain ⟨d'', hrun⟩ := ih (hd.step hd') fun e he => hes e (List.mem_cons_of_mem _ he)
    refine ⟨d'', ?_⟩
    rw [Machine.run_cons, show (dashboard number).step d e = some d' from hd', Option.bind_some]
    exact hrun

/-! ## A message that goes through -/

/-- Every entry is meant for one of the rows. -/
def WellAddressed (entries : List Json) : Prop :=
  ∀ t ∈ entries, ∃ i ∈ listedInstruments, Json.isNumber i.1 (t.get? "ID") = true

/-- The listener gets through a message: it has entries, and every one is meant
for one of the rows. -/
def goesThrough (data : String) : Bool :=
  (feedEntries data).any fun entries => entries.all fun t =>
    listedInstruments.any fun i => Json.isNumber i.1 (t.get? "ID")

theorem goesThrough_iff {data : String} :
    goesThrough data = true ↔
      ∃ entries, feedEntries data = some entries ∧ WellAddressed entries := by
  simp [goesThrough, WellAddressed, Option.any_eq_true, List.all_eq_true, List.any_eq_true]

/-- A row after the entries of a message. -/
def Rate.applied (entries : List Json) (e : Rate) : Rate :=
  Rows.settle Rate.hasID Rate.setPrices entries e

/-- The selected row after a message. -/
def Rate.refreshed (entries : List Json) (e : Rate) : Rate :=
  { e.applied entries with active := some (isRateActive (e.applied entries)) }

/-- The last entry that is meant for a row sets its prices. -/
theorem Rate.applied_eq_setPrices {entries : List Json} {t : Json} {e : Rate}
    (h : entries.findRev? (fun t => e.hasID t) = some t) : e.applied entries = e.setPrices t :=
  Rows.settle_eq_write keeps_setPrices setPrices_setPrices h

@[simp] theorem Rate.applied_identity (entries : List Json) (e : Rate) :
    (e.applied entries).identity = e.identity :=
  Rows.key_settle setPrices_identity entries e

@[simp] theorem Rate.applied_active (entries : List Json) (e : Rate) :
    (e.applied entries).active = e.active :=
  Rows.key_settle setPrices_active entries e

namespace Dashboard

variable {d : Dashboard ν}

/-- A row of the table, by its place. -/
theorem Listed.mem_listedInstruments (h : d.Listed) {i : ℕ} {e : Rate} (he : d.rates[i]? = some e) :
    listedInstruments[i]? = some e.identity := by
  rw [← h.identities, List.getElem?_map, he, Option.map_some]

theorem Listed.wellAddressed_iff (h : d.Listed) {entries : List Json} :
    WellAddressed entries ↔ ∀ t ∈ entries, ∃ e ∈ d.rates, e.hasID t = true := by
  refine forall₂_congr fun t _ => ?_
  rw [← h.identities]
  simp only [List.mem_map, exists_exists_and_eq_and]
  rfl

/-- The rows after the entries of a message, with the selected row refreshed. -/
def receive (d : Dashboard ν) (entries : List Json) (e : Rate) : Dashboard ν :=
  { d with
    rates := (d.rates.map (Rate.applied entries)).set d.selectedItem (e.refreshed entries) }

/-- The rows one by one. -/
theorem receive_getElem? (entries : List Json) {sel : Rate} (hsel : d.selected = some sel) (i : ℕ) :
    (d.receive entries sel).rates[i]? = d.rates[i]?.map fun e =>
      if i = d.selectedItem then e.refreshed entries else e.applied entries := by
  simp only [receive]
  by_cases hi : i = d.selectedItem
  · subst hi
    have hlt : d.selectedItem < (d.rates.map (Rate.applied entries)).length := by
      rw [List.length_map]
      exact (List.getElem?_eq_some_iff.mp hsel).1
    rw [List.getElem?_set_self hlt, show d.rates[d.selectedItem]? = some sel from hsel,
      Option.map_some, if_pos rfl]
  · rw [List.getElem?_set_ne (Ne.symm hi), List.getElem?_map]
    simp only [if_neg hi]

/-- **A message that goes through**: the entries set the prices of all rows, and
the selected row is refreshed and may add a point. -/
theorem onMessage_eq (h : d.Listed) (number : Option Json → ν) {data : String}
    {entries : List Json} (hdata : feedEntries data = some entries)
    (hentries : WellAddressed entries) {e : Rate} (he : d.selected = some e) :
    d.onMessage number data =
      (true, (d.receive entries e).parseNewPoint number (e.refreshed entries)) := by
  have hrow : (d.rates.map (Rate.applied entries))[d.selectedItem]? = some (e.applied entries) := by
    rw [List.getElem?_map, show d.rates[d.selectedItem]? = some e from he, Option.map_some]
  have hlt : d.selectedItem < (d.rates.map (Rate.applied entries)).length :=
    (List.getElem?_eq_some_iff.mp hrow).1
  have heach : Rows.updateEach Rate.hasID Rate.setPrices entries d.rates =
      (true, d.rates.map (Rate.applied entries)) :=
    Rows.updateEach_eq keeps_setPrices h.distinct (h.wellAddressed_iff.mp hentries)
  have hmodify : (d.rates.map (Rate.applied entries)).modify d.selectedItem
      (fun r => { r with active := some (isRateActive (e.applied entries)) }) =
        (d.rates.map (Rate.applied entries)).set d.selectedItem (e.refreshed entries) := by
    rw [List.modify_eq_set_getElem?, hrow]
    rfl
  simp only [onMessage, hdata, heach, h.current_eq, refresh, Option.bind_some, hrow, hmodify,
    List.getElem?_set_self hlt, receive]

/-- **A message that throws**: prices may have changed, but no activity, and
nothing but the rows. -/
theorem onMessage_throws (h : d.Listed) (number : Option Json → ν) {data : String}
    (hdata : goesThrough data = false) :
    ∃ rates, d.onMessage number data = (false, { d with rates := rates }) ∧
      rates.map (fun e => (e.identity, e.active)) =
        d.rates.map fun e => (e.identity, e.active) := by
  simp only [onMessage]
  rcases hentries : feedEntries data with - | entries
  · exact ⟨d.rates, rfl, rfl⟩
  · have hkept : (Rows.updateEach Rate.hasID Rate.setPrices entries d.rates).2.map
        (fun e => (e.identity, e.active)) = d.rates.map fun e => (e.identity, e.active) := by
      refine Rows.map_updateEach ?_ entries d.rates
      exact fun _ _ => rfl
    rcases heach : Rows.updateEach Rate.hasID Rate.setPrices entries d.rates with ⟨found, rates⟩
    rw [heach] at hkept
    cases found with
    | false => exact ⟨rates, by simp only [heach], hkept⟩
    | true =>
      have hwell : WellAddressed entries :=
        h.wellAddressed_iff.mpr ((Rows.updateEach_fst_iff keeps_setPrices).mp (by rw [heach]))
      rw [goesThrough_iff.mpr ⟨entries, hentries, hwell⟩] at hdata
      cases hdata

end Dashboard

end KubemqWorkshop
