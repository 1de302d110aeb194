import KubemqWorkshop.Activation
import KubemqWorkshop.Dashboard

/-!
# The feed: from the generator's report to the dashboard's rows

The generator reports in C#, the dashboard reads in JavaScript, and all they
share is member names, a table of instruments kept twice, and `null` for the
prices of an inactive one. `dashboard_shows_report`: whatever the generator went
through and whatever the dashboard showed before, a report makes every row show
its instrument's prices, and the selected row its instrument's activity.

Between the two programs lie Newtonsoft's writer (`Serializes`), the broker and
the socket (`Carries`).
-/

namespace KubemqWorkshop

/-- A text or `null`. -/
def textOrNull : Option String → Json
  | none => .null
  | some s => .str s

/-- The object a line of the report is written as. -/
def SenderMessageBody.toJson (line : SenderMessageBody) : Json :=
  .obj [("ID", .num line.id 0), ("Name", .str line.name), ("Ask", textOrNull line.ask),
    ("Bid", textOrNull line.bid)]

/-- What is assumed of `JsonConvert.SerializeObject`: the list is written as an
array, a line as an object with its four members, and a `null` member as
`null`. -/
def Serializes (serializeObject : List SenderMessageBody → String) : Prop :=
  ∀ batch, Json.parse (serializeObject batch) = some (.arr (batch.map SenderMessageBody.toJson))

/-- The event's data carries the text, in Base64 as its `Body`. -/
def Carries (data text : String) : Prop :=
  ∃ event body, Json.parse data = some event ∧ event.get? "Body" = some (.str body) ∧
    atob body = some text

theorem bytes_stringify {v : Json} (h : (Json.print v).all (fun c => c.toNat < 256) = true) :
    Bytes (Json.stringify v) := by
  intro c hc
  rw [Json.stringify, String.toList_ofList] at hc
  exact of_decide_eq_true (List.all_eq_true.mp h c hc)

/-- An event with nothing but a body. -/
def eventOf (body : String) : String := Json.stringify (.obj [("Body", .str body)])

/-- Every text of bytes has an event that carries it. -/
theorem exists_carries {text : String} (h : Bytes text) : ∃ data, Carries data text := by
  obtain ⟨body, hbody⟩ := Option.isSome_iff_exists.mp (btoa_isSome_iff.mpr h)
  exact ⟨eventOf body, _, body, Json.parse_stringify _, rfl, atob_btoa hbody⟩

/-! ## The entries of a report -/

theorem feedEntries_of_carries {data text : String} {entries : List Json}
    (hdata : Carries data text) (htext : Json.parse text = some (.arr entries)) :
    feedEntries data = some entries := by
  obtain ⟨event, body, hevent, hbody, hatob⟩ := hdata
  simp only [feedEntries, hevent, Option.bind_some, hbody, hatob, htext]

/-- Every list of entries that is written in bytes can be fed. -/
theorem exists_feedEntries {entries : List Json} (h : Bytes (Json.stringify (.arr entries))) :
    ∃ data, feedEntries data = some entries := by
  obtain ⟨data, hdata⟩ := exists_carries h
  exact ⟨data, feedEntries_of_carries hdata (Json.parse_stringify _)⟩

theorem isNumber_int (k : ℕ) (m : ℤ) : Json.isNumber k (some (.num m 0)) = (m == (k : ℤ)) := by
  rw [Json.isNumber, if_pos (le_refl 0), Int.toNat_zero, pow_zero, mul_one]

@[simp] theorem get?_id_toJson (line : SenderMessageBody) :
    line.toJson.get? "ID" = some (.num line.id 0) := rfl

theorem hasID_toJson {line : SenderMessageBody} {e : Rate} :
    e.hasID line.toJson = true ↔ line.id = e.id := by
  rw [Rate.hasID, get?_id_toJson, isNumber_int, beq_iff_eq]

theorem isNull_textOrNull (s : Option String) :
    Json.isNull (some (textOrNull s)) = s.isNone := by
  cases s <;> rfl

/-! ## The two tables of instruments -/

/-- The table of the dashboard is the generator's. -/
theorem instruments_eq : instruments = listedInstruments.map fun i => (i.2, (i.1 : ℤ)) := rfl

/-- An ID stands for one instrument. -/
theorem instruments_inj : ∀ i ∈ instruments, ∀ j ∈ instruments, i.2 = j.2 → i = j := by decide

section

variable {table : RateTable} (htable : table.identities = instruments.map fun i => (i.1, i.1, i.2))
include htable

/-- The instrument of an entry. -/
theorem mem_instruments_of_mem {name : String} {r : Rates} (h : (name, r) ∈ table.entries) :
    (name, r.id) ∈ instruments ∧ r.rateName = name := by
  have hmem : (name, r.rateName, r.id) ∈ table.identities := List.mem_map.mpr ⟨(name, r), h, rfl⟩
  rw [htable] at hmem
  obtain ⟨i, hi, heq⟩ := List.mem_map.mp hmem
  obtain ⟨rfl, hname, hid⟩ := by simpa only [Prod.mk.injEq] using heq
  exact ⟨by rw [← hid]; exact hi, hname.symm⟩

/-- Every row of the dashboard has an entry in the generator. -/
theorem exists_entry {i : ℕ × String} (hi : i ∈ listedInstruments) :
    ∃ r, (i.2, r) ∈ table.entries ∧ r.id = i.1 := by
  have hmem : (i.2, i.2, (i.1 : ℤ)) ∈ table.identities := by
    rw [htable, instruments_eq, List.map_map]
    exact List.mem_map.mpr ⟨i, hi, rfl⟩
  obtain ⟨⟨name, r⟩, he, heq⟩ := List.mem_map.mp hmem
  obtain ⟨rfl, -, hid⟩ := by simpa only [Prod.mk.injEq] using heq
  exact ⟨r, he, hid⟩

/-- Entries with one ID are one entry. -/
theorem entry_unique {name name' : String} {r r' : Rates} (h : (name, r) ∈ table.entries)
    (h' : (name', r') ∈ table.entries) (hid : r'.id = r.id) : r' = r := by
  have hname := instruments_inj _ (mem_instruments_of_mem htable h').1 _
    (mem_instruments_of_mem htable h).1 hid
  obtain ⟨rfl, -⟩ := Prod.mk.inj hname
  exact Option.some.inj ((Dictionary.get?_of_mem h').symm.trans (Dictionary.get?_of_mem h))

theorem wellAddressed_report (toString : ℚ → String) :
    WellAddressed ((onRateSend toString table).map SenderMessageBody.toJson) := by
  intro t ht
  obtain ⟨line, hline, rfl⟩ := List.mem_map.mp ht
  obtain ⟨⟨name, r⟩, hmem, rfl⟩ := mem_onRateSend.mp hline
  obtain ⟨hinstrument, -⟩ := mem_instruments_of_mem htable hmem
  rw [instruments_eq] at hinstrument
  obtain ⟨i, hi, heq⟩ := List.mem_map.mp hinstrument
  refine ⟨i, hi, ?_⟩
  rw [get?_id_toJson, isNumber_int, beq_iff_eq]
  exact (Prod.mk.inj heq).2.symm

/-- The entry of a report that is meant for a row is its instrument's line. -/
theorem findRev?_report (toString : ℚ → String) {e : Rate} {name : String} {r : Rates}
    (hmem : (name, r) ∈ table.entries) (hid : r.id = e.id) :
    ((onRateSend toString table).map SenderMessageBody.toJson).findRev? (fun t => e.hasID t) =
      some (reportLine toString r).toJson := by
  refine Rows.findRev?_of_unique ?_ (hasID_toJson.mpr hid) ?_
  · exact List.mem_map_of_mem (mem_onRateSend.mpr ⟨(name, r), hmem, rfl⟩)
  · intro t ht hhas
    obtain ⟨line, hline, rfl⟩ := List.mem_map.mp ht
    obtain ⟨⟨name', r'⟩, hmem', rfl⟩ := mem_onRateSend.mp hline
    have hid' : r'.id = r.id := (hasID_toJson.mp hhas).trans hid.symm
    rw [entry_unique htable hmem hmem' hid']

end

/-! ## The dashboard after a report -/

/-- A row that shows an instrument. -/
def Rate.showing (toString : ℚ → String) (r : Rates) (e : Rate) : Rate :=
  { e with
    ask := some (textOrNull (reportLine toString r).ask)
    bid := some (textOrNull (reportLine toString r).bid) }

/-- After a report every row shows its instrument, whatever it showed before. -/
theorem applied_report (toString : ℚ → String) {table : RateTable}
    (htable : table.identities = instruments.map fun i => (i.1, i.1, i.2)) {e : Rate}
    (he : (e.id, e.name) ∈ listedInstruments) :
    ∃ r, table.get? e.name = some r ∧
      e.applied ((onRateSend toString table).map SenderMessageBody.toJson) =
        e.showing toString r := by
  obtain ⟨r, hmem, hid⟩ := exists_entry htable he
  refine ⟨r, Dictionary.get?_of_mem hmem, ?_⟩
  rw [Rate.applied_eq_setPrices (findRev?_report htable toString hmem hid)]
  rfl

theorem isRateActive_showing (toString : ℚ → String) (r : Rates) (e : Rate) :
    isRateActive (e.showing toString r) = r.isActive := by
  rw [isRateActive, Rate.showing, isNull_textOrNull]
  rcases h : r.isActive <;> simp [reportLine, h]

/-- **The dashboard shows the report.** After any history of the generator and
any history of the dashboard, the generator's report goes through; every row then
shows the prices of its instrument, `null` for an inactive one, the selected row
also its activity, and nothing else of the rows changes. -/
theorem dashboard_shows_report {ν : Type} [Zero ν] (number : Option Json → ν)
    (toString : ℚ → String) (deserializeObject : List UInt8 → Except Exn (Option RateRequest))
    {serializeObject : List SenderMessageBody → String} (hserialize : Serializes serializeObject)
    (rnd : ℤ → NextDouble × NextDouble) (s : Settings) (es : List Event)
    {ds : List DashboardEvent} {d : Dashboard ν} (hd : (dashboard number).run .init ds = some d)
    {data : String} (hdata : Carries data (serializeObject (onRateSend toString
      ((Generator.startUp rnd s).run deserializeObject es).rates))) :
    let table := ((Generator.startUp rnd s).run deserializeObject es).rates
    let result := d.onMessage number data
    result.1 = true ∧ result.2.selectedItem = d.selectedItem ∧
      d.rates.length = 7 ∧ result.2.rates.length = 7 ∧
      ∀ (i : ℕ) (e : Rate), d.rates[i]? = some e → ∃ r, table.get? e.name = some r ∧
        result.2.rates[i]? = some
          { e with
            ask := some (textOrNull (if r.isActive then some (toString r.buy) else none))
            bid := some (textOrNull (if r.isActive then some (toString r.sell) else none))
            active := if i = d.selectedItem then some r.isActive else e.active } := by
  intro table result
  have hlisted := listed_of_run hd
  have htable : table.identities = instruments.map fun i => (i.1, i.1, i.2) :=
    startUp_run_identities rnd s es
  obtain ⟨sel, hsel⟩ := hlisted.selected_eq
  have hresult := Dashboard.onMessage_eq hlisted number
    (feedEntries_of_carries hdata (hserialize _)) (wellAddressed_report htable toString) hsel
  have hrates : result.2.rates = (d.receive
      ((onRateSend toString table).map SenderMessageBody.toJson) sel).rates := by
    rw [show result = _ from hresult, Dashboard.parseNewPoint_rates]
  refine ⟨by rw [show result = _ from hresult], ?_, hlisted.length_rates, ?_, ?_⟩
  · rw [show result = _ from hresult, Dashboard.parseNewPoint_selectedItem]
    rfl
  · rw [hrates, Dashboard.receive, List.length_set, List.length_map, hlisted.length_rates]
  · intro i e he
    obtain ⟨r, hget, happlied⟩ := applied_report toString htable
      (List.mem_of_getElem? (hlisted.mem_listedInstruments he))
    refine ⟨r, hget, ?_⟩
    rw [hrates, Dashboard.receive_getElem? _ hsel, he, Option.map_some]
    by_cases hi : i = d.selectedItem
    · rw [if_pos hi, if_pos hi, Rate.refreshed, happlied, isRateActive_showing]
      rfl
    · rw [if_neg hi, if_neg hi, happlied]
      rfl

/-! ## The first report of the deployed generator -/

/-- `Number`, as far as the samples need it. -/
def sampleNumber : Option Json → ℚ
  | some (.str "1") => 1
  | _ => 0

/-- The entries of the first report; every instrument starts at one. -/
def firstReport : List Json :=
  (onRateSend (fun _ => "1") (Generator.startUp zeroDraws deployed).rates).map
    SenderMessageBody.toJson

theorem bytes_firstReport : Bytes (Json.stringify (.arr firstReport)) :=
  bytes_stringify (by decide +kernel)

/-- The dashboard has just started and gets the first report. -/
theorem dashboard_shows_report_firstReport :
    ∃ data, Carries data (Json.stringify (.arr firstReport)) ∧
      ((Dashboard.init : Dashboard ℚ).onMessage sampleNumber data).1 = true := by
  obtain ⟨data, hdata⟩ := exists_carries bytes_firstReport
  have hrun : (dashboard sampleNumber).run .init [] = some .init := rfl
  exact ⟨data, hdata, (dashboard_shows_report sampleNumber (fun _ => "1") deserializeSample
    (fun batch => Json.parse_stringify (.arr (batch.map SenderMessageBody.toJson)))
    zeroDraws deployed [] hrun hdata).1⟩

end KubemqWorkshop
