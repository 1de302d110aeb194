import KubemqWorkshop.EndToEnd
import KubemqWorkshop.StartStop

/-!
# The control loop: from the button to the generator and back

A click posts a command as text in JSON, in Base64, in a request; the broker
hands the bytes to the generator, which reads the text, moves one flag and
answers; a report built after that brings the flag back to the page, and the
button asks for the opposite. `button_sets_exactly` is the first half of the way and
`button_flips` the second: the name on the button is the name in the table, and
the two never lose each other in any history of either side.

The other commands are the start commands of the workshop programs. They carry
no target and switch everything on (`start_command_starts_all`).
-/

namespace KubemqWorkshop

/-! ## A request on its way -/

/-- What the broker hands to the subscriber of the command channel: the body is
decoded. -/
def SendRequest.delivered (request : SendRequest) : Option RequestReceive :=
  (atob request.body).map fun text => ⟨request.metadata, unlatin1 text⟩

/-- What is assumed of `JsonConvert.DeserializeObject<RateRequest>`: the object
of a command is read, its `Active` from the text of a truth value. -/
def Deserializes (deserializeObject : List UInt8 → Except Exn (Option RateRequest)) : Prop :=
  ∀ (text name : String) (active : Bool), Ascii text →
    Json.parse text = some (commandJson name (if active then "true" else "false")) →
    deserializeObject (utf8 text) = .ok (some ⟨some name, active⟩)

section

variable {deserializeObject : List UInt8 → Except Exn (Option RateRequest)}

theorem ascii_listedInstruments : ∀ i ∈ listedInstruments, Ascii i.2 := by decide

/-- A command about an instrument is ASCII. -/
theorem ascii_commandJson {name : String} (hname : Ascii name) (active : Bool) :
    Ascii (Json.stringify (commandJson name (if active then "true" else "false"))) := by
  refine Json.ascii_obj ?_
  simp only [List.forall_mem_cons]
  refine ⟨⟨by decide, Json.ascii_str hname⟩, ⟨by decide, Json.ascii_str ?_⟩, nofun⟩
  cases active <;> decide

/-- **A posted command arrives**: the generator reads what the button said. -/
theorem delivered_startRate (hD : Deserializes deserializeObject) {name : String}
    (hname : Ascii name) (active : Bool) {request : SendRequest}
    (h : startRate name (if active then "true" else "false") = some request) :
    ∃ received, request.delivered = some received ∧ received.targeted = true ∧
      deserializeObject received.body = .ok (some ⟨some name, active⟩) := by
  obtain ⟨n, hn, rfl⟩ := Option.map_eq_some_iff.mp h
  have hascii := ascii_commandJson hname active
  have hparse := Json.parse_stringify (commandJson name (if active then "true" else "false"))
  generalize Json.stringify _ = text at hn hascii hparse
  have hread := hD text name active hascii hparse
  rw [utf8_of_ascii hascii] at hread
  refine ⟨⟨"some_metadata2", unlatin1 text⟩, ?_, beq_self_eq_true "some_metadata2", hread⟩
  rw [SendRequest.delivered, atob_btoa hn, Option.map_some]

/-- What the button asks for. -/
def Rate.asked (e : Rate) : Bool := !(e.active == some true)

theorem startStopRate_eq (e : Rate) :
    startStopRate e = startRate e.name (if e.asked then "true" else "false") := by
  rw [startStopRate, Rate.asked]
  by_cases hactive : e.active = some true <;> simp [hactive]

/-- The button of a listed row posts a command that arrives. -/
theorem delivered_startStopRate (hD : Deserializes deserializeObject) {e : Rate}
    (he : (e.id, e.name) ∈ listedInstruments) :
    ∃ request received, startStopRate e = some request ∧ request.delivered = some received ∧
      received.targeted = true ∧
      deserializeObject received.body = .ok (some ⟨some e.name, e.asked⟩) := by
  obtain ⟨request, hrequest⟩ := Option.isSome_iff_exists.mp (startRate_isSome _ he
    (if e.asked then "true" else "false") (by cases e.asked <;> simp))
  obtain ⟨received, hreceived⟩ :=
    delivered_startRate hD (ascii_listedInstruments _ he) e.asked hrequest
  exact ⟨request, received, (startStopRate_eq e).trans hrequest, hreceived⟩

end

/-- A deserializer that reads commands. -/
def deserializeText (body : List UInt8) : Except Exn (Option RateRequest) :=
  match Json.parse (latin1 body) with
  | none => .error (.external "Unexpected character encountered while parsing value.")
  | some command =>
    match command.get? "Name", command.get? "Active" with
    | some (.str name), some (.str active) => .ok (some ⟨some name, active == "true"⟩)
    | _, _ => .error (.external "Could not convert string to boolean.")

theorem deserializes_deserializeText : Deserializes deserializeText := by
  intro text name active hascii hparse
  rw [deserializeText, latin1_utf8_eq_iff.mpr hascii, hparse]
  cases active <;> rfl

/-- The sample platform with a reader of commands. -/
def commandPlatform : Platform ℚ := { samplePlatform with deserializeObject := deserializeText }

theorem lawful_commandPlatform : commandPlatform.Lawful :=
  ⟨lawful_samplePlatform.serializes, lawful_samplePlatform.ascii_toString,
    lawful_samplePlatform.ascii_serializeObject⟩

/-! ## A row and its instrument -/

theorem mem_instruments_of_listed :
    ∀ i ∈ listedInstruments, i.2 ∈ instruments.map Prod.fst := by decide

section

variable {ν : Type} [Zero ν] {P : Platform ν} {rnd : ℤ → NextDouble × NextDouble}
  {settings : Settings}

omit [Zero ν] in
/-- The order a posted command amounts to. -/
theorem order_received {e : Rate} (he : (e.id, e.name) ∈ listedInstruments)
    {received : RequestReceive} (htargeted : received.targeted = true)
    (hbody : P.deserializeObject received.body = .ok (some ⟨some e.name, e.asked⟩)) :
    orderOf P.deserializeObject (instruments.map Prod.fst) received = .set e.name e.asked :=
  orderOf_eq_set.mpr ⟨htargeted, hbody, mem_instruments_of_listed _ he⟩

omit [Zero ν] in
/-- The table has the instruments in every history. -/
theorem keys_table (es : List Event) :
    (P.table rnd settings es).keys = instruments.map Prod.fst :=
  run_keys (Generator.startUp rnd settings) es

/-- **The button sets exactly its instrument**: in any history of the page and of
the generator, a click posts a command that the generator reads; afterwards the
instrument of the selected row is as the button said, all others are as they
were, and the reply is `OK` exactly when the queue could be emptied. -/
theorem button_sets_exactly (hD : Deserializes P.deserializeObject)
    (rnd : ℤ → NextDouble × NextDouble) (settings : Settings) (es : List Event)
    {ds : List DashboardEvent} {d : Dashboard ν}
    (hd : (dashboard P.number).run .init ds = some d) :
    ∃ e request received, d.selected = some e ∧ startStopRate e = some request ∧
      request.delivered = some received ∧ ∀ ack utcNow,
        let g := (Generator.startUp rnd settings).run P.deserializeObject es
        (∀ name, (g.handle P.deserializeObject received ack utcNow).rates.isActive name =
          if name = e.name then some e.asked else g.rates.isActive name) ∧
        ∃ response,
          (handleRequest P.deserializeObject g.toManager received ack utcNow).1 = .ok response ∧
          (response.metadata = "OK" ↔ ack = .ok ()) := by
  have hlisted := listed_of_run hd
  obtain ⟨e, he⟩ := hlisted.selected_eq
  have hinstrument := List.mem_of_getElem? (hlisted.mem_listedInstruments he)
  obtain ⟨request, received, hrequest, hdelivered, htargeted, hbody⟩ :=
    delivered_startStopRate hD hinstrument
  refine ⟨e, request, received, he, hrequest, hdelivered, fun ack utcNow => ?_⟩
  intro g
  have hkeys : g.rates.keys = instruments.map Prod.fst := keys_table es
  have horder : orderOf P.deserializeObject g.rates.keys received = .set e.name e.asked := by
    rw [hkeys]
    exact order_received hinstrument htargeted hbody
  refine ⟨fun name => ?_, ?_⟩
  · rw [Generator.rates_handle, horder, RateTable.isActive_execute, Order.position_set]
    by_cases hname : name = e.name
    · have hkey : name ∈ g.rates.keys := by
        rw [hname, hkeys]
        exact mem_instruments_of_listed _ hinstrument
      obtain ⟨b, hb⟩ := Option.isSome_iff_exists.mp (RateTable.isActive_isSome_iff.mpr hkey)
      rw [if_pos hname, if_pos hname, hb]
      rfl
    · rw [if_neg hname, if_neg hname]
      exact Option.map_id'
  · rcases handleRequest_reply P.deserializeObject g.rateCollection_eq g.queue_created received
      ack utcNow with ⟨hnot, -⟩ | ⟨-, -, hack, hreply⟩ | ⟨ex, -, hwhy, hreply⟩
    · rw [htargeted] at hnot
      cases hnot
    · exact ⟨_, hreply, fun _ => hack, fun _ => rfl⟩
    · -- the order is one, so it was the queue that failed
      rw [horder] at hwhy
      obtain rfl := hwhy.resolve_left nofun
      exact ⟨_, hreply, by simp [failedResponse]⟩

theorem button_sets_exactly_init :
    ∃ request received, startStopRate ⟨1, "EURUSD", some (.str ""), some (.str ""), none⟩ =
        some request ∧ request.delivered = some received ∧
      ((Generator.startUp zeroDraws deployed).handle deserializeText received (.ok ())
        0).rates.isActive "EURUSD" = some true := by
  obtain ⟨e, request, received, he, hrequest, hdelivered, hhandle⟩ :=
    button_sets_exactly (P := commandPlatform) deserializes_deserializeText zeroDraws deployed []
      (rfl : (dashboard sampleNumber).run .init [] = some .init)
  obtain rfl := Option.some.inj he
  exact ⟨request, received, hrequest, hdelivered, (hhandle (.ok ()) 0).1 "EURUSD"⟩

/-! ## The way back -/

/-- After a report the selected row is as active as the commands had left its
instrument. -/
theorem selected_active (hserialize : Serializes P.serializeObject) {d d' : Dashboard ν}
    (hlisted : d.Listed) (hsub : d.subscribed = true) {es : List Event} {data : String}
    (h : P.Carries rnd settings es data) (hs : d.step P.number (.feed data) = some d')
    {e : Rate} (he : d.selected = some e) :
    ∃ e', d'.selected = some e' ∧ e'.name = e.name ∧
      e'.active = some (activeAfter P.deserializeObject settings.autoStart es e.name) := by
  have hentries := feedEntries_of_platform hserialize h
  have hwell := wellAddressed_report (P.table_identities rnd settings es) P.toString
  simp only [Dashboard.step, hsub, if_true,
    Dashboard.onMessage_eq hlisted P.number hentries hwell he, Option.some.injEq] at hs
  subst hs
  obtain ⟨r, hget, happlied⟩ := applied_report P.toString (P.table_identities rnd settings es)
    (List.mem_of_getElem? (hlisted.mem_listedInstruments he))
  refine ⟨e.refreshed ((onRateSend P.toString (P.table rnd settings es)).map
    SenderMessageBody.toJson), ?_, ?_, ?_⟩
  · rw [Dashboard.selected, Dashboard.parseNewPoint_rates, Dashboard.parseNewPoint_selectedItem]
    change (d.receive _ e).rates[d.selectedItem]? = _
    rw [Dashboard.receive_getElem? _ he, Dashboard.selected_row he, Option.map_some, if_pos rfl]
  · rw [Rate.refreshed, happlied]
    rfl
  · rw [Rate.refreshed, happlied, isRateActive_showing,
      (startUp_run_entry rnd settings es (Dictionary.mem_of_get? hget)).2]

/-- **The button flips**: after a click, whatever else reaches the generator that
is not about the instrument and whatever happens to the page, a report that was
built after the command and comes while the row is selected makes the button ask
for the opposite. A report that was on its way at the click may come first. -/
theorem button_flips (hP : P.Lawful) (hD : Deserializes P.deserializeObject)
    {ds : List DashboardEvent} {d : Dashboard ν}
    (hd : (dashboard P.number).run .init ds = some d) :
    ∃ e request received, d.selected = some e ∧ startStopRate e = some request ∧
      request.delivered = some received ∧ ∀ es ack utcNow later,
        (∀ event ∈ later, (Event.order P.deserializeObject (instruments.map Prod.fst)
          event).position e.name = none) →
        ∀ ds' d' data d'', (dashboard P.number).run d ds' = some d' → d'.subscribed = true →
          d'.selectedItem = d.selectedItem →
          P.Carries rnd settings (es ++ .command received ack utcNow :: later) data →
          d'.step P.number (.feed data) = some d'' →
          ∃ e', d''.selected = some e' ∧ e'.name = e.name ∧ e'.active = some e.asked ∧
            startStopRate e' = startRate e.name (if e.asked then "false" else "true") := by
  have hlisted := listed_of_run hd
  obtain ⟨e, he⟩ := hlisted.selected_eq
  have hinstrument := List.mem_of_getElem? (hlisted.mem_listedInstruments he)
  obtain ⟨request, received, hrequest, hdelivered, htargeted, hbody⟩ :=
    delivered_startStopRate hD hinstrument
  refine ⟨e, request, received, he, hrequest, hdelivered, ?_⟩
  intro es ack utcNow later hlater ds' d' data d'' hd' hsub hsame hdata hs
  have hlisted' : d'.Listed :=
    (dashboard P.number).run_preserves (fun _ _ _ hI hs => hI.step hs) hlisted hd'
  obtain ⟨row, hrow⟩ := hlisted'.selected_eq
  -- the same place in the table is the same instrument
  have hname : row.name = e.name := by
    have hplace := hlisted'.mem_listedInstruments hrow
    rw [hsame, hlisted.mem_listedInstruments he] at hplace
    exact (congrArg Prod.snd (Option.some.inj hplace)).symm
  obtain ⟨e', he', hname', hactive⟩ := selected_active hP.serializes hlisted' hsub hdata hs hrow
  have hasked : activeAfter P.deserializeObject settings.autoStart
      (es ++ .command received ack utcNow :: later) row.name = e.asked := by
    rw [activeAfter, List.map_append, List.map_cons, hname]
    refine obey_last ?_ (List.forall_mem_map.mpr hlater) _
    change (orderOf _ _ received).position e.name = _
    rw [order_received hinstrument htargeted hbody, Order.position_set, if_pos rfl]
  rw [hasked] at hactive
  refine ⟨e', he', hname'.trans hname, hactive, ?_⟩
  rw [startStopRate, hname', hname, hactive]
  cases e.asked <;> rfl

theorem button_flips_init :
    ∃ data d'' e', (Dashboard.init : Dashboard ℚ).step sampleNumber (.feed data) = some d'' ∧
      d''.selected = some e' ∧ e'.active = some true ∧
        startStopRate e' = startRate "EURUSD" "false" := by
  obtain ⟨e, request, received, he, -, -, hflips⟩ := @button_flips ℚ _ commandPlatform zeroDraws
    deployed lawful_commandPlatform deserializes_deserializeText [] .init rfl
  obtain rfl := Option.some.inj he
  have hcarries := @Platform.Lawful.carries_feedOf _ _ zeroDraws deployed lawful_commandPlatform
    ([] ++ .command received (.ok ()) 0 :: [])
  obtain ⟨d'', hd''⟩ := exists_step_feed sampleNumber
    (rfl : (Dashboard.init : Dashboard ℚ).subscribed = true) (feedOf _)
  obtain ⟨e', he', -, hactive, hbutton⟩ :=
    hflips [] (.ok ()) 0 [] nofun [] .init _ d'' rfl rfl rfl hcarries hd''
  exact ⟨_, d'', e', hd'', he', hactive, hbutton⟩

end

/-! ## The start commands -/

/-- The metadata of the command of `activeAllRates`, `startSendingRates` in Go:
a program that sets none sends an empty text. -/
def Program.startMetadata : Program → String
  | .csharp | .java | .nodejs _ => ""
  | .go | .python => "start"

/-- The command of `activeAllRates`; the client libraries write its body, the
text `start`, in their own ways. -/
def Program.startCommand (program : Program) (body : List UInt8) : RequestReceive :=
  ⟨program.startMetadata, body⟩

theorem Program.startCommand_untargeted (program : Program) (body : List UInt8) :
    (program.startCommand body).targeted = false := by
  cases program <;> rfl

/-- Only a targeted order puts a switch off. -/
theorem eq_set_of_position {o : Order String} {name : String}
    (h : o.position name = some false) : o = .set name false := by
  cases o with
  | all => cases h
  | set name' b =>
    rw [Order.position_set] at h
    obtain ⟨rfl, hb⟩ := Option.ite_none_right_eq_some.mp h
    rw [Option.some.inj hb]
  | skip => cases h

/-- **The start command starts everything**: whichever program sends it, in any
history of the generator, the reply is `started`, and every later report shows
the prices of every instrument but those a targeted command has stopped since. -/
theorem start_command_starts_all {ν : Type} (P : Platform ν) (rnd : ℤ → NextDouble × NextDouble)
    (settings : Settings) (program : Program) (body : List UInt8) (es later : List Event)
    (ack : Except Exn Unit) (utcNow : ℕ) :
    let g := (Generator.startUp rnd settings).run P.deserializeObject es
    let es' := es ++ .command (program.startCommand body) ack utcNow :: later
    (handleRequest P.deserializeObject g.toManager (program.startCommand body) ack utcNow).1 =
        .ok (startedResponse g.toManager utcNow) ∧
      ∀ line ∈ onRateSend P.toString (P.table rnd settings es'),
        (line.ask.isSome ∧ line.bid.isSome) ∨
        ∃ request ack' utcNow', .command request ack' utcNow' ∈ later ∧
          request.targeted = true ∧
          P.deserializeObject request.body = .ok (some ⟨some line.name, false⟩) := by
  intro g es'
  have huntargeted := program.startCommand_untargeted body
  refine ⟨?_, fun line hline => ?_⟩
  · rcases handleRequest_reply P.deserializeObject g.rateCollection_eq g.queue_created
      (program.startCommand body) ack utcNow with ⟨-, hreply⟩ | ⟨ht, -⟩ | ⟨ex, ht, -⟩
    · exact hreply
    · rw [huntargeted] at ht
      cases ht
    · rw [huntargeted] at ht
      cases ht
  · obtain ⟨⟨name, r⟩, hmem, rfl⟩ := mem_onRateSend.mp hline
    obtain ⟨hname, hactive⟩ := startUp_run_entry rnd settings es' hmem
    have hprices := reportLine_prices P.toString r
    cases hr : r.isActive with
    | true =>
      rw [hr, if_pos rfl] at hprices
      exact .inl hprices
    | false =>
      -- it was on after the start command, so an order has put it off
      rw [hr, activeAfter, List.map_append, List.map_cons, obey_append, obey_cons] at hactive
      have horder : Event.order P.deserializeObject (instruments.map Prod.fst)
          (.command (program.startCommand body) ack utcNow) = .all :=
        orderOf_untargeted huntargeted
      rw [horder] at hactive
      have hmoved : obey (later.map (Event.order P.deserializeObject (instruments.map Prod.fst)))
          (Order.all.apply (obey (es.map (Event.order P.deserializeObject
            (instruments.map Prod.fst))) fun _ => settings.autoStart)) name ≠ true := by
        rw [← hactive]
        exact Bool.false_ne_true
      obtain ⟨o, ho, hposition⟩ := exists_order_of_obey_ne hmoved
      obtain ⟨event, hevent, rfl⟩ := List.mem_map.mp ho
      rw [← hactive] at hposition
      cases event with
      | command request ack' utcNow' =>
        obtain ⟨htargeted, hbody, -⟩ := orderOf_eq_set.mp (eq_set_of_position hposition)
        exact .inr ⟨request, ack', utcNow', hevent, htargeted,
          by rw [show (reportLine P.toString r).name = name from hname]; exact hbody⟩
      | rateChange name' buyDraws sellDraws => cases hposition
      | tick => cases hposition

end KubemqWorkshop
