import KubemqWorkshop.Pipeline

/-!
# From the generator to the page

What a page shows, in any run of the whole system and with any of the
forwarders. The store holds reports of the generator, each tick's at most once
(`store_genuine`). The page reads bytes as characters, which gives the text of a
report back exactly when it is ASCII (`page_text_iff_ascii`). When reports are
(`Platform.Lawful`), every page shows one moment of the generator's past, in full
(`page_shows_past`); it is wrong about an instrument only if a command moved it
since (`page_outdated_only_by_command`), and its chart draws prices between 1
and 2 (`page_draws_prices`). No page goes back in time unless the broker or the
store changes the order (`page_never_goes_back`).
-/

namespace KubemqWorkshop

/-- The texts of a line are ASCII. -/
def SenderMessageBody.InAscii (line : SenderMessageBody) : Prop :=
  Ascii line.name ∧ ∀ t, line.ask = some t ∨ line.bid = some t → Ascii t

/-- What is assumed of the code outside: reports are written as JSON, and prices
and lines of ASCII in ASCII. -/
structure Platform.Lawful {ν : Type} (P : Platform ν) : Prop where
  serializes : Serializes P.serializeObject
  ascii_toString : ∀ q, Ascii (P.toString q)
  ascii_serializeObject : ∀ batch : List SenderMessageBody,
    (∀ line ∈ batch, line.InAscii) → Ascii (P.serializeObject batch)

section

variable {ν : Type} {P : Platform ν} {rnd : ℤ → NextDouble × NextDouble} {settings : Settings}

/-! ## The text of a report -/

theorem ascii_instruments : ∀ i ∈ instruments, Ascii i.1 := by decide

/-- A lawful platform writes reports in ASCII. -/
theorem Platform.Lawful.ascii_report (hP : P.Lawful) (es : List Event) :
    Ascii (P.serializeObject (onRateSend P.toString (P.table rnd settings es))) := by
  refine hP.ascii_serializeObject _ fun line hline => ?_
  obtain ⟨⟨name, r⟩, hmem, rfl⟩ := mem_onRateSend.mp hline
  obtain ⟨hinstrument, hname⟩ :=
    mem_instruments_of_mem (P.table_identities rnd settings es) hmem
  refine ⟨?_, fun t ht => ?_⟩
  · rw [show (reportLine P.toString r).name = name from hname]
    exact ascii_instruments _ hinstrument
  · rcases hactive : r.isActive with - | -
    · simp [reportLine, hactive] at ht
    · simp only [reportLine, hactive, if_true, Option.some.injEq] at ht
      rcases ht with rfl | rfl <;> exact hP.ascii_toString _

/-- A report can be fed. -/
theorem Platform.Lawful.carries_feedOf (hP : P.Lawful) (es : List Event) :
    P.Carries rnd settings es (feedOf (utf8 (P.serializeObject
      (onRateSend P.toString (P.table rnd settings es))))) := by
  rw [Platform.Carries, carried_feedOf, latin1_utf8_eq_iff.mpr (hP.ascii_report es)]

/-- So the bytes of a report are its text. -/
theorem Report.Genuine.latin1_body (hP : P.Lawful) {history : List Event} {r : Report}
    (hr : r.Genuine P rnd settings history) :
    latin1 (P.body r) =
      P.serializeObject (onRateSend P.toString (P.table rnd settings r.after)) := by
  rw [Platform.body, hr.batch_eq]
  exact latin1_utf8_eq_iff.mpr (hP.ascii_report r.after)

/-- A row that shows an instrument of a history shows prices exactly when the
commands had left it active. -/
theorem Rate.Shows.active {es : List Event} {e : Rate} {r : Rates}
    (hget : (P.table rnd settings es).get? e.name = some r) (hshows : e.Shows P r) :
    isRateActive e = r.isActive ∧
      r.isActive = activeAfter P.deserializeObject settings.autoStart es e.name := by
  refine ⟨?_, (startUp_run_entry rnd settings es (Dictionary.mem_of_get? hget)).2⟩
  rw [isRateActive, hshows.2, isNull_textOrNull]
  rcases hactive : r.isActive <;> simp [reportLine, hactive]

variable [Zero ν] {R : Relay}

namespace Pipeline.Sound

variable {s : Pipeline R ν} (h : s.Sound P rnd settings)
include h

/-- The generator's flags are what the commands left. -/
theorem isActive_eq {name : String} (hname : name ∈ (Generator.startUp rnd settings).rates.keys) :
    s.generator.rates.isActive name =
      some (activeAfter P.deserializeObject settings.autoStart s.history name) := by
  rw [h.generator_eq]
  exact run_isActive P.deserializeObject (Generator.startUp rnd settings) s.history
    (initialRates_isActive settings.autoStart rnd) name hname

/-- The visit heard reports of the store, in their order. -/
theorem heard {reports : List Report} (hstore : s.store = reports.map P.body) :
    ∃ heard : List Report, heard.Sublist reports ∧
      (feeds s.visit).map carried = heard.map fun r => some (latin1 (P.body r)) := by
  obtain ⟨before, heard, after, hsplit, -, hfeeds⟩ := h.watched
  rw [hstore] at hsplit
  obtain ⟨left, after', rfl, hleft, -⟩ := List.map_eq_append_iff.mp hsplit
  obtain ⟨before', heard', rfl, -, rfl⟩ := List.map_eq_append_iff.mp hleft
  refine ⟨heard', ?_, ?_⟩
  · exact (List.sublist_append_right before' heard').trans (List.sublist_append_left _ after')
  · rw [hfeeds, List.map_map]
    rfl

/-- The reports behind the store. -/
theorem genuine_store :
    ∃ reports : List Report, s.store = reports.map P.body ∧
      (∀ r ∈ reports, r.Genuine P rnd settings s.history) ∧
      (reports.map fun r => r.after.length).Nodup := by
  obtain ⟨reports, hreports, hstore⟩ := h.stored
  have hsub : reports.Subperm (s.appended ++ s.inFlight) :=
    ((List.sublist_append_left reports s.queue).subperm.trans hreports).trans
      (List.sublist_append_left s.appended s.inFlight).subperm
  refine ⟨reports, hstore, fun r hr => h.genuine r (hsub.subset hr), ?_⟩
  obtain ⟨reports', hperm, hsublist⟩ := hsub
  exact (hperm.map _).nodup_iff.mp (h.once.sublist (hsublist.map _))

/-- Every message of the visit carries the report of a tick of the past. -/
theorem feeds_carry (hP : P.Lawful) {data : String} (hdata : data ∈ feeds s.visit) :
    ∃ es, (es ++ [Event.tick]).IsPrefix s.history ∧ P.Carries rnd settings es data := by
  obtain ⟨reports, hstore, hgenuine, -⟩ := h.genuine_store
  obtain ⟨heard, hheard, hfeeds⟩ := h.heard hstore
  have hmem : carried data ∈ (feeds s.visit).map carried := List.mem_map_of_mem hdata
  rw [hfeeds] at hmem
  obtain ⟨r, hr, hcarried⟩ := List.mem_map.mp hmem
  have hr := hgenuine r (hheard.subset hr)
  refine ⟨r.after, hr.ticked, ?_⟩
  rw [Platform.Carries, ← hcarried, hr.latin1_body hP]

/-- The visit is fed by the generator. -/
theorem fed (hP : P.Lawful) :
    ∀ data ∈ feeds s.visit, ∃ es, P.Carries rnd settings es data := by
  intro data hdata
  obtain ⟨es, -, hes⟩ := h.feeds_carry hP hdata
  exact ⟨es, hes⟩

/-- The page shows one moment of the past. -/
theorem shows (hP : P.Lawful) :
    s.page.subscribed = true ∧ (feeds s.visit ≠ [] →
      ∃ es, (es ++ [Event.tick]).IsPrefix s.history ∧
        s.page.Shows P (P.table rnd settings es)) := by
  obtain ⟨hsub, hshows⟩ := page_shows hP.serializes h.page_eq (h.fed hP)
  refine ⟨hsub, fun hne => ?_⟩
  obtain ⟨es, hpast, hes⟩ := h.feeds_carry hP (List.getLast_mem hne)
  exact ⟨es, hpast, hshows _ es (List.getLast?_eq_getLast_of_ne_nil hne) hes⟩

end Pipeline.Sound

end

/-! ## A platform, and its first report -/

/-- The writer of this project is lawful. -/
theorem Platform.lawful_stringify {ν : Type} {P : Platform ν}
    (hserialize : P.serializeObject = fun batch =>
      Json.stringify (.arr (batch.map SenderMessageBody.toJson)))
    (htext : ∀ q, Ascii (P.toString q)) : P.Lawful where
  serializes batch := by
    rw [hserialize]
    exact Json.parse_stringify _
  ascii_toString := htext
  ascii_serializeObject batch hbatch := by
    rw [hserialize]
    refine Json.ascii_arr (List.forall_mem_map.mpr fun line hline => Json.ascii_obj ?_)
    obtain ⟨hname, hprices⟩ := hbatch line hline
    have hprice : ∀ price, line.ask = price ∨ line.bid = price →
        Ascii (Json.stringify (textOrNull price)) := by
      rintro (- | t) ht
      · decide
      · exact Json.ascii_str (hprices t ht)
    simp only [List.forall_mem_cons]
    exact ⟨⟨by decide, Json.ascii_num _⟩, ⟨by decide, Json.ascii_str hname⟩,
      ⟨by decide, hprice _ (.inl rfl)⟩, ⟨by decide, hprice _ (.inr rfl)⟩, nofun⟩

/-- A platform on which every price is written as one. -/
def samplePlatform : Platform ℚ where
  deserializeObject := deserializeSample
  serializeObject batch := Json.stringify (.arr (batch.map SenderMessageBody.toJson))
  toString _ := "1"
  number := sampleNumber

theorem lawful_samplePlatform : samplePlatform.Lawful :=
  Platform.lawful_stringify rfl fun _ => by
    change Ascii "1"
    decide

/-- The C# program in the system. -/
abbrev samplePipeline := pipeline samplePlatform (Program.relay .csharp)

/-- The first report of the deployed generator can reach a page through the C#
program. -/
theorem exists_firstDelivery :
    ∃ events s, samplePipeline.run (.init zeroDraws deployed) events = some s ∧
      samplePipeline.Meets InOrder (.init zeroDraws deployed) events ∧
      ∃ data, feeds s.visit = [data] := by
  obtain ⟨events, s, hrun, hmeets, -, -, -, data, -, hvisit, -⟩ := Pipeline.exists_catch_up
    samplePlatform (Pipeline.init zeroDraws deployed) (Program.relay .csharp).running_start
  exact ⟨events, s, hrun, hmeets rfl, data, by rw [hvisit]; rfl⟩

/-! ## In every run -/

section

variable {ν : Type} [Zero ν] {P : Platform ν} {rnd : ℤ → NextDouble × NextDouble}
  {settings : Settings} {program : Program} {events : List (PipelineEvent program.relay)}
  {s : Pipeline program.relay ν}

/-- **The store holds genuine reports**: whatever is lost, repeated or reordered
on the way, and whichever forwarder runs, every event of the store is the encoded
report of a tick of the generator, and no tick's report is stored twice. -/
theorem store_genuine
    (hrun : (pipeline P program.relay).run (.init rnd settings) events = some s) :
    ∃ reports : List Report, s.store = reports.map (fun r => utf8 (P.serializeObject r.batch)) ∧
      (∀ r ∈ reports, (r.after ++ [Event.tick]).IsPrefix s.history ∧
        r.batch = onRateSend P.toString (P.table rnd settings r.after)) ∧
      (reports.map Report.after).Nodup := by
  obtain ⟨reports, hstore, hgenuine, honce⟩ := (sound_of_run hrun).genuine_store
  refine ⟨reports, hstore, fun r hr => ⟨(hgenuine r hr).ticked, (hgenuine r hr).batch_eq⟩, ?_⟩
  rw [show (fun r : Report => r.after.length) = List.length ∘ Report.after from rfl,
    ← List.map_map] at honce
  exact honce.of_map List.length

theorem store_genuine_firstDelivery :
    ∃ events s, samplePipeline.run (.init zeroDraws deployed) events = some s ∧
      feeds s.visit ≠ [] ∧
      ∃ reports : List Report, (reports.map Report.after).Nodup ∧
        s.store = reports.map fun r => utf8 (samplePlatform.serializeObject r.batch) := by
  obtain ⟨events, s, hrun, -, data, hdata⟩ := exists_firstDelivery
  obtain ⟨reports, hstore, -, hnodup⟩ := store_genuine hrun
  exact ⟨events, s, hrun, by rw [hdata]; exact List.cons_ne_nil _ _, reports, hnodup, hstore⟩

/-- **The page shows the past**: in every run of the system the listener goes on
listening, and once a message has come the rows show one report of the generator
in full, with prices for exactly the instruments the commands had left active. -/
theorem page_shows_past (hP : P.Lawful)
    (hrun : (pipeline P program.relay).run (.init rnd settings) events = some s) :
    s.page.subscribed = true ∧ (feeds s.visit ≠ [] →
      ∃ es, (es ++ [Event.tick]).IsPrefix s.history ∧ ∀ e ∈ s.page.rates,
        isRateActive e = activeAfter P.deserializeObject settings.autoStart es e.name ∧
        ∃ r, (P.table rnd settings es).get? e.name = some r ∧
          e.ask = some (if isRateActive e then .str (P.toString r.buy) else .null) ∧
          e.bid = some (if isRateActive e then .str (P.toString r.sell) else .null)) := by
  obtain ⟨hsub, hshows⟩ := (sound_of_run hrun).shows hP
  refine ⟨hsub, fun hne => ?_⟩
  obtain ⟨es, hpast, hshows⟩ := hshows hne
  refine ⟨es, hpast, fun e he => ?_⟩
  obtain ⟨r, hget, hshow⟩ := hshows e he
  obtain ⟨hactive, hafter⟩ := hshow.active hget
  refine ⟨hactive.trans hafter, r, hget, ?_, ?_⟩
  · rw [hshow.1, hactive]
    cases hr : r.isActive <;> simp [reportLine, hr, textOrNull]
  · rw [hshow.2, hactive]
    cases hr : r.isActive <;> simp [reportLine, hr, textOrNull]

theorem page_shows_past_firstDelivery :
    ∃ events s, samplePipeline.run (.init zeroDraws deployed) events = some s ∧
      s.page.subscribed = true ∧ ∃ es, (es ++ [Event.tick]).IsPrefix s.history ∧
        ∀ e ∈ s.page.rates, isRateActive e = activeAfter deserializeSample true es e.name := by
  obtain ⟨events, s, hrun, -, data, hdata⟩ := exists_firstDelivery
  obtain ⟨hsub, hshows⟩ := page_shows_past lawful_samplePlatform hrun
  obtain ⟨es, hpast, hrows⟩ := hshows (by rw [hdata]; exact List.cons_ne_nil _ _)
  exact ⟨events, s, hrun, hsub, es, hpast, fun e he => (hrows e he).1⟩

/-- **What makes a page outdated**: once a message has come, where a page shows an
instrument other than the generator has it, one of the commands since the moment it
shows has put the instrument there. -/
theorem page_outdated_only_by_command (hP : P.Lawful)
    (hrun : (pipeline P program.relay).run (.init rnd settings) events = some s)
    (hne : feeds s.visit ≠ []) :
    ∃ es later, s.history = es ++ .tick :: later ∧ ∀ e ∈ s.page.rates,
      s.generator.rates.isActive e.name = some (isRateActive e) ∨
      ∃ request ack utcNow, .command request ack utcNow ∈ later ∧
        (orderOf P.deserializeObject s.generator.rates.keys request).position e.name =
          s.generator.rates.isActive e.name := by
  have hsound := sound_of_run hrun
  obtain ⟨es, ⟨later, hhistory⟩, hshows⟩ := (hsound.shows hP).2 hne
  rw [List.append_assoc, List.singleton_append] at hhistory
  refine ⟨es, later, hhistory.symm, fun e he => ?_⟩
  obtain ⟨r, hget, hshow⟩ := hshows e he
  obtain ⟨hactive, hafter⟩ := hshow.active hget
  have hkey : e.name ∈ (Generator.startUp rnd settings).rates.keys := by
    rw [← show (P.table rnd settings es).keys = _ from run_keys _ es]
    exact Dictionary.get?_isSome_iff.mp (by rw [hget]; rfl)
  rw [hsound.isActive_eq hkey, hactive, hafter]
  have hkeys : s.generator.rates.keys = instruments.map Prod.fst := by
    rw [hsound.generator_eq]
    exact run_keys _ s.history
  have hsplit : activeAfter P.deserializeObject settings.autoStart s.history =
      obey ((.tick :: later).map (Event.order P.deserializeObject s.generator.rates.keys))
        (activeAfter P.deserializeObject settings.autoStart es) := by
    rw [hkeys, ← hhistory, activeAfter, List.map_append, obey_append]
    rfl
  rw [hsplit]
  by_cases hsame : obey ((.tick :: later).map
      (Event.order P.deserializeObject s.generator.rates.keys))
        (activeAfter P.deserializeObject settings.autoStart es) e.name =
      activeAfter P.deserializeObject settings.autoStart es e.name
  · exact .inl (congrArg some hsame)
  · obtain ⟨o, ho, hposition⟩ := exists_order_of_obey_ne hsame
    obtain ⟨event, hevent, rfl⟩ := List.mem_map.mp ho
    -- only a command gives an order
    cases event with
    | command request ack utcNow =>
      refine .inr ⟨request, ack, utcNow, ?_, hposition⟩
      exact (List.mem_cons.mp hevent).resolve_left nofun
    | rateChange name buyDraws sellDraws => cases hposition
    | tick => cases hposition

theorem page_outdated_only_by_command_firstDelivery :
    ∃ (s : Pipeline (Program.relay .csharp) ℚ) (es later : List Event),
      s.history = es ++ .tick :: later ∧ ∀ e ∈ s.page.rates,
        s.generator.rates.isActive e.name = some (isRateActive e) ∨
        ∃ request ack utcNow, .command request ack utcNow ∈ later ∧
          (orderOf deserializeSample s.generator.rates.keys request).position e.name =
            s.generator.rates.isActive e.name := by
  obtain ⟨events, s, hrun, -, data, hdata⟩ := exists_firstDelivery
  obtain ⟨es, later, hhistory, hrows⟩ := page_outdated_only_by_command lawful_samplePlatform hrun
    (by rw [hdata]; exact List.cons_ne_nil _ _)
  exact ⟨s, es, later, hhistory, hrows⟩

/-- **What the chart draws**: the chart of the page is the last thirty of thirty
zeros and the asks of the selected instrument since its selection, and these are
prices between 1 and 2. -/
theorem page_draws_prices (hP : P.Lawful)
    (hrun : (pipeline P program.relay).run (.init rnd settings) events = some s) :
    s.page.chartData = window 30 0 (plotted P.number s.visit).heights ∧
      ∀ y ∈ (plotted P.number s.visit).heights,
        ∃ v : ℚ, 1 ≤ v ∧ v ≤ 2 ∧ y = P.number (some (.str (P.toString v))) := by
  have hsound := sound_of_run hrun
  exact page_chart hP.serializes hsound.page_eq (hsound.fed hP)

theorem page_draws_prices_firstDelivery :
    ∃ s : Pipeline (Program.relay .csharp) ℚ, feeds s.visit ≠ [] ∧
      s.page.chartData = window 30 0 (plotted sampleNumber s.visit).heights := by
  obtain ⟨events, s, hrun, -, data, hdata⟩ := exists_firstDelivery
  exact ⟨s, by rw [hdata]; exact List.cons_ne_nil _ _,
    (page_draws_prices lawful_samplePlatform hrun).1⟩

/-- **The page never goes back**: where the broker and the store keep the order,
the messages of a visit carry reports built one after the other. -/
theorem page_never_goes_back (hP : P.Lawful)
    (hrun : (pipeline P program.relay).run (.init rnd settings) events = some s)
    (horder : (pipeline P program.relay).Meets InOrder (.init rnd settings) events) :
    ∃ moments : List (List Event),
      List.Forall₂ (fun es data => P.Carries rnd settings es data) moments (feeds s.visit) ∧
      (∀ es ∈ moments, (es ++ [Event.tick]).IsPrefix s.history) ∧
      moments.Pairwise fun es es' => (es ++ [Event.tick]).IsPrefix es' := by
  obtain ⟨hsound, reports, hstore, hline⟩ := ordered_of_run horder hrun
  obtain ⟨heard, hheard, hfeeds⟩ := hsound.heard hstore
  have hline := hline.sublist (hheard.trans
    ((List.sublist_append_left reports s.queue).trans (List.sublist_append_left _ s.inFlight)))
  refine ⟨heard.map Report.after, ?_, ?_, ?_⟩
  · have hcarried : (heard.map Report.after).map (fun es =>
        some (P.serializeObject (onRateSend P.toString (P.table rnd settings es)))) =
          (feeds s.visit).map carried := by
      rw [hfeeds, List.map_map]
      exact List.map_congr_left fun r hr =>
        congrArg some ((hline.genuine r hr).latin1_body hP).symm
    have hall := List.forall₂_eq_eq_eq ▸ hcarried
    exact (List.forall₂_map_right_iff.mp (List.forall₂_map_left_iff.mp hall)).imp
      fun _ _ => Eq.symm
  · intro es hes
    obtain ⟨r, hr, rfl⟩ := List.mem_map.mp hes
    exact (hline.genuine r hr).ticked
  · exact List.pairwise_map.mpr hline.pairwise

theorem page_never_goes_back_firstDelivery :
    ∃ (data : String) (moments : List (List Event)), List.Forall₂
        (fun es data => samplePlatform.Carries zeroDraws deployed es data) moments [data] ∧
      moments.Pairwise fun es es' => (es ++ [Event.tick]).IsPrefix es' := by
  obtain ⟨events, s, hrun, hmeets, data, hdata⟩ := exists_firstDelivery
  obtain ⟨moments, hcarries, -, hpairwise⟩ :=
    page_never_goes_back lawful_samplePlatform hrun hmeets
  exact ⟨data, moments, hdata ▸ hcarries, hpairwise⟩

end

end KubemqWorkshop
