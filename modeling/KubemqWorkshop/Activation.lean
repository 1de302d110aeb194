import KubemqWorkshop.Generator

/-!
# The activation law

Commands, price changes and timer ticks reach the started generator in any
order. The law says what the next rate report then shows: one line for each
instrument, with prices exactly for the active ones, where activity is the
switchboard's answer to the orders the commands amount to (`activeAfter`).

The second half is about commands that fail. The `catch` of the handler does
not undo the assignment to `isActive`, so a `Failed` reply may follow a change
— exactly when the command was good and the broker refused the acknowledgement
(`failed_command_unchanged_iff`).
-/

namespace KubemqWorkshop

/-- What reaches a started generator. -/
inductive Event where
  /-- a command, with what the acknowledgement of the queue comes to -/
  | command : RequestReceive → Except Exn Unit → ℕ → Event
  /-- the timer of one instrument: `Rates.OnRateChangeEvent` -/
  | rateChange : String → Draws → Draws → Event
  /-- the timer of the manager: `OnRateSend` -/
  | tick : Event

section

variable (deserializeObject : List UInt8 → Except Exn (Option RateRequest))

namespace Generator

/-- One event. A tick reads the table and leaves it as it is. -/
def step (g : Generator) : Event → Generator
  | .command request ack utcNow => g.handle deserializeObject request ack utcNow
  | .rateChange name buyDraws sellDraws =>
    g.withRates (g.rates.modify name fun r => r.onRateChangeEvent buyDraws sellDraws)
  | .tick => g

/-- A history of events, oldest first. -/
def run (g : Generator) (es : List Event) : Generator := es.foldl (step deserializeObject) g

end Generator

/-- The order an event amounts to: only commands give orders. -/
def Event.order (keys : List String) : Event → Order String
  | .command request _ _ => orderOf deserializeObject keys request
  | .rateChange _ _ _ => .skip
  | .tick => .skip

/-- **The specification**: which instruments are active after a history, from
the commands alone. -/
def activeAfter (autoStart : Bool) (es : List Event) : String → Bool :=
  obey (es.map (Event.order deserializeObject (instruments.map Prod.fst))) fun _ => autoStart

/-! ## One event -/

variable {deserializeObject}

theorem step_identities (g : Generator) (e : Event) :
    (g.step deserializeObject e).rates.identities = g.rates.identities := by
  cases e with
  | command request ack utcNow =>
    rw [Generator.step, Generator.rates_handle, RateTable.identities_execute]
  | rateChange name b s =>
    exact RateTable.identities_modify _ name (fun r => r.onRateChangeEvent_rateName b s)
      (fun r => r.onRateChangeEvent_id b s)
  | tick => rfl

theorem step_isActive (g : Generator) (e : Event) (name : String) :
    (g.step deserializeObject e).rates.isActive name =
      (g.rates.isActive name).map fun b =>
        ((e.order deserializeObject g.rates.keys).position name).getD b := by
  cases e with
  | command request ack utcNow =>
    rw [Generator.step, Generator.rates_handle, RateTable.isActive_execute]
    rfl
  | rateChange name' b s =>
    rw [Generator.step, Generator.rates_withRates, isActive_rateChange]
    simp [Event.order]
  | tick => simp [Generator.step, Event.order]

/-! ## A history of events -/

theorem run_identities (g : Generator) (es : List Event) :
    (g.run deserializeObject es).rates.identities = g.rates.identities := by
  induction es generalizing g with
  | nil => rfl
  | cons e es ih =>
    rw [Generator.run, List.foldl_cons, ← Generator.run, ih, step_identities]

/-- A started generator keeps its instruments, whatever reaches it. -/
theorem startUp_run_identities (rnd : ℤ → NextDouble × NextDouble) (s : Settings)
    (es : List Event) :
    ((Generator.startUp rnd s).run deserializeObject es).rates.identities =
      instruments.map fun i => (i.1, i.1, i.2) := by
  rw [run_identities, Generator.rates_startUp, initialRates_identities]

theorem run_keys (g : Generator) (es : List Event) :
    (g.run deserializeObject es).rates.keys = g.rates.keys := by
  rw [RateTable.keys_eq_identities, RateTable.keys_eq_identities, run_identities]

variable (deserializeObject) in
/-- **Refinement**: when the flags are a board's positions, they stay those of
the board that obeys the events' orders. -/
theorem run_isActive (g : Generator) (es : List Event) {board : String → Bool}
    (hg : ∀ name ∈ g.rates.keys, g.rates.isActive name = some (board name)) :
    ∀ name ∈ g.rates.keys, (g.run deserializeObject es).rates.isActive name =
      some (obey (es.map (Event.order deserializeObject g.rates.keys)) board name) := by
  induction es generalizing g board with
  | nil => exact hg
  | cons e es ih =>
    have hkeys : (g.step deserializeObject e).rates.keys = g.rates.keys :=
      run_keys g [e]
    have hstep : ∀ name ∈ (g.step deserializeObject e).rates.keys,
        (g.step deserializeObject e).rates.isActive name =
          some ((e.order deserializeObject g.rates.keys).apply board name) := by
      intro name hname
      rw [hkeys] at hname
      rw [step_isActive, hg name hname]
      rfl
    intro name hname
    have := ih (g.step deserializeObject e) hstep name (by rw [hkeys]; exact hname)
    rw [hkeys] at this
    exact this

/-! ## The report -/

/-- The lines of a report, name and id, are the table's. -/
theorem onRateSend_identities (toString : ℚ → String) (table : RateTable) :
    (onRateSend toString table).map (fun line => (line.name, line.id)) =
      table.identities.map Prod.snd := by
  simp [onRateSend, Dictionary.values, RateTable.identities, reportLine, Function.comp_def]

/-- A line has both prices or none, by the instrument's flag. -/
theorem reportLine_prices (toString : ℚ → String) (r : Rates) :
    if r.isActive then (reportLine toString r).ask.isSome ∧ (reportLine toString r).bid.isSome
    else (reportLine toString r).ask = none ∧ (reportLine toString r).bid = none := by
  rcases h : r.isActive <;> simp [reportLine, h]

/-- A line of the report comes from an entry of the table. -/
theorem mem_onRateSend {toString : ℚ → String} {table : RateTable} {line : SenderMessageBody} :
    line ∈ onRateSend toString table ↔
      ∃ e ∈ table.entries, reportLine toString e.2 = line := by
  simp [onRateSend, Dictionary.values]

/-- After a history of a started generator an entry is filed under its own name,
and as active as the commands left it. -/
theorem startUp_run_entry (rnd : ℤ → NextDouble × NextDouble) (s : Settings) (es : List Event)
    {k : String} {r : Rates}
    (hmem : (k, r) ∈ ((Generator.startUp rnd s).run deserializeObject es).rates.entries) :
    r.rateName = k ∧ r.isActive = activeAfter deserializeObject s.autoStart es k := by
  have hids : ((Generator.startUp rnd s).run deserializeObject es).rates.identities =
      instruments.map fun i => (i.1, i.1, i.2) := startUp_run_identities rnd s es
  have hnamed : RateTable.WellNamed ((Generator.startUp rnd s).run deserializeObject es).rates := by
    rw [RateTable.WellNamed, hids]
    exact initialRates_wellNamed s.autoStart rnd
  refine ⟨hnamed.rateName_eq hmem, ?_⟩
  -- the history has not changed the keys
  have hk : k ∈ (Generator.startUp rnd s).rates.keys := by
    rw [← run_keys (Generator.startUp rnd s) es]
    exact List.mem_map.mpr ⟨(k, r), hmem, rfl⟩
  have hrun := run_isActive deserializeObject (Generator.startUp rnd s) es
    (initialRates_isActive s.autoStart rnd) k hk
  exact Option.some.inj ((RateTable.isActive_of_mem hmem).symm.trans hrun)

/-- **The activation law.** After any history the next report has exactly one
line for each instrument of the table, with its own name and id, and shows both
prices when the instrument is active, none when it is not. -/
theorem activation_law (toString : ℚ → String) (rnd : ℤ → NextDouble × NextDouble) (s : Settings)
    (es : List Event) :
    let table := ((Generator.startUp rnd s).run deserializeObject es).rates
    let report := onRateSend toString table
    table.keys = instruments.map Prod.fst ∧
      report.map (fun line => (line.name, line.id)) = instruments ∧
      ∀ line ∈ report,
        if activeAfter deserializeObject s.autoStart es line.name then
          line.ask.isSome ∧ line.bid.isSome
        else line.ask = none ∧ line.bid = none := by
  intro table report
  have hids : table.identities = instruments.map fun i => (i.1, i.1, i.2) :=
    startUp_run_identities rnd s es
  have hkeys : table.keys = instruments.map Prod.fst := by
    rw [RateTable.keys_eq_identities, hids]
    rfl
  refine ⟨hkeys, ?_, ?_⟩
  · rw [onRateSend_identities, hids]
    rfl
  · intro line hline
    obtain ⟨⟨k, r⟩, hmem, rfl⟩ := mem_onRateSend.mp hline
    obtain ⟨hname, hactive⟩ := startUp_run_entry rnd s es hmem
    have := reportLine_prices toString r
    rw [hactive, ← hname] at this
    exact this

/-! ## Commands that fail -/

variable (deserializeObject)

/-- A `Failed` reply means that no instrument's flag changed. -/
def FailedLeavesUnchanged (g : Generator) (request : RequestReceive) (ack : Except Exn Unit)
    (utcNow : ℕ) : Prop :=
  ∀ response : Response,
    (handleRequest deserializeObject g.toManager request ack utcNow).1 = .ok response →
    response.metadata = "Failed" →
    ∀ name, (g.handle deserializeObject request ack utcNow).rates.isActive name =
      g.rates.isActive name

variable {deserializeObject}

/-- A half-applied command is answered `Failed`, and the flag has changed. -/
theorem halfApplied_changes (g : Generator) {request : RequestReceive} {ack : Except Exn Unit}
    (utcNow : ℕ) {name : String}
    (h : HalfAppliedTo deserializeObject g.rates.isActive request ack name) :
    ∃ response, (handleRequest deserializeObject g.toManager request ack utcNow).1 = .ok response ∧
      response.metadata = "Failed" ∧
      (g.handle deserializeObject request ack utcNow).rates.isActive name ≠
        g.rates.isActive name := by
  obtain ⟨active, ex, ht, hdes, hflag, rfl⟩ := h
  have hkey : name ∈ g.rates.keys := RateTable.isActive_isSome_iff.mp (by rw [hflag]; rfl)
  have ho : orderOf deserializeObject g.rates.keys request = .set name active :=
    orderOf_eq_set.mpr ⟨ht, hdes, hkey⟩
  obtain ⟨ex', hr⟩ := handleRequest_ack_error deserializeObject
    g.rateCollection_eq g.queue_created ht ex utcNow
  refine ⟨_, hr, rfl, ?_⟩
  -- the assignment is done by the time the acknowledgement throws
  rw [Generator.rates_handle, ho, RateTable.isActive_execute, hflag]
  cases active <;> simp

/-- **When a failed command leaves the generator unchanged**: unless the
command was good, asked for a change and only the acknowledgement threw. -/
theorem failed_command_unchanged_iff (g : Generator) (request : RequestReceive)
    (ack : Except Exn Unit) (utcNow : ℕ) :
    FailedLeavesUnchanged deserializeObject g request ack utcNow ↔
      ¬ HalfApplied deserializeObject g.rates.isActive request ack := by
  refine ⟨?_, ?_⟩
  · rintro hfail ⟨name, hhalf⟩
    obtain ⟨response, hr, hmeta, hchanged⟩ := halfApplied_changes g utcNow hhalf
    exact hchanged (hfail response hr hmeta name)
  · intro hnot response hr hmeta name
    rcases handleRequest_reply deserializeObject g.rateCollection_eq
      g.queue_created request ack utcNow with ⟨-, hok⟩ | ⟨-, -, -, hok⟩ | ⟨ex, ht, hwhy, -⟩
    · obtain rfl := Except.ok.inj (hok.symm.trans hr)
      simp [startedResponse] at hmeta
    · obtain rfl := Except.ok.inj (hok.symm.trans hr)
      simp [okResponse] at hmeta
    · rw [Generator.rates_handle]
      exact isActive_execute_of_not_halfApplied ht (fun hhalf => hnot ⟨name, hhalf⟩) hwhy

end

/-- The broker refuses the acknowledgement: EURUSD is stopped, and the sender is
told `Failed`. -/
theorem failed_command_changes_activity :
    ¬ FailedLeavesUnchanged deserializeSample (Generator.startUp zeroDraws deployed)
      stopEURUSD (.error (.external "connection refused")) 0 := by
  intro h
  obtain ⟨response, hr, hmeta, hchanged⟩ := halfApplied_changes
    (Generator.startUp zeroDraws deployed) 0 ⟨false, .external "connection refused", rfl,
      deserializeSample_stopEURUSD, rfl, rfl⟩
  exact hchanged (h response hr hmeta "EURUSD")

end KubemqWorkshop
