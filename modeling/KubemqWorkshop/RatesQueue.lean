import Mathlib.Logic.Function.Basic
import KubemqWorkshop.Machine
import KubemqWorkshop.Generator

/-!
# The rates queue: ticks against targeted commands

A tick builds its batch from the flags of the moment and hands it to the
broker, which appends it to the queue some time later; the timer does not wait,
so several batches may be on their way. A targeted command assigns a flag, has
the broker empty the queue and replies; commands may overlap too.

The acknowledgement is there to clear the batches that show the old flags, but
it cannot clear those still on their way. `acknowledged_means_fresh`: in every
run in which no batch is appended *late* — built before a command's assignment,
appended after its acknowledgement, still showing the old activity — the queue
never contradicts a command that was answered `OK` and that no later command
overruled. `late_append_stale`: a late append does contradict it.
-/

namespace KubemqWorkshop

/-- How far the handler is with a targeted command that assigned a flag. -/
inductive Phase where
  /-- the flag is assigned -/
  | assigned
  /-- the broker has emptied the queue -/
  | purged
  /-- the reply `OK` is out -/
  | replied
  /-- the acknowledgement threw, the reply is `Failed` -/
  | failed
  deriving DecidableEq, Repr

/-- The command has emptied the queue. -/
def Phase.Purged (p : Phase) : Prop := p = .purged ∨ p = .replied

/-- A report on its way to the broker. -/
structure InFlight where
  /-- the report -/
  batch : List SenderMessageBody
  /-- how many assignments had been made when it was built -/
  builtAt : ℕ

/-- The generator, the queue and what is between them. -/
structure RatesQueue where
  /-- the started generator -/
  generator : Generator
  /-- the reports on their way -/
  inFlight : List InFlight
  /-- the queue's content, oldest first -/
  queue : List (List SenderMessageBody)
  /-- the assignments targeted commands made, oldest first -/
  assignments : List (String × Bool)
  /-- how far the handler is with each of them -/
  phase : ℕ → Phase

/-- What happens to the generator and the queue. -/
inductive QueueEvent where
  /-- a tick builds its report -/
  | onRateSend : QueueEvent
  /-- the broker appends a report on its way -/
  | sendQueueMessage : ℕ → QueueEvent
  /-- a targeted command with this body runs up to the assignment -/
  | assign : List UInt8 → QueueEvent
  /-- the broker handles the acknowledgement a command asked for -/
  | ackAll : ℕ → Except Exn Unit → QueueEvent
  /-- a command replies `OK` -/
  | reply : ℕ → QueueEvent
  /-- an instrument's timer moves its prices -/
  | rateChange : String → Draws → Draws → QueueEvent

/-- The report shows the instrument with an activity other than `b`. -/
def Stale (batch : List SenderMessageBody) (name : String) (b : Bool) : Prop :=
  ∃ line ∈ batch, line.name = name ∧
    if b then line.ask = none ∧ line.bid = none else line.ask.isSome ∧ line.bid.isSome

section

variable (toString : ℚ → String)
  (deserializeObject : List UInt8 → Except Exn (Option RateRequest))

namespace RatesQueue

/-- One event. A command whose assignment throws leaves everything as it was. -/
def step (s : RatesQueue) : QueueEvent → Option RatesQueue
  | .onRateSend =>
    some { s with
      inFlight := s.inFlight ++ [⟨KubemqWorkshop.onRateSend toString s.generator.rates,
        s.assignments.length⟩] }
  | .sendQueueMessage i =>
    match s.inFlight[i]? with
    | none => none
    | some m => some { s with inFlight := s.inFlight.eraseIdx i, queue := s.queue ++ [m.batch] }
  | .assign body =>
    let applied := s.generator.applyRequest deserializeObject body
    match applied.1 with
    | .ok ⟨some name, active⟩ =>
      some { s with
        generator := applied.2
        assignments := s.assignments ++ [(name, active)]
        phase := Function.update s.phase s.assignments.length .assigned }
    -- the `catch` replies `Failed`, nothing was assigned
    | _ => some { s with generator := applied.2 }
  | .ackAll i outcome =>
    if i < s.assignments.length ∧ s.phase i = .assigned then
      match ackAllQueueMessages s.generator.toManager outcome with
      | .ok () => some { s with queue := [], phase := Function.update s.phase i .purged }
      | .error _ => some { s with phase := Function.update s.phase i .failed }
    else none
  | .reply i =>
    if i < s.assignments.length ∧ s.phase i = .purged then
      some { s with phase := Function.update s.phase i .replied }
    else none
  | .rateChange name buyDraws sellDraws =>
    some { s with
      generator := s.generator.withRates
        (s.generator.rates.modify name fun r => r.onRateChangeEvent buyDraws sellDraws) }

/-- The queue as the constructor leaves it. -/
def init (g : Generator) (queue : List (List SenderMessageBody)) : RatesQueue where
  generator := g
  inFlight := []
  queue := queue
  assignments := []
  phase := fun _ => .assigned

end RatesQueue

/-- Ticks, commands and the broker as a machine. -/
def ratesQueue : Machine RatesQueue QueueEvent :=
  ⟨RatesQueue.step toString deserializeObject⟩

/-- **The promise of a reply**: while an assignment that was answered `OK`
stands, no message in the queue shows its instrument otherwise. -/
def RatesQueue.Fresh (s : RatesQueue) : Prop :=
  ∀ i name b, s.phase i = .replied → Stands s.assignments i s.assignments.length name b →
    ∀ batch ∈ s.queue, ¬ Stale batch name b

/-- The event is no late append: it does not bring in a report that was built
before an assignment, after that assignment's acknowledgement, while it stands
and the report still shows the old activity. -/
def NotLate (s : RatesQueue) : QueueEvent → Prop
  | .sendQueueMessage n =>
    ∀ m, s.inFlight[n]? = some m → ∀ i name b, m.builtAt ≤ i → (s.phase i).Purged →
      Stands s.assignments i s.assignments.length name b → ¬ Stale m.batch name b
  | _ => True

/-- Flags, reports on their way and the queue all agree with the standing
assignments. -/
structure RatesQueue.Invariant (s : RatesQueue) : Prop where
  /-- every instrument is filed under its own name -/
  named : s.generator.rates.WellNamed
  /-- a standing assignment is in the table -/
  flags : ∀ i name b, Stands s.assignments i s.assignments.length name b →
    s.generator.rates.isActive name = some b
  /-- a report agrees with the assignments that stood when it was built -/
  inFlight : ∀ m ∈ s.inFlight, m.builtAt ≤ s.assignments.length ∧
    ∀ i name b, i < m.builtAt → Stands s.assignments i m.builtAt name b → ¬ Stale m.batch name b
  /-- the queue agrees with the standing assignments that emptied it -/
  queue : ∀ i name b, (s.phase i).Purged → Stands s.assignments i s.assignments.length name b →
    ∀ batch ∈ s.queue, ¬ Stale batch name b

variable {toString deserializeObject}

/-- A report never contradicts the table it is built from. -/
theorem not_stale_onRateSend {table : RateTable} (hnamed : table.WellNamed) {name : String}
    {b : Bool} (h : table.isActive name = some b) : ¬ Stale (onRateSend toString table) name b := by
  rintro ⟨line, hline, hname, hstale⟩
  obtain ⟨r, hr, rfl⟩ := List.mem_map.mp hline
  obtain ⟨⟨k, r'⟩, hmem, rfl⟩ := List.mem_map.mp hr
  obtain rfl : k = name := (hnamed.rateName_eq hmem).symm.trans hname
  have hb : r'.isActive = b := Option.some.inj ((RateTable.isActive_of_mem hmem).symm.trans h)
  cases b with
  | true => simp [reportLine, hb] at hstale
  | false => simp [reportLine, hb] at hstale

/-- Flags that follow the standing assignments follow one more. -/
theorem isActive_of_stands_concat {table : RateTable} {assignments : List (String × Bool)}
    (h : ∀ i name b, Stands assignments i assignments.length name b →
      table.isActive name = some b)
    {name₀ : String} {active : Bool} (hkey : name₀ ∈ table.keys) {i : ℕ} {name : String} {b : Bool}
    (hstands : Stands (assignments ++ [(name₀, active)]) i (assignments.length + 1) name b) :
    (table.execute (.set name₀ active)).isActive name = some b := by
  rw [RateTable.isActive_execute, Order.position_set]
  have hlt := hstands.lt_length
  rw [List.length_append, List.length_singleton] at hlt
  rcases Nat.lt_succ_iff_lt_or_eq.mp hlt with hi | rfl
  · -- an older assignment: the new one is elsewhere, or agrees with it
    rw [h i name b ((hstands.of_concat hi).mono (Nat.le_succ _)), Option.map_some]
    by_cases hn : name = name₀
    · rw [if_pos hn, Option.getD_some, hstands.concat_eq hi hn.symm]
    · rw [if_neg hn, Option.getD_none]
  · -- the new assignment: its key is in the table
    obtain ⟨rfl, rfl⟩ := Prod.mk.inj hstands.concat_last
    obtain ⟨b, hb⟩ := Option.isSome_iff_exists.mp (RateTable.isActive_isSome_iff.mpr hkey)
    rw [hb, if_pos rfl, Option.map_some, Option.getD_some]

namespace RatesQueue.Invariant

variable {s s' : RatesQueue}

theorem onRateSend (h : s.Invariant)
    (hs : s.step toString deserializeObject .onRateSend = some s') : s'.Invariant := by
  obtain rfl := Option.some.inj hs
  refine ⟨h.named, h.flags, fun m hm => ?_, h.queue⟩
  rcases List.mem_append.mp hm with hm | hm
  · exact h.inFlight m hm
  · obtain rfl := List.mem_singleton.mp hm
    refine ⟨le_refl _, fun i name b _ hstands => ?_⟩
    exact not_stale_onRateSend h.named (h.flags i name b hstands)

/-- Here the side condition is used: what was built before the assignment must
not be late. -/
theorem sendQueueMessage (h : s.Invariant) {n : ℕ} (hC : NotLate s (.sendQueueMessage n))
    (hs : s.step toString deserializeObject (.sendQueueMessage n) = some s') : s'.Invariant := by
  rcases hn : s.inFlight[n]? with - | m
  · simp [RatesQueue.step, hn] at hs
  · simp only [RatesQueue.step, hn] at hs
    obtain rfl := Option.some.inj hs
    obtain ⟨hbuilt, hagree⟩ := h.inFlight m (List.mem_of_getElem? hn)
    refine ⟨h.named, h.flags, fun m' hm' => h.inFlight m' (List.mem_of_mem_eraseIdx hm'), ?_⟩
    intro i name b hphase hstands batch hbatch
    rcases List.mem_append.mp hbatch with hbatch | hbatch
    · exact h.queue i name b hphase hstands batch hbatch
    · obtain rfl := List.mem_singleton.mp hbatch
      -- built after the assignment it agrees; built before, it is not late
      rcases Nat.lt_or_ge i m.builtAt with hlt | hge
      · exact hagree i name b hlt (hstands.mono hbuilt)
      · exact hC m hn i name b hge hphase hstands

/-- An assignment: the flag follows it, and what is in the queue answers only to
older assignments. -/
theorem assign (h : s.Invariant) {body : List UInt8}
    (hs : s.step toString deserializeObject (.assign body) = some s') : s'.Invariant := by
  have hrates := s.generator.rates_applyRequest deserializeObject body
  rcases s.generator.applyRequest_fst deserializeObject body with
    ⟨ex, hfst, ho⟩ | ⟨name₀, active, hfst, ho⟩
  · rw [ho, RateTable.execute] at hrates
    simp only [RatesQueue.step, hfst] at hs
    obtain rfl := Option.some.inj hs
    refine ⟨?_, ?_, h.inFlight, h.queue⟩
    · rw [hrates]
      exact h.named
    · rw [hrates]
      exact h.flags
  · rw [ho] at hrates
    obtain ⟨-, hkey⟩ := bodyOrder_eq_set.mp ho
    simp only [RatesQueue.step, hfst] at hs
    obtain rfl := Option.some.inj hs
    refine ⟨?_, ?_, ?_, ?_⟩
    · rw [RateTable.WellNamed, hrates, RateTable.identities_execute]
      exact h.named
    · intro i name b hstands
      rw [hrates]
      rw [List.length_append, List.length_singleton] at hstands
      exact isActive_of_stands_concat h.flags hkey hstands
    · intro m hm
      obtain ⟨hbuilt, hagree⟩ := h.inFlight m hm
      refine ⟨by simp only [List.length_append, List.length_singleton]; omega, ?_⟩
      intro i name b hi hstands
      exact hagree i name b hi (hstands.of_concat (by omega))
    · intro i name b hphase hstands batch hbatch
      have hlt := hstands.lt_length
      simp only [List.length_append, List.length_singleton] at hlt hstands
      rcases Nat.lt_succ_iff_lt_or_eq.mp hlt with hi | rfl
      · simp only [Function.update_of_ne (Nat.ne_of_lt hi)] at hphase
        exact h.queue i name b hphase ((hstands.of_concat hi).mono (Nat.le_succ _)) batch hbatch
      · simp [Phase.Purged] at hphase

theorem ackAll (h : s.Invariant) {i : ℕ} {outcome : Except Exn Unit}
    (hs : s.step toString deserializeObject (.ackAll i outcome) = some s') : s'.Invariant := by
  simp only [RatesQueue.step] at hs
  split at hs
  · split at hs
    · obtain rfl := Option.some.inj hs
      exact ⟨h.named, h.flags, h.inFlight, fun _ _ _ _ _ _ hb => absurd hb List.not_mem_nil⟩
    · obtain rfl := Option.some.inj hs
      refine ⟨h.named, h.flags, h.inFlight, fun j name b hphase => ?_⟩
      by_cases hj : j = i
      · subst hj
        simp [Phase.Purged] at hphase
      · simp only [Function.update_of_ne hj] at hphase
        exact h.queue j name b hphase
  · cases hs

theorem reply (h : s.Invariant) {i : ℕ}
    (hs : s.step toString deserializeObject (.reply i) = some s') : s'.Invariant := by
  simp only [RatesQueue.step] at hs
  split at hs
  · rename_i hi
    obtain rfl := Option.some.inj hs
    refine ⟨h.named, h.flags, h.inFlight, fun j name b hphase => ?_⟩
    by_cases hj : j = i
    · subst hj
      exact h.queue j name b (.inl hi.2)
    · simp only [Function.update_of_ne hj] at hphase
      exact h.queue j name b hphase
  · cases hs

theorem rateChange (h : s.Invariant) {name : String} {buyDraws sellDraws : Draws}
    (hs : s.step toString deserializeObject (.rateChange name buyDraws sellDraws) = some s') :
    s'.Invariant := by
  obtain rfl := Option.some.inj hs
  refine ⟨?_, ?_, h.inFlight, h.queue⟩
  · rw [RateTable.WellNamed, Generator.rates_withRates,
      RateTable.identities_modify _ _ (fun r => r.onRateChangeEvent_rateName _ _)
        (fun r => r.onRateChangeEvent_id _ _)]
    exact h.named
  · intro i name' b hstands
    rw [Generator.rates_withRates, isActive_rateChange]
    exact h.flags i name' b hstands

/-- One event that is no late append keeps the invariant. -/
theorem step (h : s.Invariant) {e : QueueEvent} (hC : NotLate s e)
    (hs : s.step toString deserializeObject e = some s') : s'.Invariant := by
  cases e with
  | onRateSend => exact h.onRateSend hs
  | sendQueueMessage n => exact h.sendQueueMessage hC hs
  | assign body => exact h.assign hs
  | ackAll i outcome => exact h.ackAll hs
  | reply i => exact h.reply hs
  | rateChange name buyDraws sellDraws => exact h.rateChange hs

theorem init (g : Generator) (hg : g.rates.WellNamed) (queue : List (List SenderMessageBody)) :
    (RatesQueue.init g queue).Invariant := by
  refine ⟨hg, fun i name b h => ?_, fun m hm => absurd hm List.not_mem_nil, fun i name b _ h => ?_⟩
  · exact absurd h.lt_length (Nat.not_lt_zero i)
  · exact absurd h.lt_length (Nat.not_lt_zero i)

end RatesQueue.Invariant

variable (toString deserializeObject) in
/-- **No stale report after an `OK`.** In every run without late appends, from
the started generator and any queue, no message contradicts a standing
assignment that was answered `OK`. -/
theorem acknowledged_means_fresh (rnd : ℤ → NextDouble × NextDouble) (settings : Settings)
    (queue : List (List SenderMessageBody)) (es : List QueueEvent) {s : RatesQueue}
    (hC : (ratesQueue toString deserializeObject).Meets NotLate
      (RatesQueue.init (Generator.startUp rnd settings) queue) es)
    (hrun : (ratesQueue toString deserializeObject).run
      (RatesQueue.init (Generator.startUp rnd settings) queue) es = some s) :
    s.Fresh := by
  have hinv : s.Invariant :=
    (ratesQueue toString deserializeObject).run_invariant (fun _ _ _ hI hC hs => hI.step hC hs)
      (RatesQueue.Invariant.init (Generator.startUp rnd settings)
        (initialRates_wellNamed settings.autoStart rnd) queue) hC hrun
  exact fun i name b hphase => hinv.queue i name b (.inr hphase)

/-- **The condition is needed**: after a late append the queue contradicts an
assignment that is answered `OK`, at once or with the handler's next step. -/
theorem late_append_stale {s : RatesQueue} {n : ℕ} (h : ¬ NotLate s (.sendQueueMessage n)) :
    ∃ es s', (ratesQueue toString deserializeObject).run s (.sendQueueMessage n :: es) = some s' ∧
      ¬ s'.Fresh := by
  simp only [NotLate, not_forall, not_not] at h
  obtain ⟨m, hm, i, name, b, -, hphase, hstands, hstale⟩ := h
  have hmem : m.batch ∈ s.queue ++ [m.batch] :=
    List.mem_append_right _ (List.mem_singleton.mpr rfl)
  rcases hphase with hphase | hphase
  · refine ⟨[.reply i], { s with
      inFlight := s.inFlight.eraseIdx n
      queue := s.queue ++ [m.batch]
      phase := Function.update s.phase i .replied }, ?_, fun hfresh => ?_⟩
    · simp [ratesQueue, Machine.run, RatesQueue.step, hm, hstands.lt_length, hphase]
    · exact hfresh i name b (by simp) hstands m.batch hmem hstale
  · refine ⟨[], { s with
      inFlight := s.inFlight.eraseIdx n
      queue := s.queue ++ [m.batch] }, ?_, fun hfresh => ?_⟩
    · simp [ratesQueue, Machine.run, RatesQueue.step, hm]
    · exact hfresh i name b hphase hstands m.batch hmem hstale

end

/-! ## Two runs of the deployed generator -/

/-- A command that stops EURUSD, and a report built after its assignment. -/
def timelyRun : List QueueEvent :=
  [.assign stopEURUSD.body, .onRateSend, .ackAll 0 (.ok ()), .sendQueueMessage 0, .reply 0]

theorem acknowledged_means_fresh_timelyRun :
    ∃ s, (ratesQueue (fun _ => "1") deserializeSample).run
        (RatesQueue.init (Generator.startUp zeroDraws deployed) []) timelyRun = some s ∧
      s.phase 0 = .replied ∧ s.queue.length = 1 ∧ s.Fresh := by
  refine ⟨_, rfl, rfl, rfl,
    acknowledged_means_fresh _ deserializeSample zeroDraws deployed [] timelyRun ?_ rfl⟩
  refine ⟨trivial, fun s₁ h₁ => ⟨trivial, fun s₂ h₂ => ⟨trivial, fun s₃ h₃ => ⟨?_, fun s₄ _ =>
    ⟨trivial, fun _ _ => trivial⟩⟩⟩⟩⟩
  obtain rfl := Option.some.inj h₁
  obtain rfl := Option.some.inj h₂
  obtain rfl := Option.some.inj h₃
  -- the one assignment was made before the one report was built
  intro m hm i name b hi _ hstands
  obtain rfl := Option.some.inj hm
  exact absurd hstands.lt_length (Nat.not_lt.mpr hi)

/-- The report is built while EURUSD is active, and appended after the command
that stops it was answered `OK`. -/
theorem report_in_flight_survives_acknowledgement :
    ¬ ∀ es s, (ratesQueue (fun _ => "1") deserializeSample).run
        (RatesQueue.init (Generator.startUp zeroDraws deployed) []) es = some s → s.Fresh := by
  intro h
  have hfresh := h [.onRateSend, .assign stopEURUSD.body, .ackAll 0 (.ok ()), .reply 0,
    .sendQueueMessage 0] _ rfl
  refine hfresh 0 "EURUSD" false rfl ⟨rfl, fun j b' h0 h1 => ?_⟩ _ (List.mem_singleton.mpr rfl) ?_
  · change j < 1 at h1
    omega
  · exact ⟨_, List.mem_cons_self .., rfl, rfl, rfl⟩

end KubemqWorkshop
