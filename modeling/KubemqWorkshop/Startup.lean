import KubemqWorkshop.Machine
import KubemqWorkshop.Generator

/-!
# Commands during start-up

The constructor of `Manager` starts the subscription in a background task and
goes on to create the queue handle, ping the broker, acknowledge what is in the
queue, build the table and arm the timer. Commands reach the handler at any
point of that — also between the handler's look at the table and its
acknowledgement of the queue, which is why a command event carries the
constructor's steps that fall in between (`during`).

`startup_commands`: as long as every untargeted command finds the table built
and no targeted command is half applied to an instrument that an acknowledged
command has put somewhere, every command is answered with a response and every
acknowledged change is in force when the constructor is done. The first
condition is needed because that branch of the handler has no `try`
(`untargeted_command_escapes`), the second because the other branch's `catch`
does not undo the assignment; no weaker one would do (`disorderly_not_kept`).
-/

namespace KubemqWorkshop

/-! ## The rest of the constructor -/

/-- The statement the constructor executes next, once the subscription task is
started. -/
inductive Progress where
  /-- `queue = new Queue(…)` -/
  | createQueue
  /-- `queue.Ping()` -/
  | ping
  /-- `queue.AckAllQueueMessagesResponse()` -/
  | ackAll
  /-- the assignment of `rateCollection` -/
  | newRates
  /-- `SetRateTimer()` -/
  | setTimer
  /-- the constructor has returned -/
  | finished
  /-- the process is gone: `Exit(1)`, or an exception out of the constructor -/
  | exited
  deriving DecidableEq, Repr

/-- The object under construction. -/
structure Construction where
  /-- the constructor's position -/
  next : Progress
  /-- the object so far -/
  manager : Manager

/-- The `try` around the broker calls: its `catch` ends the process. -/
def Construction.attempt (c : Construction) (outcome : Except Exn Unit)
    (done : Construction) : Construction :=
  match outcome with
  | .ok () => done
  | .error _ => { c with next := .exited }

/-- One statement of the constructor; `outcome` is what the broker call in it
does. `new Timer(RateInterval)` throws unless the interval is positive. -/
def constructorStep (rnd : ℤ → NextDouble × NextDouble) (c : Construction)
    (outcome : Except Exn Unit) : Option Construction :=
  match c.next with
  | .createQueue => some (c.attempt outcome ⟨.ping, c.manager.createQueue⟩)
  | .ping => some (c.attempt outcome ⟨.ackAll, c.manager⟩)
  | .ackAll => some (c.attempt outcome ⟨.newRates, c.manager⟩)
  | .newRates => some ⟨.setTimer, c.manager.startSendingRates rnd⟩
  -- the exception of `new Timer` leaves the constructor
  | .setTimer => some ⟨if 0 < c.manager.rateInterval then .finished else .exited, c.manager⟩
  | .finished => none
  | .exited => none

/-- The constructor as a machine. -/
def construction (rnd : ℤ → NextDouble × NextDouble) : Machine Construction (Except Exn Unit) :=
  ⟨constructorStep rnd⟩

/-- What is set at each position of the constructor. -/
def Construction.Fits (c : Construction) : Prop :=
  match c.next with
  | .createQueue => c.manager.rateCollection = none
  | .ping | .ackAll | .newRates => c.manager.queue.isSome ∧ c.manager.rateCollection = none
  | .setTimer | .finished => c.manager.queue.isSome ∧ c.manager.rateCollection.isSome
  | .exited => c.manager.rateCollection.isSome → c.manager.queue.isSome

/-- The table is never there before the queue handle. -/
theorem Construction.Fits.queue_of_rates {c : Construction} (h : c.Fits)
    (hr : c.manager.rateCollection.isSome) : c.manager.queue.isSome := by
  unfold Fits at h
  rcases hn : c.next <;> rw [hn] at h <;> simp_all

/-- Leaving the constructor takes nothing back. -/
theorem Construction.Fits.exit {c : Construction} (h : c.Fits) :
    Construction.Fits { c with next := .exited } :=
  fun hr => h.queue_of_rates hr

theorem Construction.Fits.attempt {c done : Construction} (h : c.Fits) (hdone : done.Fits)
    (outcome : Except Exn Unit) : (c.attempt outcome done).Fits := by
  rcases outcome with ex | u
  · exact h.exit
  · exact hdone

theorem constructorStep_fits {rnd : ℤ → NextDouble × NextDouble} {c c' : Construction}
    {outcome : Except Exn Unit} (h : c.Fits) (hs : constructorStep rnd c outcome = some c') :
    c'.Fits := by
  have hfits := h
  unfold Construction.Fits at h
  unfold constructorStep at hs
  rcases hn : c.next <;> rw [hn] at h hs <;> simp only [Option.some.injEq, reduceCtorEq] at hs <;>
    subst hs
  · apply hfits.attempt
    exact ⟨rfl, h⟩
  · apply hfits.attempt
    exact h
  · apply hfits.attempt
    exact h
  · exact ⟨h.1, rfl⟩
  · by_cases hi : 0 < c.manager.rateInterval
    · simpa [Construction.Fits, hi] using h
    · simpa [Construction.Fits, hi] using fun _ => h.1

/-- Once the table is there the constructor does not touch the object again. -/
theorem constructorStep_frame {rnd : ℤ → NextDouble × NextDouble} {c c' : Construction}
    {outcome : Except Exn Unit} (h : c.Fits) (hr : c.manager.rateCollection.isSome)
    (hs : constructorStep rnd c outcome = some c') : c'.manager = c.manager := by
  unfold Construction.Fits at h
  unfold constructorStep at hs
  rcases hn : c.next <;> rw [hn] at h hs <;> simp only [Option.some.injEq, reduceCtorEq] at hs
  · rw [h] at hr
    cases hr
  · rw [h.2] at hr
    cases hr
  · rw [h.2] at hr
    cases hr
  · rw [h.2] at hr
    cases hr
  · subst hs
    rfl

/-- Replacing the table by another one does not matter to the constructor. -/
theorem Construction.Fits.withRates {c : Construction} (h : c.Fits)
    (hr : c.manager.rateCollection.isSome) (table : RateTable) :
    Construction.Fits ⟨c.next, { c.manager with rateCollection := some table }⟩ := by
  have hq := h.queue_of_rates hr
  unfold Fits at h ⊢
  rcases hn : c.next <;> rw [hn] at h <;> simp_all

theorem construction_run_frame {rnd : ℤ → NextDouble × NextDouble} {os : List (Except Exn Unit)}
    {c c' : Construction} (h : c.Fits) (hr : c.manager.rateCollection.isSome)
    (hs : (construction rnd).run c os = some c') : c'.Fits ∧ c'.manager = c.manager := by
  refine (construction rnd).run_preserves
    (I := fun c' => c'.Fits ∧ c'.manager = c.manager) ?_ ⟨h, rfl⟩ hs
  rintro t o t' ⟨hf, hm⟩ ht
  refine ⟨constructorStep_fits hf ht, ?_⟩
  rw [constructorStep_frame hf (by rw [hm]; exact hr) ht, hm]

/-! ## The board behind the table -/

/-- The table shows the board that obeyed these orders, at the instruments they
mention. -/
def RateTable.Shows (table : RateTable) (autoStart : Bool) (os : List (Order String)) : Prop :=
  table.keys = instruments.map Prod.fst ∧
    ∀ name ∈ instruments.map Prod.fst, Mentioned os name →
      table.isActive name = some (obey os (fun _ => autoStart) name)

theorem initialRates_shows (autoStart : Bool) (rnd : ℤ → NextDouble × NextDouble) :
    (initialRates autoStart rnd).Shows autoStart [] :=
  ⟨rfl, fun name hname _ => initialRates_isActive autoStart rnd name hname⟩

/-- Carrying out one more order. -/
theorem RateTable.Shows.execute {table : RateTable} {autoStart : Bool} {os : List (Order String)}
    (h : table.Shows autoStart os) (o : Order String) :
    (table.execute o).Shows autoStart (os ++ [o]) := by
  refine ⟨(table.keys_execute o).trans h.1, fun name hname hmentioned => ?_⟩
  rw [isActive_execute, obey_append, obey_cons, obey_nil, Order.apply]
  rcases ho : o.position name with - | b
  · rw [h.2 name hname ((mentioned_concat.mp hmentioned).resolve_right (by simp [ho]))]
    rfl
  · obtain ⟨b', hb'⟩ := Option.isSome_iff_exists.mp
      (isActive_isSome_iff.mpr (by rw [h.1]; exact hname))
    rw [hb']
    rfl

theorem RateTable.Shows.of_isActive {table table' : RateTable} {autoStart : Bool}
    {os : List (Order String)} (h : table.Shows autoStart os) (hkeys : table'.keys = table.keys)
    (hflag : ∀ name, Mentioned os name → table'.isActive name = table.isActive name) :
    table'.Shows autoStart os :=
  ⟨hkeys.trans h.1, fun name hname hmentioned =>
    (hflag name hmentioned).trans (h.2 name hname hmentioned)⟩

/-- The object shows the orders carried out so far; before the table exists
there are none. -/
def Manager.Shows (m : Manager) (os : List (Order String)) : Prop :=
  match m.rateCollection with
  | none => os = []
  | some table => table.Shows m.autoStart os

theorem Manager.shows_of_table {m : Manager} {table : RateTable} {os : List (Order String)}
    (hm : m.rateCollection = some table) : m.Shows os ↔ table.Shows m.autoStart os := by
  rw [Shows, hm]

theorem constructorStep_shows {rnd : ℤ → NextDouble × NextDouble} {c c' : Construction}
    {outcome : Except Exn Unit} {os : List (Order String)} (hf : c.Fits) (h : c.manager.Shows os)
    (hs : constructorStep rnd c outcome = some c') : c'.manager.Shows os := by
  rcases hr : c.manager.rateCollection with - | table
  · -- no table yet, hence no orders
    rw [Manager.Shows, hr] at h
    subst h
    unfold constructorStep at hs
    rcases hn : c.next <;> rw [hn] at hs <;> simp only [Option.some.injEq, reduceCtorEq] at hs <;>
      subst hs
    · rcases outcome <;> simp [Construction.attempt, Manager.Shows, Manager.createQueue, hr]
    · rcases outcome <;> simp [Construction.attempt, Manager.Shows, hr]
    · rcases outcome <;> simp [Construction.attempt, Manager.Shows, hr]
    · exact initialRates_shows c.manager.autoStart rnd
    · simp [Manager.Shows, hr]
  · rw [constructorStep_frame hf (by rw [hr]; rfl) hs]
    exact h

theorem construction_run_shows {rnd : ℤ → NextDouble × NextDouble}
    {outcomes : List (Except Exn Unit)} {c c' : Construction} {os : List (Order String)}
    (hf : c.Fits) (h : c.manager.Shows os)
    (hs : (construction rnd).run c outcomes = some c') : c'.Fits ∧ c'.manager.Shows os := by
  refine (construction rnd).run_preserves
    (I := fun c' => c'.Fits ∧ c'.manager.Shows os) ?_ ⟨hf, h⟩ hs
  rintro t o t' ⟨hft, hst⟩ ht
  exact ⟨constructorStep_fits hft ht, constructorStep_shows hft hst ht⟩

/-! ## Commands against the constructor -/

/-- A command the handler is through with. -/
structure Delivery where
  /-- the command -/
  request : RequestReceive
  /-- the response, or the exception that escaped the handler -/
  result : Except Exn Response

namespace Delivery

/-- The reply says `OK`. -/
def acknowledged (d : Delivery) : Bool :=
  match d.result with
  | .ok response => response.metadata == "OK"
  | .error _ => false

end Delivery

/-- The generator during start-up. -/
structure Startup extends Construction where
  /-- the commands the handler is through with, oldest first -/
  log : List Delivery

/-- What happens during start-up. -/
inductive StartupEvent where
  /-- the constructor goes on by one statement -/
  | constructor : Except Exn Unit → StartupEvent
  /-- a command: the outcome of its acknowledgement, the time, and what the
  constructor does between the handler's look at the table and that call -/
  | command : RequestReceive → Except Exn Unit → ℕ → List (Except Exn Unit) → StartupEvent

section

variable (deserializeObject : List UInt8 → Except Exn (Option RateRequest))
  (rnd : ℤ → NextDouble × NextDouble)

/-- The handler is through, unless the process ended under it. -/
def Startup.deliver (s : Startup) (d : Delivery) (c : Construction) : Startup :=
  if c.next = .exited then { c with log := s.log } else { c with log := s.log ++ [d] }

/-- One event; nothing happens after the process is gone. -/
def Startup.step (s : Startup) : StartupEvent → Option Startup
  | .constructor outcome =>
    (constructorStep rnd s.toConstruction outcome).map fun c => { c with log := s.log }
  | .command request ack utcNow during =>
    if s.next = .exited then none
    else if request.targeted then
      let applied := applyRequest deserializeObject s.manager request.body
      -- the queue handle is read only after the constructor has gone on
      ((construction rnd).run ⟨s.next, applied.2⟩ during).map fun c =>
        s.deliver ⟨request, .ok (finishRequest c.manager utcNow ack applied.1)⟩ c
    else
      let started := startAll s.manager utcNow
      ((construction rnd).run ⟨s.next, started.2⟩ during).map fun c =>
        s.deliver ⟨request, started.1⟩ c

/-- Start-up as a machine. -/
def startup : Machine Startup StartupEvent := ⟨Startup.step deserializeObject rnd⟩

/-- The state in which the subscription task is started. -/
def Startup.init (settings : Settings) : Startup where
  next := .createQueue
  manager := Manager.init settings
  log := []

/-- The change a command asks for. -/
def Delivery.order (d : Delivery) : Order String :=
  orderOf deserializeObject (instruments.map Prod.fst) d.request

/-- The acknowledged changes, oldest first. -/
def acknowledgedOrders (log : List Delivery) : List (Order String) :=
  (log.filter Delivery.acknowledged).map (Delivery.order deserializeObject)

/-- Every acknowledged change is in force, unless a later acknowledged command
changed the same instrument. -/
def Startup.InForce (s : Startup) : Prop :=
  ∀ pre d post, s.log = pre ++ d :: post → d.acknowledged = true →
    ∀ name ∈ instruments.map Prod.fst, ∀ b,
      (d.order deserializeObject).position name = some b →
      (∃ d' ∈ post, d'.acknowledged = true ∧
        ((d'.order deserializeObject).position name).isSome) ∨
      s.manager.isActive name = some b

/-- What start-up promises: every command is answered, and when the constructor
is done the acknowledged changes are in force. -/
def Startup.Kept (s : Startup) : Prop :=
  (∀ d ∈ s.log, ∃ response, d.result = .ok response) ∧
    (s.next = .finished → s.InForce deserializeObject)

/-- A command without a target finds the table, and a command with one is not
half applied to an instrument that an acknowledged command has put somewhere. -/
def Orderly (s : Startup) : StartupEvent → Prop
  | .constructor _ => True
  | .command request ack _ _ =>
    (request.targeted = false → s.manager.rateCollection.isSome) ∧
      ∀ name, Mentioned (acknowledgedOrders deserializeObject s.log) name →
        ¬ HalfAppliedTo deserializeObject s.manager.isActive request ack name

/-! ## The invariant -/

/-- Along orderly runs the table shows what the acknowledged orders mention. -/
structure Startup.Invariant (s : Startup) : Prop where
  /-- what is set fits the constructor's position -/
  fits : s.toConstruction.Fits
  /-- no exception escaped the handler -/
  replied : ∀ d ∈ s.log, ∃ response, d.result = .ok response
  /-- the table is the board of the acknowledged orders -/
  shows : s.next ≠ .exited → s.manager.Shows (acknowledgedOrders deserializeObject s.log)

variable {deserializeObject rnd}

theorem acknowledgedOrders_append (log : List Delivery) (d : Delivery) :
    acknowledgedOrders deserializeObject (log ++ [d]) =
      acknowledgedOrders deserializeObject log ++
        if d.acknowledged then [d.order deserializeObject] else [] := by
  by_cases h : d.acknowledged = true <;> simp [acknowledgedOrders, h]

theorem acknowledgedOrders_eq (pre : List Delivery) (d : Delivery) (post : List Delivery)
    (hd : d.acknowledged = true) :
    acknowledgedOrders deserializeObject (pre ++ d :: post) =
      acknowledgedOrders deserializeObject pre ++
        d.order deserializeObject :: acknowledgedOrders deserializeObject post := by
  simp [acknowledgedOrders, hd]

/-- A delivery keeps the invariant when its result is a response and the table
shows its order if it is acknowledged, and the old orders otherwise. -/
theorem Startup.Invariant.deliver {s : Startup} (h : s.Invariant deserializeObject)
    {d : Delivery} {response : Response} (hd : d.result = .ok response) {c : Construction}
    (hf : c.Fits)
    (hshows : c.manager.Shows (acknowledgedOrders deserializeObject s.log ++
      if d.acknowledged then [d.order deserializeObject] else [])) :
    (s.deliver d c).Invariant deserializeObject := by
  unfold Startup.deliver
  by_cases hc : c.next = .exited
  · rw [if_pos hc]
    exact ⟨hf, h.replied, fun hne => absurd hc hne⟩
  · rw [if_neg hc]
    refine ⟨hf, ?_, fun _ => ?_⟩
    · intro d' hd'
      rcases List.mem_append.mp hd' with hd' | hd'
      · exact h.replied d' hd'
      · obtain rfl := List.mem_singleton.mp hd'
        exact ⟨response, hd⟩
    · rw [acknowledgedOrders_append]
      exact hshows

/-- The constructor's own steps keep the invariant. -/
theorem constructor_invariant {s s' : Startup} {outcome : Except Exn Unit}
    (h : s.Invariant deserializeObject)
    (hs : s.step deserializeObject rnd (.constructor outcome) = some s') :
    s'.Invariant deserializeObject := by
  obtain ⟨c, hc, rfl⟩ := Option.map_eq_some_iff.mp hs
  have hne : s.next ≠ .exited := by
    intro hex
    simp [constructorStep, hex] at hc
  exact ⟨constructorStep_fits h.fits hc, h.replied,
    fun _ => constructorStep_shows h.fits (h.shows hne) hc⟩

/-- A command that has carried an order out on the table keeps the invariant if
it is acknowledged, or if it moved no flag that an acknowledged command
mentions. -/
theorem Startup.Invariant.deliver_execute {s : Startup} (h : s.Invariant deserializeObject)
    (hne : s.next ≠ .exited) {table : RateTable} (htable : s.manager.rateCollection = some table)
    {o : Order String} {during : List (Except Exn Unit)} {c : Construction}
    (hc : (construction rnd).run
      ⟨s.next, { s.manager with rateCollection := some (table.execute o) }⟩ during = some c)
    {d : Delivery} {response : Response} (hd : d.result = .ok response)
    (hcase : (d.acknowledged = true ∧ d.order deserializeObject = o) ∨
      (d.acknowledged = false ∧
        ∀ name, Mentioned (acknowledgedOrders deserializeObject s.log) name →
          (table.execute o).isActive name = table.isActive name)) :
    (s.deliver d c).Invariant deserializeObject := by
  have hr : s.manager.rateCollection.isSome := by rw [htable]; rfl
  obtain ⟨hcf, hcm⟩ := construction_run_frame (h.fits.withRates hr _) rfl hc
  have hshow := (Manager.shows_of_table htable).mp (h.shows hne)
  refine h.deliver hd hcf ?_
  rw [hcm, Manager.shows_of_table rfl]
  rcases hcase with ⟨hack, horder⟩ | ⟨hack, hflag⟩
  · rw [if_pos hack, horder]
    exact hshow.execute o
  · rw [if_neg (by simp [hack]), List.append_nil]
    exact hshow.of_isActive (table.keys_execute o) hflag

/-- What the handler and the constructor leave of the queue handle. -/
theorem Startup.Invariant.queue_isSome {s : Startup} (h : s.Invariant deserializeObject)
    (hr : s.manager.rateCollection.isSome) {table : RateTable}
    {during : List (Except Exn Unit)} {c : Construction}
    (hc : (construction rnd).run
      ⟨s.next, { s.manager with rateCollection := some table }⟩ during = some c) :
    c.manager.queue.isSome := by
  rw [(construction_run_frame (h.fits.withRates hr _) rfl hc).2]
  exact h.fits.queue_of_rates hr

/-- An untargeted command that finds the table keeps the invariant. -/
theorem untargeted_invariant {s s' : Startup} {request : RequestReceive} {ack : Except Exn Unit}
    {utcNow : ℕ} {during : List (Except Exn Unit)} (h : s.Invariant deserializeObject)
    (ht : request.targeted = false) (hr : s.manager.rateCollection.isSome)
    (hs : s.step deserializeObject rnd (.command request ack utcNow during) = some s') :
    s'.Invariant deserializeObject := by
  obtain ⟨table, htable⟩ := Option.isSome_iff_exists.mp hr
  simp only [Startup.step, ht] at hs
  split at hs
  · cases hs
  rename_i hne
  simp only [Bool.false_eq_true, if_false, startAll, htable] at hs
  obtain ⟨c, hc, rfl⟩ := Option.map_eq_some_iff.mp hs
  exact h.deliver_execute (o := .all) hne htable hc rfl (.inl ⟨rfl, orderOf_untargeted ht⟩)

variable (deserializeObject) in
/-- Without a table, a targeted command throws before it changes anything. -/
theorem applyRequest_null {m : Manager} (hm : m.rateCollection = none) (body : List UInt8) :
    ∃ ex, applyRequest deserializeObject m body = (.error ex, m) := by
  unfold applyRequest
  rcases deserializeObject body with ex | - | req
  · exact ⟨ex, rfl⟩
  · exact ⟨.nullReference, rfl⟩
  · exact ⟨.nullReference, by rw [hm]⟩

variable (deserializeObject) in
/-- A targeted command throws before the assignment, or carries its order out. -/
theorem applyRequest_cases (m : Manager) (body : List UInt8) :
    (∃ ex, applyRequest deserializeObject m body = (.error ex, m)) ∨
    ∃ table name active, m.rateCollection = some table ∧
      bodyOrder deserializeObject table.keys body = .set name active ∧
      applyRequest deserializeObject m body =
        (.ok ⟨some name, active⟩,
          { m with rateCollection := some (table.execute (.set name active)) }) := by
  rcases htable : m.rateCollection with - | table
  · exact .inl (applyRequest_null deserializeObject htable body)
  · rcases applyRequest_spec deserializeObject htable body with
      ⟨ex, -, hex⟩ | ⟨name, active, ho, happ⟩
    · exact .inl ⟨ex, hex⟩
    · exact .inr ⟨table, name, active, rfl, ho, happ⟩

/-- A targeted command that is not half applied keeps the invariant. -/
theorem targeted_invariant {s s' : Startup} {request : RequestReceive} {ack : Except Exn Unit}
    {utcNow : ℕ} {during : List (Except Exn Unit)} (h : s.Invariant deserializeObject)
    (ht : request.targeted = true)
    (hnot : ∀ name, Mentioned (acknowledgedOrders deserializeObject s.log) name →
      ¬ HalfAppliedTo deserializeObject s.manager.isActive request ack name)
    (hs : s.step deserializeObject rnd (.command request ack utcNow during) = some s') :
    s'.Invariant deserializeObject := by
  simp only [Startup.step, ht, if_true] at hs
  split at hs
  · cases hs
  rename_i hne
  obtain ⟨c, hc, rfl⟩ := Option.map_eq_some_iff.mp hs
  rcases applyRequest_cases deserializeObject s.manager request.body with
    ⟨ex, hex⟩ | ⟨table, name, active, htable, ho, happ⟩
  · -- an exception before the assignment leaves the object alone
    rw [hex] at hc ⊢
    obtain ⟨hcf, hcs⟩ := construction_run_shows h.fits (h.shows hne) hc
    refine h.deliver rfl hcf ?_
    simpa [Delivery.acknowledged, finishRequest, failedResponse] using hcs
  · rw [happ] at hc ⊢
    have hr : s.manager.rateCollection.isSome := by rw [htable]; rfl
    have hq := h.queue_isSome hr hc
    refine h.deliver_execute hne htable hc rfl ?_
    rcases ack with ex | u
    · -- the acknowledgement throws: the command moved no flag that counts
      refine .inr ⟨by rw [finishRequest_error hq]; rfl, fun name' hname' => ?_⟩
      have hsame : s.manager.isActive = table.isActive := by
        funext name'
        simp [Manager.isActive, htable]
      rw [hsame] at hnot
      have := isActive_execute_of_not_halfApplied ht (hnot name' hname') (.inr rfl)
      rwa [orderOf_of_targeted ht, ho] at this
    · have hshow := (Manager.shows_of_table htable).mp (h.shows hne)
      refine .inl ⟨by rw [finishRequest_ok hq]; rfl, ?_⟩
      rw [Delivery.order, orderOf_of_targeted ht, ← hshow.1]
      exact ho

/-- One orderly event keeps the invariant. -/
theorem startup_step_invariant {s s' : Startup} {e : StartupEvent}
    (h : s.Invariant deserializeObject) (hC : Orderly deserializeObject s e)
    (hs : s.step deserializeObject rnd e = some s') : s'.Invariant deserializeObject := by
  cases e with
  | constructor outcome => exact constructor_invariant h hs
  | command request ack utcNow during =>
    by_cases ht : request.targeted = true
    · exact targeted_invariant h ht hC.2 hs
    · have hf : request.targeted = false := by simpa using ht
      exact untargeted_invariant h hf (hC.1 hf) hs

theorem Startup.init_invariant (settings : Settings) :
    (Startup.init settings).Invariant deserializeObject :=
  ⟨rfl, fun _ hd => absurd hd List.not_mem_nil, fun _ => rfl⟩

/-- Under the invariant, an instrument is where the last acknowledged command
that mentions it has put it. -/
theorem Startup.Invariant.isActive_eq {s : Startup} (h : s.Invariant deserializeObject)
    (hne : s.next ≠ .exited) (hr : s.manager.rateCollection.isSome) {pre post : List Delivery}
    {d : Delivery} (hlog : s.log = pre ++ d :: post) (hack : d.acknowledged = true) {name : String}
    (hname : name ∈ instruments.map Prod.fst) {b : Bool}
    (hb : (d.order deserializeObject).position name = some b)
    (hpost : ∀ d' ∈ post, d'.acknowledged = true →
      (d'.order deserializeObject).position name = none) :
    s.manager.isActive name = some b := by
  obtain ⟨table, htable⟩ := Option.isSome_iff_exists.mp hr
  have hshow := (Manager.shows_of_table htable).mp (h.shows hne)
  have horders : acknowledgedOrders deserializeObject s.log =
      acknowledgedOrders deserializeObject pre ++
        d.order deserializeObject :: acknowledgedOrders deserializeObject post := by
    rw [hlog, acknowledgedOrders_eq pre d post hack]
  have hlast : ∀ o ∈ acknowledgedOrders deserializeObject post, o.position name = none := by
    intro o ho
    obtain ⟨d', hd', rfl⟩ := List.mem_map.mp ho
    obtain ⟨hmem, hack'⟩ := List.mem_filter.mp hd'
    exact hpost d' hmem hack'
  have hmentioned : Mentioned (acknowledgedOrders deserializeObject s.log) name :=
    ⟨d.order deserializeObject, by rw [horders]; simp, by rw [hb]; rfl⟩
  rw [Manager.isActive, htable, Option.bind_some, hshow.2 name hname hmentioned, horders,
    obey_last hb hlast]

/-- Under the invariant, an acknowledged change that no later acknowledged
command touched is in force. -/
theorem Startup.Invariant.inForce {s : Startup} (h : s.Invariant deserializeObject)
    (hdone : s.next = .finished) : s.InForce deserializeObject := by
  intro pre d post hlog hack name hname b hb
  by_cases hlater : ∃ d' ∈ post, d'.acknowledged = true ∧
      ((d'.order deserializeObject).position name).isSome
  · exact .inl hlater
  · have hr : s.manager.rateCollection.isSome := by
      have := h.fits
      rw [Construction.Fits, hdone] at this
      exact this.2
    refine .inr (h.isActive_eq (by rw [hdone]; decide) hr hlog hack hname hb ?_)
    intro d' hd' hack'
    by_contra hsome
    exact hlater ⟨d', hd', hack', Option.isSome_iff_ne_none.mpr hsome⟩

/-- **Commands during start-up.** In every run whose commands are all orderly,
every command is answered with a response, and when the constructor is done
every acknowledged change is in force unless a later acknowledged command
changed the same instrument. -/
theorem startup_commands (settings : Settings) (es : List StartupEvent) {s : Startup}
    (hC : (startup deserializeObject rnd).Meets (Orderly deserializeObject)
      (Startup.init settings) es)
    (hrun : (startup deserializeObject rnd).run (Startup.init settings) es = some s) :
    s.Kept deserializeObject := by
  have hinv : s.Invariant deserializeObject :=
    (startup deserializeObject rnd).run_invariant
      (fun _ _ _ hI hC hs => startup_step_invariant hI hC hs)
      (Startup.init_invariant settings) hC hrun
  exact ⟨hinv.replied, hinv.inForce⟩

/-! ## The condition is needed -/

/-- An instrument that acknowledged commands mention has a last one that does. -/
theorem exists_last_acknowledged {log : List Delivery} {name : String}
    (h : Mentioned (acknowledgedOrders deserializeObject log) name) :
    ∃ pre d post b, log = pre ++ d :: post ∧ d.acknowledged = true ∧
      (d.order deserializeObject).position name = some b ∧
      ∀ d' ∈ post, d'.acknowledged = true →
        (d'.order deserializeObject).position name = none := by
  obtain ⟨pos, o, posts, b, hsplit, ho, hposts⟩ := h.exists_last
  obtain ⟨l₁, l₂, hfilter, -, hl₂⟩ := List.map_eq_append_iff.mp hsplit
  obtain ⟨pre, rest, rfl, -, hrest⟩ := List.filter_eq_append_iff.mp hfilter
  obtain ⟨d, l₃, rfl, rfl, hl₃⟩ := List.map_eq_cons_iff.mp hl₂
  obtain ⟨pre', post, rfl, -, hd, hpost⟩ := List.filter_eq_cons_iff.mp hrest
  refine ⟨pre ++ pre', d, post, b, by simp, hd, ho, fun d' hd' hack => ?_⟩
  refine hposts _ ?_
  rw [← hl₃, ← hpost]
  exact List.mem_map_of_mem (List.mem_filter.mpr ⟨hd', hack⟩)

/-- A change that was acknowledged, and not again, but is not there breaks the
promise once the constructor is done; before that, its last statement is what is
missing. -/
theorem not_kept_of_lost {s : Startup} {pre post : List Delivery} {d : Delivery} {name : String}
    {b : Bool} (hlog : s.log = pre ++ d :: post) (hack : d.acknowledged = true)
    (hname : name ∈ instruments.map Prod.fst)
    (hb : (d.order deserializeObject).position name = some b)
    (hpost : ∀ d' ∈ post, d'.acknowledged = true →
      (d'.order deserializeObject).position name = none)
    (hlost : s.manager.isActive name ≠ some b) (hnext : s.next = .setTimer ∨ s.next = .finished)
    (hinterval : 0 < s.manager.rateInterval) :
    ∃ es s', (startup deserializeObject rnd).run s es = some s' ∧
      ¬ s'.Kept deserializeObject := by
  have hbroken : ¬ s.InForce deserializeObject := by
    intro hforce
    rcases hforce pre d post hlog hack name hname b hb with ⟨d', hd', hack', hsome⟩ | hactive
    · rw [hpost d' hd' hack'] at hsome
      cases hsome
    · exact hlost hactive
  rcases hnext with hnext | hnext
  · refine ⟨[.constructor (.ok ())], { s with next := .finished }, ?_, fun hkept => ?_⟩
    · simp [startup, Startup.step, constructorStep, hnext, hinterval]
    · exact hbroken (hkept.2 rfl)
  · exact ⟨[], s, rfl, fun hkept => hbroken (hkept.2 hnext)⟩

/-- An untargeted command without a table is answered by no response. -/
theorem untargeted_not_kept {s s' : Startup} {request : RequestReceive} {ack : Except Exn Unit}
    {utcNow : ℕ} {during : List (Except Exn Unit)} (ht : request.targeted = false)
    (hnone : s.manager.rateCollection = none)
    (hs : s.step deserializeObject rnd (.command request ack utcNow during) = some s')
    (halive : s'.next ≠ .exited) : ¬ s'.Kept deserializeObject := by
  simp only [Startup.step, ht] at hs
  split at hs
  · cases hs
  simp only [Bool.false_eq_true, if_false, startAll, hnone] at hs
  obtain ⟨c, hc, rfl⟩ := Option.map_eq_some_iff.mp hs
  intro hkept
  by_cases hc : c.next = .exited
  · exact halive (by rw [Startup.deliver, if_pos hc]; exact hc)
  · -- nothing catches the exception of the loop over `null`
    obtain ⟨response, hresponse⟩ := hkept.1 ⟨request, .error .nullReference⟩
      (by rw [Startup.deliver, if_neg hc]; exact List.mem_append_right _ (by simp))
    cases hresponse

/-- What a half-applied command leaves behind, if the process survives it: the
flag where the command put it, and a delivery that is not acknowledged. -/
theorem halfApplied_step {s s' : Startup} {request : RequestReceive} {ack : Except Exn Unit}
    {utcNow : ℕ} {during : List (Except Exn Unit)} {name : String}
    (h : s.Invariant deserializeObject)
    (hhalf : HalfAppliedTo deserializeObject s.manager.isActive request ack name)
    (hs : s.step deserializeObject rnd (.command request ack utcNow during) = some s')
    (halive : s'.next ≠ .exited) :
    (s'.next = .setTimer ∨ s'.next = .finished) ∧
      s'.manager.rateInterval = s.manager.rateInterval ∧
      s'.manager.isActive name = (s.manager.isActive name).map (!·) ∧
      ∃ d, s'.log = s.log ++ [d] ∧ d.acknowledged = false := by
  obtain ⟨active, ex, ht, hdes, hflag, rfl⟩ := hhalf
  obtain ⟨table, htable, htflag⟩ := Option.bind_eq_some_iff.mp hflag
  have hkey : name ∈ table.keys := RateTable.isActive_isSome_iff.mp (by rw [htflag]; rfl)
  have hr : s.manager.rateCollection.isSome := by rw [htable]; rfl
  have happ := applyRequest_of_order htable (bodyOrder_eq_set.mpr ⟨hdes, hkey⟩)
  simp only [Startup.step, ht, if_true, happ] at hs
  split at hs
  · cases hs
  obtain ⟨c, hc, rfl⟩ := Option.map_eq_some_iff.mp hs
  obtain ⟨hcf, hcm⟩ := construction_run_frame (h.fits.withRates hr _) rfl hc
  have hq := h.queue_isSome hr hc
  have hcalive : c.next ≠ .exited := by
    intro hex
    rw [Startup.deliver, if_pos hex] at halive
    exact halive hex
  rw [Startup.deliver, if_neg hcalive]
  refine ⟨?_, by rw [hcm], ?_, _, rfl, ?_⟩
  · have hcr : c.manager.rateCollection = some (table.execute (.set name active)) := by rw [hcm]
    rw [Construction.Fits] at hcf
    rcases hn : c.next <;> rw [hn] at hcf <;> simp_all
  · simp only [hcm, Manager.isActive, Option.bind_some, RateTable.isActive_execute, htable, htflag]
    cases active <;> simp
  · rw [finishRequest_error hq]
    rfl

/-- A command half applied to an instrument that an acknowledged command has put
somewhere undoes the acknowledged change. -/
theorem halfApplied_not_kept {s s' : Startup} {request : RequestReceive} {ack : Except Exn Unit}
    {utcNow : ℕ} {during : List (Except Exn Unit)} {name : String}
    (h : s.Invariant deserializeObject) (hinterval : 0 < s.manager.rateInterval)
    (hmentioned : Mentioned (acknowledgedOrders deserializeObject s.log) name)
    (hhalf : HalfAppliedTo deserializeObject s.manager.isActive request ack name)
    (hs : s.step deserializeObject rnd (.command request ack utcNow during) = some s')
    (halive : s'.next ≠ .exited) :
    ∃ es s'', (startup deserializeObject rnd).run s' es = some s'' ∧
      ¬ s''.Kept deserializeObject := by
  have hne : s.next ≠ .exited := by
    intro hex
    simp [Startup.step, hex] at hs
  obtain ⟨hnext, hinterval', hactive, failed, hlog', hfailed⟩ := halfApplied_step h hhalf hs halive
  obtain ⟨pre, d, post, b, hlog, hack, hb, hpost⟩ := exists_last_acknowledged hmentioned
  obtain ⟨active, -, -, -, hflag, -⟩ := hhalf
  obtain ⟨table, htable, htflag⟩ := Option.bind_eq_some_iff.mp hflag
  have hname : name ∈ instruments.map Prod.fst := by
    rw [← ((Manager.shows_of_table htable).mp (h.shows hne)).1]
    exact RateTable.isActive_isSome_iff.mp (by rw [htflag]; rfl)
  -- the instrument was where the last acknowledged command had put it
  have hwas := h.isActive_eq hne (by rw [htable]; rfl) hlog hack hname hb hpost
  have hlost : s'.manager.isActive name ≠ some b := by
    rw [hactive, hwas]
    cases b <;> simp
  have hpost' : ∀ d' ∈ post ++ [failed], d'.acknowledged = true →
      (d'.order deserializeObject).position name = none := by
    intro d' hd' hack'
    rcases List.mem_append.mp hd' with hd' | hd'
    · exact hpost d' hd' hack'
    · rw [List.mem_singleton.mp hd', hfailed] at hack'
      cases hack'
  exact not_kept_of_lost (by rw [hlog', hlog, List.append_assoc]; rfl) hack hname hb hpost'
    hlost hnext (by rw [hinterval']; exact hinterval)

/-- **The condition is needed**: a disorderly command the process survives is
not answered, or undoes an acknowledged change, and then the promise is broken
at the latest when the constructor is done. -/
theorem disorderly_not_kept {s s' : Startup} {e : StartupEvent} (h : s.Invariant deserializeObject)
    (hinterval : 0 < s.manager.rateInterval) (hdis : ¬ Orderly deserializeObject s e)
    (hs : s.step deserializeObject rnd e = some s') (halive : s'.next ≠ .exited) :
    ∃ es s'', (startup deserializeObject rnd).run s' es = some s'' ∧
      ¬ s''.Kept deserializeObject := by
  cases e with
  | constructor outcome => exact absurd trivial hdis
  | command request ack utcNow during =>
    simp only [Orderly, not_and_or, Classical.not_imp, not_forall, not_not] at hdis
    rcases hdis with ⟨ht, hr⟩ | ⟨name, hmentioned, hhalf⟩
    · have hnone : s.manager.rateCollection = none := by simpa using hr
      exact ⟨[], s', rfl, untargeted_not_kept ht hnone hs halive⟩
    · exact halfApplied_not_kept h hinterval hmentioned hhalf hs halive

end

/-- An orderly start-up: a command that is turned away while there is no table,
the constructor, and the same command acknowledged during its last statement. -/
def orderlyStartup : List StartupEvent :=
  [.command stopEURUSD (.ok ()) 0 [], .constructor (.ok ()), .constructor (.ok ()),
    .constructor (.ok ()), .constructor (.ok ()), .command stopEURUSD (.ok ()) 1 [.ok ()]]

theorem startup_commands_orderlyStartup :
    ∃ s, (startup deserializeSample zeroDraws).run (Startup.init deployed) orderlyStartup = some s ∧
      s.next = .finished ∧ s.manager.isActive "EURUSD" = some false ∧ s.log.length = 2 ∧
      s.Kept deserializeSample := by
  have hstop : ∀ (s : Startup) (utcNow : ℕ) (during : List (Except Exn Unit)),
      Orderly deserializeSample s (.command stopEURUSD (.ok ()) utcNow during) := by
    refine fun s utcNow during => ⟨fun h => absurd h (by decide), fun name _ => ?_⟩
    rintro ⟨-, ex, -, -, -, hack⟩
    cases hack
  refine ⟨_, rfl, rfl, rfl, rfl, startup_commands deployed orderlyStartup ?_ rfl⟩
  refine ⟨hstop _ _ _, fun _ _ => ⟨trivial, fun _ _ => ⟨trivial, fun _ _ => ⟨trivial, fun _ _ =>
    ⟨trivial, fun _ _ => ⟨hstop _ _ _, fun _ _ => trivial⟩⟩⟩⟩⟩⟩

/-- A command without a target that finds no table ends in an exception the
handler does not catch. -/
theorem untargeted_command_escapes :
    ¬ ∀ es s, (startup deserializeSample zeroDraws).run (Startup.init deployed) es = some s →
      s.Kept deserializeSample := by
  intro h
  obtain ⟨hreplied, -⟩ := h [.command startCommand (.ok ()) 0 []] _ rfl
  obtain ⟨response, hresponse⟩ := hreplied ⟨startCommand, .error .nullReference⟩
    (List.mem_singleton.mpr rfl)
  cases hresponse

end KubemqWorkshop
