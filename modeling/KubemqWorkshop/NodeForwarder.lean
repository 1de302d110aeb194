import KubemqWorkshop.Forwarders
import KubemqWorkshop.Machine
import KubemqWorkshop.Senders

/-!
# The Node.js forwarder

The loop of `index.js` is no loop: `myLoop` arms a timer, the timer starts one
`receiveQueueMessages`, and the callback of its promise is to call `myLoop`
again. It does so in one branch only. A response with `Error` set, a rejected
promise and an exception of a send are logged and nothing is armed.

The promises of the sends are nobody's business: `storePub.send(…).then(…)` has no
`catch`. What a rejected one costs is decided by the runtime
(`UnhandledRejections`): a warning before version 15 of Node.js, the process from
then on. So a poll is pending exactly as long as none of this has happened
(`one_pending_iff`), and afterwards no event is left that could forward a message
(`stopped_for_good`).

Taken from the client library, which is not in the repository, is that
`receiveQueueMessages` returns a promise.
-/

namespace KubemqWorkshop

namespace NodeJS

/-- What the runtime does about a promise that is rejected and has no handler, as
its option `--unhandled-rejections` has it. -/
inductive UnhandledRejections where
  /-- it prints a warning -/
  | warn : UnhandledRejections
  /-- it ends the process -/
  | throw : UnhandledRejections
  deriving DecidableEq, Repr

/-- An element of `res.Messages`. -/
structure Element where
  message : Message
  /-- the exception of the statements that make and send its event, if they throw one
  before there is a promise -/
  throws : Option String
  deriving DecidableEq, Repr

/-- What `receiveQueueMessages` resolves to. -/
structure ReceiveQueueMessagesResponse where
  error : String
  messagesReceived : ℕ
  messages : List Element
  deriving DecidableEq, Repr

/-- How the promise of `receiveQueueMessages` settles. -/
inductive Outcome where
  | resolved (res : ReceiveQueueMessagesResponse) : Outcome
  | rejected (err : String) : Outcome
  deriving DecidableEq, Repr

/-- The event made of a message. -/
def event (element : Message) : StoreEvent := ⟨element.body, some "test store"⟩

/-- The forwarder between two turns of the event loop. -/
structure Forwarder where
  /-- armed timers of 500 ms -/
  timers : ℕ
  /-- calls of `receiveQueueMessages` that have not settled -/
  receiving : ℕ
  /-- the events whose `storePub.send` has not settled -/
  sending : List StoreEvent
  /-- what was given to `storePub.send`, oldest first -/
  sent : List StoreEvent
  /-- the events whose `storePub.send` was resolved, in that order -/
  resolved : List StoreEvent
  deriving DecidableEq, Repr

namespace Forwarder

/-- `myLoop` arms a timer. -/
def myLoop (s : Forwarder) : Forwarder := { s with timers := s.timers + 1 }

/-- The calls of `storePub.send` that return a promise. -/
def send (s : Forwarder) (events : List StoreEvent) : Forwarder :=
  { s with sending := s.sending ++ events, sent := s.sent ++ events }

/-- The callback of `catch` only logs. -/
def onRejected (s : Forwarder) (_err : String) : Forwarder := s

/-- The process ends: no timer fires and no call settles any more. -/
def exit (s : Forwarder) : Forwarder := { s with timers := 0, receiving := 0, sending := [] }

/-- A promise without a handler is rejected. -/
def onUnhandledRejection (s : Forwarder) : UnhandledRejections → Forwarder
  | .warn => s
  | .throw => s.exit

/-- After the first call of `myLoop`. -/
def start : Forwarder := myLoop ⟨0, 0, [], [], []⟩

/-- The polls that are pending. -/
def pending (s : Forwarder) : ℕ := s.timers + s.receiving

/-- **One pending poll**: an armed timer or a call in flight, not both. -/
def OnePending (s : Forwarder) : Prop :=
  (s.timers = 1 ∧ s.receiving = 0) ∨ (s.timers = 0 ∧ s.receiving = 1)

theorem onePending_iff {s : Forwarder} : s.OnePending ↔ s.pending = 1 := by
  simp only [OnePending, pending]
  omega

end Forwarder

/-- `res.Messages.forEach`: the events given to `storePub.send`, and the exception
that ends the `forEach`. -/
def sendAll : List Element → List StoreEvent × Option String
  | [] => ([], none)
  | element :: rest =>
    match element.throws with
    | some err => ([], some err)
    | none => (event element.message :: (sendAll rest).1, (sendAll rest).2)

/-- The callback of `then`. -/
def Forwarder.onResolved (s : Forwarder) (res : ReceiveQueueMessagesResponse) : Forwarder :=
  if truthy res.error then
    -- only logged: this branch does not call `myLoop`
    s
  else if res.messagesReceived ≠ 0 then
    match sendAll res.messages with
    | (events, none) => (s.send events).myLoop
    -- the exception rejects the promise of `then`, which has the `catch`
    | (events, some err) => (s.send events).onRejected err
  else
    s.myLoop

/-- The callbacks of a receive call that has settled. -/
def Forwarder.onReceived (s : Forwarder) : Outcome → Forwarder
  | .resolved res => s.onResolved res
  | .rejected err => s.onRejected err

/-- The promise of a send has settled: the callback of its `then` only logs, and
there is none for the rejection. -/
def Forwarder.onSent (mode : UnhandledRejections) (s : Forwarder) (event : StoreEvent) :
    Except String Unit → Forwarder
  | .ok () => { s with resolved := s.resolved ++ [event] }
  | .error _ => s.onUnhandledRejection mode

/-- What the event loop runs next. -/
inductive LoopEvent where
  /-- an armed timer fires and starts a receive call -/
  | timerFires : LoopEvent
  /-- a receive call settles and its callback runs -/
  | settles (outcome : Outcome) : LoopEvent
  /-- the promise of a send settles -/
  | sendSettles (event : StoreEvent) (result : Except String Unit) : LoopEvent
  deriving DecidableEq, Repr

/-- One turn of the event loop. -/
def Forwarder.step (mode : UnhandledRejections) (s : Forwarder) : LoopEvent → Option Forwarder
  | .timerFires =>
    if s.timers = 0 then none
    else some { s with timers := s.timers - 1, receiving := s.receiving + 1 }
  | .settles outcome =>
    if s.receiving = 0 then none
    else some ({ s with receiving := s.receiving - 1 }.onReceived outcome)
  | .sendSettles event result =>
    if event ∈ s.sending then
      some ({ s with sending := s.sending.erase event }.onSent mode event result)
    else none

/-- The forwarder as a machine. -/
def forwarder (mode : UnhandledRejections) : Machine Forwarder LoopEvent := ⟨Forwarder.step mode⟩

/-! ## What an event comes to -/

/-- The receive call, or a send of its messages, failed: a response with `Error`
set, an exception, or a rejection. -/
def Outcome.Failed : Outcome → Prop
  | .resolved res =>
    truthy res.error ∨ (res.messagesReceived ≠ 0 ∧ ∃ e ∈ res.messages, e.throws.isSome)
  | .rejected _ => True

instance : DecidablePred Outcome.Failed
  | .resolved res => inferInstanceAs (Decidable
      (truthy res.error ∨ (res.messagesReceived ≠ 0 ∧ ∃ e ∈ res.messages, e.throws.isSome)))
  | .rejected _ => .isTrue trivial

/-- The messages an outcome makes the forwarder send. -/
def Outcome.forwarded : Outcome → List Message
  | .resolved res =>
    if truthy res.error ∨ res.messagesReceived = 0 then []
    else (res.messages.takeWhile fun e => e.throws.isNone).map Element.message
  | .rejected _ => []

/-- The messages an event makes the forwarder send. -/
def LoopEvent.forwarded : LoopEvent → List Message
  | .settles outcome => outcome.forwarded
  | _ => []

/-- The event ends the polling: a receive call that failed, or a rejected send
where the runtime ends the process. -/
def LoopEvent.Fatal (mode : UnhandledRejections) : LoopEvent → Prop
  | .timerFires => False
  | .settles outcome => outcome.Failed
  | .sendSettles _ (.ok _) => False
  | .sendSettles _ (.error _) => mode = .throw

/-! ## One turn -/

theorem sendAll_fst (elements : List Element) : (sendAll elements).1 =
    ((elements.takeWhile fun e => e.throws.isNone).map Element.message).map event := by
  induction elements with
  | nil => rfl
  | cons element rest ih =>
    cases hthrows : element.throws with
    | none =>
      rw [List.takeWhile_cons_of_pos (by rw [hthrows]; rfl), List.map_cons, List.map_cons, ← ih,
        sendAll, hthrows]
    | some err => rw [List.takeWhile_cons_of_neg (by simp [hthrows]), sendAll, hthrows]; rfl

theorem sendAll_snd (elements : List Element) :
    (sendAll elements).2.isSome ↔ ∃ e ∈ elements, e.throws.isSome := by
  induction elements with
  | nil => simp [sendAll]
  | cons element rest ih =>
    cases hthrows : element.throws with
    | none => simp [sendAll, hthrows, ih]
    | some err => simp [sendAll, hthrows]

@[simp] theorem Forwarder.send_nil (s : Forwarder) : s.send [] = s := by
  simp [Forwarder.send]

/-- The callback of `then` sends what the outcome says, and arms the next poll
unless it failed. -/
theorem Forwarder.onResolved_eq (s : Forwarder) (res : ReceiveQueueMessagesResponse) :
    s.onResolved res =
      if (Outcome.resolved res).Failed then
        s.send ((Outcome.resolved res).forwarded.map event)
      else (s.send ((Outcome.resolved res).forwarded.map event)).myLoop := by
  rw [Forwarder.onResolved, Outcome.forwarded]
  by_cases herror : truthy res.error
  · rw [if_pos herror, if_pos (show (Outcome.resolved res).Failed from .inl herror),
      if_pos (.inl herror), List.map_nil, Forwarder.send_nil]
  · by_cases hreceived : res.messagesReceived = 0
    · have hok : ¬ (Outcome.resolved res).Failed := not_or.mpr ⟨herror, fun h => h.1 hreceived⟩
      rw [if_neg herror, if_neg (not_not.mpr hreceived), if_neg hok, if_pos (.inr hreceived),
        List.map_nil, Forwarder.send_nil]
    · have hfailed : (Outcome.resolved res).Failed ↔ (sendAll res.messages).2.isSome := by
        rw [sendAll_snd]
        exact ⟨fun h => (h.resolve_left herror).2, fun h => .inr ⟨hreceived, h⟩⟩
      rw [if_neg herror, if_pos hreceived, if_neg (not_or.mpr ⟨herror, hreceived⟩),
        ← sendAll_fst, ite_cond_congr (propext hfailed)]
      rcases sendAll res.messages with ⟨events, - | err⟩ <;> rfl

variable {mode : UnhandledRejections} {s s' : Forwarder}

/-- A timer fires only while it is armed. -/
theorem timerFires_cases (h : s.step mode .timerFires = some s') : s.timers ≠ 0 ∧
    s' = { s with timers := s.timers - 1, receiving := s.receiving + 1 } := by
  obtain ⟨htimers, heq⟩ := Option.ite_none_left_eq_some.mp h
  exact ⟨htimers, (Option.some.inj heq).symm⟩

/-- A receive call settles only while it is in flight. -/
theorem settles_cases {outcome : Outcome} (h : s.step mode (.settles outcome) = some s') :
    s.receiving ≠ 0 ∧ s' = { s with receiving := s.receiving - 1 }.onReceived outcome := by
  obtain ⟨hreceiving, heq⟩ := Option.ite_none_left_eq_some.mp h
  exact ⟨hreceiving, (Option.some.inj heq).symm⟩

/-- A send settles only while it is in flight. -/
theorem sendSettles_cases {ev : StoreEvent} {result : Except String Unit}
    (h : s.step mode (.sendSettles ev result) = some s') : ev ∈ s.sending ∧
      s' = { s with sending := s.sending.erase ev }.onSent mode ev result := by
  obtain ⟨hmem, heq⟩ := Option.ite_none_right_eq_some.mp h
  exact ⟨hmem, (Option.some.inj heq).symm⟩

/-- What a turn sends. -/
theorem step_sent {e : LoopEvent} (h : s.step mode e = some s') :
    s'.sent = s.sent ++ e.forwarded.map event := by
  cases e with
  | timerFires =>
    obtain ⟨-, rfl⟩ := timerFires_cases h
    exact (List.append_nil _).symm
  | settles outcome =>
    obtain ⟨-, rfl⟩ := settles_cases h
    rcases outcome with res | err
    · simp only [Forwarder.onReceived, Forwarder.onResolved_eq]
      split <;> rfl
    · exact (List.append_nil _).symm
  | sendSettles ev result =>
    obtain ⟨-, rfl⟩ := sendSettles_cases h
    rcases result with err | -
    · cases mode <;> exact (List.append_nil _).symm
    · exact (List.append_nil _).symm

/-- A turn that is not fatal: the poll it ends has a successor. -/
theorem step_pending_of_not_fatal {e : LoopEvent} (he : ¬ e.Fatal mode)
    (h : s.step mode e = some s') : s'.pending = s.pending := by
  cases e with
  | timerFires =>
    obtain ⟨htimers, rfl⟩ := timerFires_cases h
    simp only [Forwarder.pending]
    omega
  | settles outcome =>
    obtain ⟨hreceiving, rfl⟩ := settles_cases h
    rcases outcome with res | err
    · have hok : ¬ (Outcome.resolved res).Failed := he
      simp only [Forwarder.onReceived, Forwarder.onResolved_eq, if_neg hok]
      simp only [Forwarder.pending, Forwarder.myLoop, Forwarder.send]
      omega
    · exact absurd trivial he
  | sendSettles ev result =>
    obtain ⟨-, rfl⟩ := sendSettles_cases h
    rcases result with err | -
    · cases mode with
      | warn => rfl
      | throw => exact absurd rfl he
    · rfl

/-- A turn that is fatal: the poll it ends has none, or the process has ended. -/
theorem step_pending_of_fatal {e : LoopEvent} (he : e.Fatal mode)
    (h : s.step mode e = some s') : s'.pending ≤ s.pending - 1 := by
  cases e with
  | timerFires => exact False.elim he
  | settles outcome =>
    obtain ⟨hreceiving, rfl⟩ := settles_cases h
    rcases outcome with res | err
    · have hfailed : (Outcome.resolved res).Failed := he
      simp only [Forwarder.onReceived, Forwarder.onResolved_eq, if_pos hfailed]
      simp only [Forwarder.pending, Forwarder.send]
      omega
    · simp only [Forwarder.pending, Forwarder.onReceived, Forwarder.onRejected]
      omega
  | sendSettles ev result =>
    obtain ⟨-, rfl⟩ := sendSettles_cases h
    rcases result with err | ok
    · obtain rfl : mode = .throw := he
      exact Nat.zero_le _
    · exact False.elim he

/-- Without a pending poll a turn forwards nothing. -/
theorem forwarded_eq_nil (hs : s.pending = 0) {e : LoopEvent} (h : s.step mode e = some s') :
    e.forwarded = [] := by
  cases e with
  | timerFires => rfl
  | settles outcome =>
    obtain ⟨hreceiving, -⟩ := settles_cases h
    exact absurd (Nat.add_eq_zero_iff.mp hs).2 hreceiving
  | sendSettles ev result => rfl

/-! ## Runs -/

/-- Nothing has failed that ends the polling: no receive call, and where the
runtime ends the process no send either. -/
def NoneFailed (mode : UnhandledRejections) (es : List LoopEvent) : Prop :=
  ∀ e ∈ es, ¬ e.Fatal mode

theorem noneFailed_concat {es : List LoopEvent} {e : LoopEvent} :
    NoneFailed mode (es ++ [e]) ↔ NoneFailed mode es ∧ ¬ e.Fatal mode := by
  simp only [NoneFailed, List.forall_mem_append, List.forall_mem_singleton]

/-- A run keeps one poll pending until something fails, and none after. -/
theorem run_pending {es : List LoopEvent} (h : (forwarder mode).run .start es = some s) :
    (NoneFailed mode es ∧ s.pending = 1) ∨ (¬ NoneFailed mode es ∧ s.pending = 0) := by
  refine (forwarder mode).run_induction
    (P := fun es s =>
      (NoneFailed mode es ∧ s.pending = 1) ∨ (¬ NoneFailed mode es ∧ s.pending = 0))
    (.inl ⟨fun e he => absurd he List.not_mem_nil, rfl⟩) ?_ h
  intro es s e s' _ ih he
  rw [noneFailed_concat]
  by_cases hfatal : e.Fatal mode
  · have := step_pending_of_fatal hfatal he
    exact .inr ⟨fun hn => hn.2 hfatal, by omega⟩
  · rw [step_pending_of_not_fatal hfatal he]
    exact ih.imp (fun hn => ⟨⟨hn.1, hfatal⟩, hn.2⟩) fun hn => ⟨fun h => hn.1 h.1, hn.2⟩

/-- **When the forwarder goes on polling**: exactly one poll is pending as long
as no receive call has failed, no send has thrown and, where the runtime ends the
process over it, no send was rejected. -/
theorem one_pending_iff (mode : UnhandledRejections) (es : List LoopEvent) {s : Forwarder}
    (h : (forwarder mode).run .start es = some s) : s.OnePending ↔ NoneFailed mode es := by
  rw [Forwarder.onePending_iff]
  rcases run_pending h with ⟨hnone, hone⟩ | ⟨hsome, hzero⟩
  · exact ⟨fun _ => hnone, fun _ => hone⟩
  · exact ⟨fun hone => by omega, fun hnone => absurd hnone hsome⟩

/-- After the failure no run polls or forwards any more. -/
theorem stopped_for_good {es es' : List LoopEvent}
    (h : (forwarder mode).run .start es = some s) (hfailed : ¬ NoneFailed mode es)
    (h' : (forwarder mode).run s es' = some s') : s'.pending = 0 ∧ s'.sent = s.sent := by
  rcases run_pending h with ⟨hnone, -⟩ | ⟨-, hzero⟩
  · exact absurd hnone hfailed
  · refine (forwarder mode).run_preserves (I := fun t => t.pending = 0 ∧ t.sent = s.sent) ?_
      ⟨hzero, rfl⟩ h'
    rintro t e t' ⟨hpending, hsent⟩ ht
    refine ⟨?_, ?_⟩
    · by_cases hfatal : e.Fatal mode
      · have := step_pending_of_fatal hfatal ht
        omega
      · exact (step_pending_of_not_fatal hfatal ht).trans hpending
    · rw [step_sent ht, forwarded_eq_nil hpending ht, List.map_nil, List.append_nil, hsent]

/-- What a run sends: the messages of every receive call, in order. -/
theorem run_sent {es : List LoopEvent} (h : (forwarder mode).run s es = some s') :
    s'.sent = s.sent ++ (es.flatMap LoopEvent.forwarded).map event := by
  refine (forwarder mode).run_induction
    (P := fun es s' => s'.sent = s.sent ++ (es.flatMap LoopEvent.forwarded).map event)
    (List.append_nil _).symm ?_ h
  intro es t e t' _ ih he
  rw [step_sent he, ih, List.flatMap_append, List.flatMap_singleton, List.map_append,
    List.append_assoc]

/-- A response with one message, whose send is resolved, then one without. -/
def twoPolls : List LoopEvent :=
  [.timerFires, .settles (.resolved ⟨"", 1, [⟨⟨"", [1]⟩, none⟩]⟩),
    .sendSettles (event ⟨"", [1]⟩) (.ok ()), .timerFires, .settles (.resolved ⟨"", 0, []⟩)]

theorem one_pending_iff_twoPolls : ∃ s, (forwarder .throw).run .start twoPolls = some s ∧
    (s.OnePending ↔ NoneFailed .throw twoPolls) :=
  ⟨_, rfl, one_pending_iff .throw twoPolls rfl⟩

/-- A rejected receive call is the end of the loop, whatever the runtime. -/
theorem rejection_stops_polling :
    (¬ ∀ es s, (forwarder .warn).run .start es = some s → s.OnePending) ∧
      ¬ ∀ es s, (forwarder .throw).run .start es = some s → s.OnePending := by
  refine ⟨fun h => ?_, fun h => ?_⟩
  all_goals
    have hone := h [.timerFires, .settles (.rejected "unavailable")] _ rfl
    revert hone
    simp [Forwarder.OnePending, Forwarder.onReceived, Forwarder.onRejected, Forwarder.start,
      Forwarder.myLoop]

end NodeJS

end KubemqWorkshop
