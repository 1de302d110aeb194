import KubemqWorkshop.Fleet

/-!
# A forwarder as the queue and the store see it

Between the queue and the store a forwarder is a machine that takes batches and
submits bodies. What the rest of the system may rely on are two laws, and they
are fields of the type: a poll submits some of the bodies it took, in their
order, and while the program runs, a poll in which no call fails submits them
all. Each of the five programs is such a relay (`Program.relay`), so none of them
invents, repeats or reorders a message over any run (`relay_submits_in_order`).
-/

namespace KubemqWorkshop

/-- A forwarder, as far as the queue and the store can tell. -/
structure Relay where
  State : Type
  Poll : Type
  start : State
  /-- the messages a poll takes off the queue -/
  received : Poll → List Message
  /-- one poll; `none` once the program has ended -/
  step : State → Poll → Option State
  /-- the bodies given to the store channel, oldest first -/
  submitted : State → List (List UInt8)
  /-- the program has not ended -/
  running : State → Bool
  /-- nothing is submitted before the first poll -/
  submitted_start : submitted start = []
  /-- a poll submits some of the bodies it took, in their order -/
  submitted_step : ∀ {s : State} {p : Poll} {s' : State}, step s p = some s' →
    ∃ new, new.Sublist ((received p).map Message.body) ∧ submitted s' = submitted s ++ new
  running_start : running start = true
  /-- a program that has ended does not poll -/
  step_eq_none : ∀ {s : State}, running s = false → ∀ p, step s p = none
  /-- a program that runs can pass any batch on -/
  carries : ∀ {s : State}, running s = true → ∀ batch : List Message, ∃ p s',
    step s p = some s' ∧ received p = batch ∧
      submitted s' = submitted s ++ batch.map Message.body ∧ running s' = true

/-- A relay as a machine. -/
def Relay.machine (R : Relay) : Machine R.State R.Poll := ⟨R.step⟩

/-- What a run has taken off the queue. -/
def Relay.taken (R : Relay) (polls : List R.Poll) : List (List UInt8) :=
  polls.flatMap fun p => (R.received p).map Message.body

/-- The law of a poll is a law of runs. -/
theorem Relay.submitted_run (R : Relay) {polls : List R.Poll} {s : R.State}
    (h : R.machine.run R.start polls = some s) : (R.submitted s).Sublist (R.taken polls) := by
  refine R.machine.run_induction (P := fun polls s => (R.submitted s).Sublist (R.taken polls))
    (by rw [R.submitted_start]; exact List.nil_sublist _) ?_ h
  intro polls s p s' _ ih hs
  obtain ⟨new, hnew, heq⟩ := R.submitted_step hs
  rw [heq, Relay.taken, List.flatMap_append, List.flatMap_singleton]
  exact ih.append hnew

/-- A program that goes on with the body of its loop as long as it runs. -/
def Relay.ofLoop {σ π : Type} (start : σ) (received : π → List Message) (running : σ → Bool)
    (turn : σ → π → σ) (submitted : σ → List (List UInt8)) (hstart : submitted start = [])
    (hrunning : running start = true)
    (hturn : ∀ s p, running s = true →
      ∃ new, new.Sublist ((received p).map Message.body) ∧
        submitted (turn s p) = submitted s ++ new)
    (hcarries : ∀ s batch, running s = true → ∃ p, received p = batch ∧
      submitted (turn s p) = submitted s ++ batch.map Message.body ∧
        running (turn s p) = true) : Relay where
  State := σ
  Poll := π
  start := start
  received := received
  step s p := if running s then some (turn s p) else none
  submitted := submitted
  running := running
  submitted_start := hstart
  submitted_step h := by
    obtain ⟨hs, hsome⟩ := Option.ite_none_right_eq_some.mp h
    obtain rfl := Option.some.inj hsome
    exact hturn _ _ hs
  running_start := hrunning
  step_eq_none hs p := if_neg (by rw [hs]; exact Bool.false_ne_true)
  carries hs batch := by
    obtain ⟨p, hreceived, hsubmitted, hrunning⟩ := hcarries _ batch hs
    exact ⟨p, _, if_pos hs, hreceived, hsubmitted, hrunning⟩

/-! ## The C# and the Java program -/

/-- What the C# and the Java program have submitted. -/
def Forwarder.submitted (s : Forwarder) : List (List UInt8) := s.published.map StoreEvent.body

/-- The messages of a poll of the C# and the Java program. -/
def ReceiveMessagesResponse.received (poll : ReceiveMessagesResponse) : List Message :=
  (poll.batch.getD []).map Dequeued.message

theorem CSharp.submitted_turn (s : Forwarder) (poll : ReceiveMessagesResponse)
    (_ : s.running = true) :
    ∃ new, new.Sublist (poll.received.map Message.body) ∧
      (CSharp.turn s poll).submitted = s.submitted ++ new := by
  rcases poll with error | batch
  · exact ⟨[], List.nil_sublist _, (List.append_nil _).symm⟩
  · refine ⟨_, ((List.takeWhile_sublist Dequeued.sent).map Dequeued.message).map Message.body, ?_⟩
    rw [CSharp.turn_messages, Forwarder.submitted, Forwarder.publish, List.map_append,
      List.map_map, List.map_map]
    rfl

/-- A poll in which every send goes through. -/
def clearPoll (batch : List Message) : ReceiveMessagesResponse :=
  .messages (batch.map fun message => ⟨message, .ok ()⟩)

theorem received_clearPoll (batch : List Message) : (clearPoll batch).received = batch := by
  rw [clearPoll, ReceiveMessagesResponse.received, ReceiveMessagesResponse.batch,
    Option.getD_some, List.map_map]
  exact List.map_id batch

theorem CSharp.carries (s : Forwarder) (batch : List Message) (hs : s.running = true) :
    ∃ poll : ReceiveMessagesResponse, poll.received = batch ∧
      (CSharp.turn s poll).submitted = s.submitted ++ batch.map Message.body ∧
        (CSharp.turn s poll).running = true := by
  refine ⟨clearPoll batch, received_clearPoll batch, ?_, ?_⟩
  · have hall : (batch.map fun message => (⟨message, .ok ()⟩ : Dequeued)).takeWhile
        Dequeued.sent = batch.map fun message => ⟨message, .ok ()⟩ := by
      rw [List.takeWhile_eq_self_iff, List.forall_mem_map]
      exact fun _ _ => rfl
    rw [clearPoll, CSharp.turn_messages, hall, Forwarder.submitted, Forwarder.publish,
      List.map_append, List.map_map, List.map_map]
    rfl
  · rw [CSharp.running_turn s _ hs]
    rfl

/-- The C# program. -/
def CSharp.relay : Relay :=
  .ofLoop Forwarder.start ReceiveMessagesResponse.received Forwarder.running CSharp.turn
    Forwarder.submitted rfl rfl CSharp.submitted_turn CSharp.carries

/-- The `for` of the Java program publishes some of the events, in their order. -/
theorem Java.sendEvents_sublist (batch : List Dequeued) :
    (Java.sendEvents batch).1.Sublist (batch.map fun d => Java.event d.message) := by
  induction batch with
  | nil => exact List.Sublist.refl _
  | cons d rest ih =>
    obtain ⟨message, (_ | _ | text) | _⟩ := d
    · exact ih.cons _
    · exact ih.cons _
    · exact List.nil_sublist _
    · exact ih.cons_cons _

theorem Java.submitted_turn (s : Forwarder) (poll : ReceiveMessagesResponse)
    (_ : s.running = true) :
    ∃ new, new.Sublist (poll.received.map Message.body) ∧
      (Java.turn s poll).submitted = s.submitted ++ new := by
  rcases poll with error | batch
  · exact ⟨[], List.nil_sublist _, (List.append_nil _).symm⟩
  · have hsublist := (Java.sendEvents_sublist batch).map StoreEvent.body
    rw [List.map_map] at hsublist
    refine ⟨(Java.sendEvents batch).1.map StoreEvent.body, ?_, ?_⟩
    · rw [ReceiveMessagesResponse.received, List.map_map]
      exact hsublist
    · rw [Java.turn]
      rcases Java.sendEvents batch with ⟨events, - | ex⟩ <;> exact List.map_append

theorem Java.carries (s : Forwarder) (batch : List Message) (hs : s.running = true) :
    ∃ poll : ReceiveMessagesResponse, poll.received = batch ∧
      (Java.turn s poll).submitted = s.submitted ++ batch.map Message.body ∧
        (Java.turn s poll).running = true := by
  have hsend : Java.sendEvents (batch.map fun message => ⟨message, .ok ()⟩) =
      (batch.map Java.event, none) := by
    induction batch with
    | nil => rfl
    | cons message batch ih => rw [List.map_cons, Java.sendEvents, ih]; rfl
  refine ⟨clearPoll batch, received_clearPoll batch, ?_, ?_⟩
  · simp only [clearPoll, Java.turn, hsend]
    rw [Forwarder.submitted, Forwarder.publish, List.map_append, List.map_map]
    rfl
  · simp only [clearPoll, Java.turn, hsend]
    exact hs

/-- The Java program. -/
def Java.relay : Relay :=
  .ofLoop Forwarder.start ReceiveMessagesResponse.received Forwarder.running Java.turn
    Forwarder.submitted rfl rfl Java.submitted_turn Java.carries

/-! ## The Go and the Python program -/

/-- The messages of a poll of the Go and the Python program. -/
def Go.received (poll : Go.Poll) : List Message :=
  (poll.toOption.getD []).map Go.Delivery.message

/-- What the Go program has submitted. -/
def Go.Process.submitted (p : Go.Process) : List (List UInt8) :=
  (Go.sends p.calls).map fun s => s.1.body

theorem Go.submitted_made_receive (p : Go.Process) (result : Except String (List Message)) :
    (p.made (.receive result)).submitted = p.submitted := by
  have hsends : Go.sends (p.made (.receive result)).calls = Go.sends p.calls ++ [] :=
    List.filterMap_append
  rw [Go.Process.submitted, hsends, List.append_nil, Go.Process.submitted]

theorem Go.submitted_foldl (p : Go.Process) (ds : List Go.Delivery) :
    (ds.foldl Go.sendMessage p).submitted = p.submitted ++ ds.map fun d => d.message.body := by
  induction ds generalizing p with
  | nil => exact (List.append_nil _).symm
  | cons d ds ih =>
    have hsends : Go.sends (Go.sendMessage p d).calls = Go.sends p.calls ++
        [(Go.eventStore (p.i + 1) d.message, Go.sendEventStore d.answer)] := List.filterMap_append
    have hone : (Go.sendMessage p d).submitted = p.submitted ++ [d.message.body] := by
      rw [Go.Process.submitted, hsends, List.map_append]
      rfl
    rw [List.foldl_cons, ih, hone, List.append_assoc, List.map_cons, List.singleton_append]

theorem Go.submitted_poll (p : Go.Process) (q : Go.Poll) (_ : p.running = true) :
    ∃ new, new.Sublist ((Go.received q).map Message.body) ∧
      (Go.poll p q).submitted = p.submitted ++ new := by
  rcases q with err | batch
  · exact ⟨[], List.nil_sublist _,
      (Go.submitted_made_receive p _).trans (List.append_nil _).symm⟩
  · refine ⟨_, ((FailStop.through_prefix Go.Delivery.ok batch).sublist.map
      Go.Delivery.message).map Message.body, ?_⟩
    rw [(Go.poll_ok p batch).1, Go.submitted_foldl, Go.submitted_made_receive, List.map_map]
    rfl

/-- The answers in which every send goes through. -/
def Go.clear (batch : List Message) : List Go.Delivery :=
  batch.map fun message => ⟨message, .ok ⟨"", true, ""⟩⟩

theorem Go.ok_clear (batch : List Message) : ∀ d ∈ Go.clear batch, d.ok = true :=
  List.forall_mem_map.mpr fun _ _ => rfl

theorem Go.message_clear (batch : List Message) :
    (Go.clear batch).map Go.Delivery.message = batch := by
  rw [Go.clear, List.map_map]
  exact List.map_id batch

theorem Go.carries (p : Go.Process) (batch : List Message) (_ : p.running = true) :
    ∃ q, Go.received q = batch ∧
      (Go.poll p q).submitted = p.submitted ++ batch.map Message.body ∧
        (Go.poll p q).running = true := by
  obtain ⟨hpoll, hrunning⟩ := Go.poll_ok p (Go.clear batch)
  refine ⟨.ok (Go.clear batch), Go.message_clear batch, ?_, ?_⟩
  · rw [hpoll, FailStop.through_eq_self (Go.ok_clear batch), Go.submitted_foldl,
      Go.submitted_made_receive]
    conv_rhs => rw [← Go.message_clear batch, List.map_map]
    rfl
  · rw [hrunning]
    exact List.all_eq_true.mpr (Go.ok_clear batch)

/-- The Go program. -/
def Go.relay : Relay :=
  .ofLoop Go.Process.start Go.received Go.Process.running Go.poll Go.Process.submitted rfl rfl
    Go.submitted_poll Go.carries

/-- What the Python program has submitted. -/
def Python.Process.submitted (p : Python.Process) : List (List UInt8) :=
  p.sent.map fun s => s.1.body

theorem Python.submitted_receive (p : Python.Process) (q : Go.Poll) (hp : p.running = true) :
    ∃ new, new.Sublist ((Go.received q).map Message.body) ∧
      (Python.receive p q).submitted = p.submitted ++ new := by
  refine ⟨_, ((FailStop.through_prefix Go.Delivery.ok (q.toOption.getD [])).sublist.map
    Go.Delivery.message).map Message.body, ?_⟩
  rw [Python.Process.submitted, (Python.receive_eq hp q).1, List.map_append, List.map_map,
    List.map_map]
  rfl

theorem Python.carries (p : Python.Process) (batch : List Message) (hp : p.running = true) :
    ∃ q, Go.received q = batch ∧
      (Python.receive p q).submitted = p.submitted ++ batch.map Message.body ∧
        (Python.receive p q).running = true := by
  obtain ⟨hsent, hrunning⟩ := Python.receive_eq hp (.ok (Go.clear batch))
  refine ⟨.ok (Go.clear batch), Go.message_clear batch, ?_, ?_⟩
  · rw [Python.Process.submitted, hsent, show (Except.ok (Go.clear batch) : Go.Poll).toOption =
      some (Go.clear batch) from rfl, Option.getD_some,
      FailStop.through_eq_self (Go.ok_clear batch), List.map_append]
    conv_rhs => rw [← Go.message_clear batch, List.map_map]
    rw [List.map_map]
    rfl
  · rw [hrunning]
    exact List.all_eq_true.mpr (Go.ok_clear batch)

/-- The Python program. -/
def Python.relay : Relay :=
  .ofLoop ⟨[], true⟩ Go.received Python.Process.running Python.receive Python.Process.submitted
    rfl rfl Python.submitted_receive Python.carries

/-! ## The Node.js program -/

namespace NodeJS

/-- The messages of a receive call that settles. -/
def LoopEvent.received : LoopEvent → List Message
  | .settles (.resolved res) => res.messages.map Element.message
  | _ => []

theorem LoopEvent.forwarded_sublist (e : LoopEvent) : e.forwarded.Sublist e.received := by
  rcases e with - | (res | err) | ⟨ev, result⟩
  · exact List.Sublist.refl _
  · rw [LoopEvent.forwarded, Outcome.forwarded]
    split
    · exact List.nil_sublist _
    · exact (List.takeWhile_sublist _).map Element.message
  · exact List.Sublist.refl _
  · exact List.Sublist.refl _

/-- The messages of some turns of the event loop. -/
def received (es : List LoopEvent) : List Message := es.flatMap LoopEvent.received

/-- What was given to `storePub.send`. -/
def Forwarder.submitted (s : Forwarder) : List (List UInt8) := s.sent.map StoreEvent.body

variable {mode : UnhandledRejections} {s s' : Forwarder}

theorem submitted_run {es : List LoopEvent} (h : (forwarder mode).run s es = some s') :
    ∃ new, new.Sublist ((received es).map Message.body) ∧ s'.submitted = s.submitted ++ new := by
  have hforwarded : (es.flatMap LoopEvent.forwarded).Sublist (received es) := by
    induction es generalizing s with
    | nil => exact List.Sublist.refl _
    | cons e es ih =>
      obtain ⟨t, -, hrun⟩ := Option.bind_eq_some_iff.mp h
      exact (LoopEvent.forwarded_sublist e).append (ih hrun)
  refine ⟨_, hforwarded.map Message.body, ?_⟩
  rw [Forwarder.submitted, run_sent h, List.map_append, List.map_map]
  rfl

/-- A poll is pending: a timer is armed, or a receive call is in flight. -/
def Forwarder.polling (s : Forwarder) : Bool := s.pending != 0

theorem polling_iff : s.polling = true ↔ s.pending ≠ 0 := bne_iff_ne

/-- The response with a batch whose sends return promises. -/
def response (batch : List Message) : ReceiveQueueMessagesResponse :=
  ⟨"", batch.length, batch.map fun message => ⟨message, none⟩⟩

theorem not_failed_response (batch : List Message) :
    ¬ (Outcome.resolved (response batch)).Failed := by
  simp [Outcome.Failed, response, truthy]

theorem received_response (batch : List Message) :
    (LoopEvent.settles (.resolved (response batch))).received = batch := by
  rw [LoopEvent.received, response, List.map_map]
  exact List.map_id batch

theorem forwarded_response (batch : List Message) :
    (Outcome.resolved (response batch)).forwarded = batch := by
  have hall : ((response batch).messages).takeWhile (fun e => e.throws.isNone) =
      (response batch).messages := by
    rw [List.takeWhile_eq_self_iff]
    exact List.forall_mem_map.mpr fun _ _ => rfl
  rw [Outcome.forwarded, hall]
  rcases batch with - | ⟨message, batch⟩
  · rfl
  · rw [if_neg (by simp [response, truthy]), response, List.map_map]
    exact List.map_id _

/-- A receive call in flight settles with a batch. -/
theorem carries_settles (hs : s.receiving ≠ 0) (batch : List Message) :
    ∃ s', (forwarder mode).step s (.settles (.resolved (response batch))) = some s' ∧
      s'.submitted = s.submitted ++ batch.map Message.body ∧ s'.polling = true := by
  have hstep : s.step mode (.settles (.resolved (response batch))) =
      some ({ s with receiving := s.receiving - 1 }.onReceived (.resolved (response batch))) :=
    if_neg hs
  have hok : ¬ LoopEvent.Fatal mode (.settles (.resolved (response batch))) :=
    not_failed_response batch
  have hsent := step_sent hstep
  have hpending := step_pending_of_not_fatal hok hstep
  refine ⟨_, hstep, ?_, ?_⟩
  · rw [Forwarder.submitted, hsent, LoopEvent.forwarded, forwarded_response, List.map_append,
      List.map_map]
    rfl
  · rw [polling_iff, hpending, Forwarder.pending]
    omega

/-- A pending poll can bring any batch, after its timer has fired if need be. -/
theorem carries (hs : s.polling = true) (batch : List Message) :
    ∃ es s', (forwarder mode).run s es = some s' ∧ received es = batch ∧
      s'.submitted = s.submitted ++ batch.map Message.body ∧ s'.polling = true := by
  by_cases hreceiving : s.receiving = 0
  · have htimers : s.timers ≠ 0 := by
      have := polling_iff.mp hs
      rw [Forwarder.pending] at this
      omega
    have hfires : (forwarder mode).step s .timerFires =
        some { s with timers := s.timers - 1, receiving := s.receiving + 1 } := if_neg htimers
    have hreceiving' : ({ s with
        timers := s.timers - 1
        receiving := s.receiving + 1 } : Forwarder).receiving ≠ 0 := Nat.succ_ne_zero _
    obtain ⟨s', hstep, hsubmitted, hpolling⟩ := carries_settles hreceiving' batch
    refine ⟨[.timerFires, .settles (.resolved (response batch))], s', ?_, ?_, hsubmitted, hpolling⟩
    · rw [Machine.run_cons, hfires, Option.bind_some, Machine.run_cons, hstep]
      rfl
    · exact (List.append_nil _).trans (received_response batch)
  · obtain ⟨s', hstep, hsubmitted, hpolling⟩ := carries_settles hreceiving batch
    refine ⟨[.settles (.resolved (response batch))], s', ?_, ?_, hsubmitted, hpolling⟩
    · rw [Machine.run_cons, hstep]
      rfl
    · exact (List.append_nil _).trans (received_response batch)

/-- The Node.js program: a poll of the relay is any number of turns of its event
loop, receive calls, sends and timers as they come. -/
def relay (mode : UnhandledRejections) : Relay where
  State := Forwarder
  Poll := List LoopEvent
  start := .start
  received := received
  step s es := if s.polling then (forwarder mode).run s es else none
  submitted := Forwarder.submitted
  running := Forwarder.polling
  submitted_start := rfl
  submitted_step h := submitted_run (Option.ite_none_right_eq_some.mp h).2
  running_start := rfl
  step_eq_none hs es := if_neg (by rw [hs]; exact Bool.false_ne_true)
  carries hs batch := by
    obtain ⟨es, s', hrun, hreceived, hsubmitted, hpolling⟩ := carries hs batch
    exact ⟨es, s', (if_pos hs).trans hrun, hreceived, hsubmitted, hpolling⟩

end NodeJS

/-! ## The five programs -/

/-- The five programs, the last one on a runtime. -/
inductive Program where
  | csharp | java | go | python
  | nodejs (mode : NodeJS.UnhandledRejections)
  deriving DecidableEq, Repr

/-- Each program as a relay. -/
def Program.relay : Program → Relay
  | .csharp => CSharp.relay
  | .java => Java.relay
  | .go => Go.relay
  | .python => Python.relay
  | .nodejs mode => NodeJS.relay mode

/-- **No forwarder invents, repeats or reorders**: over any run of any of the
five programs, whatever its calls come to, the bodies it has submitted are some
of those it took off the queue, in their order. -/
theorem relay_submits_in_order (program : Program) {polls : List program.relay.Poll}
    {s : program.relay.State}
    (h : program.relay.machine.run program.relay.start polls = some s) :
    (program.relay.submitted s).Sublist (program.relay.taken polls) :=
  program.relay.submitted_run h

theorem relay_submits_in_order_firstFails :
    ∃ s, CSharp.relay.machine.run .start firstFails = some s ∧
      (CSharp.relay.submitted s).Sublist (CSharp.relay.taken firstFails) :=
  ⟨_, rfl, relay_submits_in_order .csharp rfl⟩

end KubemqWorkshop
