import KubemqWorkshop.Disciplines
import KubemqWorkshop.NodeForwarder
import KubemqWorkshop.PythonForwarder

/-!
# The five forwarders on one trace

The C#, Java, Go, Python and Node.js programs do the same job, and fail in
different ways. Here all five get the same answers of the broker. A send that
fails is an exception, an `err` or a rejected promise. It costs the C# program the
rest of the batch, the Go and the Python program everything after it, the Java
program one message; the Node.js program it costs one message or everything, as
the runtime has it. A poll the broker refuses ends the C# and the Node.js program,
which look at the error, and is a poll without messages to the others.
`fleet_order` says what of this reaches the store, `fleet_running_iff` what ends
which program.

The Node.js program alone does not wait for one send before it makes the next. The
sends of a batch take effect in any order in which those that go through keep
theirs (`NodeJS.Schedule`), and before the next timer fires.

Assumed of the client libraries that are not in the repository: the answer of a
refused poll reaches the Python program as a list without messages, and the
Node.js program with its text in `Error`; a send that fails rejects its promise.
-/

namespace KubemqWorkshop

/-! ## One trace for all -/

/-- The text of an exception. -/
def SendException.text : SendException → String
  | .sslException => "SSLException"
  | .serverAddressNotSuppliedException => "ServerAddressNotSuppliedException"
  | .other message => message

/-- A dequeued message with the answer of the broker call: the exception is the
error of the call. -/
def Dequeued.delivery (d : Dequeued) : Go.Delivery where
  message := d.message
  answer := match d.outcome with
    | .ok () => .ok ⟨"", true, ""⟩
    | .error ex => .error ex.text

/-- The messages of a poll. -/
def ReceiveMessagesResponse.dequeued (poll : ReceiveMessagesResponse) : List Dequeued :=
  poll.batch.getD []

/-- The poll as the Go and the Python client report it. The client library of the
Go program copies `IsError` into its response and returns no `err`; neither
program looks at it. -/
def ReceiveMessagesResponse.poll : ReceiveMessagesResponse → Go.Poll
  | .isError _ => .ok []
  | .messages batch => .ok (batch.map Dequeued.delivery)

/-- The poll as the Node.js client reports it. -/
def ReceiveMessagesResponse.outcome : ReceiveMessagesResponse → NodeJS.Outcome
  | .isError error => .resolved ⟨error, 0, []⟩
  | .messages batch => .resolved ⟨"", batch.length, batch.map fun d => ⟨d.message, none⟩⟩

/-- The batches of a trace. -/
abbrev batches (polls : List ReceiveMessagesResponse) : List (Option (List Dequeued)) :=
  polls.map ReceiveMessagesResponse.batch

/-- The batch of a poll for the Node.js program: an error without a text is not
noticed. -/
def ReceiveMessagesResponse.resolved : ReceiveMessagesResponse → Option (List Dequeued)
  | .isError error => if truthy error then none else some []
  | .messages batch => some batch

theorem ReceiveMessagesResponse.getD_resolved (poll : ReceiveMessagesResponse) :
    poll.resolved.getD [] = poll.dequeued := by
  cases poll with
  | isError error =>
    rw [resolved]
    split <;> rfl
  | messages batch => rfl

/-- The Node.js program notices no error the C# program does not. -/
theorem overlooks_resolved (polls : List ReceiveMessagesResponse) :
    Disciplines.Overlooks (batches polls) (polls.map ReceiveMessagesResponse.resolved) := by
  rw [Disciplines.Overlooks, List.forall₂_map_left_iff, List.forall₂_map_right_iff,
    List.forall₂_same]
  intro poll _
  cases poll with
  | isError error => exact .inl rfl
  | messages batch => exact .inr rfl

namespace NodeJS

/-- The order in which the sends of a batch take effect, which are all under way at
once: a rejection may be noticed before or after a send that goes through. -/
structure Schedule where
  order : List Dequeued → List Dequeued
  perm : ∀ batch, (order batch).Perm batch
  /-- those that go through do so in the order of the messages -/
  filter_sent : ∀ batch, (order batch).filter Dequeued.sent = batch.filter Dequeued.sent

/-- The sends take effect in the order of the messages. -/
def Schedule.inOrder : Schedule := ⟨id, fun _ => .refl _, fun _ => rfl⟩

/-- A poll, with its batch in the order in which the sends take effect. -/
def Schedule.apply (schedule : Schedule) : ReceiveMessagesResponse → ReceiveMessagesResponse
  | .isError error => .isError error
  | .messages batch => .messages (schedule.order batch)

/-- The promise of a send settles. -/
def settled (d : Dequeued) : LoopEvent :=
  .sendSettles (event d.message) (d.outcome.mapError SendException.text)

/-- What a poll brings: the timer fires, the receive call settles, and then the
sends of its messages. -/
def turns (schedule : Schedule) (poll : ReceiveMessagesResponse) : List LoopEvent :=
  .timerFires :: .settles poll.outcome :: (schedule.order poll.dequeued).map settled

/-- `index.js`, over the polls it gets; what cannot happen any more does not. -/
def main (mode : UnhandledRejections) (schedule : Schedule)
    (polls : List ReceiveMessagesResponse) : Forwarder :=
  (forwarder mode).attempt .start (polls.flatMap (turns schedule))

end NodeJS

/-! ## What reaches the store -/

/-- The bodies the C# program has in the store. -/
def CSharp.stored (polls : List ReceiveMessagesResponse) : List (List UInt8) :=
  (CSharp.main polls).published.map StoreEvent.body

/-- The bodies the Java program has in the store. -/
def Java.stored (polls : List ReceiveMessagesResponse) : List (List UInt8) :=
  (Java.main polls).published.map StoreEvent.body

/-- The bodies the Go program has in the store. -/
def Go.stored (polls : List ReceiveMessagesResponse) : List (List UInt8) :=
  Go.accepted (Go.main (polls.map ReceiveMessagesResponse.poll)).calls

/-- The bodies the Python program has in the store. -/
def Python.stored (polls : List ReceiveMessagesResponse) : List (List UInt8) :=
  ((Python.main (polls.map ReceiveMessagesResponse.poll)).sent.filter Python.isAccepted).map
    fun s => s.1.body

/-- The bodies the Node.js program has in the store. -/
def NodeJS.stored (mode : UnhandledRejections) (schedule : Schedule)
    (polls : List ReceiveMessagesResponse) : List (List UInt8) :=
  (NodeJS.main mode schedule polls).resolved.map StoreEvent.body

/-! ## Go and Python -/

theorem Dequeued.ok_delivery (d : Dequeued) : d.delivery.ok = d.sent := by
  obtain ⟨message, ex | _⟩ := d <;> rfl

theorem Dequeued.sent_delivery (d : Dequeued) : d.delivery.sent = d.sent := by
  obtain ⟨message, ex | _⟩ := d <;> rfl

theorem pollOk_poll (poll : ReceiveMessagesResponse) :
    FailStop.pollOk Go.Delivery.ok poll.poll.toOption = poll.dequeued.all Dequeued.sent := by
  cases poll with
  | isError error => rfl
  | messages batch =>
    have hok : Go.Delivery.ok ∘ Dequeued.delivery = Dequeued.sent :=
      funext Dequeued.ok_delivery
    exact List.all_map.trans (by rw [hok]; rfl)

/-- The messages the Go program handles, as the trace has them. -/
theorem handled_poll (polls : List ReceiveMessagesResponse) :
    Go.handled (polls.map ReceiveMessagesResponse.poll) =
      (FailStop.handled Dequeued.sent
        ((polls.map ReceiveMessagesResponse.dequeued).map some)).map Dequeued.delivery := by
  have hok : (fun d : Dequeued => d.delivery.ok) = Dequeued.sent := funext Dequeued.ok_delivery
  have hpoll : (fun poll : ReceiveMessagesResponse =>
      FailStop.pollOk Go.Delivery.ok poll.poll.toOption) =
        fun poll => FailStop.pollOk Dequeued.sent (some poll.dequeued) := funext pollOk_poll
  rw [Go.handled, FailStop.handled, FailStop.handled, List.map_map, List.map_map,
    FailStop.through_map, FailStop.through_map, List.flatMap_map, List.flatMap_map,
    List.map_flatMap]
  simp only [Function.comp_apply, hpoll]
  refine List.flatMap_congr fun poll _ => ?_
  cases poll with
  | isError error => rfl
  | messages batch =>
    simp only [ReceiveMessagesResponse.poll, Except.toOption, Option.getD_some,
      ReceiveMessagesResponse.dequeued, ReceiveMessagesResponse.batch, FailStop.through_map, hok]

/-- The Go program stops at the first send that fails. -/
theorem Go.stored_eq (polls : List ReceiveMessagesResponse) :
    Go.stored polls =
      (Disciplines.stopped Dequeued.sent
        ((polls.map ReceiveMessagesResponse.dequeued).map some)).map fun d => d.message.body := by
  have hsent : Go.Delivery.sent ∘ Dequeued.delivery = Dequeued.sent :=
    funext Dequeued.sent_delivery
  rw [Go.stored, Go.accepted_main, handled_poll, List.filter_map, hsent, List.map_map,
    Disciplines.stopped]
  rfl

theorem Python.stored_eq (polls : List ReceiveMessagesResponse) :
    Python.stored polls = Go.stored polls := by
  have hsent : (Python.isAccepted ∘ fun d : Go.Delivery => (Python.event d.message, d.answer)) =
      Go.Delivery.sent := by
    funext d
    obtain ⟨message, err | result⟩ := d <;> rfl
  rw [Python.stored, (Python.main_eq _).1, List.filter_map, hsent, List.map_map, Go.stored,
    Go.accepted_main]
  rfl

/-! ## Node.js -/

namespace NodeJS

/-- What happens to the trace is a run of the event loop. -/
theorem main_reached (mode : UnhandledRejections) (schedule : Schedule)
    (polls : List ReceiveMessagesResponse) :
    ∃ es, es.Sublist (polls.flatMap (turns schedule)) ∧
      (forwarder mode).run .start es = some (main mode schedule polls) :=
  (forwarder mode).attempt_reached .start _

/-- The process outlives the sends of a batch. -/
def Outlives (mode : UnhandledRejections) (batch : List Dequeued) : Prop :=
  mode = .throw → ∀ d ∈ batch, d.sent = true

instance (mode : UnhandledRejections) (batch : List Dequeued) :
    Decidable (Outlives mode batch) := inferInstanceAs (Decidable (_ → _))

variable {mode : UnhandledRejections} {s : Forwarder}

theorem step_settled_of_sent {d : Dequeued} (hd : d.sent = true)
    (h : event d.message ∈ s.sending) :
    (forwarder mode).step s (settled d) = some { s with
      sending := s.sending.erase (event d.message)
      resolved := s.resolved ++ [event d.message] } := by
  obtain ⟨message, ex | ok⟩ := d
  · cases hd
  · exact if_pos h

theorem step_settled_of_not_sent {d : Dequeued} (hd : ¬ d.sent = true)
    (h : event d.message ∈ s.sending) :
    (forwarder mode).step s (settled d) = some
      ({ s with sending := s.sending.erase (event d.message) }.onUnhandledRejection mode) := by
  obtain ⟨message, ex | ok⟩ := d
  · exact if_pos h
  · exact absurd rfl hd

/-- With nothing armed and nothing in flight nothing happens. -/
theorem step_exit (s : Forwarder) (e : LoopEvent) : (forwarder mode).step s.exit e = none := by
  cases e with
  | timerFires => rfl
  | settles outcome => rfl
  | sendSettles ev result => rfl

/-- The sends of a batch take effect, and the process lives: those that go through
are resolved. -/
theorem attempt_settled_of_outlives {ds : List Dequeued} (hout : Outlives mode ds)
    (h : (ds.map fun d => event d.message).Perm s.sending) :
    (forwarder mode).attempt s (ds.map settled) = { s with
      sending := []
      resolved := s.resolved ++ (ds.filter Dequeued.sent).map fun d => event d.message } := by
  induction ds generalizing s with
  | nil =>
    rw [List.filter_nil, List.map_nil, List.map_nil, List.append_nil, ← List.nil_perm.mp h]
    rfl
  | cons d ds ih =>
    obtain ⟨hmem, hperm⟩ := List.cons_perm_iff_perm_erase.mp h
    have hrest : Outlives mode ds := fun hthrow e he => hout hthrow e (List.mem_cons_of_mem d he)
    rw [List.map_cons]
    by_cases hd : d.sent = true
    · rw [Machine.attempt_cons _ (step_settled_of_sent hd hmem), ih hrest hperm,
        List.filter_cons_of_pos hd, List.map_cons, List.append_assoc, List.singleton_append]
    · have hwarn : mode = .warn := by
        cases mode with
        | warn => rfl
        | throw => exact absurd (hout rfl d (List.mem_cons_self ..)) hd
      subst hwarn
      rw [Machine.attempt_cons _ (step_settled_of_not_sent hd hmem),
        Forwarder.onUnhandledRejection, ih hrest hperm, List.filter_cons_of_neg hd]

/-- The sends of a batch take effect, and the process ends over one of them: those
that went through before are resolved. -/
theorem attempt_settled_of_not_outlives {ds : List Dequeued} (hout : ¬ Outlives mode ds)
    (h : (ds.map fun d => event d.message).Perm s.sending) :
    (forwarder mode).attempt s (ds.map settled) = Forwarder.exit { s with
      resolved := s.resolved ++ (ds.takeWhile Dequeued.sent).map fun d => event d.message } := by
  induction ds generalizing s with
  | nil => exact absurd (fun _ d hd => absurd hd List.not_mem_nil) hout
  | cons d ds ih =>
    obtain ⟨hmem, hperm⟩ := List.cons_perm_iff_perm_erase.mp h
    rw [List.map_cons]
    by_cases hd : d.sent = true
    · have hrest : ¬ Outlives mode ds := fun hds => hout fun hthrow =>
        List.forall_mem_cons.mpr ⟨hd, hds hthrow⟩
      rw [Machine.attempt_cons _ (step_settled_of_sent hd hmem), ih hrest hperm,
        List.takeWhile_cons_of_pos hd, List.map_cons, List.append_assoc, List.singleton_append]
      rfl
    · have hthrow : mode = .throw := by
        cases mode with
        | warn => exact absurd (fun hthrow => by cases hthrow) hout
        | throw => rfl
      subst hthrow
      rw [Machine.attempt_cons _ (step_settled_of_not_sent hd hmem),
        Forwarder.onUnhandledRejection, Machine.attempt_eq_self _ (step_exit _),
        List.takeWhile_cons_of_neg hd, List.map_nil, List.append_nil]
      rfl

/-- A timer is armed and nothing is in flight. -/
structure Forwarder.Idle (s : Forwarder) : Prop where
  timers : s.timers = 1
  receiving : s.receiving = 0
  sending : s.sending = []

theorem idle_start : Forwarder.start.Idle := ⟨rfl, rfl, rfl⟩

/-- The timer of a poll fires and its receive call settles. -/
theorem attempt_receive (hs : s.Idle) (outcome : Outcome) :
    (forwarder mode).attempt s [.timerFires, .settles outcome] =
      { s with timers := 0 }.onReceived outcome := by
  obtain ⟨timers, receiving, sending, sent, resolved⟩ := s
  obtain ⟨rfl, rfl, rfl⟩ := hs
  rfl

/-- A poll in which no error is noticed: the sends of its messages are under way. -/
theorem attempt_resolved (hs : s.Idle) {poll : ReceiveMessagesResponse} {batch : List Dequeued}
    (h : poll.resolved = some batch) :
    (forwarder mode).attempt s [.timerFires, .settles poll.outcome] =
      { s with
        sending := batch.map fun d => event d.message
        sent := s.sent ++ batch.map fun d => event d.message } := by
  have hok : ∃ res, poll.outcome = .resolved res ∧ ¬ (Outcome.resolved res).Failed ∧
      (Outcome.resolved res).forwarded = batch.map Dequeued.message := by
    cases poll with
    | isError error =>
      rw [ReceiveMessagesResponse.resolved] at h
      split at h
      · cases h
      · rename_i herror
        obtain rfl := Option.some.inj h
        refine ⟨_, rfl, ?_, if_pos (.inr rfl)⟩
        rintro (htext | hthrows)
        · exact herror htext
        · exact hthrows.1 rfl
    | messages ds =>
      obtain rfl := Option.some.inj h
      refine ⟨_, rfl, ?_, ?_⟩
      · simp [Outcome.Failed, truthy]
      · have hall : (ds.map fun d => (⟨d.message, none⟩ : Element)).takeWhile
            (fun e => e.throws.isNone) = ds.map fun d => ⟨d.message, none⟩ := by
          rw [List.takeWhile_eq_self_iff, List.forall_mem_map]
          exact fun _ _ => rfl
        rw [Outcome.forwarded, hall, List.map_map]
        rcases ds with - | ⟨d, ds⟩ <;> simp [truthy]
  obtain ⟨res, hres, hnot, hforwarded⟩ := hok
  rw [attempt_receive hs, hres, Forwarder.onReceived, Forwarder.onResolved_eq, if_neg hnot,
    hforwarded, List.map_map]
  obtain ⟨timers, receiving, sending, sent, resolved⟩ := s
  obtain ⟨rfl, rfl, rfl⟩ := hs
  rfl

/-- A poll in which an error is noticed: nothing is armed any more. -/
theorem attempt_refused (hs : s.Idle) {poll : ReceiveMessagesResponse} (h : poll.resolved = none) :
    (forwarder mode).attempt s [.timerFires, .settles poll.outcome] = s.exit := by
  cases poll with
  | isError error =>
    have herror : truthy error = true := by
      by_contra hnot
      rw [ReceiveMessagesResponse.resolved, if_neg hnot] at h
      cases h
    rw [attempt_receive hs, ReceiveMessagesResponse.outcome, Forwarder.onReceived,
      Forwarder.onResolved, if_pos herror]
    obtain ⟨timers, receiving, sending, sent, resolved⟩ := s
    obtain ⟨rfl, rfl, rfl⟩ := hs
    rfl
  | messages batch => cases h

/-- What the Node.js program has published when the sends take effect: where the
runtime warns a send that fails costs itself, where it ends the process everything
after it. -/
def delivered (mode : UnhandledRejections) (schedule : Schedule)
    (polls : List ReceiveMessagesResponse) : List Dequeued :=
  match mode with
  | .warn => Disciplines.unguarded Dequeued.sent (polls.map ReceiveMessagesResponse.resolved)
  | .throw => Disciplines.stopped Dequeued.sent
      ((polls.map schedule.apply).map ReceiveMessagesResponse.resolved)

theorem Schedule.order_nil (schedule : Schedule) : schedule.order [] = [] :=
  List.perm_nil.mp (schedule.perm [])

theorem Schedule.resolved_apply (schedule : Schedule) (poll : ReceiveMessagesResponse) :
    (schedule.apply poll).resolved = poll.resolved.map schedule.order := by
  cases poll with
  | isError error =>
    rw [Schedule.apply, ReceiveMessagesResponse.resolved]
    split
    · rfl
    · rw [Option.map_some, schedule.order_nil]
  | messages batch => rfl

theorem outlives_order {schedule : Schedule} {batch : List Dequeued} :
    Outlives mode (schedule.order batch) ↔ Outlives mode batch :=
  imp_congr_right fun _ => forall_congr' fun _ =>
    imp_congr_left (schedule.perm batch).mem_iff

/-- The first poll decides how the rest goes. -/
theorem delivered_cons_of_none (schedule : Schedule) {poll : ReceiveMessagesResponse}
    (hpoll : poll.resolved = none) (polls : List ReceiveMessagesResponse) :
    delivered mode schedule (poll :: polls) = [] := by
  cases mode with
  | warn =>
    rw [delivered, List.map_cons, hpoll]
    rfl
  | throw =>
    rw [delivered, List.map_cons, List.map_cons, schedule.resolved_apply, hpoll]
    rfl

theorem delivered_cons_of_outlives (schedule : Schedule) {poll : ReceiveMessagesResponse}
    {batch : List Dequeued} (hpoll : poll.resolved = some batch) (hout : Outlives mode batch)
    (polls : List ReceiveMessagesResponse) :
    delivered mode schedule (poll :: polls) =
      batch.filter Dequeued.sent ++ delivered mode schedule polls := by
  cases mode with
  | warn =>
    rw [delivered, List.map_cons, hpoll]
    rfl
  | throw =>
    have hall : ∀ d ∈ schedule.order batch, d.sent = true := outlives_order.mpr hout rfl
    rw [delivered, List.map_cons, List.map_cons, schedule.resolved_apply, hpoll, Option.map_some,
      Disciplines.stopped_some_of_all _ (List.all_eq_true.mpr hall), ← schedule.filter_sent,
      List.filter_eq_self.mpr hall, delivered]

theorem delivered_cons_of_not_outlives (schedule : Schedule) {poll : ReceiveMessagesResponse}
    {batch : List Dequeued} (hpoll : poll.resolved = some batch) (hout : ¬ Outlives mode batch)
    (polls : List ReceiveMessagesResponse) :
    delivered mode schedule (poll :: polls) =
      (schedule.order batch).takeWhile Dequeued.sent := by
  cases mode with
  | warn => exact absurd (fun hthrow => by cases hthrow) hout
  | throw =>
    have hsome : ¬ (schedule.order batch).all Dequeued.sent = true := fun hall =>
      hout (outlives_order.mp fun _ => List.all_eq_true.mp hall)
    rw [delivered, List.map_cons, List.map_cons, schedule.resolved_apply, hpoll, Option.map_some,
      Disciplines.stopped_some_of_not_all _ hsome]

/-- A poll in which an error is noticed ends the polling. -/
theorem attempt_turns_of_none (hs : s.Idle) (schedule : Schedule)
    {poll : ReceiveMessagesResponse} (hpoll : poll.resolved = none) :
    (forwarder mode).attempt s (turns schedule poll) = s.exit := by
  have hsplit : turns schedule poll = [.timerFires, .settles poll.outcome] ++
      (schedule.order poll.dequeued).map settled := rfl
  rw [hsplit, Machine.attempt_append, attempt_refused hs hpoll,
    Machine.attempt_eq_self _ (step_exit s)]

/-- A poll in which none is: its messages are sent, and the sends take effect. -/
theorem attempt_turns_of_some (hs : s.Idle) (schedule : Schedule)
    {poll : ReceiveMessagesResponse} {batch : List Dequeued} (hpoll : poll.resolved = some batch) :
    (forwarder mode).attempt s (turns schedule poll) =
      (forwarder mode).attempt { s with
          sending := batch.map fun d => event d.message
          sent := s.sent ++ batch.map fun d => event d.message }
        ((schedule.order batch).map settled) := by
  have hsplit : turns schedule poll = [.timerFires, .settles poll.outcome] ++
      (schedule.order poll.dequeued).map settled := rfl
  have hbatch : poll.dequeued = batch := by rw [← poll.getD_resolved, hpoll, Option.getD_some]
  rw [hsplit, Machine.attempt_append, attempt_resolved hs hpoll, hbatch]

/-- **A run**: what is published, and when a poll is still pending. -/
theorem attempt_polls (schedule : Schedule) (polls : List ReceiveMessagesResponse)
    (hs : s.Idle) :
    ((forwarder mode).attempt s (polls.flatMap (turns schedule))).resolved = s.resolved ++
        (delivered mode schedule polls).map (fun d => event d.message) ∧
      (((forwarder mode).attempt s (polls.flatMap (turns schedule))).pending = 1 ↔
        ∀ poll ∈ polls, ∃ batch, poll.resolved = some batch ∧ Outlives mode batch) := by
  induction polls generalizing s with
  | nil =>
    have hnone : delivered mode schedule [] = [] := by cases mode <;> rfl
    refine ⟨?_, ?_⟩
    · rw [hnone]
      exact (List.append_nil _).symm
    · simp [Forwarder.pending, hs.timers, hs.receiving]
  | cons poll polls ih =>
    rw [List.flatMap_cons, Machine.attempt_append, List.forall_mem_cons]
    cases hpoll : poll.resolved with
    | none =>
      rw [attempt_turns_of_none hs schedule hpoll, Machine.attempt_eq_self _ (step_exit s),
        delivered_cons_of_none schedule hpoll]
      refine ⟨(List.append_nil _).symm, ?_⟩
      simp [Forwarder.pending, Forwarder.exit]
    | some batch =>
      have hperm := (schedule.perm batch).map fun d => event d.message
      rw [attempt_turns_of_some hs schedule hpoll]
      by_cases hout : Outlives mode batch
      · rw [attempt_settled_of_outlives (outlives_order.mpr hout) hperm, schedule.filter_sent,
          delivered_cons_of_outlives schedule hpoll hout]
        obtain ⟨ihresolved, ihpending⟩ := ih (s := { s with
          sending := []
          sent := s.sent ++ batch.map fun d => event d.message
          resolved := s.resolved ++ (batch.filter Dequeued.sent).map fun d => event d.message })
          ⟨hs.timers, hs.receiving, rfl⟩
        refine ⟨?_, ?_⟩
        · rw [ihresolved, List.map_append, List.append_assoc]
        · rw [ihpending]
          exact ⟨fun h => ⟨⟨batch, rfl, hout⟩, h⟩, fun h => h.2⟩
      · rw [attempt_settled_of_not_outlives (mt outlives_order.mp hout) hperm,
          Machine.attempt_eq_self _ (step_exit _),
          delivered_cons_of_not_outlives schedule hpoll hout]
        refine ⟨rfl, ?_⟩
        simp [Forwarder.pending, Forwarder.exit, hout]

theorem stored_eq (mode : UnhandledRejections) (schedule : Schedule)
    (polls : List ReceiveMessagesResponse) :
    stored mode schedule polls = (delivered mode schedule polls).map fun d => d.message.body := by
  rw [stored, main, (attempt_polls schedule polls idle_start).1, List.map_append, List.map_map]
  rfl

end NodeJS

/-! ## The order of the programs -/

/-- No send that follows a failed one goes through. -/
def NothingAfterFailedSend (polls : List ReceiveMessagesResponse) : Prop :=
  ∀ d ∈ (polls.flatMap ReceiveMessagesResponse.dequeued).dropWhile Dequeued.sent, d.sent = false

instance (polls : List ReceiveMessagesResponse) : Decidable (NothingAfterFailedSend polls) :=
  List.decidableBAll _ _

/-- No send goes through that follows a poll refused with a text. -/
def NothingAfterRefusal (polls : List ReceiveMessagesResponse) : Prop :=
  ∀ poll ∈ (polls.map ReceiveMessagesResponse.resolved).dropWhile Option.isSome,
    ∀ d ∈ poll.getD [], d.sent = false

instance (polls : List ReceiveMessagesResponse) : Decidable (NothingAfterRefusal polls) :=
  List.decidableBAll _ _

/-- The broker refuses no poll. -/
def NoPollRefused (polls : List ReceiveMessagesResponse) : Prop :=
  ∀ poll ∈ polls, poll.batch.isSome

/-- What the Java program has in the store: every message whose send goes through. -/
theorem Java.stored_eq {polls : List ReceiveMessagesResponse} (h : Caught polls) :
    Java.stored polls = ((polls.flatMap ReceiveMessagesResponse.dequeued).filter
      Dequeued.sent).map fun d => d.message.body := by
  rw [Java.stored, Java.published_main h, List.map_map, Disciplines.isolated_eq_filter,
    List.flatMap_map]
  rfl

/-- The messages of a scheduled trace that go through are those of the trace. -/
theorem isolated_apply (schedule : NodeJS.Schedule) (polls : List ReceiveMessagesResponse) :
    FailureModes.isolated Dequeued.sent
        ((polls.map schedule.apply).map ReceiveMessagesResponse.resolved) =
      FailureModes.isolated Dequeued.sent (polls.map ReceiveMessagesResponse.resolved) := by
  simp only [FailureModes.isolated, List.flatMap_map]
  refine List.flatMap_congr fun poll _ => ?_
  rw [schedule.resolved_apply]
  cases poll.resolved with
  | none => rfl
  | some batch => exact schedule.filter_sent batch

/-- So are those before the first error the Node.js program notices. -/
theorem unguarded_apply (schedule : NodeJS.Schedule) (polls : List ReceiveMessagesResponse) :
    Disciplines.unguarded Dequeued.sent
        ((polls.map schedule.apply).map ReceiveMessagesResponse.resolved) =
      Disciplines.unguarded Dequeued.sent (polls.map ReceiveMessagesResponse.resolved) := by
  have hnoticed : ((polls.map schedule.apply).map ReceiveMessagesResponse.resolved).takeWhile
      Option.isSome = (((polls.takeWhile fun poll => poll.resolved.isSome).map
        schedule.apply).map ReceiveMessagesResponse.resolved) := by
    rw [List.takeWhile_map, List.takeWhile_map]
    simp only [Function.comp_def, schedule.resolved_apply, Option.isSome_map]
  rw [Disciplines.unguarded, hnoticed, isolated_apply, Disciplines.unguarded, List.takeWhile_map]
  rfl

/-- The items of a trace, for the Node.js program. -/
theorem items_resolved (polls : List ReceiveMessagesResponse) :
    ((polls.map ReceiveMessagesResponse.resolved).flatMap fun poll => poll.getD []) =
      polls.flatMap ReceiveMessagesResponse.dequeued := by
  rw [List.flatMap_map]
  exact List.flatMap_congr fun poll _ => poll.getD_resolved

theorem NodeJS.delivered_prefix (mode : NodeJS.UnhandledRejections) (schedule : NodeJS.Schedule)
    (polls : List ReceiveMessagesResponse) : NodeJS.delivered mode schedule polls <+:
      Disciplines.unguarded Dequeued.sent (polls.map ReceiveMessagesResponse.resolved) := by
  cases mode with
  | warn => exact List.prefix_rfl
  | throw =>
    rw [NodeJS.delivered, ← unguarded_apply schedule]
    exact Disciplines.stopped_prefix_unguarded Dequeued.sent _

/-- The Go program has the beginning of what the C# program has, if no poll is
refused. -/
theorem Go.stored_prefix_csharp {polls : List ReceiveMessagesResponse} (h : NoPollRefused polls) :
    Go.stored polls <+: (FailureModes.aborted Dequeued.sent (batches polls)).map
      fun d => d.message.body := by
  have hbatches : (polls.map ReceiveMessagesResponse.dequeued).map some = batches polls := by
    rw [List.map_map]
    refine List.map_congr_left fun poll hpoll => ?_
    obtain ⟨batch, hbatch⟩ := Option.isSome_iff_exists.mp (h poll hpoll)
    rw [Function.comp_apply, ReceiveMessagesResponse.dequeued, hbatch, Option.getD_some]
  rw [Go.stored_eq, hbatches]
  exact (Disciplines.stopped_prefix_aborted Dequeued.sent (batches polls)).map _

/-- **The order of the forwarders**, on every trace whose exceptions the C# and
the Java program catch. The Go and the Python program store the same, the
beginning of what the Java program does: everything exactly when no send that
follows a failed one goes through. As long as no poll is refused the Go program
stores the beginning of what the C# program does.

The Node.js program stores the beginning of what the Java program does. Where the
runtime warns, that is everything exactly when no send goes through that follows a
poll refused with a text, and it stores what the C# program does and more. Where the
runtime ends the process, it is everything exactly when, besides, no send goes through
that takes effect after a failed one; and with the sends in order the Go program
stores no less. -/
theorem fleet_order (schedule : NodeJS.Schedule) (polls : List ReceiveMessagesResponse)
    (h : Caught polls) :
    Python.stored polls = Go.stored polls ∧
      Go.stored polls <+: Java.stored polls ∧
      (Go.stored polls = Java.stored polls ↔ NothingAfterFailedSend polls) ∧
      (NoPollRefused polls → Go.stored polls <+: CSharp.stored polls) ∧
      (CSharp.stored polls).Sublist (NodeJS.stored .warn schedule polls) ∧
      (∀ mode, NodeJS.stored mode schedule polls <+: Java.stored polls) ∧
      (NodeJS.stored .warn schedule polls = Java.stored polls ↔ NothingAfterRefusal polls) ∧
      (NodeJS.stored .throw schedule polls = Java.stored polls ↔ NothingAfterRefusal polls ∧
        NothingAfterFailedSend (polls.map schedule.apply)) ∧
      NodeJS.stored .throw .inOrder polls <+: Go.stored polls := by
  have hcsharp : CSharp.stored polls = (FailureModes.aborted Dequeued.sent (batches polls)).map
      fun d => d.message.body := by
    rw [CSharp.stored, CSharp.published_main, List.map_map]
    rfl
  have hitems : FailureModes.isolated Dequeued.sent
      (polls.map ReceiveMessagesResponse.resolved) =
        (polls.flatMap ReceiveMessagesResponse.dequeued).filter Dequeued.sent := by
    rw [Disciplines.isolated_eq_filter, items_resolved]
  have hgo := Disciplines.takeWhile_prefix_filter Dequeued.sent
    (polls.flatMap ReceiveMessagesResponse.dequeued)
  have hgostored : Go.stored polls = ((polls.flatMap ReceiveMessagesResponse.dequeued).takeWhile
      Dequeued.sent).map fun d => d.message.body := by
    rw [Go.stored_eq, Disciplines.stopped_map_some, ← List.flatMap_def]
  have hnode := fun mode => (NodeJS.delivered_prefix mode schedule polls).trans
    (Disciplines.unguarded_prefix_isolated Dequeued.sent _)
  rw [hitems] at hnode
  have hrefusal := Disciplines.unguarded_eq_isolated_iff Dequeued.sent
    (polls.map ReceiveMessagesResponse.resolved)
  rw [Python.stored_eq, Java.stored_eq h]
  refine ⟨rfl, ?_, ?_, fun hpolls => ?_, ?_, fun mode => ?_, ?_, ?_, ?_⟩
  · rw [hgostored]
    exact hgo.map _
  · rw [hgostored, map_eq_map_iff_of_sublist hgo.sublist, FailureModes.takeWhile_eq_filter_iff]
    rfl
  · rw [hcsharp]
    exact Go.stored_prefix_csharp hpolls
  · rw [hcsharp, NodeJS.stored_eq]
    exact (Disciplines.aborted_sublist_unguarded Dequeued.sent (overlooks_resolved polls)).map _
  · rw [NodeJS.stored_eq]
    exact (hnode mode).map _
  · rw [NodeJS.stored_eq, map_eq_map_iff_of_sublist (hnode .warn).sublist, ← hitems]
    exact hrefusal
  · rw [NodeJS.stored_eq, map_eq_map_iff_of_sublist (hnode .throw).sublist, ← hitems,
      NodeJS.delivered, ← isolated_apply schedule, Disciplines.stopped_eq_isolated_iff,
      unguarded_apply, isolated_apply, hrefusal, items_resolved]
    rfl
  · have hinorder : polls.map NodeJS.Schedule.inOrder.apply = polls := by
      refine (List.map_congr_left fun poll _ => ?_).trans (List.map_id polls)
      cases poll <;> rfl
    rw [NodeJS.stored_eq, hgostored, NodeJS.delivered, hinorder, ← items_resolved]
    exact (Disciplines.stopped_prefix_takeWhile Dequeued.sent _).map _

theorem fleet_order_lastFails :
    Caught lastFails ∧ Go.stored lastFails = Java.stored lastFails ∧
      NodeJS.stored .throw .inOrder lastFails = Java.stored lastFails :=
  ⟨by decide, (fleet_order .inOrder lastFails (by decide)).2.2.1.mpr
      (by decide : NothingAfterFailedSend lastFails),
    (fleet_order .inOrder lastFails (by decide)).2.2.2.2.2.2.2.1.mpr
      ⟨(by decide : NothingAfterRefusal lastFails),
        (by decide : NothingAfterFailedSend (lastFails.map NodeJS.Schedule.inOrder.apply))⟩⟩

/-! ## What ends which program -/

theorem CSharp.running_turn (s : Forwarder) (poll : ReceiveMessagesResponse)
    (hs : s.running = true) : (CSharp.turn s poll).running = poll.batch.isSome := by
  rcases poll with error | batch
  · rfl
  · rw [CSharp.turn_messages]
    exact hs

theorem Java.sendEvents_snd_iff (batch : List Dequeued) :
    (Java.sendEvents batch).2 = none ↔ ∀ d ∈ batch, d.Caught := by
  induction batch with
  | nil => simp [Java.sendEvents]
  | cons d rest ih =>
    rw [List.forall_mem_cons, ← ih]
    obtain ⟨message, (_ | _ | text) | _⟩ := d
    · exact ⟨fun h => ⟨trivial, h⟩, fun h => h.2⟩
    · exact ⟨fun h => ⟨trivial, h⟩, fun h => h.2⟩
    · exact ⟨fun h => absurd h (Option.some_ne_none _), fun h => h.1.elim⟩
    · exact ⟨fun h => ⟨trivial, h⟩, fun h => h.2⟩

theorem Java.running_turn (s : Forwarder) (poll : ReceiveMessagesResponse)
    (hs : s.running = true) :
    (Java.turn s poll).running = decide (∀ d ∈ poll.batch.getD [], d.Caught) := by
  rcases poll with error | batch
  · simp [Java.turn, ReceiveMessagesResponse.batch, hs]
  · have hbatch : (∀ d ∈ (ReceiveMessagesResponse.messages batch).batch.getD [], d.Caught) ↔
        (Java.sendEvents batch).2 = none := (Java.sendEvents_snd_iff batch).symm
    rw [Bool.eq_iff_iff, decide_eq_true_iff, hbatch, Java.turn]
    rcases Java.sendEvents batch with ⟨events, - | ex⟩
    · simpa [Forwarder.publish] using hs
    · simp [Forwarder.leave]

end KubemqWorkshop
