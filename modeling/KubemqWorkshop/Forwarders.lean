import KubemqWorkshop.FailStop

/-!
# The C# and the Java forwarder

Both programs take batches off the queue and publish every message to the store
channel `ratesstore`. The environment of a run is a list of polls; a message
comes with what `SendEvent` does to it. The loops differ in where they catch: in
Java around one `SendEvent`, in C# around the whole poll, and a receive error is
a `continue` in Java and a `return` in C#. So the Java loop isolates failures
(`Java.published_main`), the C# loop aborts on them (`CSharp.published_main`),
and they publish the same bodies exactly when nothing that could have been
published comes after a failure (`forwarders_alike_iff`).

Assumed of the client libraries: the queue was created, a poll that fails says
so through `IsError`, and what a poll returns is off the queue.
-/

namespace KubemqWorkshop

/-- What `SendEvent` throws. The Java loop names two exceptions; the second is
spelled as the class is. -/
inductive SendException where
  | sslException : SendException
  | serverAddressNotSuppliedException : SendException
  /-- any other exception -/
  | other (message : String) : SendException
  deriving DecidableEq, Repr

/-- A message of the queue. -/
structure Message where
  messageID : String
  body : List UInt8
  deriving DecidableEq, Repr

/-- A dequeued message, and what becomes of its `SendEvent`. -/
structure Dequeued where
  message : Message
  outcome : Except SendException Unit

/-- The send goes through. -/
def Dequeued.sent (d : Dequeued) : Bool :=
  match d.outcome with
  | .ok () => true
  | .error _ => false

/-- Both programs catch what this send throws. -/
def Dequeued.Caught (d : Dequeued) : Prop :=
  match d.outcome with
  | .error (.other _) => False
  | _ => True

instance (d : Dequeued) : Decidable d.Caught :=
  match d with
  | ⟨_, .error (.other _)⟩ => .isFalse id
  | ⟨_, .error .sslException⟩ => .isTrue trivial
  | ⟨_, .error .serverAddressNotSuppliedException⟩ => .isTrue trivial
  | ⟨_, .ok ()⟩ => .isTrue trivial

/-- The answer to one `ReceiveQueueMessages`. -/
inductive ReceiveMessagesResponse where
  /-- `IsError`, with the text of `Error` -/
  | isError (error : String) : ReceiveMessagesResponse
  /-- the messages, in the order they left the queue -/
  | messages (batch : List Dequeued) : ReceiveMessagesResponse

/-- The batch of a poll, if it has one. -/
def ReceiveMessagesResponse.batch : ReceiveMessagesResponse → Option (List Dequeued)
  | .isError _ => none
  | .messages batch => some batch

/-- Everything the trace makes `SendEvent` throw is caught by both programs. -/
def Caught (polls : List ReceiveMessagesResponse) : Prop :=
  ∀ poll ∈ polls, ∀ d ∈ poll.batch.getD [], d.Caught

instance (polls : List ReceiveMessagesResponse) : Decidable (Caught polls) :=
  inferInstanceAs (Decidable (∀ poll ∈ polls, ∀ d ∈ poll.batch.getD [], d.Caught))

/-- An event of the store. -/
structure StoreEvent where
  body : List UInt8
  metadata : Option String
  deriving DecidableEq, Repr

/-- A forwarder at the head of its `while (true)`. -/
structure Forwarder where
  /-- what went to `ratesstore`, oldest first -/
  published : List StoreEvent
  /-- the loop has not been left -/
  running : Bool
  deriving DecidableEq, Repr

namespace Forwarder

/-- A forwarder before its first poll. -/
def start : Forwarder := ⟨[], true⟩

/-- Publish the events of one poll. -/
def publish (s : Forwarder) (events : List StoreEvent) : Forwarder :=
  { s with published := s.published ++ events }

/-- Leave the loop. -/
def leave (s : Forwarder) : Forwarder := { s with running := false }

/-- Run the loop: `turn` is its body, and is not entered again once the loop has
been left. -/
def loop (turn : Forwarder → ReceiveMessagesResponse → Forwarder) (s : Forwarder)
    (polls : List ReceiveMessagesResponse) : Forwarder :=
  polls.foldl (fun s poll => if s.running then turn s poll else s) s

variable {turn : Forwarder → ReceiveMessagesResponse → Forwarder} {s : Forwarder}

@[simp] theorem loop_nil : loop turn s [] = s := rfl

/-- The loop is one that can be left. -/
theorem loop_eq_loop (polls : List ReceiveMessagesResponse) :
    loop turn s polls = FailStop.loop running turn s polls := rfl

theorem loop_cons (hs : s.running = true) (poll : ReceiveMessagesResponse)
    (polls : List ReceiveMessagesResponse) :
    loop turn s (poll :: polls) = loop turn (turn s poll) polls := by
  rw [loop_eq_loop, FailStop.loop_cons hs, ← loop_eq_loop]

/-- A loop that has been left stays as it is. -/
theorem loop_left (hs : s.running = false) (polls : List ReceiveMessagesResponse) :
    loop turn s polls = s := by
  rw [loop_eq_loop, FailStop.loop_left hs]

end Forwarder

/-! ## The two programs -/

namespace CSharp

/-- The event `Main` makes of a message. -/
def event (item : Message) : StoreEvent :=
  ⟨item.body, some "Rate message json encoded in UTF8"⟩

/-- The `foreach` over the messages: an exception leaves it. -/
def sendEvents : List Dequeued → List StoreEvent × Option SendException
  | [] => ([], none)
  | ⟨item, .ok ()⟩ :: rest => (event item :: (sendEvents rest).1, (sendEvents rest).2)
  | ⟨_, .error ex⟩ :: _ => ([], some ex)

/-- The body of `while (true)`. Whatever the `foreach` throws, the `catch` around
the poll takes it, and the loop goes on. -/
def turn (s : Forwarder) : ReceiveMessagesResponse → Forwarder
  -- `return`
  | .isError _ => s.leave
  | .messages batch =>
    match sendEvents batch with
    | (events, none) => s.publish events
    | (events, some _) => s.publish events

/-- `Main`, over the answers it gets. -/
def main (polls : List ReceiveMessagesResponse) : Forwarder :=
  Forwarder.loop turn .start polls

end CSharp

namespace Java

/-- The event `main` makes of a message; its metadata is not set. -/
def event (msg : Message) : StoreEvent := ⟨msg.body, none⟩

/-- The `for` over the messages: the two named exceptions are caught message by
message, any other leaves it. -/
def sendEvents : List Dequeued → List StoreEvent × Option SendException
  | [] => ([], none)
  | ⟨msg, .ok ()⟩ :: rest => (event msg :: (sendEvents rest).1, (sendEvents rest).2)
  | ⟨_, .error .sslException⟩ :: rest => sendEvents rest
  | ⟨_, .error .serverAddressNotSuppliedException⟩ :: rest => sendEvents rest
  | ⟨_, .error (.other message)⟩ :: _ => ([], some (.other message))

/-- The body of `while (true)`. Nothing catches what the `for` throws. -/
def turn (s : Forwarder) : ReceiveMessagesResponse → Forwarder
  -- `continue`
  | .isError _ => s
  | .messages batch =>
    match sendEvents batch with
    | (events, none) => s.publish events
    | (events, some _) => (s.publish events).leave

/-- `main`, over the answers it gets. -/
def main (polls : List ReceiveMessagesResponse) : Forwarder :=
  Forwarder.loop turn .start polls

end Java

/-! ## One batch -/

namespace CSharp

theorem sendEvents_fst (batch : List Dequeued) :
    (sendEvents batch).1 = (batch.takeWhile Dequeued.sent).map fun d => event d.message := by
  induction batch with
  | nil => rfl
  | cons d rest ih =>
    obtain ⟨item, (ex | _)⟩ := d
    · rfl
    · rw [List.takeWhile_cons_of_pos rfl, List.map_cons, ← ih]
      rfl

/-- A poll with messages publishes up to the first failure and keeps the loop
running. -/
theorem turn_messages (s : Forwarder) (batch : List Dequeued) :
    turn s (.messages batch) =
      s.publish ((batch.takeWhile Dequeued.sent).map fun d => event d.message) := by
  rw [← sendEvents_fst, turn]
  rcases sendEvents batch with ⟨events, - | ex⟩ <;> rfl

end CSharp

namespace Java

theorem sendEvents_eq {batch : List Dequeued} (h : ∀ d ∈ batch, d.Caught) :
    sendEvents batch = ((batch.filter Dequeued.sent).map fun d => event d.message, none) := by
  induction batch with
  | nil => rfl
  | cons d rest ih =>
    have ih := ih fun d hd => h d (List.mem_cons_of_mem _ hd)
    have hd := h d (List.mem_cons_self ..)
    obtain ⟨msg, ((_ | _ | message) | _)⟩ := d
    · rw [List.filter_cons_of_neg (by simp [Dequeued.sent]), ← ih, sendEvents]
    · rw [List.filter_cons_of_neg (by simp [Dequeued.sent]), ← ih, sendEvents]
    · exact hd.elim
    · rw [List.filter_cons_of_pos rfl, List.map_cons, sendEvents, ih]

/-- A poll publishes every message whose own send goes through, and keeps the
loop running. -/
theorem turn_eq (s : Forwarder) {poll : ReceiveMessagesResponse}
    (h : ∀ d ∈ poll.batch.getD [], d.Caught) :
    turn s poll = s.publish (((poll.batch.getD []).filter Dequeued.sent).map
      fun d => event d.message) := by
  rcases poll with error | batch
  · simp [turn, Forwarder.publish, ReceiveMessagesResponse.batch]
  · have hbatch : ∀ d ∈ batch, d.Caught := h
    rw [turn, sendEvents_eq hbatch]
    rfl

end Java

/-! ## Runs -/

namespace CSharp

theorem published_loop (polls : List ReceiveMessagesResponse) :
    ∀ s : Forwarder, s.running = true →
      (Forwarder.loop turn s polls).published = s.published ++
        (FailureModes.aborted Dequeued.sent (polls.map ReceiveMessagesResponse.batch)).map
          fun d => event d.message := by
  induction polls with
  | nil =>
    intro s _
    exact (List.append_nil _).symm
  | cons poll polls ih =>
    intro s hs
    rw [Forwarder.loop_cons hs]
    rcases poll with error | batch
    · rw [Forwarder.loop_left rfl]
      exact (List.append_nil _).symm
    · rw [turn_messages, ih (s.publish _) hs, List.map_cons, ReceiveMessagesResponse.batch,
        FailureModes.aborted, List.map_append, Forwarder.publish, List.append_assoc]

/-- **The C# loop aborts**: a failed send costs the rest of its batch, a failed
poll everything after it. -/
theorem published_main (polls : List ReceiveMessagesResponse) :
    (main polls).published =
      (FailureModes.aborted Dequeued.sent (polls.map ReceiveMessagesResponse.batch)).map
        fun d => event d.message := by
  rw [main, published_loop polls .start rfl]
  rfl

end CSharp

namespace Java

theorem loop_eq (polls : List ReceiveMessagesResponse) (h : Caught polls) :
    ∀ s : Forwarder, s.running = true →
      Forwarder.loop turn s polls = s.publish
        ((FailureModes.isolated Dequeued.sent (polls.map ReceiveMessagesResponse.batch)).map
          fun d => event d.message) := by
  induction polls with
  | nil =>
    intro s _
    simp [Forwarder.publish]
  | cons poll polls ih =>
    intro s hs
    obtain ⟨hpoll, hpolls⟩ := List.forall_mem_cons.mp h
    rw [Forwarder.loop_cons hs, turn_eq s hpoll, ih hpolls (s.publish _) hs, List.map_cons,
      FailureModes.isolated_cons, List.map_append]
    simp only [Forwarder.publish, List.append_assoc]

/-- **The Java loop isolates**: a failed send costs itself, a failed poll
nothing. -/
theorem published_main {polls : List ReceiveMessagesResponse} (h : Caught polls) :
    (main polls).published =
      (FailureModes.isolated Dequeued.sent (polls.map ReceiveMessagesResponse.batch)).map
        fun d => event d.message := by
  rw [main, loop_eq polls h .start rfl]
  rfl

end Java

/-! ## What reaches the store -/

/-- Nothing that could have been published comes after a failure: neither after
a failed send in its batch nor after a failed poll. -/
def NothingAfterFailure (polls : List ReceiveMessagesResponse) : Prop :=
  FailureModes.NothingAfterFailure Dequeued.sent (polls.map ReceiveMessagesResponse.batch)

/-- **The Java forwarder loses nothing but failed sends**, and goes on polling. -/
theorem java_loses_failed_sends_only (polls : List ReceiveMessagesResponse) (h : Caught polls) :
    (Java.main polls).published.map StoreEvent.body =
        polls.flatMap (fun poll =>
          ((poll.batch.getD []).filter Dequeued.sent).map fun d => d.message.body) ∧
      (Java.main polls).running = true := by
  refine ⟨?_, ?_⟩
  · rw [Java.published_main h, List.map_map, FailureModes.isolated, List.flatMap_map,
      List.map_flatMap]
    rfl
  · rw [Java.main, Java.loop_eq polls h .start rfl]
    rfl

/-- **When the two forwarders publish the same bodies.** -/
theorem forwarders_alike_iff (polls : List ReceiveMessagesResponse) (h : Caught polls) :
    (CSharp.main polls).published.map StoreEvent.body =
        (Java.main polls).published.map StoreEvent.body ↔ NothingAfterFailure polls := by
  rw [CSharp.published_main, Java.published_main h, List.map_map, List.map_map]
  -- both sides map a dequeued message to its body
  have hbody : (StoreEvent.body ∘ fun d : Dequeued => CSharp.event d.message) =
      StoreEvent.body ∘ fun d : Dequeued => Java.event d.message := rfl
  rw [hbody, map_eq_map_iff_of_sublist (FailureModes.aborted_sublist_isolated _ _),
    FailureModes.aborted_eq_isolated_iff, NothingAfterFailure]

/-! ## Two traces -/

/-- A message of one byte, and what becomes of its send. -/
def dequeued (byte : UInt8) (outcome : Except SendException Unit) : Dequeued :=
  ⟨⟨"", [byte]⟩, outcome⟩

/-- The second of two messages fails; then a poll fails; then nothing is left. -/
def lastFails : List ReceiveMessagesResponse :=
  [.messages [dequeued 1 (.ok ()), dequeued 2 (.error .sslException)], .isError "timeout",
    .messages []]

/-- The first of two messages fails. -/
def firstFails : List ReceiveMessagesResponse :=
  [.messages [dequeued 1 (.error .sslException), dequeued 2 (.ok ())]]

theorem java_loses_failed_sends_only_lastFails :
    Caught lastFails ∧ (Java.main lastFails).published.map StoreEvent.body = [[1]] :=
  ⟨by decide, (java_loses_failed_sends_only lastFails (by decide)).1⟩

theorem forwarders_alike_iff_lastFails :
    Caught lastFails ∧ (CSharp.main lastFails).published.map StoreEvent.body =
      (Java.main lastFails).published.map StoreEvent.body :=
  ⟨by decide, (forwarders_alike_iff lastFails (by decide)).mpr
    (by decide : FailureModes.NothingAfterFailure _ _)⟩

/-- The C# program drops the second message with the first. -/
theorem csharp_drops_rest_of_batch :
    ¬ ∀ polls, Caught polls → (CSharp.main polls).published.map StoreEvent.body =
      (Java.main polls).published.map StoreEvent.body := by
  intro h
  have := h firstFails (by decide)
  revert this
  decide

end KubemqWorkshop
