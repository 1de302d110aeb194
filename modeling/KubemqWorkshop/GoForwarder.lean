import KubemqWorkshop.Forwarders
import Mathlib.Data.List.Induction

/-!
# The Go forwarder (`kubemq-workshop-Go/main.go`)

`main` takes batches off the queue and sends every message to the store channel
`ratesstore`, numbering the events across the batches. Every `err` is a
`log.Fatal`: the program is written fail-stop, and its two loops are the loops
of `FailStop`.

The model keeps a log of the calls the program makes; results are about that
log. `Tracks` ties it to the polls, one message and one poll at a time, and
`tracks_main` is the closed form of a run. From it: the events are numbered in
the order of the queue and nothing is sent after an error (`main_numbering`).

The client library reports a refused event with no `err` but with `Sent: false`,
and the program only logs `Sent`. So a refused message leaves a hole behind
unless nothing is accepted after it (`main_leaves_no_hole_iff`).
-/

namespace KubemqWorkshop

namespace Go

/-! ## The client library -/

/-- `pb.Result`: the broker's answer to `SendEvent`. -/
structure Result where
  eventID : String
  sent : Bool
  error : String
  deriving DecidableEq, Repr

/-- `EventStore`: an event for the store. -/
structure EventStore where
  id : String
  channel : String
  metadata : String
  body : List UInt8
  clientId : String
  /-- the entries of the map, in the order they were added -/
  tags : List (String × String)
  deriving DecidableEq, Repr

/-- `EventStoreResult`. -/
structure EventStoreResult where
  id : String
  sent : Bool
  /-- set when `sent` is not; a field, not the `err` of the call -/
  err : Option String
  deriving DecidableEq, Repr

/-- `SendEventStore`, over what the broker call returns. -/
def sendEventStore : Except String Result → Except String EventStoreResult
  | .error err => .error err
  | .ok result => .ok
    { id := result.eventID
      sent := result.sent
      err := if result.sent then none else some result.error }

/-! ## The program -/

/-- A dequeued message, and what the broker call of its event returns. -/
structure Delivery where
  message : Message
  answer : Except String Result

/-- A poll: what `ReceiveQueueMessages` returns. -/
abbrev Poll : Type := Except String (List Delivery)

/-- A call the program made, with what came back. -/
inductive Call where
  /-- `NewReceiveQueueMessagesRequest … Send` -/
  | receive (result : Except String (List Message)) : Call
  /-- `ES() … Send` -/
  | send (event : EventStore) (result : Except String EventStoreResult) : Call

/-- `err == nil`. -/
def Call.ok : Call → Bool
  | .receive (.ok _) => true
  | .receive (.error _) => false
  | .send _ (.ok _) => true
  | .send _ (.error _) => false

/-- The process. -/
structure Process where
  /-- the counter, declared before the loops -/
  i : ℕ
  /-- the calls made, oldest first -/
  calls : List Call
  /-- the process has not ended -/
  running : Bool

namespace Process

/-- The process before its first poll. -/
def start : Process := ⟨0, [], true⟩

/-- Make a call: `if err != nil { log.Fatal(err) }`. -/
def made (p : Process) (c : Call) : Process :=
  { p with calls := p.calls ++ [c], running := c.ok }

end Process

/-- The event of the message `msg` when the counter is `i`. -/
def eventStore (i : ℕ) (msg : Message) : EventStore where
  id := "event-store-" ++ toString i
  channel := "ratesstore"
  metadata := "some-metadata"
  body := msg.body
  clientId := "test-command-client-id"
  tags := [("seq", toString i)]

/-- The body of the loop over the messages. `result.Sent` is logged only. -/
def sendMessage (p : Process) (d : Delivery) : Process :=
  let i := p.i + 1
  { p with i := i }.made (.send (eventStore i d.message) (sendEventStore d.answer))

/-- The body of `for { … }`. -/
def poll (p : Process) : Poll → Process
  | .error err => p.made (.receive (.error err))
  | .ok batch =>
    FailStop.loop Process.running sendMessage
      (p.made (.receive (.ok (batch.map Delivery.message)))) batch

/-- `main`, over the polls it gets. -/
def main (polls : List Poll) : Process := FailStop.loop Process.running poll .start polls

/-! ## What the log says -/

/-- The bodies that came off the queue, oldest first. -/
def dequeued (calls : List Call) : List (List UInt8) :=
  calls.flatMap fun
    | .receive (.ok messages) => messages.map Message.body
    | _ => []

/-- The events submitted to the store and what came back, oldest first. -/
def sends (calls : List Call) : List (EventStore × Except String EventStoreResult) :=
  calls.filterMap fun
    | .send event result => some (event, result)
    | _ => none

/-- The store has the event. -/
def isAccepted (s : EventStore × Except String EventStoreResult) : Bool :=
  match s.2 with
  | .ok result => result.sent
  | .error _ => false

/-- The bodies the store accepted, oldest first. -/
def accepted (calls : List Call) : List (List UInt8) :=
  ((sends calls).filter isAccepted).map fun s => s.1.body

/-! ## The log of a run -/

/-- The broker call came back without an error. -/
def Delivery.ok (d : Delivery) : Bool := d.answer.isOk

/-- The broker took the event. -/
def Delivery.sent (d : Delivery) : Bool :=
  match d.answer with
  | .ok result => result.sent
  | .error _ => false

/-- The messages of a run whose events were submitted. -/
def handled (polls : List Poll) : List Delivery :=
  FailStop.handled Delivery.ok (polls.map Except.toOption)

/-- The messages of a run that came off the queue. -/
def taken (polls : List Poll) : List Delivery :=
  FailStop.taken Delivery.ok (polls.map Except.toOption)

/-- What is sent for these messages: event number `k + 1` for the one at `k`. -/
def numbered (ds : List Delivery) : List (EventStore × Except String EventStoreResult) :=
  ds.mapIdx fun k d => (eventStore (k + 1) d.message, sendEventStore d.answer)

/-- The log after the messages `hs` have been sent and the messages `ts` received. -/
structure Tracks (p : Process) (hs ts : List Delivery) : Prop where
  /-- the counter is the number of events -/
  counter : p.i = hs.length
  /-- the events are numbered in the order of the messages -/
  sends_eq : sends p.calls = numbered hs
  /-- the receives account for the messages -/
  dequeued_eq : dequeued p.calls = ts.map fun d => d.message.body

namespace Tracks

theorem start : Tracks .start [] [] := ⟨rfl, rfl, rfl⟩

variable {p : Process} {hs ts : List Delivery}

theorem sendMessage (h : Tracks p hs ts) (d : Delivery) :
    Tracks (sendMessage p d) (hs ++ [d]) ts where
  counter := by
    rw [List.length_append, ← h.counter]
    rfl
  sends_eq := by
    have hsends : sends (Go.sendMessage p d).calls =
        sends p.calls ++ [(eventStore (p.i + 1) d.message, sendEventStore d.answer)] :=
      List.filterMap_append
    rw [hsends, h.sends_eq, h.counter, numbered, numbered, List.mapIdx_concat]
  dequeued_eq := by
    have hdequeued : dequeued (Go.sendMessage p d).calls = dequeued p.calls ++ [] :=
      List.flatMap_append
    rw [hdequeued, List.append_nil, h.dequeued_eq]

theorem foldl_sendMessage (h : Tracks p hs ts) (ds : List Delivery) :
    Tracks (ds.foldl Go.sendMessage p) (hs ++ ds) ts := by
  induction ds generalizing p hs with
  | nil => simpa using h
  | cons d ds ih => simpa using ih (h.sendMessage d)

/-- A receive that comes back with messages, or with an error. -/
theorem made_receive (h : Tracks p hs ts) (q : Poll) :
    Tracks (p.made (.receive (q.map fun batch => batch.map Delivery.message))) hs
      (ts ++ q.toOption.getD []) where
  counter := h.counter
  sends_eq := by
    rw [← h.sends_eq]
    exact List.filterMap_append.trans (List.append_nil _)
  dequeued_eq := by
    rw [List.map_append, ← h.dequeued_eq]
    refine List.flatMap_append.trans (congrArg _ ?_)
    rcases q with err | batch <;> simp [Except.map, Except.toOption]

end Tracks

theorem running_sendMessage (p : Process) (d : Delivery) :
    (sendMessage p d).running = d.ok := by
  obtain ⟨msg, err | result⟩ := d <;> rfl

theorem poll_ok (p : Process) (batch : List Delivery) :
    poll p (.ok batch) =
        (FailStop.through Delivery.ok batch).foldl sendMessage
          (p.made (.receive (.ok (batch.map Delivery.message)))) ∧
      (poll p (.ok batch)).running = batch.all Delivery.ok :=
  FailStop.loop_eq_foldl (fun p d _ => running_sendMessage p d) rfl batch

theorem running_poll (p : Process) (q : Poll) :
    (poll p q).running = FailStop.pollOk Delivery.ok q.toOption := by
  rcases q with err | batch
  · rfl
  · exact (poll_ok p batch).2

/-- **One poll** sends its messages through the first error. -/
theorem Tracks.poll {p : Process} {hs ts : List Delivery} (h : Tracks p hs ts) (q : Poll) :
    Tracks (poll p q) (hs ++ FailStop.through Delivery.ok (q.toOption.getD []))
      (ts ++ q.toOption.getD []) := by
  rcases q with err | batch
  · have hhs : hs ++ FailStop.through Delivery.ok ((.error err : Poll).toOption.getD []) = hs :=
      List.append_nil hs
    rw [hhs]
    exact h.made_receive (.error err)
  · rw [(poll_ok p batch).1]
    exact (h.made_receive (.ok batch)).foldl_sendMessage _

/-- **The log of a run**: the messages through the first error are sent, in the
order of the queue, out of the batches received until then. -/
theorem tracks_main (polls : List Poll) : Tracks (main polls) (handled polls) (taken polls) := by
  have hfold : ∀ (qs : List Poll) (p : Process) (hs ts : List Delivery), Tracks p hs ts →
      Tracks (qs.foldl poll p)
        (hs ++ qs.flatMap fun q => FailStop.through Delivery.ok (q.toOption.getD []))
        (ts ++ qs.flatMap fun q => q.toOption.getD []) := by
    intro qs
    induction qs with
    | nil => intro p hs ts h; simpa using h
    | cons q qs ih =>
      intro p hs ts h
      have := ih _ _ _ (h.poll q)
      rwa [List.append_assoc, List.append_assoc] at this
  have hloop : main polls =
      (FailStop.through (fun q : Poll => FailStop.pollOk Delivery.ok q.toOption) polls).foldl
        poll .start :=
    (FailStop.loop_eq_foldl (fun p q _ => running_poll p q) rfl polls).1
  have := hfold (FailStop.through (fun q : Poll => FailStop.pollOk Delivery.ok q.toOption) polls)
    .start [] [] .start
  rw [hloop, handled, taken, FailStop.handled, FailStop.taken, FailStop.through_map,
    List.flatMap_map, List.flatMap_map]
  exact this

/-- While the process runs, everything that came off the queue has been sent. -/
theorem handled_eq_taken {polls : List Poll} (h : (main polls).running = true) :
    handled polls = taken polls := by
  have hall : polls.all (fun q => FailStop.pollOk Delivery.ok q.toOption) = true :=
    (FailStop.loop_eq_foldl (fun p q _ => running_poll p q) rfl polls).2.symm.trans h
  refine FailStop.handled_eq_taken fun o ho => ?_
  obtain ⟨q, hq, rfl⟩ := List.mem_map.mp ho
  exact List.all_eq_true.mp hall q hq

/-- The process ends with the first call that fails. -/
structure EndsAtError (p : Process) : Prop where
  running_eq : p.running = p.calls.all Call.ok
  before : ∀ c ∈ p.calls.dropLast, c.ok = true

namespace EndsAtError

theorem start : EndsAtError .start := ⟨rfl, fun _ h => absurd h List.not_mem_nil⟩

variable {p : Process}

/-- A running process may make any call. -/
theorem made (h : EndsAtError p) (hp : p.running = true) (c : Call) : EndsAtError (p.made c) := by
  have hall : p.calls.all Call.ok = true := h.running_eq ▸ hp
  refine ⟨?_, ?_⟩
  · simp [Process.made, List.all_append, hall]
  · rw [Process.made, List.dropLast_concat]
    exact List.all_eq_true.mp hall

theorem poll (h : EndsAtError p) (hp : p.running = true) (q : Poll) :
    EndsAtError (poll p q) := by
  rcases q with err | batch
  · exact h.made hp _
  · refine FailStop.loop_preserves (fun p d hp h => ?_) (h.made hp _) batch
    -- the counter is not the process's log
    exact (⟨h.running_eq, h.before⟩ : EndsAtError { p with i := p.i + 1 }).made hp _

theorem main (polls : List Poll) : EndsAtError (main polls) :=
  FailStop.loop_preserves (fun _ q hp h => h.poll hp q) start polls

/-- Nothing follows a call that failed. -/
theorem eq_nil (h : EndsAtError p) {pre post : List Call} {c : Call}
    (hcalls : p.calls = pre ++ c :: post) (hc : c.ok = false) : post = [] := by
  by_contra hpost
  have hmem : c ∈ p.calls.dropLast := by
    rw [hcalls, List.dropLast_append_of_ne_nil (List.cons_ne_nil c post),
      List.dropLast_cons_of_ne_nil hpost]
    exact List.mem_append_right pre (List.mem_cons_self ..)
  exact Bool.false_ne_true (hc.symm.trans (h.before c hmem))

end EndsAtError

/-! ## Numbering -/

/-- The decimal notation of a number determines it. -/
theorem toString_injective : Function.Injective (toString : ℕ → String) := by
  intro m n h
  have hdigits : Nat.toDigits 10 m = Nat.toDigits 10 n := by
    simpa only [Nat.toString_eq_repr, Nat.toList_repr] using congrArg String.toList h
  rw [← Nat.ofDigitChars_ten_toDigits (n := m), hdigits, Nat.ofDigitChars_ten_toDigits]

theorem eventStore_id_injective {k l : ℕ} {msg msg' : Message}
    (h : (eventStore k msg).id = (eventStore l msg').id) : k = l :=
  toString_injective ((String.append_right_inj _).mp h)

theorem eventStore_tags_injective {k l : ℕ} {msg msg' : Message}
    (h : (eventStore k msg).tags = (eventStore l msg').tags) : k = l := by
  simp only [eventStore, List.cons.injEq, Prod.mk.injEq, true_and, and_true] at h
  exact toString_injective h

/-- What tells the numbers apart tells the events apart. -/
theorem nodup_numbered {β : Type} {f : EventStore → β}
    (hf : ∀ {k l : ℕ} {msg msg' : Message}, f (eventStore k msg) = f (eventStore l msg') → k = l)
    (ds : List Delivery) : ((numbered ds).map fun s => f s.1).Nodup := by
  rw [List.Nodup, List.pairwise_iff_getElem]
  intro k l hk hl hkl heq
  simp only [numbered, List.getElem_map, List.getElem_mapIdx] at heq
  exact Nat.ne_of_lt hkl (Nat.succ.inj (hf heq))

theorem getElem?_numbered {ds : List Delivery} {k : ℕ}
    {s : EventStore × Except String EventStoreResult} :
    (numbered ds)[k]? = some s ↔
      ∃ d, ds[k]? = some d ∧ (eventStore (k + 1) d.message, sendEventStore d.answer) = s := by
  rw [numbered, List.getElem?_mapIdx, Option.map_eq_some_iff]

/-- **Numbering**: the run submits the messages of its polls through the first
error, and dequeues the batches through that error; the event at place `k` is
number `k + 1` and carries the body of the message dequeued at place `k`; the
numbers are all different, no message is passed over, and nothing is done after
the first error. -/
theorem main_numbering (polls : List Poll) :
    let calls := (main polls).calls
    sends calls = numbered (handled polls) ∧
      dequeued calls = (taken polls).map (fun d => d.message.body) ∧
      (∀ k s, (sends calls)[k]? = some s →
        s.1.id = "event-store-" ++ toString (k + 1) ∧ s.1.tags = [("seq", toString (k + 1))] ∧
          (dequeued calls)[k]? = some s.1.body) ∧
      ((sends calls).map fun s => s.1.id).Nodup ∧
      ((sends calls).map fun s => s.1.tags).Nodup ∧
      ((main polls).running = true → (sends calls).length = (dequeued calls).length) ∧
      ∀ pre c post, calls = pre ++ c :: post → c.ok = false → post = [] := by
  intro calls
  have htracks := tracks_main polls
  obtain ⟨rest, hrest⟩ : handled polls <+: taken polls := FailStop.handled_prefix_taken _
  refine ⟨htracks.sends_eq, htracks.dequeued_eq, ?_, ?_, ?_, ?_, ?_⟩
  · intro k s hs
    rw [htracks.sends_eq, getElem?_numbered] at hs
    obtain ⟨d, hd, rfl⟩ := hs
    refine ⟨rfl, rfl, ?_⟩
    have hk : k < (handled polls).length := (List.getElem?_eq_some_iff.mp hd).1
    rw [htracks.dequeued_eq, List.getElem?_map, ← hrest, List.getElem?_append_left hk, hd]
    rfl
  · rw [htracks.sends_eq]
    exact nodup_numbered eventStore_id_injective _
  · rw [htracks.sends_eq]
    exact nodup_numbered eventStore_tags_injective _
  · intro hrunning
    rw [htracks.sends_eq, htracks.dequeued_eq, numbered, List.length_mapIdx, List.length_map,
      handled_eq_taken hrunning]
  · intro pre c post hcalls hc
    exact (EndsAtError.main polls).eq_nil hcalls hc

/-! ## Holes -/

/-- The store has the message dequeued at place `k`. -/
def AcceptedAt (calls : List Call) (k : ℕ) : Prop :=
  ∃ s, (sends calls)[k]? = some s ∧ isAccepted s = true

/-- The store has a prefix of what came off the queue: once a message has not
been accepted, no later one is. -/
def NoHole (calls : List Call) : Prop :=
  accepted calls <+: dequeued calls ∧
    ∀ j k, j < k → AcceptedAt calls k → AcceptedAt calls j

/-- The broker answers without an error that it has not taken the event. -/
def Delivery.Refused (d : Delivery) : Prop :=
  ∃ result, d.answer = .ok result ∧ result.sent = false

theorem accepted_sendEventStore (k : ℕ) (d : Delivery) :
    isAccepted (eventStore k d.message, sendEventStore d.answer) = d.sent := by
  obtain ⟨msg, err | result⟩ := d <;> rfl

theorem acceptedAt_main (polls : List Poll) (k : ℕ) :
    AcceptedAt (main polls).calls k ↔
      ∃ hk : k < (handled polls).length, (handled polls)[k].sent = true := by
  rw [AcceptedAt, (tracks_main polls).sends_eq]
  refine ⟨?_, ?_⟩
  · rintro ⟨s, hs, hacc⟩
    obtain ⟨d, hd, rfl⟩ := getElem?_numbered.mp hs
    obtain ⟨hk, rfl⟩ := List.getElem?_eq_some_iff.mp hd
    exact ⟨hk, (accepted_sendEventStore _ _).symm.trans hacc⟩
  · rintro ⟨hk, hsent⟩
    exact ⟨_, getElem?_numbered.mpr ⟨_, List.getElem?_eq_getElem hk, rfl⟩,
      (accepted_sendEventStore _ _).trans hsent⟩

theorem accepted_main (polls : List Poll) :
    accepted (main polls).calls =
      ((handled polls).filter Delivery.sent).map fun d => d.message.body := by
  rw [accepted, (tracks_main polls).sends_eq]
  induction handled polls using List.reverseRecOn with
  | nil => rfl
  | append_singleton ds d ih =>
    rw [numbered, List.mapIdx_concat, ← numbered, List.filter_append, List.filter_append,
      List.map_append, List.map_append, ih]
    congr 1
    by_cases hd : d.sent = true
    · rw [List.filter_cons_of_pos hd, List.filter_cons_of_pos
        ((accepted_sendEventStore _ d).trans hd)]
      rfl
    · rw [List.filter_cons_of_neg hd, List.filter_cons_of_neg (by
        rwa [accepted_sendEventStore])]
      rfl

/-- Among the messages that are sent, those before the last have no error, so
they are accepted or refused. -/
theorem pairwise_sent_iff (polls : List Poll) :
    ((handled polls).Pairwise fun d e => d.sent = false → e.sent = false) ↔
      (handled polls).Pairwise fun d e => d.Refused → e.sent = false := by
  refine ⟨?_, ?_⟩
  · refine List.Pairwise.imp fun {d e} h => ?_
    rintro ⟨result, hanswer, hsent⟩
    exact h (by rw [Delivery.sent, hanswer]; exact hsent)
  · intro h
    refine List.Pairwise.imp₂ ?_ h (FailStop.handled_pairwise _)
    rintro ⟨msg, err | result⟩ e hrefused hok hsent
    · exact absurd hok Bool.false_ne_true
    · exact hrefused ⟨result, rfl, hsent⟩

/-- **When the Go forwarder leaves no hole**: as long as no message is accepted
after one that the broker refused without an error. -/
theorem main_leaves_no_hole_iff (polls : List Poll) :
    NoHole (main polls).calls ↔
      (handled polls).Pairwise fun d e => d.Refused → e.sent = false := by
  rw [← pairwise_sent_iff, List.pairwise_iff_getElem]
  refine ⟨?_, ?_⟩
  · rintro ⟨-, hbefore⟩ j k hj hk hjk hj'
    by_contra hk'
    have hacc : AcceptedAt (main polls).calls k :=
      (acceptedAt_main polls k).mpr ⟨hk, by simpa using hk'⟩
    obtain ⟨_, hsent⟩ := (acceptedAt_main polls j).mp (hbefore j k hjk hacc)
    exact Bool.false_ne_true (hj'.symm.trans hsent)
  · intro h
    refine ⟨?_, ?_⟩
    · rw [accepted_main, (tracks_main polls).dequeued_eq]
      have hfilter : (handled polls).filter Delivery.sent <+: handled polls :=
        FailStop.filter_prefix_of_pairwise (List.pairwise_iff_getElem.mpr h)
      exact (hfilter.trans (FailStop.handled_prefix_taken _)).map _
    · intro j k hjk hacc
      obtain ⟨hk, hsent⟩ := (acceptedAt_main polls k).mp hacc
      have hj : j < (handled polls).length := Nat.lt_trans hjk hk
      refine (acceptedAt_main polls j).mpr ⟨hj, ?_⟩
      by_contra hj'
      have hk' := h j k hj hk hjk (by simpa using hj')
      exact Bool.false_ne_true (hk'.symm.trans hsent)

/-- Two messages of one batch: the broker refuses the first and takes the second. -/
def refusedFirst : List Poll :=
  [.ok [⟨⟨"1", [49]⟩, .ok ⟨"event-store-1", false, "the store is full"⟩⟩,
    ⟨⟨"2", [50]⟩, .ok ⟨"event-store-2", true, ""⟩⟩]]

/-- The second message is in the store, the first is not. -/
theorem refusedFirst_leaves_hole :
    dequeued (main refusedFirst).calls = [[49], [50]] ∧
      accepted (main refusedFirst).calls = [[50]] ∧ ¬ NoHole (main refusedFirst).calls := by
  have hdequeued : dequeued (main refusedFirst).calls = [[49], [50]] := rfl
  have haccepted : accepted (main refusedFirst).calls = [[50]] := rfl
  refine ⟨hdequeued, haccepted, ?_⟩
  rintro ⟨hpre, -⟩
  rw [hdequeued, haccepted] at hpre
  exact absurd hpre (by decide)

end Go

end KubemqWorkshop
