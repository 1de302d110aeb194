import KubemqWorkshop.GoForwarder

/-!
# The Python forwarder (`kubemq-workshop-Python/main.py`)

`main.py` takes batches off the queue and sends every message to the store
channel. Nothing in it catches what `receive_queue_messages` and `send_event`
raise, and nothing looks at what they return, so it is the fail-stop loop of the
Go program without the numbers: on the same answers of the broker both submit
the same bodies, have the same ones accepted and end at the same point
(`python_submits_as_go`).

Assumed of the client library: a broker call that fails is raised.
-/

namespace KubemqWorkshop

namespace Python

/-- The event made of a message. -/
def event (message : Message) : StoreEvent := ⟨message.body, some "rate"⟩

/-- The process. -/
structure Process where
  /-- the calls of `send_event` and what came back, oldest first -/
  sent : List (StoreEvent × Except String Go.Result)
  /-- no exception has ended the process -/
  running : Bool

/-- The body of the `for`: the result of `send_event` is not looked at. -/
def sendEvent (p : Process) (d : Go.Delivery) : Process where
  sent := p.sent ++ [(event d.message, d.answer)]
  running := d.answer.isOk

/-- The body of `while True`. -/
def receive (p : Process) : Go.Poll → Process
  | .error _ => { p with running := false }
  | .ok messages => FailStop.loop Process.running sendEvent p messages

/-- `main.py`, over the polls it gets. -/
def main (polls : List Go.Poll) : Process :=
  FailStop.loop Process.running receive ⟨[], true⟩ polls

/-- The store has the event. -/
def isAccepted (s : StoreEvent × Except String Go.Result) : Bool :=
  match s.2 with
  | .ok result => result.sent
  | .error _ => false

/-! ## Runs -/

theorem foldl_sendEvent (p : Process) (ds : List Go.Delivery) :
    (ds.foldl sendEvent p).sent = p.sent ++ ds.map fun d => (event d.message, d.answer) := by
  induction ds generalizing p with
  | nil => exact (List.append_nil _).symm
  | cons d ds ih => rw [List.foldl_cons, ih, sendEvent, List.append_assoc, List.map_cons]; rfl

/-- **One poll** sends its messages through the first failure. -/
theorem receive_eq {p : Process} (hp : p.running = true) (q : Go.Poll) :
    (receive p q).sent = p.sent ++
        (FailStop.through Go.Delivery.ok (q.toOption.getD [])).map
          (fun d => (event d.message, d.answer)) ∧
      (receive p q).running = FailStop.pollOk Go.Delivery.ok q.toOption := by
  rcases q with err | messages
  · exact ⟨(List.append_nil _).symm, rfl⟩
  · obtain ⟨hfold, hrunning⟩ := FailStop.loop_eq_foldl
      (fun _ _ _ => rfl : ∀ s d, s.running = true → (sendEvent s d).running = d.ok) hp messages
    refine ⟨?_, hrunning⟩
    rw [receive, hfold, foldl_sendEvent]
    rfl

theorem loop_receive (qs : List Go.Poll) {p : Process} (hp : p.running = true) :
    (FailStop.loop Process.running receive p qs).sent = p.sent ++
        (Go.handled qs).map (fun d => (event d.message, d.answer)) ∧
      (FailStop.loop Process.running receive p qs).running =
        qs.all fun q => FailStop.pollOk Go.Delivery.ok q.toOption := by
  induction qs generalizing p with
  | nil => exact ⟨(List.append_nil _).symm, hp⟩
  | cons q qs ih =>
    obtain ⟨hsent, hrunning⟩ := receive_eq hp q
    rw [FailStop.loop_cons hp, List.all_cons, ← hrunning, Go.handled, List.map_cons]
    rcases hq : (receive p q).running with - | -
    · -- the process has ended: the messages through the failure were sent
      have hfailed : ¬ FailStop.pollOk Go.Delivery.ok q.toOption = true := by
        rw [← hrunning, hq]
        decide
      rw [FailStop.loop_left hq, FailStop.handled, FailStop.through_cons_of_neg hfailed,
        List.flatMap_singleton]
      exact ⟨hsent, by rw [hq, Bool.false_and]⟩
    · obtain ⟨ihsent, ihrunning⟩ := ih hq
      have hok : FailStop.pollOk Go.Delivery.ok q.toOption = true := hrunning.symm.trans hq
      have hwhole : FailStop.through Go.Delivery.ok (q.toOption.getD []) = q.toOption.getD [] := by
        rcases q with err | messages
        · rfl
        · exact FailStop.through_eq_self (List.all_eq_true.mp hok)
      rw [FailStop.handled_cons_of_pos hok, List.map_append, ← List.append_assoc]
      refine ⟨?_, by rw [ihrunning, Bool.true_and]⟩
      rw [ihsent, hsent, hwhole, ← Go.handled]

/-- **A run** sends the messages through the first failure, and goes on when
there is none. -/
theorem main_eq (polls : List Go.Poll) :
    (main polls).sent = (Go.handled polls).map (fun d => (event d.message, d.answer)) ∧
      (main polls).running =
        polls.all fun q => FailStop.pollOk Go.Delivery.ok q.toOption :=
  loop_receive polls rfl

/-! ## Next to the Go program -/

/-- **The Python program submits as the Go program does**: on the same answers of
the broker the same bodies, of which the same ones are accepted, and it ends when
that one ends. -/
theorem python_submits_as_go (polls : List Go.Poll) :
    ((main polls).sent.map fun s => (s.1.body, isAccepted s)) =
        ((Go.sends (Go.main polls).calls).map fun s => (s.1.body, Go.isAccepted s)) ∧
      (main polls).running = (Go.main polls).running := by
  obtain ⟨hsent, hrunning⟩ := main_eq polls
  refine ⟨?_, ?_⟩
  · rw [hsent, (Go.tracks_main polls).sends_eq, List.map_map, Go.numbered]
    apply List.ext_getElem
    · simp
    · intro k hk _
      simp only [List.getElem_map, List.getElem_mapIdx, Function.comp_apply,
        Go.accepted_sendEventStore]
      rfl
  · rw [hrunning]
    exact (FailStop.loop_eq_foldl (fun p q _ => Go.running_poll p q) rfl polls).2.symm

end Python

end KubemqWorkshop
