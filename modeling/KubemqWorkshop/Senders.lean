import KubemqWorkshop.Generator

/-!
# The command senders

Three clients of the workshop send a command and look at the reply: the C# and
the Java `activeAllRates` test `Executed`, the Node.js one tests whether `Error`
is truthy. The generator's handler builds three replies, and none of them is
read alike by all three clients: `Executed` is `true` also in the reply of the
`catch`, and `Error` is the non-empty text `None` also in the replies that went
through.
-/

namespace KubemqWorkshop

/-- What a sender prints about a reply. -/
inductive Verdict where
  /-- `Response error: …` -/
  | responseError : Verdict
  /-- `Response Received: …` -/
  | responseReceived : Verdict
  deriving DecidableEq, Repr

/-- A string is truthy in JavaScript when it is not empty. -/
def truthy (s : String) : Bool := s != ""

namespace CSharp

/-- `activeAllRates` in `Program.cs`, from the reply on. -/
def activeAllRates (result : Response) : Verdict :=
  if !result.executed then .responseError else .responseReceived

end CSharp

namespace Java

/-- `activeAllRates` in `App.java`, from the reply on. -/
def activeAllRates (result : Response) : Verdict :=
  if !result.executed then .responseError else .responseReceived

end Java

namespace NodeJS

/-- `activeAllRates` in `index.js`, from the reply on. -/
def activeAllRates (res : Response) : Verdict :=
  if truthy res.error then .responseError else .responseReceived

end NodeJS

/-- The clients that classify a reply. -/
inductive Sender where
  | csharp | java | nodejs
  deriving DecidableEq, Repr

/-- How a client classifies a reply. -/
def Sender.activeAllRates : Sender → Response → Verdict
  | .csharp => CSharp.activeAllRates
  | .java => Java.activeAllRates
  | .nodejs => NodeJS.activeAllRates

/-- The client takes the reply for a success exactly when the generator carried
the command out. -/
def Sender.Agrees (sender : Sender) (response : Response) : Prop :=
  sender.activeAllRates response = .responseReceived ↔ response.metadata = "OK"

/-! ## Each client against each reply -/

/-- The clients that test `Executed` take every reply for a success. -/
theorem agrees_of_executed {sender : Sender} (hs : sender ≠ .nodejs) {response : Response}
    (h : response.executed = true) : sender.Agrees response ↔ response.metadata = "OK" := by
  have hv : sender.activeAllRates response = .responseReceived := by
    cases sender with
    | csharp => simp [Sender.activeAllRates, CSharp.activeAllRates, h]
    | java => simp [Sender.activeAllRates, Java.activeAllRates, h]
    | nodejs => exact absurd rfl hs
  simp [Sender.Agrees, hv]

/-- The client that tests `Error` takes a reply for a success when the text is
empty. -/
theorem nodejs_agrees_iff {response : Response} :
    Sender.nodejs.Agrees response ↔ (response.error = "" ↔ response.metadata = "OK") := by
  by_cases h : response.error = "" <;>
    simp [Sender.Agrees, Sender.activeAllRates, NodeJS.activeAllRates, truthy, h]

/-- A reply that says `Executed`, and has an error text when it says `OK`, is
misread by one of the clients. -/
theorem misread_of_executed {response : Response} (hex : response.executed = true)
    (herr : response.metadata = "OK" → response.error ≠ "") :
    (Sender.csharp.Agrees response ↔ response.metadata = "OK") ∧
      (Sender.java.Agrees response ↔ response.metadata = "OK") ∧
      (Sender.nodejs.Agrees response ↔ response.metadata ≠ "OK" ∧ response.error ≠ "") ∧
      ¬ ∀ sender : Sender, sender.Agrees response := by
  have hcs : Sender.csharp.Agrees response ↔ response.metadata = "OK" :=
    agrees_of_executed (by decide) hex
  have hnode : Sender.nodejs.Agrees response ↔
      response.metadata ≠ "OK" ∧ response.error ≠ "" := by
    rw [nodejs_agrees_iff]
    tauto
  refine ⟨hcs, agrees_of_executed (by decide) hex, hnode, fun hall => ?_⟩
  exact (hnode.mp (hall .nodejs)).1 (hcs.mp (hall .csharp))

/-- **No reply is read alike.** A started generator answers every command, and
its answer is misread: when it carried the command out the Node.js client
reports a failure, when it did not the C# and the Java clients report a
success. -/
theorem senders_never_agree (deserializeObject : List UInt8 → Except Exn (Option RateRequest))
    (g : Generator) (request : RequestReceive) (ack : Except Exn Unit) (utcNow : ℕ) :
    ∃ response : Response,
      (handleRequest deserializeObject g.toManager request ack utcNow).1 = .ok response ∧
      (Sender.csharp.Agrees response ↔ response.metadata = "OK") ∧
      (Sender.java.Agrees response ↔ response.metadata = "OK") ∧
      (Sender.nodejs.Agrees response ↔ response.metadata ≠ "OK" ∧ response.error ≠ "") ∧
      ¬ ∀ sender : Sender, sender.Agrees response := by
  rcases handleRequest_reply deserializeObject g.rateCollection_eq
    g.queue_created request ack utcNow with ⟨-, hr⟩ | ⟨-, -, -, hr⟩ | ⟨ex, -, -, hr⟩
  · exact ⟨_, hr, misread_of_executed rfl fun _ => by simp [startedResponse]⟩
  · exact ⟨_, hr, misread_of_executed rfl fun _ => by simp [okResponse]⟩
  · exact ⟨_, hr, misread_of_executed rfl fun h => by simp [failedResponse] at h⟩

/-- The start command is carried out, and the Node.js client reports a failure. -/
theorem start_command_misread :
    ¬ ∀ response : Response,
      (handleRequest deserializeSample (Generator.startUp zeroDraws deployed).toManager
        startCommand (.ok ()) 0).1 = .ok response →
      ∀ sender : Sender, sender.Agrees response := by
  intro h
  have := h (startedResponse (Generator.startUp zeroDraws deployed).toManager 0) rfl .nodejs
  exact absurd (this.mpr rfl) (by decide)

end KubemqWorkshop
