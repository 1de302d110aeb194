import KubemqWorkshop.Dictionary
import KubemqWorkshop.Rates

/-!
# The rate generator (`rate_generate/Manager.cs`)

The state of a `Manager` object, the report `OnRateSend` builds and the handler
`SubscribeToRequests` registers for commands. The two fields the handler shares
with the constructor — `queue` and `rateCollection` — start out `null`, so they
are options here and reading them can throw.

An exception does not undo what was done before it: every function that may
throw returns its outcome *and* the object it leaves behind. Code outside the
repository enters as an argument: what Newtonsoft makes of a body
(`deserializeObject`), what the broker answers to `AckAllQueueMessagesResponse`
(`ack`), the clock (`utcNow`) and `double.ToString` (`toString`).
-/

namespace KubemqWorkshop

/-! ## Exceptions, requests, responses -/

/-- The exceptions the generator's code can meet. -/
inductive Exn where
  /-- a member of `null` was accessed -/
  | nullReference : Exn
  /-- a dictionary was asked for the key `null` -/
  | argumentNull : String → Exn
  /-- a dictionary has no such key -/
  | keyNotFound : String → Exn
  /-- any other exception, with its message -/
  | external : String → Exn
  deriving DecidableEq, Repr

/-- `Exception.Message`. -/
def Exn.message : Exn → String
  | .nullReference => "Object reference not set to an instance of an object."
  | .argumentNull param => "Value cannot be null.\nParameter name: " ++ param
  | .keyNotFound key => "The given key '" ++ key ++ "' was not present in the dictionary."
  | .external text => text

/-- `RateRequest`: what a targeted command's body deserialises to. -/
structure RateRequest where
  /-- the instrument, possibly `null` -/
  name : Option String
  /-- the activity asked for -/
  active : Bool
  deriving DecidableEq, Repr

/-- `RequestReceive`: a command as the broker delivers it. The body comes off
the wire as bytes and is never `null`. -/
structure RequestReceive where
  /-- selects the branch of the handler -/
  metadata : String
  /-- the payload -/
  body : List UInt8
  deriving DecidableEq, Repr

/-- `Response`: the handler's reply. -/
structure Response where
  /-- the text whose UTF-8 bytes are the payload -/
  body : String
  /-- the error text -/
  error : String
  /-- the replying client -/
  clientID : String
  /-- whether the command is reported as carried out -/
  executed : Bool
  /-- `OK` or `Failed` -/
  metadata : String
  /-- when the reply was made -/
  timestamp : ℕ
  deriving DecidableEq, Repr

/-- `SenderMessageBody`: one line of a rate report. -/
structure SenderMessageBody where
  /-- the instrument's id -/
  id : ℤ
  /-- the instrument's name -/
  name : String
  /-- the buy price as text, `null` when the instrument is inactive -/
  ask : Option String
  /-- the sell price as text, `null` when the instrument is inactive -/
  bid : Option String
  deriving DecidableEq, Repr

/-! ## The object -/

/-- The broker queue handle the constructor creates. -/
structure QueueHandle where
  /-- the queue the reports go to -/
  queueName : String
  /-- the client that signs them -/
  clientID : String
  /-- the broker -/
  kubemqAddress : String
  deriving DecidableEq, Repr

/-- The instruments, keyed by name. -/
abbrev RateTable : Type := Dictionary String Rates

/-- What the constructor reads from the configuration. -/
structure Settings where
  /-- the queue's name -/
  queueName : String
  /-- the timer period, in milliseconds -/
  rateInterval : ℤ
  /-- the client id, also in every reply -/
  clientID : String
  /-- the broker's address -/
  kubemqAddress : String
  /-- the command channel -/
  cmdChannel : String
  /-- whether the instruments start active -/
  autoStart : Bool
  deriving DecidableEq, Repr

/-- The fields of a `Manager` that its methods read. -/
structure Manager extends Settings where
  /-- `null` until `startSendingRates` -/
  rateCollection : Option RateTable
  /-- `null` until the constructor has created it -/
  queue : Option QueueHandle
  deriving DecidableEq

/-- The activity flag of an instrument; `none` when the table has no such key. -/
def RateTable.isActive (table : RateTable) (name : String) : Option Bool :=
  (table.get? name).map Rates.isActive

/-- The initializer of `rateCollection`. -/
def initialRates (autoStart : Bool) (rnd : ℤ → NextDouble × NextDouble) : RateTable where
  entries :=
    [("EURUSD", Rates.new "EURUSD" 1 autoStart (rnd 1)),
     ("AUDUSD", Rates.new "AUDUSD" 2 autoStart (rnd 2)),
     ("USDJPY", Rates.new "USDJPY" 3 autoStart (rnd 3)),
     ("CHFJPY", Rates.new "CHFJPY" 4 autoStart (rnd 4)),
     ("NZDUSD", Rates.new "NZDUSD" 5 autoStart (rnd 5)),
     ("GBPJPY", Rates.new "GBPJPY" 6 autoStart (rnd 6)),
     ("USDILS", Rates.new "USDILS" 7 autoStart (rnd 7))]
  nodup := by
    simp only [List.map_cons, List.map_nil]
    decide

/-- The instruments `initialRates` creates, with their ids. -/
def instruments : List (String × ℤ) :=
  [("EURUSD", 1), ("AUDUSD", 2), ("USDJPY", 3), ("CHFJPY", 4), ("NZDUSD", 5), ("GBPJPY", 6),
    ("USDILS", 7)]

namespace Manager

/-- The object once the configuration is read. -/
def init (s : Settings) : Manager := { s with rateCollection := none, queue := none }

/-- The assignment `startSendingRates` makes; its timer is `setRateTimer`'s. -/
def startSendingRates (rnd : ℤ → NextDouble × NextDouble) (m : Manager) : Manager :=
  { m with rateCollection := some (initialRates m.autoStart rnd) }

/-- The assignment to `queue`. -/
def createQueue (m : Manager) : Manager :=
  { m with queue := some ⟨m.queueName, m.clientID, m.kubemqAddress⟩ }

end Manager

/-! ## The rate report -/

/-- The body of the loop of `OnRateSend`. -/
def reportLine (toString : ℚ → String) (r : Rates) : SenderMessageBody where
  id := r.id
  name := r.rateName
  ask := if r.isActive then some (toString r.buy) else none
  bid := if r.isActive then some (toString r.sell) else none

/-- `OnRateSend`, up to the call of `SendQueueMessage`: the list it reports, in
the order of the table. What the broker answers is only logged. -/
def onRateSend (toString : ℚ → String) (table : RateTable) : List SenderMessageBody :=
  table.values.map (reportLine toString)

/-! ## The command handler -/

/-- The reply to a targeted command that went through. -/
def okResponse (m : Manager) (utcNow : ℕ) : Response where
  body := "o.k"
  error := "None"
  clientID := m.clientID
  executed := true
  metadata := "OK"
  timestamp := utcNow

/-- The reply of the handler's `catch`. -/
def failedResponse (m : Manager) (utcNow : ℕ) (ex : Exn) : Response where
  body := "o.k"
  error := ex.message
  clientID := m.clientID
  executed := true
  metadata := "Failed"
  timestamp := utcNow

/-- The reply to an untargeted command. -/
def startedResponse (m : Manager) (utcNow : ℕ) : Response where
  body := "started"
  error := "None"
  clientID := m.clientID
  executed := true
  metadata := "OK"
  timestamp := utcNow

section Handler

variable (deserializeObject : List UInt8 → Except Exn (Option RateRequest))

/-- The first two statements of the `try`: deserialise the body and assign
`rateCollection[req.Name].isActive`. -/
def applyRequest (m : Manager) (body : List UInt8) : Except Exn RateRequest × Manager :=
  match deserializeObject body with
  | .error ex => (.error ex, m)
  | .ok none => (.error .nullReference, m)
  | .ok (some req) =>
    match m.rateCollection, req.name with
    -- the constructor has not assigned the table yet
    | none, _ => (.error .nullReference, m)
    | some _, none => (.error (.argumentNull "key"), m)
    | some table, some name =>
      match table.get? name with
      | none => (.error (.keyNotFound name), m)
      | some _ =>
        (.ok req,
          { m with rateCollection := some (table.modify name (Rates.setActive req.active)) })

/-- The third statement of the `try`, `queue.AckAllQueueMessagesResponse()`. -/
def ackAllQueueMessages (m : Manager) (ack : Except Exn Unit) : Except Exn Unit :=
  match m.queue with
  | none => .error .nullReference
  | some _ => ack

/-- The rest of the targeted branch, once `applyRequest` is through: acknowledge
and reply, or reply from the `catch`. -/
def finishRequest (m : Manager) (utcNow : ℕ) (ack : Except Exn Unit)
    (applied : Except Exn RateRequest) : Response :=
  match applied with
  | .error ex => failedResponse m utcNow ex
  | .ok _ =>
    match ackAllQueueMessages m ack with
    | .error ex => failedResponse m utcNow ex
    | .ok () => okResponse m utcNow

/-- The branch for commands without a target. Nothing here is inside a `try`. -/
def startAll (m : Manager) (utcNow : ℕ) : Except Exn Response × Manager :=
  match m.rateCollection with
  | none => (.error .nullReference, m)
  | some table =>
    (.ok (startedResponse m utcNow),
      { m with rateCollection := some (table.mapValues (Rates.setActive true)) })

/-- Whether a command names its target. -/
def RequestReceive.targeted (request : RequestReceive) : Bool :=
  request.metadata == "some_metadata2"

/-- The handler `SubscribeToRequests` registers: its reply, or the exception
that escapes it, and the object it leaves behind. -/
def handleRequest (m : Manager) (request : RequestReceive) (ack : Except Exn Unit)
    (utcNow : ℕ) : Except Exn Response × Manager :=
  if request.targeted then
    let applied := applyRequest deserializeObject m request.body
    (.ok (finishRequest applied.2 utcNow ack applied.1), applied.2)
  else startAll m utcNow

end Handler

end KubemqWorkshop
