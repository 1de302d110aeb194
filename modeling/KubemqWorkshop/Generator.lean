import KubemqWorkshop.Manager
import KubemqWorkshop.Switchboard

/-!
# The started generator, and what a command does to it

A `Generator` is a `Manager` whose constructor has finished: both nullable
fields are set, and that is a field of the type. The handler keeps it so
(`Generator.handle`).

Everything a command can do to the table is one of three orders of the
switchboard (`orderOf`), whatever the broker answers: `handleRequest_table` is
the only lemma about the table that later results use, and
`handleRequest_reply` the only one about the reply.
-/

namespace KubemqWorkshop

/-! ## The table as a switchboard -/

namespace RateTable

/-- Carry an order out on the table. -/
def execute (table : RateTable) : Order String → RateTable
  | .all => table.mapValues (Rates.setActive true)
  | .set name b => table.modify name (Rates.setActive b)
  | .skip => table

theorem isActive_of_mem {table : RateTable} {name : String} {r : Rates}
    (h : (name, r) ∈ table.entries) : table.isActive name = some r.isActive := by
  rw [isActive, Dictionary.get?_of_mem h, Option.map_some]

theorem isActive_isSome_iff {table : RateTable} {name : String} :
    (table.isActive name).isSome ↔ name ∈ table.keys := by
  rw [isActive, Option.isSome_map, Dictionary.get?_isSome_iff]

@[simp] theorem keys_execute (table : RateTable) (o : Order String) :
    (table.execute o).keys = table.keys := by
  cases o with
  | all => exact table.keys_mapValues _
  | set name b => exact table.keys_modify name _
  | skip => rfl

/-- An order puts the flags where it says, and leaves the other flags alone. -/
theorem isActive_execute (table : RateTable) (o : Order String) (name : String) :
    (table.execute o).isActive name =
      (table.isActive name).map fun b => (o.position name).getD b := by
  cases o with
  | all =>
    simp only [isActive, execute, Dictionary.get?_mapValues, Option.map_map]
    rfl
  | set name' b =>
    simp only [isActive, execute, Dictionary.get?_modify, Order.position_set]
    by_cases h : name = name'
    · simp only [if_pos h, Option.map_map]
      rfl
    · simp only [if_neg h, Option.getD_none, Option.map_id_fun', id_eq]
  | skip => simp [execute]

/-- The key, name and id of every instrument, in order. -/
def identities (table : RateTable) : List (String × String × ℤ) :=
  table.entries.map fun e => (e.1, e.2.rateName, e.2.id)

/-- Every instrument is filed under its own name. -/
def WellNamed (table : RateTable) : Prop := ∀ p ∈ table.identities, p.2.1 = p.1

theorem WellNamed.rateName_eq {table : RateTable} (h : table.WellNamed) {name : String} {r : Rates}
    (hmem : (name, r) ∈ table.entries) : r.rateName = name :=
  h (name, r.rateName, r.id) (List.mem_map.mpr ⟨(name, r), hmem, rfl⟩)

/-- A rewrite that spares names and ids spares the identities. -/
theorem identities_modify (table : RateTable) (name : String) {f : Rates → Rates}
    (hname : ∀ r, (f r).rateName = r.rateName) (hid : ∀ r, (f r).id = r.id) :
    identities (table.modify name f) = identities table := by
  simp only [identities, Dictionary.modify, List.map_map]
  refine List.map_congr_left fun e _ => ?_
  by_cases he : e.1 = name <;> simp [he, hname, hid]

theorem identities_mapValues (table : RateTable) {f : Rates → Rates}
    (hname : ∀ r, (f r).rateName = r.rateName) (hid : ∀ r, (f r).id = r.id) :
    identities (table.mapValues f) = identities table := by
  simp [identities, Dictionary.mapValues, Function.comp_def, hname, hid]

@[simp] theorem identities_execute (table : RateTable) (o : Order String) :
    (table.execute o).identities = table.identities := by
  cases o with
  | all => exact table.identities_mapValues (fun _ => rfl) (fun _ => rfl)
  | set name b => exact table.identities_modify name (fun _ => rfl) (fun _ => rfl)
  | skip => rfl

theorem keys_eq_identities (table : RateTable) :
    table.keys = table.identities.map Prod.fst := by
  simp [Dictionary.keys, identities, Function.comp_def]

end RateTable

/-- A price change spares the flags. -/
theorem isActive_rateChange (table : RateTable) (name name' : String) (b s : Draws) :
    RateTable.isActive (table.modify name fun r => r.onRateChangeEvent b s) name' =
      table.isActive name' := by
  simp only [RateTable.isActive, Dictionary.get?_modify]
  by_cases h : name' = name
  · rw [if_pos h, Option.map_map]
    rfl
  · rw [if_neg h]

/-- The flag of an instrument, once there is a table. -/
def Manager.isActive (m : Manager) (name : String) : Option Bool :=
  m.rateCollection.bind fun table => table.isActive name

/-! ## The initial table -/

theorem initialRates_identities (autoStart : Bool) (rnd : ℤ → NextDouble × NextDouble) :
    (initialRates autoStart rnd).identities = instruments.map fun i => (i.1, i.1, i.2) := rfl

theorem initialRates_wellNamed (autoStart : Bool) (rnd : ℤ → NextDouble × NextDouble) :
    (initialRates autoStart rnd).WellNamed := by
  rw [RateTable.WellNamed, initialRates_identities]
  intro p hp
  obtain ⟨i, -, rfl⟩ := List.mem_map.mp hp
  rfl

theorem initialRates_isActive (autoStart : Bool) (rnd : ℤ → NextDouble × NextDouble) :
    ∀ name ∈ (initialRates autoStart rnd).keys,
      (initialRates autoStart rnd).isActive name = some autoStart := by
  intro name hname
  obtain ⟨⟨k, r⟩, hmem, rfl⟩ := List.mem_map.mp hname
  rw [RateTable.isActive_of_mem hmem]
  simp only [initialRates, List.mem_cons, List.not_mem_nil, or_false, Prod.mk.injEq] at hmem
  rcases hmem with ⟨-, rfl⟩ | ⟨-, rfl⟩ | ⟨-, rfl⟩ | ⟨-, rfl⟩ | ⟨-, rfl⟩ | ⟨-, rfl⟩ | ⟨-, rfl⟩ <;>
    rfl

/-! ## What the handler does, once -/

section Handler

variable (deserializeObject : List UInt8 → Except Exn (Option RateRequest))

/-- The order a targeted command's body amounts to on a table with these keys. -/
def bodyOrder (keys : List String) (body : List UInt8) : Order String :=
  match deserializeObject body with
  | .ok (some ⟨some name, active⟩) => if name ∈ keys then .set name active else .skip
  | _ => .skip

/-- The order a command amounts to on a table with these keys. -/
def orderOf (keys : List String) (request : RequestReceive) : Order String :=
  if request.targeted then bodyOrder deserializeObject keys request.body else .all

variable {deserializeObject}

theorem bodyOrder_ne_all {keys : List String} {body : List UInt8} :
    bodyOrder deserializeObject keys body ≠ .all := by
  unfold bodyOrder
  rcases deserializeObject body with ex | - | ⟨- | name, active⟩
  · simp
  · simp
  · simp
  · by_cases hk : name ∈ keys <;> simp [hk]

/-- Inversion: a body that is an order names a known instrument. -/
theorem bodyOrder_eq_set {keys : List String} {body : List UInt8} {name : String} {active : Bool} :
    bodyOrder deserializeObject keys body = .set name active ↔
      deserializeObject body = .ok (some ⟨some name, active⟩) ∧ name ∈ keys := by
  unfold bodyOrder
  rcases deserializeObject body with ex | - | ⟨- | name', active'⟩
  · simp
  · simp
  · simp
  · by_cases hk : name' ∈ keys
    · simp only [if_pos hk, Order.set.injEq, Except.ok.injEq, Option.some.injEq,
        RateRequest.mk.injEq]
      refine ⟨?_, fun h => h.1⟩
      rintro ⟨rfl, rfl⟩
      exact ⟨⟨rfl, rfl⟩, hk⟩
    · simp only [if_neg hk, reduceCtorEq, Except.ok.injEq, Option.some.injEq,
        RateRequest.mk.injEq, false_iff, not_and]
      rintro ⟨rfl, -⟩
      exact hk

theorem orderOf_of_targeted {keys : List String} {request : RequestReceive}
    (h : request.targeted = true) :
    orderOf deserializeObject keys request = bodyOrder deserializeObject keys request.body :=
  if_pos h

theorem orderOf_eq_set {keys : List String} {request : RequestReceive} {name : String}
    {active : Bool} :
    orderOf deserializeObject keys request = .set name active ↔
      request.targeted = true ∧
        deserializeObject request.body = .ok (some ⟨some name, active⟩) ∧ name ∈ keys := by
  unfold orderOf
  by_cases ht : request.targeted = true
  · rw [if_pos ht, bodyOrder_eq_set]
    exact ⟨fun h => ⟨ht, h⟩, fun h => h.2⟩
  · rw [if_neg ht]
    simp [ht]

theorem orderOf_untargeted {keys : List String} {request : RequestReceive}
    (h : request.targeted = false) : orderOf deserializeObject keys request = .all := by
  simp [orderOf, h]

variable (deserializeObject) in
/-- `applyRequest` on a table: it throws exactly when the body is no order, and
it carries the order out. -/
theorem applyRequest_spec {m : Manager} {table : RateTable} (hm : m.rateCollection = some table)
    (body : List UInt8) :
    (∃ ex, bodyOrder deserializeObject table.keys body = .skip ∧
      applyRequest deserializeObject m body = (.error ex, m)) ∨
    ∃ name active, bodyOrder deserializeObject table.keys body = .set name active ∧
      applyRequest deserializeObject m body =
        (.ok ⟨some name, active⟩,
          { m with rateCollection := some (table.execute (.set name active)) }) := by
  unfold bodyOrder applyRequest
  rw [hm]
  rcases deserializeObject body with ex | - | ⟨- | name, active⟩
  · exact .inl ⟨ex, rfl, rfl⟩
  · exact .inl ⟨.nullReference, rfl, rfl⟩
  · exact .inl ⟨.argumentNull "key", rfl, rfl⟩
  · rcases hget : table.get? name with - | r
    · have hk : name ∉ table.keys := Dictionary.get?_eq_none_iff.mp hget
      exact .inl ⟨.keyNotFound name, by simp [hk], by simp [hget]⟩
    · have hk : name ∈ table.keys := Dictionary.get?_isSome_iff.mp (by simp [hget])
      exact .inr ⟨name, active, by simp [hk], by simp [hget, RateTable.execute]⟩

theorem applyRequest_of_order {m : Manager} {table : RateTable}
    (hm : m.rateCollection = some table) {body : List UInt8} {name : String} {active : Bool}
    (ho : bodyOrder deserializeObject table.keys body = .set name active) :
    applyRequest deserializeObject m body = (.ok ⟨some name, active⟩,
      { m with rateCollection := some (table.execute (.set name active)) }) := by
  rcases applyRequest_spec deserializeObject hm body with ⟨_, ho', -⟩ | ⟨name', active', ho', happ⟩
  · rw [ho] at ho'
    cases ho'
  · rw [ho] at ho'
    obtain ⟨rfl, rfl⟩ := Order.set.inj ho'
    exact happ

/-- On a table, `applyRequest` carries the body's order out. -/
theorem applyRequest_snd {m : Manager} {table : RateTable} (hm : m.rateCollection = some table)
    (body : List UInt8) :
    (applyRequest deserializeObject m body).2 =
      { m with
        rateCollection := some (table.execute (bodyOrder deserializeObject table.keys body)) } := by
  rcases applyRequest_spec deserializeObject hm body with ⟨ex, ho, ha⟩ | ⟨name, active, ho, ha⟩
  · simp only [ha, ho, RateTable.execute, ← hm]
  · simp only [ha, ho]

variable (deserializeObject) in
/-- **The table after a command** is the table with the command's order carried
out; the acknowledgement's outcome has no part in it. -/
theorem handleRequest_table {m : Manager} {table : RateTable} (hm : m.rateCollection = some table)
    (request : RequestReceive) (ack : Except Exn Unit) (utcNow : ℕ) :
    (handleRequest deserializeObject m request ack utcNow).2 =
      { m with
        rateCollection :=
          some (table.execute (orderOf deserializeObject table.keys request)) } := by
  unfold handleRequest
  by_cases ht : request.targeted = true
  · rw [if_pos ht, orderOf_of_targeted ht]
    exact applyRequest_snd hm request.body
  · rw [if_neg ht, orderOf_untargeted (by simpa using ht), startAll, hm]
    rfl

/-- With a queue handle, what the acknowledgement does decides the reply. -/
theorem finishRequest_ok {m : Manager} (hq : m.queue.isSome) (utcNow : ℕ) (req : RateRequest) :
    finishRequest m utcNow (.ok ()) (.ok req) = okResponse m utcNow := by
  obtain ⟨q, hq⟩ := Option.isSome_iff_exists.mp hq
  simp only [finishRequest, ackAllQueueMessages, hq]

theorem finishRequest_error {m : Manager} (hq : m.queue.isSome) (utcNow : ℕ) (ex : Exn)
    (req : RateRequest) :
    finishRequest m utcNow (.error ex) (.ok req) = failedResponse m utcNow ex := by
  obtain ⟨q, hq⟩ := Option.isSome_iff_exists.mp hq
  simp only [finishRequest, ackAllQueueMessages, hq]

variable (deserializeObject) in
/-- **The reply to a command**, by what went wrong. -/
theorem handleRequest_reply {m : Manager} {table : RateTable} (hm : m.rateCollection = some table)
    (hq : m.queue.isSome) (request : RequestReceive) (ack : Except Exn Unit) (utcNow : ℕ) :
    (request.targeted = false ∧
      (handleRequest deserializeObject m request ack utcNow).1 = .ok (startedResponse m utcNow)) ∨
    (request.targeted = true ∧ orderOf deserializeObject table.keys request ≠ .skip ∧ ack = .ok () ∧
      (handleRequest deserializeObject m request ack utcNow).1 = .ok (okResponse m utcNow)) ∨
    ∃ ex, request.targeted = true ∧
      (orderOf deserializeObject table.keys request = .skip ∨ ack = .error ex) ∧
      (handleRequest deserializeObject m request ack utcNow).1 =
        .ok (failedResponse m utcNow ex) := by
  unfold handleRequest
  by_cases ht : request.targeted = true
  · simp only [if_pos ht]
    rw [orderOf_of_targeted ht]
    rcases applyRequest_spec deserializeObject hm request.body with
      ⟨ex, ho, ha⟩ | ⟨name, active, ho, ha⟩
    · exact .inr (.inr ⟨ex, ht, .inl ho, by rw [ha]; rfl⟩)
    · rw [ha]
      have hq' : Manager.queue { m with
          rateCollection := some (table.execute (.set name active)) } |>.isSome := hq
      rcases ack with ex | u
      · exact .inr (.inr ⟨ex, ht, .inr rfl, congrArg _ (finishRequest_error hq' utcNow ex _)⟩)
      · exact .inr (.inl ⟨ht, by simp [ho], rfl, congrArg _ (finishRequest_ok hq' utcNow _)⟩)
  · have hf : request.targeted = false := by simpa using ht
    exact .inl ⟨hf, by rw [if_neg ht, startAll, hm]⟩

variable (deserializeObject) in
/-- A targeted command whose acknowledgement throws is answered `Failed`. -/
theorem handleRequest_ack_error {m : Manager} {table : RateTable}
    (hm : m.rateCollection = some table) (hq : m.queue.isSome) {request : RequestReceive}
    (ht : request.targeted = true) (ex : Exn) (utcNow : ℕ) :
    ∃ ex', (handleRequest deserializeObject m request (.error ex) utcNow).1 =
      .ok (failedResponse m utcNow ex') := by
  rcases handleRequest_reply deserializeObject hm hq request (.error ex)
    utcNow with ⟨hf, -⟩ | ⟨-, -, hack, -⟩ | ⟨ex', -, -, hr⟩
  · rw [ht] at hf
    cases hf
  · cases hack
  · exact ⟨ex', hr⟩

variable (deserializeObject)

/-- The command asks a known instrument for the other position, and the
acknowledgement of the queue throws: the assignment stands, the reply is
`Failed`. -/
def HalfAppliedTo (flag : String → Option Bool) (request : RequestReceive)
    (ack : Except Exn Unit) (name : String) : Prop :=
  ∃ active ex, request.targeted = true ∧
    deserializeObject request.body = .ok (some ⟨some name, active⟩) ∧
    flag name = some (!active) ∧ ack = .error ex

/-- The command is half applied to some instrument. -/
def HalfApplied (flag : String → Option Bool) (request : RequestReceive)
    (ack : Except Exn Unit) : Prop :=
  ∃ name, HalfAppliedTo deserializeObject flag request ack name

variable {deserializeObject}

/-- A command answered `Failed` moves no flag but the one it is half applied
to. -/
theorem isActive_execute_of_not_halfApplied {table : RateTable} {request : RequestReceive}
    {ack : Except Exn Unit} {ex : Exn} (ht : request.targeted = true) {name : String}
    (hnot : ¬ HalfAppliedTo deserializeObject table.isActive request ack name)
    (hwhy : orderOf deserializeObject table.keys request = .skip ∨ ack = .error ex) :
    (table.execute (orderOf deserializeObject table.keys request)).isActive name =
      table.isActive name := by
  rw [orderOf_of_targeted ht] at hwhy ⊢
  rw [RateTable.isActive_execute]
  rcases ho : bodyOrder deserializeObject table.keys request.body with - | ⟨name', active⟩ | -
  · exact absurd ho bodyOrder_ne_all
  · rw [ho] at hwhy
    simp only [reduceCtorEq, false_or] at hwhy
    obtain ⟨hdes, hkey⟩ := bodyOrder_eq_set.mp ho
    rw [Order.position_set]
    by_cases hn : name = name'
    · subst hn
      -- the flag was already where the command wants it
      obtain ⟨b, hb⟩ := Option.isSome_iff_exists.mp (RateTable.isActive_isSome_iff.mpr hkey)
      have hba : b = active := by
        by_contra hne
        exact hnot ⟨active, ex, ht, hdes, by rw [hb, Bool.eq_not.mpr hne], hwhy⟩
      simp [hb, hba]
    · simp [hn]
  · simp

end Handler

/-! ## The started generator -/

/-- A manager whose constructor has finished. -/
structure Generator extends Manager where
  /-- the queue handle is there -/
  queue_created : queue.isSome
  /-- the table is there -/
  rates_created : rateCollection.isSome

namespace Generator

/-- The table of a started generator. -/
def rates (g : Generator) : RateTable := g.rateCollection.get g.rates_created

theorem rateCollection_eq (g : Generator) : g.rateCollection = some g.rates :=
  (Option.some_get g.rates_created).symm

/-- The generator with another table. -/
def withRates (g : Generator) (table : RateTable) : Generator where
  toManager := { g.toManager with rateCollection := some table }
  queue_created := g.queue_created
  rates_created := rfl

@[simp] theorem rates_withRates (g : Generator) (table : RateTable) :
    (g.withRates table).rates = table := rfl

/-- The generator right after its constructor, no command having come in. -/
def startUp (rnd : ℤ → NextDouble × NextDouble) (s : Settings) : Generator where
  toManager := (Manager.init s).createQueue.startSendingRates rnd
  queue_created := rfl
  rates_created := rfl

@[simp] theorem rates_startUp (rnd : ℤ → NextDouble × NextDouble) (s : Settings) :
    (startUp rnd s).rates = initialRates s.autoStart rnd := rfl

variable (deserializeObject : List UInt8 → Except Exn (Option RateRequest))

/-- The first half of the targeted branch, on a started generator. -/
def applyRequest (g : Generator) (body : List UInt8) : Except Exn RateRequest × Generator :=
  ((KubemqWorkshop.applyRequest deserializeObject g.toManager body).1,
    { toManager := (KubemqWorkshop.applyRequest deserializeObject g.toManager body).2
      queue_created := by
        rw [applyRequest_snd g.rateCollection_eq]
        exact g.queue_created
      rates_created := by
        rw [applyRequest_snd g.rateCollection_eq]
        rfl })

theorem rates_applyRequest (g : Generator) (body : List UInt8) :
    (g.applyRequest deserializeObject body).2.rates =
      g.rates.execute (bodyOrder deserializeObject g.rates.keys body) := by
  have h : (KubemqWorkshop.applyRequest deserializeObject g.toManager body).2.rateCollection =
      some (g.rates.execute (bodyOrder deserializeObject g.rates.keys body)) := by
    rw [applyRequest_snd g.rateCollection_eq]
  exact Option.some.inj ((rateCollection_eq _).symm.trans h)

/-- What `applyRequest` returns: the order, or an exception when there is none. -/
theorem applyRequest_fst (g : Generator) (body : List UInt8) :
    (∃ ex, (g.applyRequest deserializeObject body).1 = .error ex ∧
      bodyOrder deserializeObject g.rates.keys body = .skip) ∨
    ∃ name active, (g.applyRequest deserializeObject body).1 = .ok ⟨some name, active⟩ ∧
      bodyOrder deserializeObject g.rates.keys body = .set name active := by
  rcases applyRequest_spec deserializeObject g.rateCollection_eq body with
    ⟨ex, ho, ha⟩ | ⟨name, active, ho, ha⟩
  · exact .inl ⟨ex, congrArg Prod.fst ha, ho⟩
  · exact .inr ⟨name, active, congrArg Prod.fst ha, ho⟩

/-- The generator after a command: the handler sets neither field back. -/
def handle (g : Generator) (request : RequestReceive) (ack : Except Exn Unit) (utcNow : ℕ) :
    Generator where
  toManager := (handleRequest deserializeObject g.toManager request ack utcNow).2
  queue_created := by
    rw [handleRequest_table _ g.rateCollection_eq]
    exact g.queue_created
  rates_created := by
    rw [handleRequest_table _ g.rateCollection_eq]
    rfl

theorem rates_handle (g : Generator) (request : RequestReceive) (ack : Except Exn Unit)
    (utcNow : ℕ) :
    (g.handle deserializeObject request ack utcNow).rates =
      g.rates.execute (orderOf deserializeObject g.rates.keys request) := by
  have h : (handleRequest deserializeObject g.toManager request ack utcNow).2.rateCollection =
      some (g.rates.execute (orderOf deserializeObject g.rates.keys request)) := by
    rw [handleRequest_table _ g.rateCollection_eq]
  exact Option.some.inj ((rateCollection_eq _).symm.trans h)

end Generator

/-! ## The deployed generator and a sample command -/

/-- The configuration of `deploy/kubemq.yaml`. -/
def deployed : Settings where
  queueName := "rates-Queue"
  rateInterval := 1000
  clientID := "ratesstest"
  kubemqAddress := "kubemq-cluster-grpc:50000"
  cmdChannel := "rateCMD"
  autoStart := true

/-- Draws for the constructors of the instruments; all seeds give the same prices. -/
def zeroDraws : ℤ → NextDouble × NextDouble := fun _ => (⟨0, by norm_num⟩, ⟨0, by norm_num⟩)

/-- The UTF-8 bytes of a text without characters beyond ASCII. -/
def asciiBytes (text : String) : List UInt8 := text.toList.map fun c => c.toNat.toUInt8

/-- The command the dashboard sends to stop EURUSD. -/
def stopEURUSD : RequestReceive where
  metadata := "some_metadata2"
  body := asciiBytes "\x7b\"Name\":\"EURUSD\",\"Active\":\"false\"\x7d"

/-- The command the `activeAllRates` clients send: no metadata, the text `start`. -/
def startCommand : RequestReceive where
  metadata := ""
  body := asciiBytes "start"

/-- What deserialising the sample's body yields; any other body is malformed here. -/
def deserializeSample (body : List UInt8) : Except Exn (Option RateRequest) :=
  if body = stopEURUSD.body then .ok (some ⟨some "EURUSD", false⟩)
  else .error (.external "Unexpected character encountered while parsing value.")

theorem deserializeSample_stopEURUSD :
    deserializeSample stopEURUSD.body = .ok (some ⟨some "EURUSD", false⟩) := if_pos rfl

end KubemqWorkshop
