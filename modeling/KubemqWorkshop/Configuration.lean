import KubemqWorkshop.Startup
import Mathlib.Data.List.DropRight

/-!
# Reading the configuration, and the constructor of `Manager`

The constructor reads six keys before it does anything else. Four of them must
be there and not be empty, and that is checked while they are read. The two
others are parsed with `TryParse`: `AutoStart` cannot go wrong, but
`RateInterval` is 0 when the text is no number, and 0 is not turned away until
`new Timer(RateInterval)`, the last statement of all — when the queue has been
emptied and the instruments' timers run.

`construction_rejects_or_completes_iff` says which configurations are rejected
before the first effect or serve to the end.

`TryParse` reads the text of every number of 32 bits (`intTryParse_toString`).
-/

namespace KubemqWorkshop

/-! ## Texts -/

/-- The characters `NumberStyles` takes for white space. -/
def isWhite (c : Char) : Bool := (9 ≤ c.toNat && c.toNat ≤ 13) || c.toNat == 32

/-- `char.IsWhiteSpace`. -/
def isWhiteSpace (c : Char) : Bool :=
  isWhite c || c.toNat ∈ [0x85, 0xA0, 0x1680, 0x2028, 0x2029, 0x202F, 0x205F, 0x3000] ||
    (0x2000 ≤ c.toNat && c.toNat ≤ 0x200A)

/-- Without the given characters at both ends. -/
def trim (white : Char → Bool) (cs : List Char) : List Char :=
  (cs.dropWhile white).rdropWhile white

/-- The sign and the rest. -/
def splitSign : List Char → Bool × List Char
  | '-' :: cs => (true, cs)
  | '+' :: cs => (false, cs)
  | cs => (false, cs)

/-- `int.TryParse`: white space, a sign, digits, white space; `none` when it
rejects, also for numbers of more than 32 bits. -/
def intTryParse (text : String) : Option ℤ :=
  let (negative, digits) := splitSign (trim isWhite text.toList)
  let n : ℤ := Nat.ofDigitChars 10 digits 0
  let n := if negative then -n else n
  if digits ≠ [] ∧ digits.all Char.isDigit ∧ -2147483648 ≤ n ∧ n ≤ 2147483647 then some n
  else none

/-- `bool.TryParse`: `True` or `False` in any case, between white space and `NUL`s. -/
def boolTryParse (text : String) : Option Bool :=
  let word := (trim (fun c => isWhiteSpace c || c.toNat == 0) text.toList).map Char.toLower
  if word = "true".toList then some true
  else if word = "false".toList then some false
  else none

/-- What stands between white characters is left. -/
theorem trim_append {white : Char → Bool} {before cs after : List Char}
    (hbefore : ∀ c ∈ before, white c = true) (hafter : ∀ c ∈ after, white c = true)
    (hne : cs ≠ []) (hcs : ∀ c ∈ cs, white c = false) :
    trim white (before ++ cs ++ after) = cs := by
  have hstart : ∀ {cs rest : List Char}, cs ≠ [] → (∀ c ∈ cs, white c = false) →
      (cs ++ rest).dropWhile white = cs ++ rest := by
    intro cs rest hne hcs
    rcases cs with - | ⟨c, cs⟩
    · exact absurd rfl hne
    · rw [List.cons_append, List.dropWhile_cons_of_neg]
      rw [hcs c (List.mem_cons_self ..)]
      exact Bool.false_ne_true
  have hend : cs.reverse.dropWhile white = cs.reverse := by
    rw [← List.append_nil cs.reverse]
    exact hstart (List.reverse_ne_nil_iff.mpr hne) fun c hc => hcs c (List.mem_reverse.mp hc)
  rw [trim, List.append_assoc, List.dropWhile_append_of_pos hbefore, hstart hne hcs,
    List.rdropWhile, List.reverse_append, List.dropWhile_append_of_pos, hend, List.reverse_reverse]
  exact fun c hc => hafter c (List.mem_reverse.mp hc)

/-- **Which numbers are read**: those of 32 bits, with or without a sign, between white
space. -/
theorem intTryParse_eq {before sign ds after : List Char}
    (hbefore : ∀ c ∈ before, isWhite c = true) (hafter : ∀ c ∈ after, isWhite c = true)
    (hsign : sign ∈ [[], ['+'], ['-']]) (hne : ds ≠ []) (hds : ∀ c ∈ ds, c.isDigit = true) :
    intTryParse (String.ofList (before ++ (sign ++ ds) ++ after)) =
      let n : ℤ := Nat.ofDigitChars 10 ds 0
      let n := if sign = ['-'] then -n else n
      if -2147483648 ≤ n ∧ n ≤ 2147483647 then some n else none := by
  have hdigit : ∀ c : Char, c.isDigit = true → isWhite c = false ∧ c ≠ '-' ∧ c ≠ '+' := by
    intro c hc
    have hval : 48 ≤ c.val := of_decide_eq_true (Bool.and_eq_true_iff.mp hc).1
    have hlow : 48 ≤ c.toNat := UInt32.le_iff_toNat_le.mp hval
    refine ⟨?_, ?_, ?_⟩
    · simp only [isWhite, Bool.or_eq_false_iff, Bool.and_eq_false_iff, decide_eq_false_iff_not,
        beq_eq_false_iff_ne]
      omega
    · rintro rfl
      exact absurd hc (by decide)
    · rintro rfl
      exact absurd hc (by decide)
  have hblack : ∀ c ∈ sign ++ ds, isWhite c = false := by
    intro c hc
    rcases List.mem_append.mp hc with hc | hc
    · have hall : ∀ sign ∈ [[], ['+'], ['-']], (sign.all fun c => !isWhite c) = true := by decide
      simpa using List.all_eq_true.mp (hall sign hsign) c hc
    · exact (hdigit c (hds c hc)).1
  have hsplit : splitSign (sign ++ ds) = (decide (sign = ['-']), ds) := by
    obtain ⟨d, ds, rfl⟩ := List.exists_cons_of_ne_nil hne
    obtain ⟨-, hminus, hplus⟩ := hdigit d (hds d (List.mem_cons_self ..))
    simp only [List.mem_cons, List.not_mem_nil, or_false] at hsign
    rcases hsign with rfl | rfl | rfl
    · rw [List.nil_append, splitSign]
      · rfl
      · exact fun _ h => hminus (List.cons.inj h).1
      · exact fun _ h => hplus (List.cons.inj h).1
    · rfl
    · rfl
  have hword : sign ++ ds ≠ [] := List.append_ne_nil_of_right_ne_nil _ hne
  have hdigits : ds.all Char.isDigit = true := List.all_eq_true.mpr hds
  rw [intTryParse, String.toList_ofList, trim_append hbefore hafter hword hblack, hsplit]
  simp only [hne, hdigits, decide_eq_true_eq, ne_eq, not_false_eq_true, true_and]

example : intTryParse " +3000\t" = some 3000 := by decide

/-- **What is written is read**: the text of every number of 32 bits. -/
theorem intTryParse_toString (n : ℤ) : intTryParse (toString n) =
    if -2147483648 ≤ n ∧ n ≤ 2147483647 then some n else none := by
  have hnone : ∀ c ∈ ([] : List Char), isWhite c = true := nofun
  have hdigits : ∀ k : ℕ, ∀ c ∈ Nat.toDigits 10 k, c.isDigit = true := fun k _ hc =>
    Nat.isDigit_of_mem_toDigits (by decide) (by decide) hc
  rcases n with k | k
  · have hread := intTryParse_eq hnone hnone (List.mem_cons_self ..) Nat.toDigits_ne_nil (hdigits k)
    rw [List.nil_append, List.nil_append, List.append_nil, Nat.ofDigitChars_ten_toDigits] at hread
    exact hread
  · have hminus : ['-'] ∈ [[], ['+'], ['-']] := by decide
    have hread := intTryParse_eq hnone hnone hminus Nat.toDigits_ne_nil (hdigits (k + 1))
    rw [List.nil_append, List.append_nil, Nat.ofDigitChars_ten_toDigits, String.ofList_append]
      at hread
    exact hread

example : intTryParse "-5" = some (-5) := by decide
example : intTryParse "2147483648" = none := by decide

/-- **The two words are read** in any case, between white space and `NUL`s. -/
theorem boolTryParse_eq {before word after : List Char}
    (hbefore : ∀ c ∈ before, (isWhiteSpace c || c.toNat == 0) = true)
    (hafter : ∀ c ∈ after, (isWhiteSpace c || c.toNat == 0) = true) {b : Bool}
    (hword : word.map Char.toLower = (toString b).toList) :
    boolTryParse (String.ofList (before ++ word ++ after)) = some b := by
  -- what is white is no letter, so it is its own lower case
  have hlower : ∀ c : Char, (isWhiteSpace c || c.toNat == 0) = true → c.toLower = c := by
    intro c hc
    have hupper : ¬ (65 ≤ c.val ∧ c.val ≤ 90) := by
      rintro ⟨hlow, hhigh⟩
      have hlow' : 65 ≤ c.toNat := UInt32.le_iff_toNat_le.mp hlow
      have hhigh' : c.toNat ≤ 90 := UInt32.le_iff_toNat_le.mp hhigh
      simp only [isWhiteSpace, isWhite, List.mem_cons, List.not_mem_nil, or_false,
        Bool.or_eq_true, Bool.and_eq_true, decide_eq_true_eq, beq_iff_eq] at hc
      omega
    exact dif_neg hupper
  have hblack : ∀ c ∈ word, (isWhiteSpace c || c.toNat == 0) = false := by
    intro c hc
    have hmem : c.toLower ∈ (toString b).toList := hword ▸ List.mem_map_of_mem hc
    have hletters : ∀ b : Bool,
        ((toString b).toList.all fun c => !(isWhiteSpace c || c.toNat == 0)) = true := by decide
    have hletter := List.all_eq_true.mp (hletters b) _ hmem
    rw [Bool.eq_false_iff]
    intro hwhite
    rw [hlower c hwhite, hwhite] at hletter
    cases hletter
  have hne : word ≠ [] := by
    rintro rfl
    cases b <;> cases hword
  rw [boolTryParse, String.toList_ofList, trim_append hbefore hafter hne hblack, hword]
  cases b <;> rfl

example : boolTryParse " TRUE" = some true := by decide

/-! ## The getters -/

/-- `IConfiguration`, by its indexer: `none` is `null`. `Convert.ToString` leaves
both as they are. -/
abbrev Configuration : Type := String → Option String

namespace Configuration

variable (config : Configuration)

/-- What four of the getters do: `string.IsNullOrEmpty` is an exception. -/
def getRequired (key : String) : Except Exn String :=
  match config key with
  | none => .error (.external ("failed to set '" ++ key ++ "'"))
  | some text =>
    if text = "" then .error (.external ("failed to set '" ++ key ++ "'")) else .ok text

/-- `GetKubemqQueue`. -/
def getKubemqQueue : Except Exn String := config.getRequired "KubemqQueue"

/-- `GetKubemqAddress`. -/
def getKubemqAddress : Except Exn String := config.getRequired "KubemqAddress"

/-- `GetKubemqClient`. -/
def getKubemqClient : Except Exn String := config.getRequired "KubemqClient"

/-- `GetCMDChannelName`. -/
def getCMDChannelName : Except Exn String := config.getRequired "CMDChannel"

/-- `GetAutoStart`: what does not parse is `false`, whatever the log says. -/
def getAutoStart : Bool := ((config "AutoStart").bind boolTryParse).getD false

/-- `GetRateInterval`: what does not parse is 0, and only negative numbers are
replaced. The last log line reads `rateQu.ToString()`. -/
def getRateInterval : Except Exn ℤ :=
  let rateQu := config "RateInterval"
  let parsedInterval := (rateQu.bind intTryParse).getD 0
  match rateQu with
  | none => .error .nullReference
  | some _ => .ok (if parsedInterval < 0 then 3000 else parsedInterval)

/-- The constructor's assignments, in their order. -/
def read : Except Exn Settings := do
  let queueName ← config.getKubemqQueue
  let rateInterval ← config.getRateInterval
  let clientID ← config.getKubemqClient
  let kubemqAddress ← config.getKubemqAddress
  let cmdChannel ← config.getCMDChannelName
  let autoStart := config.getAutoStart
  return { queueName, rateInterval, clientID, kubemqAddress, cmdChannel, autoStart }

end Configuration

/-! ## The constructor -/

/-- What the constructor sets off outside the object. -/
inductive Effect where
  /-- `Task.Run(() => SubscribeToRequests())` -/
  | subscribe
  /-- `new Queue(…)` -/
  | createQueue
  /-- `queue.Ping()` -/
  | ping
  /-- `queue.AckAllQueueMessagesResponse()` -/
  | ackAll
  /-- the timer of one instrument -/
  | rateChanger (rateName : String)
  /-- the timer of the reports -/
  | rateTimer
  deriving DecidableEq, Repr

/-- What ends the constructor before its last line. -/
inductive Stop where
  /-- an exception -/
  | threw (ex : Exn)
  /-- `System.Environment.Exit` -/
  | exit (code : ℤ)
  deriving DecidableEq, Repr

/-- Code of the constructor: it may stop, and what it has set off stays. -/
abbrev Construct (α : Type) : Type := ExceptT Stop (StateM (List Effect)) α

namespace Construct

/-- Run the constructor's code from the start. -/
def exec {α : Type} (x : Construct α) : Except Stop α × List Effect := x.run.run []

/-- Set something off. -/
def effect (e : Effect) : Construct Unit := modify fun effects => effects ++ [e]

/-- Let the exceptions of the configuration out. -/
def reading {α : Type} (x : Except Exn α) : Construct α :=
  match x with
  | .ok a => pure a
  | .error ex => throw (.threw ex)

/-- A broker call in the `try`; the `catch` ends the process. -/
def brokerCall (e : Effect) (outcome : Except Exn Unit) : Construct Unit := do
  effect e
  match outcome with
  | .ok () => pure ()
  | .error _ => throw (.exit 1)

/-- What `new Timer(interval)` throws. -/
def invalidInterval (interval : ℤ) : Exn :=
  .external ("Invalid value '" ++ toString interval ++ "' for parameter 'interval'.")

/-- `new Timer(interval)` and the three assignments that start it. -/
def startTimer (e : Effect) (interval : ℤ) : Construct Unit :=
  if 0 < interval then effect e else throw (.threw (invalidInterval interval))

end Construct

/-- What the broker calls of the constructor do. -/
structure Broker where
  createQueue : Except Exn Unit
  ping : Except Exn Unit
  ackAll : Except Exn Unit

/-- The broker answers. -/
def Broker.reachable : Broker := ⟨.ok (), .ok (), .ok ()⟩

open Construct in
/-- The constructor of `Manager`. The timer periods of the instruments are drawn
between 550 and 880. -/
def Manager.new (rnd : ℤ → NextDouble × NextDouble) (period : String → NextDouble)
    (broker : Broker) (config : Configuration) : Construct Manager := do
  let settings ← reading config.read
  effect .subscribe
  brokerCall .createQueue broker.createQueue
  brokerCall .ping broker.ping
  brokerCall .ackAll broker.ackAll
  for (rateName, _) in instruments do
    startTimer (.rateChanger rateName) (rndNext 550 880 (period rateName))
  startTimer .rateTimer settings.rateInterval
  return ((Manager.init settings).createQueue).startSendingRates rnd

/-! ## What the getters accept -/

namespace Configuration

/-- The keys whose getters insist on a value. -/
def requiredKeys : List String := ["KubemqQueue", "KubemqClient", "KubemqAddress", "CMDChannel"]

variable (config : Configuration)

/-- The key is absent, or its value empty. -/
def Missing (key : String) : Prop := (config key).getD "" = ""

/-- `RateInterval`, if there is one, is read as a number other than 0. -/
def IntervalServes : Prop :=
  ∀ text, config "RateInterval" = some text → (intTryParse text).getD 0 ≠ 0

variable {config}

theorem getRequired_eq_ok {key text : String} :
    config.getRequired key = .ok text ↔ config key = some text ∧ text ≠ "" := by
  rw [getRequired]
  rcases config key with - | text'
  · simp
  · by_cases h : text' = ""
    · simp [h, eq_comm]
    · simpa [h] using fun he : text' = text => he ▸ h

theorem getRequired_error {key : String} (h : config.Missing key) :
    config.getRequired key = .error (.external ("failed to set '" ++ key ++ "'")) := by
  rw [Missing] at h
  rw [getRequired]
  rcases hkey : config key with - | text
  · rfl
  · rw [hkey] at h
    exact if_pos h

theorem exists_getRequired {key : String} (h : ¬ config.Missing key) :
    ∃ text, config.getRequired key = .ok text := by
  rw [Missing] at h
  rcases hkey : config key with - | text
  · exact absurd (by rw [hkey]; rfl) h
  · refine ⟨text, getRequired_eq_ok.mpr ⟨hkey, ?_⟩⟩
    rwa [hkey] at h

theorem getRateInterval_eq_ok {n : ℤ} :
    config.getRateInterval = .ok n ↔
      ∃ text, config "RateInterval" = some text ∧
        (if (intTryParse text).getD 0 < 0 then 3000 else (intTryParse text).getD 0) = n := by
  rw [getRateInterval]
  rcases config "RateInterval" with - | text <;> simp

/-- **The interval that is accepted** is positive unless the text is read as 0. -/
theorem getRateInterval_pos_iff :
    (∀ n, config.getRateInterval = .ok n → 1 ≤ n) ↔ config.IntervalServes := by
  refine ⟨?_, ?_⟩
  · intro h text htext hzero
    have := h 0 (getRateInterval_eq_ok.mpr ⟨text, htext, by rw [hzero]; rfl⟩)
    omega
  · intro h n hn
    obtain ⟨text, htext, rfl⟩ := getRateInterval_eq_ok.mp hn
    have := h text htext
    split_ifs <;> omega

theorem bind_eq_ok {ε α β : Type} {x : Except ε α} {f : α → Except ε β} {b : β} :
    (x >>= f) = .ok b ↔ ∃ a, x = .ok a ∧ f a = .ok b := by
  rcases x with ex | a
  · refine ⟨?_, ?_⟩
    · intro h
      cases h
    · rintro ⟨a, h, -⟩
      cases h
  · refine ⟨fun h => ⟨a, rfl, h⟩, ?_⟩
    rintro ⟨a', h, hf⟩
    cases h
    exact hf

/-- **What is read**, getter by getter. -/
theorem read_eq_ok {s : Settings} :
    config.read = .ok s ↔
      config.getKubemqQueue = .ok s.queueName ∧ config.getRateInterval = .ok s.rateInterval ∧
        config.getKubemqClient = .ok s.clientID ∧
        config.getKubemqAddress = .ok s.kubemqAddress ∧
        config.getCMDChannelName = .ok s.cmdChannel ∧ config.getAutoStart = s.autoStart := by
  simp only [read, bind_eq_ok]
  refine ⟨?_, ?_⟩
  · rintro ⟨queueName, h₁, rateInterval, h₂, clientID, h₃, kubemqAddress, h₄, cmdChannel, h₅, h⟩
    cases h
    exact ⟨h₁, h₂, h₃, h₄, h₅, rfl⟩
  · rintro ⟨h₁, h₂, h₃, h₄, h₅, h₆⟩
    refine ⟨_, h₁, _, h₂, _, h₃, _, h₄, _, h₅, ?_⟩
    rw [h₆]
    rfl

/-- Reading ends in an exception only when a required key is missing, or when
there is no interval to log. -/
theorem read_error {ex : Exn} (h : config.read = .error ex) :
    (∃ key ∈ requiredKeys, config.Missing key) ∨ config "RateInterval" = none := by
  by_contra hnot
  simp only [not_or, not_exists, not_and] at hnot
  obtain ⟨hkeys, hinterval⟩ := hnot
  obtain ⟨queueName, h₁⟩ := exists_getRequired (hkeys "KubemqQueue" (by decide))
  obtain ⟨clientID, h₃⟩ := exists_getRequired (hkeys "KubemqClient" (by decide))
  obtain ⟨kubemqAddress, h₄⟩ := exists_getRequired (hkeys "KubemqAddress" (by decide))
  obtain ⟨cmdChannel, h₅⟩ := exists_getRequired (hkeys "CMDChannel" (by decide))
  obtain ⟨text, htext⟩ := Option.ne_none_iff_exists'.mp hinterval
  have hread : config.read = .ok
      ⟨queueName, _, clientID, kubemqAddress, cmdChannel, config.getAutoStart⟩ :=
    read_eq_ok.mpr ⟨h₁, getRateInterval_eq_ok.mpr ⟨text, htext, rfl⟩, h₃, h₄, h₅, rfl⟩
  rw [h] at hread
  cases hread

/-- Settings that were read miss no required key. -/
theorem not_missing_of_read {s : Settings} (h : config.read = .ok s) :
    ∀ key ∈ requiredKeys, ¬ config.Missing key := by
  obtain ⟨h₁, -, h₃, h₄, h₅, -⟩ := read_eq_ok.mp h
  intro key hkey hmissing
  have herror := getRequired_error hmissing
  simp only [requiredKeys, List.mem_cons, List.not_mem_nil, or_false] at hkey
  rcases hkey with rfl | rfl | rfl | rfl
  · cases herror.symm.trans h₁
  · cases herror.symm.trans h₃
  · cases herror.symm.trans h₄
  · cases herror.symm.trans h₅

end Configuration

/-! ## The constructor with the broker reachable -/

/-- What has been set off when the timer of the reports is created. -/
def beforeTimer : List Effect :=
  [.subscribe, .createQueue, .ping, .ackAll] ++ instruments.map fun i => .rateChanger i.1

theorem rndNext_pos {minValue maxValue : ℤ} (hmin : 0 < minValue) (hle : minValue ≤ maxValue)
    (sample : NextDouble) : 0 < rndNext minValue maxValue sample := by
  have hwidth : (0 : ℚ) ≤ maxValue - minValue := by
    rw [sub_nonneg]
    exact_mod_cast hle
  have hfloor : 0 ≤ ⌊sample.1 * (maxValue - minValue)⌋ :=
    Int.floor_nonneg.mpr (mul_nonneg sample.2.1 hwidth)
  rw [rndNext]
  omega

variable (rnd : ℤ → NextDouble × NextDouble) (period : String → NextDouble)

open Construct in
/-- **The constructor, traced**: the configuration, everything but the last
timer, and the last timer. -/
theorem exec_new (config : Configuration) :
    (Manager.new rnd period .reachable config).exec =
      match config.read with
      | .error ex => (.error (.threw ex), [])
      | .ok s =>
        if 0 < s.rateInterval then
          (.ok (((Manager.init s).createQueue).startSendingRates rnd), beforeTimer ++ [.rateTimer])
        else (.error (.threw (invalidInterval s.rateInterval)), beforeTimer) := by
  -- the timers of the instruments are never refused
  have hperiod : ∀ rateName,
      startTimer (.rateChanger rateName) (rndNext 550 880 (period rateName)) =
        effect (.rateChanger rateName) :=
    fun rateName => if_pos (rndNext_pos (by norm_num) (by norm_num) _)
  rw [Manager.new]
  simp only [hperiod]
  rcases config.read with ex | s
  · rfl
  · by_cases h : 0 < s.rateInterval
    · simp only [reading, pure_bind, startTimer, if_pos h]
      rfl
    · simp only [reading, pure_bind, startTimer, if_neg h]
      rfl

/-- The constructor throws while it has set nothing off, or returns. -/
def RejectsOrCompletes (run : Except Stop Manager × List Effect) : Prop :=
  (∃ ex, run = (.error (.threw ex), [])) ∨ ∃ m effects, run = (.ok m, effects)

/-- Settings that were read are served to the end when the interval is positive. -/
theorem rejectsOrCompletes_of_read {config : Configuration} {s : Settings}
    (h : config.read = .ok s) :
    RejectsOrCompletes (Manager.new rnd period .reachable config).exec ↔ 1 ≤ s.rateInterval := by
  rw [RejectsOrCompletes, exec_new, h]
  by_cases hpos : 0 < s.rateInterval
  · simp only [if_pos hpos]
    exact ⟨fun _ => hpos, fun _ => Or.inr ⟨_, _, rfl⟩⟩
  · simp only [if_neg hpos]
    refine ⟨?_, fun hle => absurd hle hpos⟩
    rintro (⟨ex, hrun⟩ | ⟨m, effects, hrun⟩)
    · cases (Prod.ext_iff.mp hrun).2
    · cases (Prod.ext_iff.mp hrun).1

theorem rejectsOrCompletes_of_error {config : Configuration} {ex : Exn}
    (h : config.read = .error ex) :
    RejectsOrCompletes (Manager.new rnd period .reachable config).exec := by
  rw [RejectsOrCompletes, exec_new, h]
  exact Or.inl ⟨ex, rfl⟩

theorem rejectsOrCompletes_iff (config : Configuration) :
    RejectsOrCompletes (Manager.new rnd period .reachable config).exec ↔
      (∃ key ∈ Configuration.requiredKeys, config.Missing key) ∨ config.IntervalServes := by
  rcases hread : config.read with ex | s
  · refine ⟨fun _ => ?_, fun _ => rejectsOrCompletes_of_error rnd period hread⟩
    refine (Configuration.read_error hread).imp_right fun hnone text htext => ?_
    rw [hnone] at htext
    cases htext
  · obtain ⟨-, hinterval, -⟩ := Configuration.read_eq_ok.mp hread
    rw [rejectsOrCompletes_of_read rnd period hread, ← Configuration.getRateInterval_pos_iff]
    refine ⟨?_, ?_⟩
    · intro hpos
      refine Or.inr fun n hn => ?_
      rw [hinterval] at hn
      cases hn
      exact hpos
    · rintro (⟨key, hkey, hmissing⟩ | haccepted)
      · exact absurd hmissing (Configuration.not_missing_of_read hread key hkey)
      · exact haccepted s.rateInterval hinterval

/-- **When a bad configuration is rejected in time**: if `RateInterval` is
absent or read as a number other than 0, the constructor throws before it has
set anything off or returns, and any interval it accepted is at least 1. The
first half holds besides when a required key is missing. -/
theorem construction_rejects_or_completes_iff (config : Configuration) :
    (RejectsOrCompletes (Manager.new rnd period .reachable config).exec ∧
        (∀ n, config.getRateInterval = .ok n → 1 ≤ n) ↔ config.IntervalServes) ∧
      (RejectsOrCompletes (Manager.new rnd period .reachable config).exec ↔
        (∃ key ∈ Configuration.requiredKeys, config.Missing key) ∨ config.IntervalServes) := by
  refine ⟨?_, rejectsOrCompletes_iff rnd period config⟩
  rw [Configuration.getRateInterval_pos_iff]
  refine ⟨fun h => h.2, fun h => ⟨?_, h⟩⟩
  exact (rejectsOrCompletes_iff rnd period config).mpr (Or.inr h)

/-- The deployed configuration, with another interval. -/
def deployedWith (rateInterval : String) : Configuration := fun key =>
  [("KubemqQueue", "rates-Queue"), ("RateInterval", rateInterval), ("KubemqClient", "ratesstest"),
    ("KubemqAddress", "kubemq-cluster-grpc:50000"), ("CMDChannel", "rateCMD"),
    ("AutoStart", "True")].lookup key

theorem read_deployedWith (text : String) : (deployedWith text).read = .ok { deployed with
    rateInterval :=
      if (intTryParse text).getD 0 < 0 then 3000 else (intTryParse text).getD 0 } := by
  have hautoStart : boolTryParse "True" = some true := by decide
  rw [Configuration.read_eq_ok]
  refine ⟨rfl, Configuration.getRateInterval_eq_ok.mpr ⟨text, rfl, rfl⟩, rfl, rfl, rfl, ?_⟩
  exact congrArg (Option.getD · false) hautoStart

example : (deployedWith "1000").read = .ok deployed := by decide

/-- The shortest timer periods for the instruments. -/
def zeroPeriods : String → NextDouble := fun _ => (zeroDraws 0).1

/-- The interval `0` is accepted, and the queue is emptied before it throws. -/
theorem zero_interval_not_rejected :
    (deployedWith "0").getRateInterval = .ok 0 ∧
      (Manager.new zeroDraws zeroPeriods .reachable (deployedWith "0")).exec =
        (.error (.threw (Construct.invalidInterval 0)), beforeTimer) ∧
      Effect.subscribe ∈ beforeTimer ∧ Effect.ackAll ∈ beforeTimer ∧
      ¬ RejectsOrCompletes
        (Manager.new zeroDraws zeroPeriods .reachable (deployedWith "0")).exec := by
  have hread : (deployedWith "0").read = .ok { deployed with rateInterval := 0 } :=
    read_deployedWith "0"
  refine ⟨by decide, ?_, by decide, by decide, ?_⟩
  · rw [exec_new, hread]
    exact if_neg (by decide)
  · rw [rejectsOrCompletes_of_read _ _ hread]
    decide

end KubemqWorkshop
