import KubemqWorkshop.Configuration
import KubemqWorkshop.FailStop

/-!
# The deployed generator: where its configuration comes from, and a broker that fails

`Startup.LoadConfiguration` puts the environment over the file that is shipped
with the program. The file sets every key, so the environment can only spoil
what it sets: `deployment_completes_iff` says which environments let the
constructor finish, and with which settings.

The second half drops the assumption that the broker answers. The `try` around
the three broker calls ends the process at the first that fails; by then the
subscription runs, and nothing else does (`construction_stops_at_failure`).
Whatever the broker does, the constructor is the machine start-up is made of
(`construction_refines`).
-/

namespace KubemqWorkshop

/-! ## The two providers -/

/-- Keys are compared without regard to case. -/
def sameKey (a b : String) : Bool := a.toList.map Char.toUpper == b.toList.map Char.toUpper

/-- What a provider has for a key: of several entries the one loaded last. -/
def provided (entries : List (String × String)) (key : String) : Option String :=
  (entries.findRev? fun entry => sameKey entry.1 key).map Prod.snd

/-- `appsettings.json`, its values as the provider keeps them. -/
def appsettings : List (String × String) :=
  [("KubemqQueue", "rates-Queue"), ("KubemqClient", "ratesstest"), ("RateInterval", "1000"),
    ("KubemqAddress", "testcluster01.prod.tradency.com:32742"), ("CMDChannel", "rateCMD"),
    ("AutoStart", "True")]

/-- `Startup.LoadConfiguration`: the file, which may be absent, and over it the
environment. -/
def loadConfiguration (file env : List (String × String)) : Configuration :=
  fun key => (provided env key).or (provided file key)

/-- The environment of `deploy/kubemq.yaml`. -/
def kubemqYaml : List (String × String) :=
  [("KubemqQueue", "rates-Queue"), ("KubemqAddress", "kubemq-cluster-grpc:50000"),
    ("KubemqClient", "ratesstest"), ("CMDChannel", "rateCMD"), ("AutoStart", "true"),
    ("RateInterval", "1000")]

/-- **The case of a key** makes no difference to a provider. -/
theorem provided_of_sameKey (entries : List (String × String)) {key key' : String}
    (h : sameKey key key' = true) : provided entries key = provided entries key' := by
  have hsame : ∀ entry : String × String, sameKey entry.1 key = sameKey entry.1 key' := by
    intro entry
    rw [sameKey, sameKey, beq_iff_eq.mp h]
  simp only [provided, hsame]

example : provided [("RATEINTERVAL", "5")] "RateInterval" = some "5" := by decide

/-- The file has a value for every key. -/
theorem provided_appsettings :
    ∀ key ∈ Configuration.requiredKeys, (provided appsettings key).getD "" ≠ "" := by decide

/-! ## Which configurations are served to the end -/

section

variable (rnd : ℤ → NextDouble × NextDouble) (period : String → NextDouble)

/-- The constructor returns. -/
def Completes (run : Except Stop Manager × List Effect) : Prop := ∃ m, run.1 = .ok m

theorem completes_iff_read {config : Configuration} :
    Completes (Manager.new rnd period .reachable config).exec ↔
      ∃ s, config.read = .ok s ∧ 0 < s.rateInterval := by
  rw [Completes, exec_new]
  cases config.read with
  | error ex => simp
  | ok s =>
    by_cases hpos : 0 < s.rateInterval
    · simp [hpos]
    · simp [hpos]

/-- An interval that is read as 0 is the only one that is not served. -/
theorem completes_iff {config : Configuration} :
    Completes (Manager.new rnd period .reachable config).exec ↔
      (∀ key ∈ Configuration.requiredKeys, ¬ config.Missing key) ∧
        ∃ text, config "RateInterval" = some text ∧ (intTryParse text).getD 0 ≠ 0 := by
  rw [completes_iff_read]
  refine ⟨?_, ?_⟩
  · rintro ⟨s, hread, hpos⟩
    obtain ⟨-, hinterval, -⟩ := Configuration.read_eq_ok.mp hread
    obtain ⟨text, htext, hvalue⟩ := Configuration.getRateInterval_eq_ok.mp hinterval
    refine ⟨Configuration.not_missing_of_read hread, text, htext, fun hzero => ?_⟩
    rw [hzero, if_neg (lt_irrefl 0)] at hvalue
    exact absurd hvalue.symm (ne_of_gt hpos)
  · rintro ⟨hkeys, text, htext, hvalue⟩
    cases hread : config.read with
    | error ex =>
      rcases Configuration.read_error hread with ⟨key, hkey, hmissing⟩ | hnone
      · exact absurd hmissing (hkeys key hkey)
      · rw [hnone] at htext
        cases htext
    | ok s =>
      obtain ⟨-, hinterval, -⟩ := Configuration.read_eq_ok.mp hread
      obtain ⟨text', htext', hs⟩ := Configuration.getRateInterval_eq_ok.mp hinterval
      obtain rfl := Option.some.inj (htext.symm.trans htext')
      refine ⟨s, rfl, ?_⟩
      rw [← hs]
      split_ifs <;> omega

/-- What the constructor returns has the settings that were read. -/
theorem settings_of_completes {config : Configuration} {m : Manager}
    (h : (Manager.new rnd period .reachable config).exec.1 = .ok m) :
    config.read = .ok m.toSettings := by
  rw [exec_new] at h
  cases hread : config.read with
  | error ex =>
    rw [hread] at h
    cases h
  | ok s =>
    rw [hread] at h
    by_cases hpos : 0 < s.rateInterval
    · simp only [if_pos hpos, Except.ok.injEq] at h
      rw [← h]
      rfl
    · simp only [if_neg hpos] at h
      cases h

/-- The settings of the shipped program in an environment: what is set there,
else the file's value. -/
def shippedSettings (env : List (String × String)) : Settings where
  queueName := (provided env "KubemqQueue").getD "rates-Queue"
  rateInterval :=
    let parsed := (intTryParse ((provided env "RateInterval").getD "1000")).getD 0
    if parsed < 0 then 3000 else parsed
  clientID := (provided env "KubemqClient").getD "ratesstest"
  kubemqAddress := (provided env "KubemqAddress").getD "testcluster01.prod.tradency.com:32742"
  cmdChannel := (provided env "CMDChannel").getD "rateCMD"
  autoStart := (boolTryParse ((provided env "AutoStart").getD "True")).getD false

/-- A key of the file has the environment's value, or the file's. -/
theorem loadConfiguration_eq {env : List (String × String)} {key value : String}
    (h : provided appsettings key = some value) :
    loadConfiguration appsettings env key = some ((provided env key).getD value) := by
  rw [loadConfiguration, h]
  cases provided env key <;> rfl

/-- **Which environments the shipped program starts in**: with the broker
reachable the constructor returns unless the environment sets a required key to
the empty text, or the interval to what is read as 0; and it then has the
environment's settings over the file's. -/
theorem deployment_completes_iff (env : List (String × String)) :
    (Completes (Manager.new rnd period .reachable (loadConfiguration appsettings env)).exec ↔
        (∀ key ∈ Configuration.requiredKeys, provided env key ≠ some "") ∧
          ∀ text, provided env "RateInterval" = some text → (intTryParse text).getD 0 ≠ 0) ∧
      ∀ m, (Manager.new rnd period .reachable (loadConfiguration appsettings env)).exec.1 =
        .ok m → m.toSettings = shippedSettings env := by
  refine ⟨?_, fun m hm => ?_⟩
  · rw [completes_iff]
    refine and_congr (forall₂_congr fun key hkey => not_congr ?_) ?_
    · obtain ⟨value, hvalue⟩ : ∃ value, provided appsettings key = some value := by
        cases hfile : provided appsettings key with
        | none => exact absurd (by rw [hfile]; rfl) (provided_appsettings key hkey)
        | some value => exact ⟨value, rfl⟩
      have hne := provided_appsettings key hkey
      rw [hvalue, Option.getD_some] at hne
      rw [Configuration.Missing, loadConfiguration_eq hvalue, Option.getD_some]
      cases provided env key with
      | none => simpa using hne
      | some text => simp
    · have hfile : provided appsettings "RateInterval" = some "1000" := rfl
      rw [loadConfiguration_eq hfile]
      cases provided env "RateInterval" with
      | none =>
        have hdefault : (intTryParse "1000").getD 0 ≠ 0 := by decide
        simpa using hdefault
      | some text => simp
  · obtain ⟨h₁, h₂, h₃, h₄, h₅, h₆⟩ :=
      Configuration.read_eq_ok.mp (settings_of_completes rnd period hm)
    have hrequired : ∀ {key value text : String}, provided appsettings key = some value →
        (loadConfiguration appsettings env).getRequired key = .ok text →
          text = (provided env key).getD value := by
      intro key value text hvalue hget
      have hset := (Configuration.getRequired_eq_ok.mp hget).1
      rw [loadConfiguration_eq hvalue] at hset
      exact (Option.some.inj hset).symm
    obtain ⟨text, htext, hinterval⟩ := Configuration.getRateInterval_eq_ok.mp h₂
    rw [loadConfiguration_eq (show provided appsettings "RateInterval" = some "1000" from rfl)]
      at htext
    rw [Configuration.getAutoStart,
      loadConfiguration_eq (show provided appsettings "AutoStart" = some "True" from rfl)] at h₆
    generalize m.toSettings = settings at h₁ hinterval h₃ h₄ h₅ h₆ ⊢
    obtain ⟨queueName, rateInterval, clientID, kubemqAddress, cmdChannel, autoStart⟩ := settings
    obtain rfl := hrequired rfl h₁
    obtain rfl := hrequired rfl h₃
    obtain rfl := hrequired rfl h₄
    obtain rfl := hrequired rfl h₅
    obtain rfl := Option.some.inj htext
    obtain rfl := h₆
    obtain rfl : _ = rateInterval := hinterval
    rfl

example : shippedSettings kubemqYaml = deployed := by decide

end

/-! ## A broker that fails -/

/-- The broker calls of the constructor, in their order. -/
def Broker.calls (broker : Broker) : List (Effect × Except Exn Unit) :=
  [(.createQueue, broker.createQueue), (.ping, broker.ping), (.ackAll, broker.ackAll)]

/-- The call goes through. -/
def goesWell (call : Effect × Except Exn Unit) : Bool := call.2.isOk

section

variable (rnd : ℤ → NextDouble × NextDouble) (period : String → NextDouble)

theorem eq_reachable {broker : Broker} (h : broker.calls.all goesWell = true) :
    broker = .reachable := by
  obtain ⟨_ | _, _ | _, _ | _⟩ := broker
  all_goals first | rfl | cases h

/-- **The constructor and any broker**: with all calls answered it goes on, and
the first that fails is the last thing it does. -/
theorem exec_new_broker {config : Configuration} {s : Settings} (h : config.read = .ok s)
    (broker : Broker) :
    (Manager.new rnd period broker config).exec =
      if broker.calls.all goesWell then (Manager.new rnd period .reachable config).exec
      else (.error (.exit 1),
        .subscribe :: (FailStop.through goesWell broker.calls).map Prod.fst) := by
  by_cases hall : broker.calls.all goesWell = true
  · rw [if_pos hall, eq_reachable hall]
  · rw [if_neg hall, Manager.new, h]
    obtain ⟨_ | _, _ | _, _ | _⟩ := broker
    all_goals first | rfl | exact absurd rfl hall

/-- A configuration that is not read lets nothing be set off. -/
theorem exec_new_error {config : Configuration} {ex : Exn} (h : config.read = .error ex)
    (broker : Broker) : (Manager.new rnd period broker config).exec = (.error (.threw ex), []) := by
  rw [Manager.new, h]
  rfl

/-- All the constructor should set off. -/
def allEffects : List Effect := beforeTimer ++ [.rateTimer]

/-- What has been set off when a broker call fails. -/
theorem stopped_prefix_allEffects (broker : Broker) :
    .subscribe :: (FailStop.through goesWell broker.calls).map Prod.fst <+:
      [.subscribe, .createQueue, .ping, .ackAll] :=
  (List.prefix_cons_inj _).mpr ((FailStop.through_prefix goesWell broker.calls).map Prod.fst)

/-- **The constructor stops at the first failure of the broker**: whatever the
configuration and the broker, what the constructor sets off is a beginning of
what it should, and all of it exactly when it returns. It ends the process
exactly when the configuration is read and a broker call fails; then the
subscription runs, and of the rest only the calls through that one were made. -/
theorem construction_stops_at_failure (broker : Broker) (config : Configuration) :
    let run := (Manager.new rnd period broker config).exec
    run.2 <+: allEffects ∧ (Completes run ↔ run.2 = allEffects) ∧
      (run.1 = .error (.exit 1) ↔
        (∃ s, config.read = .ok s) ∧ broker.calls.all goesWell = false) ∧
      (run.1 = .error (.exit 1) →
        run.2 = .subscribe :: (FailStop.through goesWell broker.calls).map Prod.fst) := by
  intro run
  cases hread : config.read with
  | error ex =>
    rw [show run = _ from exec_new_error rnd period hread broker]
    refine ⟨List.nil_prefix, ⟨?_, nofun⟩, ⟨?_, ?_⟩, ?_⟩
    · rintro ⟨m, hm⟩
      cases hm
    · intro h
      cases h
    · rintro ⟨⟨s, hs⟩, -⟩
      cases hs
    · intro h
      cases h
  | ok s =>
    rw [show run = _ from exec_new_broker rnd period hread broker]
    cases hall : broker.calls.all goesWell with
    | true =>
      rw [if_pos rfl, exec_new, hread]
      by_cases hpos : 0 < s.rateInterval
      · simp only [if_pos hpos]
        exact ⟨List.prefix_refl _, ⟨fun _ => rfl, fun _ => ⟨_, rfl⟩⟩, ⟨nofun, nofun⟩, nofun⟩
      · simp only [if_neg hpos]
        refine ⟨List.prefix_append _ _, ⟨?_, ?_⟩, ⟨nofun, nofun⟩, nofun⟩
        · rintro ⟨m, hm⟩
          cases hm
        · intro h
          exact absurd h (by decide)
    | false =>
      have hstopped := stopped_prefix_allEffects broker
      rw [if_neg Bool.false_ne_true]
      refine ⟨hstopped.trans ⟨_, rfl⟩, ⟨?_, ?_⟩, ⟨fun _ => ⟨⟨s, rfl⟩, rfl⟩, fun _ => rfl⟩,
        fun _ => rfl⟩
      · rintro ⟨m, hm⟩
        cases hm
      · intro h
        rw [show .subscribe :: _ = allEffects from h] at hstopped
        exact absurd hstopped.length_le (by decide)

/-- **Refinement**: whatever the broker does, the machine of start-up does what
the constructor does from the subscription on. -/
theorem construction_refines (broker : Broker) {config : Configuration} {s : Settings}
    (h : config.read = .ok s) :
    ∃ outcomes c,
      outcomes <+: [broker.createQueue, broker.ping, broker.ackAll, .ok (), .ok ()] ∧
      (construction rnd).run (Startup.init s).toConstruction outcomes = some c ∧
      (c.next = .finished ∨ c.next = .exited) ∧
      ∀ m, (Manager.new rnd period broker config).exec.1 = .ok m ↔
        c.next = .finished ∧ c.manager = m := by
  cases hall : broker.calls.all goesWell with
  | true =>
    obtain rfl := eq_reachable hall
    refine ⟨List.replicate 5 (.ok ()), ⟨if 0 < s.rateInterval then .finished else .exited, _⟩,
      List.prefix_refl _, rfl, ?_, fun m => ?_⟩
    · by_cases hpos : 0 < s.rateInterval
      · exact .inl (if_pos hpos)
      · exact .inr (if_neg hpos)
    · rw [exec_new, h]
      by_cases hpos : 0 < s.rateInterval
      · simp only [if_pos hpos, Except.ok.injEq, true_and]
        exact Iff.rfl
      · simp [if_neg hpos]
  | false =>
    have hexec := exec_new_broker rnd period h broker
    rw [hall, if_neg Bool.false_ne_true] at hexec
    have hexited : ∀ c : Construction, c.next = .exited → ∀ m,
        (Manager.new rnd period broker config).exec.1 = .ok m ↔
          c.next = .finished ∧ c.manager = m := by
      intro c hc m
      rw [hexec, hc]
      exact ⟨nofun, nofun⟩
    obtain ⟨createQueue, ping, ackAll⟩ := broker
    cases createQueue with
    | error ex => exact ⟨[.error ex], _, ⟨_, rfl⟩, rfl, .inr rfl, hexited _ rfl⟩
    | ok _ =>
      cases ping with
      | error ex => exact ⟨[.ok (), .error ex], _, ⟨_, rfl⟩, rfl, .inr rfl, hexited _ rfl⟩
      | ok _ =>
        cases ackAll with
        | error ex =>
          exact ⟨[.ok (), .ok (), .error ex], _, ⟨_, rfl⟩, rfl, .inr rfl, hexited _ rfl⟩
        | ok _ => cases hall

/-- The ping fails. -/
theorem construction_refines_pingFails :
    ∃ outcomes c, outcomes <+: [.ok (), .error .nullReference, .ok (), .ok (), .ok ()] ∧
      (construction zeroDraws).run (Startup.init deployed).toConstruction outcomes = some c ∧
      (c.next = .finished ∨ c.next = .exited) ∧
      ∀ m, (Manager.new zeroDraws zeroPeriods ⟨.ok (), .error .nullReference, .ok ()⟩
          (deployedWith "1000")).exec.1 = .ok m ↔ c.next = .finished ∧ c.manager = m := by
  have hread : (deployedWith "1000").read = .ok deployed := read_deployedWith "1000"
  exact construction_refines zeroDraws zeroPeriods ⟨.ok (), .error .nullReference, .ok ()⟩ hread

end

end KubemqWorkshop
