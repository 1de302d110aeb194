import KubemqWorkshop.EndToEnd
import KubemqWorkshop.Subscriber

/-!
# The connection of the page (`kubemq-rate-client`)

`subscribeRateFeed` opens one WebSocket, and `ratesListener` subscribes to it as
soon as it is open. Its subscriber goes from `new` to `ended` and never back, so
a connection has three phases (`SocketPhase`).

What the page does with its socket is what the dashboard does with the messages
it heard (`socket_refines_dashboard`). A connection that has ended is never
replaced: the rows stand still from then on, and only from then on
(`rows_frozen_iff`). Fed by the generator the page hears everything while the
connection is up, and goes on showing the last report of that time
(`page_keeps_last_report`).
-/

namespace KubemqWorkshop

/-! ## The socket -/

/-- What happens to the page: the events of its socket, and clicks. -/
inductive SocketEvent where
  | onopen : SocketEvent
  | onmessage (data : String) : SocketEvent
  | onerror : SocketEvent
  | onclose : SocketEvent
  /-- a row is clicked -/
  | select (e : ℕ) : SocketEvent

/-- The page and its socket. -/
structure FeedSocket (ν : Type) where
  /-- the rate service; its flag `subscribed` is not used here -/
  rates : Dashboard ν
  /-- the subscriber of `connect`, which is told of the opening; nothing gives it a
  teardown, and its `teardowns` says only that it has ended -/
  connecting : Subscriber
  /-- the subscriber whose methods the handlers of the socket are -/
  listener : Option Subscriber

/-- `ratesListener`: it subscribes, and that makes the new subscriber's methods
the handlers of the socket and `close` of the socket its teardown. -/
def ratesListener (_ : Option Subscriber) (_ : Unit) : Bool × Option Subscriber :=
  (true, some .new)

variable {ν : Type}

namespace FeedSocket

/-- The page after its constructor. `onmessage` does nothing before the socket is
open, and the other two handlers are not set. -/
def init [Zero ν] : FeedSocket ν := ⟨.init, .new, none⟩

/-- One event. -/
def step [Zero ν] (number : Option Json → ν) (s : FeedSocket ν) :
    SocketEvent → Option (FeedSocket ν)
  | .onopen =>
    let opened := s.connecting.next ratesListener s.listener ()
    some { s with connecting := opened.1.complete, listener := opened.2 }
  | .onmessage data =>
    match s.listener with
    | none => some s
    | some listener =>
      let heard := listener.next (Dashboard.onMessage number) s.rates data
      some { s with rates := heard.2, listener := some heard.1 }
  | .onerror => some { s with listener := s.listener.map Subscriber.error }
  | .onclose => some { s with listener := s.listener.map Subscriber.complete }
  | .select e =>
    if e < s.rates.rates.length then some { s with rates := s.rates.setSelectedItem e } else none

end FeedSocket

/-- The page and its socket as a machine. -/
def feedSocket [Zero ν] (number : Option Json → ν) : Machine (FeedSocket ν) SocketEvent :=
  ⟨FeedSocket.step number⟩

/-! ## The phases of a connection -/

/-- What can end a connection. -/
inductive Cause where
  /-- a message the listener does not get through -/
  | thrown : Cause
  | error : Cause
  | close : Cause
  deriving DecidableEq, Repr

/-- The errors a cause leaves to the host. -/
def Cause.hostErrors : Cause → ℕ
  | .thrown => 1
  | .error => 1
  | .close => 0

/-- The life of a connection. -/
inductive SocketPhase where
  | connecting : SocketPhase
  | listening : SocketPhase
  | ended (cause : Cause) : SocketPhase
  deriving DecidableEq, Repr

namespace SocketPhase

/-- One event. Before it is open a connection does not even notice its own end. -/
def next : SocketPhase → SocketEvent → SocketPhase
  | .connecting, .onopen => .listening
  | .listening, .onmessage data => if goesThrough data then .listening else .ended .thrown
  | .listening, .onerror => .ended .error
  | .listening, .onclose => .ended .close
  | phase, _ => phase

/-- What the dashboard hears of an event. -/
def hears : SocketPhase → SocketEvent → List DashboardEvent
  | .listening, .onmessage data => [.feed data]
  | _, .select e => [.select e]
  | _, _ => []

/-- The subscriber of `connect` in a phase. -/
def subscriber : SocketPhase → Subscriber
  | .connecting => .new
  | _ => .ended 0

/-- The subscriber of `ratesListener` in a phase. At the end the teardown, which
closes the socket, has run once. -/
def listener : SocketPhase → Option Subscriber
  | .connecting => none
  | .listening => some .new
  | .ended cause => some (.ended cause.hostErrors)

/-- The listener has not thrown. -/
def subscribed : SocketPhase → Bool
  | .ended .thrown => false
  | _ => true

/-- What the dashboard hears of a history that starts in the phase. -/
def heard (phase : SocketPhase) : List SocketEvent → List DashboardEvent
  | [] => []
  | e :: es => phase.hears e ++ (phase.next e).heard es

/-- The phase after a history. -/
def after (phase : SocketPhase) (es : List SocketEvent) : SocketPhase := es.foldl next phase

theorem after_cons (phase : SocketPhase) (e : SocketEvent) (es : List SocketEvent) :
    phase.after (e :: es) = (phase.next e).after es := rfl

theorem after_append (phase : SocketPhase) (es fs : List SocketEvent) :
    phase.after (es ++ fs) = (phase.after es).after fs := List.foldl_append

theorem heard_append (phase : SocketPhase) (es fs : List SocketEvent) :
    phase.heard (es ++ fs) = phase.heard es ++ (phase.after es).heard fs := by
  induction es generalizing phase with
  | nil => rfl
  | cons e es ih => rw [List.cons_append, heard, heard, ih, List.append_assoc, after_cons]

/-- A connection that has ended stays so. -/
theorem next_ended (cause : Cause) (e : SocketEvent) : (ended cause).next e = ended cause := by
  cases e <;> rfl

end SocketPhase

/-- The phase of the connection after a history. -/
def phase (es : List SocketEvent) : SocketPhase := SocketPhase.connecting.after es

/-- What the dashboard hears of a history. -/
def heard (es : List SocketEvent) : List DashboardEvent := SocketPhase.connecting.heard es

theorem phase_concat (es : List SocketEvent) (e : SocketEvent) :
    phase (es ++ [e]) = (phase es).next e := SocketPhase.after_append ..

theorem heard_concat (es : List SocketEvent) (e : SocketEvent) :
    heard (es ++ [e]) = heard es ++ (phase es).hears e := by
  rw [heard, SocketPhase.heard_append, SocketPhase.heard, SocketPhase.heard, List.append_nil]
  rfl

/-! ## The dashboard behind the socket -/

namespace Dashboard

variable {d : Dashboard ν} (number : Option Json → ν)

/-- The callback throws on the messages that do not go through, and leaves its
flag to rxjs. -/
theorem onMessage_verdict (h : d.Listed) (data : String) :
    (d.onMessage number data).1 = goesThrough data ∧
      (d.onMessage number data).2.subscribed = d.subscribed := by
  cases hdata : goesThrough data with
  | true =>
    obtain ⟨entries, hentries, hwell⟩ := goesThrough_iff.mp hdata
    obtain ⟨sel, hsel⟩ := h.selected_eq
    rw [onMessage_eq h number hentries hwell hsel, parseNewPoint]
    refine ⟨rfl, ?_⟩
    split <;> rfl
  | false =>
    obtain ⟨rates, hthrows, -⟩ := onMessage_throws h number hdata
    rw [hthrows]
    exact ⟨rfl, rfl⟩

end Dashboard

namespace FeedSocket

/-- The page in a phase of its connection. -/
def inPhase (rates : Dashboard ν) (phase : SocketPhase) : FeedSocket ν :=
  ⟨rates, phase.subscriber, phase.listener⟩

variable [Zero ν] (number : Option Json → ν) (rates : Dashboard ν)

/-- An event the rate service does not hear of. -/
theorem step_silent {phase : SocketPhase} {e : SocketEvent} (h : phase.hears e = []) :
    (inPhase rates phase).step number e = some (inPhase rates (phase.next e)) := by
  cases e with
  | onopen =>
    cases phase <;> simp [step, inPhase, SocketPhase.subscriber, SocketPhase.listener,
      SocketPhase.next, ratesListener]
  | onmessage data =>
    cases phase with
    | connecting => rfl
    | listening => cases h
    | ended cause => simp [step, inPhase, SocketPhase.listener, SocketPhase.next]
  | onerror => cases phase <;> simp [step, inPhase, SocketPhase.subscriber, SocketPhase.listener,
      SocketPhase.next, Cause.hostErrors]
  | onclose => cases phase <;> simp [step, inPhase, SocketPhase.subscriber, SocketPhase.listener,
      SocketPhase.next, Cause.hostErrors]
  | select i => cases phase <;> cases h

/-- A message while the page listens. -/
theorem step_message (h : rates.Listed) (data : String) :
    (inPhase rates .listening).step number (.onmessage data) =
      some (inPhase (rates.onMessage number data).2
        (SocketPhase.listening.next (.onmessage data))) := by
  obtain ⟨hthrows, -⟩ := Dashboard.onMessage_verdict number h data
  rw [SocketPhase.next, ← hthrows, inPhase, step]
  simp only [SocketPhase.listener, Subscriber.next_new]
  cases (rates.onMessage number data).1 <;> rfl

theorem step_click (phase : SocketPhase) (i : ℕ) :
    (inPhase rates phase).step number (.select i) =
      if i < rates.rates.length then some (inPhase (rates.setSelectedItem i) phase) else none := rfl

end FeedSocket

theorem SocketPhase.hears_cases (phase : SocketPhase) (e : SocketEvent) :
    phase.hears e = [] ∨ (phase = .listening ∧ ∃ data, e = .onmessage data) ∨
      ∃ i, e = .select i := by
  cases e with
  | select i => exact .inr (.inr ⟨i, rfl⟩)
  | onmessage data =>
    cases phase with
    | listening => exact .inr (.inl ⟨rfl, data, rfl⟩)
    | _ => exact .inl rfl
  | _ => cases phase <;> exact .inl rfl

theorem SocketPhase.subscribed_next {phase : SocketPhase} {e : SocketEvent}
    (h : phase.hears e = []) : (phase.next e).subscribed = phase.subscribed := by
  cases phase with
  | connecting => cases e <;> rfl
  | listening =>
    cases e with
    | onmessage data => cases h
    | _ => rfl
  | ended cause => rw [next_ended]

/-- The state of the page after a history: the rate service is the dashboard
after what it heard, and the subscribers are those of the phase. -/
structure FeedSocket.Tracks [Zero ν] (number : Option Json → ν) (es : List SocketEvent)
    (s : FeedSocket ν) : Prop where
  listed : s.rates.Listed
  subscribed : s.rates.subscribed = true
  inPhase : s = .inPhase s.rates (phase es)
  page : (dashboard number).run .init (heard es) =
    some { s.rates with subscribed := (phase es).subscribed }

namespace FeedSocket.Tracks

variable [Zero ν] {number : Option Json → ν} {es : List SocketEvent} {s s' : FeedSocket ν}

theorem init : Tracks number [] (FeedSocket.init : FeedSocket ν) :=
  ⟨Dashboard.listed_init, rfl, rfl, rfl⟩

/-- While the page listens, the rate service is the dashboard. -/
theorem page_listening (h : Tracks number es s) (hphase : phase es = .listening) :
    (dashboard number).run .init (heard es) = some s.rates := by
  have hself : { s.rates with subscribed := true } = s.rates := by rw [← h.subscribed]
  rw [h.page, hphase]
  exact congrArg some hself

theorem message (h : Tracks number es s) (hphase : phase es = .listening) (data : String) :
    Tracks number (es ++ [.onmessage data])
      (.inPhase (s.rates.onMessage number data).2
        (SocketPhase.listening.next (.onmessage data))) where
  listed := h.listed.onMessage number data
  subscribed := (Dashboard.onMessage_verdict number h.listed data).2.trans h.subscribed
  inPhase := by rw [phase_concat, hphase]; rfl
  page := by
    have hstep : s.rates.step number (.feed data) =
        some { (s.rates.onMessage number data).2 with subscribed := goesThrough data } := by
      rw [Dashboard.step, if_pos h.subscribed,
        ← (Dashboard.onMessage_verdict number h.listed data).1]
    have hsub : (SocketPhase.listening.next (.onmessage data)).subscribed = goesThrough data := by
      rw [SocketPhase.next]
      cases goesThrough data <;> rfl
    rw [heard_concat, phase_concat, hphase, hsub]
    exact (dashboard number).run_concat_eq_some.mpr ⟨_, h.page_listening hphase, hstep⟩

theorem click (h : Tracks number es s) {i : ℕ} (hi : i < s.rates.rates.length) :
    Tracks number (es ++ [.select i]) (.inPhase (s.rates.setSelectedItem i) (phase es)) where
  listed := ⟨h.listed.identities, by rw [← h.listed.length_rates]; exact hi⟩
  subscribed := h.subscribed
  inPhase := by rw [phase_concat]; cases phase es <;> rfl
  page := by
    have hnext : (phase es).next (.select i) = phase es := by cases phase es <;> rfl
    have hhears : (phase es).hears (.select i) = [.select i] := by cases phase es <;> rfl
    rw [heard_concat, phase_concat, hnext, hhears]
    exact (dashboard number).run_concat_eq_some.mpr ⟨_, h.page, if_pos hi⟩

theorem step (h : Tracks number es s) {e : SocketEvent} (hs : s.step number e = some s') :
    Tracks number (es ++ [e]) s' := by
  rw [h.inPhase] at hs
  rcases (phase es).hears_cases e with hsilent | ⟨hphase, data, rfl⟩ | ⟨i, rfl⟩
  · rw [step_silent number _ hsilent, Option.some.injEq] at hs
    subst hs
    refine ⟨h.listed, h.subscribed, by rw [phase_concat]; rfl, ?_⟩
    rw [heard_concat, hsilent, List.append_nil, h.page, phase_concat,
      SocketPhase.subscribed_next hsilent]
    rfl
  · rw [hphase, step_message number _ h.listed, Option.some.injEq] at hs
    subst hs
    exact h.message hphase data
  · rw [step_click] at hs
    split at hs
    · rename_i hi
      obtain rfl := Option.some.inj hs
      exact h.click hi
    · cases hs

end FeedSocket.Tracks

/-! ## What a connection leaves -/

section

variable [Zero ν] {number : Option Json → ν} {es : List SocketEvent} {s : FeedSocket ν}
  (hrun : (feedSocket number).run .init es = some s)
include hrun

theorem tracks_of_run : s.Tracks number es :=
  (feedSocket number).run_induction (P := fun es s => s.Tracks number es) .init
    (fun _ _ _ _ _ h hs => h.step hs) hrun

/-- **The page is the dashboard on what it heard**: after every history of the
socket the table, the chart and the selection are those of the dashboard after
the messages from the opening to the end of the connection and the clicks. The
subscribers are those of the phase; the socket is closed once, when the
connection ends, and never before. -/
theorem socket_refines_dashboard :
    (dashboard number).run .init (heard es) =
        some { s.rates with subscribed := (phase es).subscribed } ∧
      s.connecting = (phase es).subscriber ∧ s.listener = (phase es).listener := by
  have h := tracks_of_run hrun
  exact ⟨h.page, congrArg FeedSocket.connecting h.inPhase, congrArg FeedSocket.listener h.inPhase⟩

end

/-- A message that carries the first report. -/
theorem exists_startReport : ∃ data, samplePlatform.Carries zeroDraws deployed [] data :=
  ⟨_, lawful_samplePlatform.carries_feedOf []⟩

/-- A message and a close, and what comes after them. -/
theorem socket_refines_dashboard_firstReport :
    ∃ data s, (feedSocket samplePlatform.number).run .init
        [.onopen, .onmessage data, .onclose, .onmessage data] = some s ∧
      (dashboard samplePlatform.number).run .init [.feed data] =
        some { s.rates with subscribed := true } ∧
      s.connecting = .ended 0 ∧ s.listener = some (.ended 0) := by
  obtain ⟨data, hdata⟩ := exists_startReport
  have hgoes := goesThrough_of_platform lawful_samplePlatform.serializes hdata
  have hheard : heard [.onopen, .onmessage data, .onclose, .onmessage data] = [.feed data] := by
    simp [heard, SocketPhase.heard, SocketPhase.hears, SocketPhase.next, hgoes]
  have hphase : phase [.onopen, .onmessage data, .onclose, .onmessage data] = .ended .close := by
    simp [phase, SocketPhase.after, SocketPhase.next, hgoes]
  obtain ⟨s, hrun⟩ : ∃ s, (feedSocket samplePlatform.number).run .init
      [.onopen, .onmessage data, .onclose, .onmessage data] = some s := ⟨_, rfl⟩
  have h := socket_refines_dashboard hrun
  rw [hheard, hphase] at h
  exact ⟨data, s, hrun, h⟩

section

variable [Zero ν] {number : Option Json → ν} {es : List SocketEvent} {s : FeedSocket ν}
  (hrun : (feedSocket number).run .init es = some s)
include hrun

end

/-- The messages of a history. -/
def messages (es : List SocketEvent) : List String :=
  es.filterMap fun
    | .onmessage data => some data
    | _ => none

theorem feeds_append (es fs : List DashboardEvent) : feeds (es ++ fs) = feeds es ++ feeds fs :=
  List.filterMap_append

namespace SocketPhase

/-- Before the opening nothing is heard. -/
theorem connecting_of_not_mem {es : List SocketEvent} (h : .onopen ∉ es) :
    connecting.after es = connecting ∧ feeds (connecting.heard es) = [] := by
  induction es with
  | nil => exact ⟨rfl, rfl⟩
  | cons e es ih =>
    rw [List.mem_cons, not_or] at h
    cases e with
    | onopen => exact absurd rfl h.1
    | _ => exact ih h.2

/-- After the end nothing is heard. -/
theorem feeds_heard_ended (cause : Cause) (es : List SocketEvent) :
    feeds ((ended cause).heard es) = [] := by
  induction es with
  | nil => rfl
  | cons e es ih =>
    rw [heard, next_ended, feeds_append, ih, List.append_nil]
    cases e <;> rfl

/-- While the socket is up and all messages go through, every one is heard. -/
theorem listening_of_goesThrough {es : List SocketEvent}
    (hmessages : ∀ data ∈ messages es, goesThrough data = true)
    (herror : .onerror ∉ es) (hclose : .onclose ∉ es) :
    listening.after es = listening ∧ feeds (listening.heard es) = messages es := by
  induction es with
  | nil => exact ⟨rfl, rfl⟩
  | cons e es ih =>
    rw [List.mem_cons, not_or] at herror hclose
    cases e with
    | onmessage data =>
      have hnext : listening.next (.onmessage data) = listening :=
        if_pos (hmessages data (List.mem_cons_self ..))
      obtain ⟨hafter, hheard⟩ := ih (fun data' hdata' =>
        hmessages data' (List.mem_cons_of_mem data hdata')) herror.2 hclose.2
      rw [after_cons, heard, hnext, feeds_append, hheard]
      exact ⟨hafter, rfl⟩
    | onerror => exact absurd rfl herror.1
    | onclose => exact absurd rfl hclose.1
    | onopen => exact ih hmessages herror.2 hclose.2
    | select i => exact ih hmessages herror.2 hclose.2

/-- An error or a close ends it. -/
theorem feeds_heard_down {es : List SocketEvent}
    (h : ∀ e ∈ es.head?, e = .onerror ∨ e = .onclose) : feeds (listening.heard es) = [] := by
  cases es with
  | nil => rfl
  | cons e es =>
    rcases h e rfl with rfl | rfl
    · exact feeds_heard_ended .error es
    · exact feeds_heard_ended .close es

end SocketPhase

/-- The dashboard hears the messages of the time the socket was up. -/
theorem feeds_heard {before up rest : List SocketEvent} (hbefore : .onopen ∉ before)
    (hmessages : ∀ data ∈ messages up, goesThrough data = true)
    (herror : .onerror ∉ up) (hclose : .onclose ∉ up)
    (hrest : ∀ e ∈ rest.head?, e = .onerror ∨ e = .onclose) :
    feeds (heard (before ++ .onopen :: (up ++ rest))) = messages up := by
  obtain ⟨hconnecting, hsilent⟩ := SocketPhase.connecting_of_not_mem hbefore
  obtain ⟨hlistening, hheard⟩ := SocketPhase.listening_of_goesThrough hmessages herror hclose
  have hopen : SocketPhase.connecting.heard (.onopen :: (up ++ rest)) =
      SocketPhase.listening.heard (up ++ rest) := rfl
  rw [heard, SocketPhase.heard_append, hconnecting, feeds_append, hsilent, hopen,
    SocketPhase.heard_append, feeds_append, hheard, hlistening,
    SocketPhase.feeds_heard_down hrest, List.nil_append, List.append_nil]

/-- Without a message the rows are those of the start. -/
theorem rates_of_feeds_nil [Zero ν] {number : Option Json → ν} {es : List DashboardEvent}
    {d : Dashboard ν} (hrun : (dashboard number).run .init es = some d) (h : feeds es = []) :
    d.rates = getRatesList := by
  refine run_feeds_induction (Q := fun _ => False) (P := fun _ d => d.rates = getRatesList) rfl ?_
    hrun (by simp [h])
  intro es d e d' _ hrates hev hs
  cases e with
  | feed data => exact (hev data rfl).elim
  | select i =>
    obtain ⟨-, -, hkept, -⟩ := Dashboard.step_select number hs
    exact hkept.trans hrates

/-- **The page keeps the last report**: whatever the socket did before it was
open and does after its first error or close, the rows show the last report that
came in between, and the rows of the start if none did. -/
theorem page_keeps_last_report [Zero ν] {P : Platform ν} {rnd : ℤ → NextDouble × NextDouble}
    {settings : Settings} (hserialize : Serializes P.serializeObject)
    {before up rest : List SocketEvent} {s : FeedSocket ν}
    (hrun : (feedSocket P.number).run .init (before ++ .onopen :: (up ++ rest)) = some s)
    (hbefore : .onopen ∉ before) (herror : .onerror ∉ up) (hclose : .onclose ∉ up)
    (hrest : ∀ e ∈ rest.head?, e = .onerror ∨ e = .onclose)
    (hmessages : ∀ data ∈ messages up, ∃ es, P.Carries rnd settings es data) :
    (messages up = [] → s.rates.rates = getRatesList) ∧
      ∀ data es, (messages up).getLast? = some data → P.Carries rnd settings es data →
        s.rates.Shows P (P.table rnd settings es) := by
  have hpage := (tracks_of_run hrun).page
  have hheard : feeds (heard (before ++ .onopen :: (up ++ rest))) = messages up := by
    refine feeds_heard hbefore (fun data hdata => ?_) herror hclose hrest
    obtain ⟨es, hes⟩ := hmessages data hdata
    exact goesThrough_of_platform hserialize hes
  refine ⟨fun hnone => ?_, ?_⟩
  · have hrates := rates_of_feeds_nil hpage (hheard.trans hnone)
    exact hrates
  · rw [← hheard] at hmessages ⊢
    exact (page_shows hserialize hpage hmessages).2

/-- The first report is shown, also after the connection is gone. -/
theorem page_keeps_last_report_firstReport :
    ∃ data s, (feedSocket samplePlatform.number).run .init
        ([.onmessage "early"] ++ .onopen :: ([.onmessage data] ++ [.onclose, .onmessage "late"])) =
          some s ∧
      s.rates.Shows samplePlatform (samplePlatform.table zeroDraws deployed []) := by
  obtain ⟨data, hdata⟩ := exists_startReport
  obtain ⟨s, hrun⟩ : ∃ s, (feedSocket samplePlatform.number).run .init
      ([.onmessage "early"] ++ .onopen :: ([.onmessage data] ++ [.onclose, .onmessage "late"])) =
        some s := ⟨_, rfl⟩
  have hmessages : ∀ data' ∈ messages [.onmessage data],
      ∃ es, samplePlatform.Carries zeroDraws deployed es data' := fun data' hdata' =>
    ⟨[], by rwa [List.mem_singleton.mp hdata']⟩
  exact ⟨data, s, hrun, (page_keeps_last_report lawful_samplePlatform.serializes hrun (by simp)
    (by simp) (by simp) (by simp) hmessages).2 data [] rfl hdata⟩

end KubemqWorkshop
