import KubemqWorkshop.Encoding
import KubemqWorkshop.Page
import KubemqWorkshop.Relay
import Mathlib.Data.List.Perm.Subperm

/-!
# The whole way of a report

A tick of the generator builds a report; the broker appends it to the queue some
time later, or never; a forwarder polls and submits; the store takes what it
takes; a page that is loaded reads the store from some position on. Every party
moves on its own, so a run is any interleaving, and the queue may be emptied by a
command at any moment.

`Sound` is what holds in every state of every run: what the store holds are
reports of the generator, every tick's at most once. A lawful platform carries
their text unchanged (`Platform.Lawful`), so every page shows a report that was
true once (`page_shows_past`), in full.
-/

namespace KubemqWorkshop

/-- A report, with the history it was built after. -/
structure Report where
  batch : List SenderMessageBody
  after : List Event

/-- The bytes a report is sent as. -/
def Platform.body {ν : Type} (P : Platform ν) (r : Report) : List UInt8 :=
  utf8 (P.serializeObject r.batch)

section

variable {ν : Type} {P : Platform ν} {rnd : ℤ → NextDouble × NextDouble} {settings : Settings}
  {history : List Event} {r : Report}

variable (P rnd settings history r) in
/-- The report is the one a tick of this history built. -/
structure Report.Genuine : Prop where
  /-- the history went on with a tick -/
  ticked : (r.after ++ [Event.tick]).IsPrefix history
  /-- the tick read the table of its moment -/
  batch_eq : r.batch = onRateSend P.toString (P.table rnd settings r.after)

theorem Report.Genuine.later (h : r.Genuine P rnd settings history) (e : Event) :
    r.Genuine P rnd settings (history ++ [e]) :=
  ⟨h.ticked.trans (List.prefix_append _ _), h.batch_eq⟩

/-- A report was built before another one. -/
def Report.Before (r r' : Report) : Prop := (r.after ++ [Event.tick]).IsPrefix r'.after

variable (P rnd settings history) in
/-- Reports of the history, built one after the other. -/
structure InLine (reports : List Report) : Prop where
  genuine : ∀ r ∈ reports, r.Genuine P rnd settings history
  pairwise : reports.Pairwise Report.Before

/-- Losing reports does no harm to the order. -/
theorem InLine.sublist {reports reports' : List Report} (h : InLine P rnd settings history reports)
    (hsublist : reports'.Sublist reports) : InLine P rnd settings history reports' :=
  ⟨fun r hr => h.genuine r (hsublist.subset hr), h.pairwise.sublist hsublist⟩

/-- A report is older than the history. -/
theorem Report.Genuine.length_lt (h : r.Genuine P rnd settings history) :
    r.after.length < history.length := by
  have := h.ticked.length_le
  rw [List.length_append, List.length_singleton] at this
  omega

end

/-- The generator, the queue, a forwarder, the store and a page. -/
structure Pipeline (R : Relay) (ν : Type) where
  generator : Generator
  /-- what reached the generator, oldest first -/
  history : List Event
  /-- the reports on their way to the broker -/
  inFlight : List Report
  /-- the queue's content, oldest first -/
  queue : List Report
  /-- all that was ever appended to the queue -/
  appended : List Report
  forwarder : R.State
  /-- the events of the store channel, oldest first -/
  store : List (List UInt8)
  /-- the event of the store the page gets next -/
  position : ℕ
  page : Dashboard ν
  /-- what happened to the page since it was loaded -/
  visit : List DashboardEvent

/-- What happens to the system. -/
inductive PipelineEvent (R : Relay) where
  /-- something reaches the generator; a tick builds a report -/
  | generator (e : Event)
  /-- the broker appends a report on its way -/
  | sendQueueMessage (i : ℕ)
  /-- a report on its way is lost -/
  | sendFails (i : ℕ)
  /-- a command's acknowledgement empties the queue -/
  | ackAll
  /-- a poll takes messages off the queue, and the store accepts some of what the
  forwarder submits -/
  | poll (p : R.Poll) (taken : ℕ) (accepted : List (List UInt8))
  /-- a browser loads the page, which subscribes from a position of the store on -/
  | load (position : ℕ)
  /-- the socket delivers the next event of the store -/
  | deliver (data : String)
  /-- a row is clicked -/
  | select (e : ℕ)

section

variable {ν : Type} [Zero ν] (P : Platform ν) {R : Relay}

namespace Pipeline

/-- The report a tick builds. -/
def built (s : Pipeline R ν) : Event → List Report
  | .tick => [⟨onRateSend P.toString s.generator.rates, s.history⟩]
  | _ => []

/-- What a poll has submitted. -/
def submitted (s : Pipeline R ν) (forwarder : R.State) : List (List UInt8) :=
  (R.submitted forwarder).drop (R.submitted s.forwarder).length

/-- The page after one event. -/
def browse (s : Pipeline R ν) (e : DashboardEvent) : Option (Pipeline R ν) :=
  (s.page.step P.number e).map fun page => { s with page := page, visit := s.visit ++ [e] }

/-- One event. -/
def step (s : Pipeline R ν) : PipelineEvent R → Option (Pipeline R ν)
  | .generator e =>
    some { s with
      generator := s.generator.step P.deserializeObject e
      history := s.history ++ [e]
      inFlight := s.inFlight ++ s.built P e }
  | .sendQueueMessage i =>
    s.inFlight[i]?.map fun r => { s with
      inFlight := s.inFlight.eraseIdx i
      queue := s.queue ++ [r]
      appended := s.appended ++ [r] }
  | .sendFails i =>
    s.inFlight[i]?.map fun _ => { s with inFlight := s.inFlight.eraseIdx i }
  | .ackAll => some { s with queue := [] }
  | .poll p taken accepted =>
    (R.step s.forwarder p).bind fun forwarder =>
      -- messages may get lost between the broker and the forwarder
      if ((R.received p).map Message.body).Sublist ((s.queue.take taken).map P.body) ∧
          accepted.Subperm (s.submitted forwarder) then
        some { s with
          queue := s.queue.drop taken
          forwarder := forwarder
          store := s.store ++ accepted }
      else none
  | .load position =>
    if position ≤ s.store.length then
      some { s with position := position, page := .init, visit := [] }
    else none
  | .deliver data =>
    s.store[s.position]?.bind fun body =>
      if carried data = some (latin1 body) then
        browse P { s with position := s.position + 1 } (.feed data)
      else none
  | .select e => s.browse P (.select e)

/-- The generator has started and emptied the queue, and a page is open. -/
def init (rnd : ℤ → NextDouble × NextDouble) (settings : Settings) : Pipeline R ν where
  generator := .startUp rnd settings
  history := []
  inFlight := []
  queue := []
  appended := []
  forwarder := R.start
  store := []
  position := 0
  page := .init
  visit := []

end Pipeline

/-- The system as a machine. -/
def pipeline (R : Relay) : Machine (Pipeline R ν) (PipelineEvent R) := ⟨Pipeline.step P⟩

/-! ## What a step can do -/

/-- Some values of a function, each taken once, are its values at some arguments. -/
theorem exists_map_eq_of_subperm {α β : Type} {f : α → β} {as : List α} {bs : List β}
    (h : bs.Subperm (as.map f)) : ∃ as' : List α, as'.Subperm as ∧ as'.map f = bs := by
  obtain ⟨bs', hperm, hsub⟩ := h
  obtain ⟨as', has', rfl⟩ := List.sublist_map_iff.mp hsub
  have hvalues : List.Forall₂ (fun b a => b = f a) (as'.map f) as' :=
    List.forall₂_map_left_iff.mpr (List.forall₂_same.mpr fun _ _ => rfl)
  obtain ⟨as'', hbs, hperm'⟩ := List.perm_comp_forall₂ hperm.symm hvalues
  refine ⟨as'', hperm'.subperm.trans has'.subperm, ?_⟩
  exact (List.forall₂_eq_eq_eq ▸ List.forall₂_map_right_iff.mpr hbs).symm

namespace Pipeline

variable {P} {s s' : Pipeline R ν}

/-- What a poll submits are reports it took off the queue, in their order. -/
theorem poll_cases {p : R.Poll} {taken : ℕ} {accepted : List (List UInt8)}
    (h : s.step P (.poll p taken accepted) = some s') :
    ∃ (forwarder : R.State) (reports : List Report),
      R.step s.forwarder p = some forwarder ∧ s.submitted forwarder = reports.map P.body ∧
      reports.Sublist (s.queue.take taken) ∧ accepted.Subperm (reports.map P.body) ∧
      s' = { s with
        queue := s.queue.drop taken
        forwarder := forwarder
        store := s.store ++ accepted } := by
  obtain ⟨forwarder, hstep, hs⟩ := Option.bind_eq_some_iff.mp h
  obtain ⟨⟨hreceived, haccepted⟩, hs⟩ := Option.ite_none_right_eq_some.mp hs
  obtain ⟨new, hnew, heq⟩ := R.submitted_step hstep
  have hsubmitted : s.submitted forwarder = new := by
    rw [submitted, heq, List.drop_left]
  obtain ⟨reports, hreports, hbodies⟩ := List.sublist_map_iff.mp (hnew.trans hreceived)
  rw [hsubmitted, hbodies] at haccepted
  exact ⟨forwarder, reports, hstep, hsubmitted.trans hbodies, hreports, haccepted,
    (Option.some.inj hs).symm⟩

/-- A delivery moves the page on by the event it waits for. -/
theorem deliver_cases {data : String} (h : s.step P (.deliver data) = some s') :
    ∃ body page, s.store[s.position]? = some body ∧ carried data = some (latin1 body) ∧
      s.page.step P.number (.feed data) = some page ∧
      s' = { s with
        position := s.position + 1
        page := page
        visit := s.visit ++ [.feed data] } := by
  obtain ⟨body, hbody, hs⟩ := Option.bind_eq_some_iff.mp h
  obtain ⟨hdata, hs⟩ := Option.ite_none_right_eq_some.mp hs
  obtain ⟨page, hpage, rfl⟩ := Option.map_eq_some_iff.mp hs
  exact ⟨body, page, hbody, hdata, hpage, rfl⟩

end Pipeline

/-! ## What holds in every run -/

theorem Generator.run_concat (deserializeObject : List UInt8 → Except Exn (Option RateRequest))
    (g : Generator) (es : List Event) (e : Event) :
    g.run deserializeObject (es ++ [e]) =
      (g.run deserializeObject es).step deserializeObject e := List.foldl_append

variable {P} {rnd : ℤ → NextDouble × NextDouble} {settings : Settings}

variable (P rnd settings) in
/-- Every party agrees with the generator's history. -/
structure Pipeline.Sound (s : Pipeline R ν) : Prop where
  /-- the generator is the one of the history -/
  generator_eq : s.generator = (Generator.startUp rnd settings).run P.deserializeObject s.history
  /-- every report was built by a tick -/
  genuine : ∀ r ∈ s.appended ++ s.inFlight, r.Genuine P rnd settings s.history
  /-- no tick's report is there twice -/
  once : ((s.appended ++ s.inFlight).map fun r => r.after.length).Nodup
  /-- what is stored was appended to the queue, and has left it -/
  stored : ∃ reports : List Report,
    (reports ++ s.queue).Subperm s.appended ∧ s.store = reports.map P.body
  /-- the page is what its visit made of it -/
  page_eq : (dashboard P.number).run .init s.visit = some s.page
  /-- the visit got a stretch of the store, event by event -/
  watched : ∃ before heard after, s.store = before ++ heard ++ after ∧
    s.position = (before ++ heard).length ∧
    (feeds s.visit).map carried = heard.map fun body => some (latin1 body)

namespace Pipeline.Sound

variable {s s' : Pipeline R ν}

theorem init : (Pipeline.init rnd settings : Pipeline R ν).Sound P rnd settings where
  generator_eq := rfl
  genuine := fun _ hr => absurd hr List.not_mem_nil
  once := List.nodup_nil
  stored := ⟨[], List.nil_subperm, rfl⟩
  page_eq := rfl
  watched := ⟨[], [], [], rfl, rfl, rfl⟩

/-- The report of a tick is genuine, and built after all there was. -/
theorem genuine_built (h : s.Sound P rnd settings) {e : Event} {r : Report}
    (hr : r ∈ s.built P e) :
    r.Genuine P rnd settings (s.history ++ [e]) ∧ r.after = s.history := by
  cases e with
  | tick =>
    obtain rfl := List.mem_singleton.mp hr
    refine ⟨⟨List.prefix_refl _, ?_⟩, rfl⟩
    rw [h.generator_eq]
    rfl
  | command request ack utcNow => cases hr
  | rateChange name buyDraws sellDraws => cases hr

/-- A tick builds a report that no older tick has built. -/
theorem generator (h : s.Sound P rnd settings) {e : Event}
    (hs : s.step P (.generator e) = some s') : s'.Sound P rnd settings := by
  obtain rfl := Option.some.inj hs
  refine ⟨?_, ?_, ?_, h.stored, h.page_eq, h.watched⟩
  · change s.generator.step P.deserializeObject e = _
    rw [Generator.run_concat, ← h.generator_eq]
  · intro r hr
    rw [← List.append_assoc] at hr
    rcases List.mem_append.mp hr with hr | hr
    · exact (h.genuine r hr).later e
    · exact (h.genuine_built hr).1
  · rw [← List.append_assoc, List.map_append, List.nodup_append']
    refine ⟨h.once, ?_, ?_⟩
    · cases e <;> simp [Pipeline.built]
    · intro n hold hnew
      obtain ⟨r, hr, rfl⟩ := List.mem_map.mp hold
      obtain ⟨r', hr', heq⟩ := List.mem_map.mp hnew
      rw [(h.genuine_built hr').2] at heq
      exact absurd heq.symm (Nat.ne_of_lt (h.genuine r hr).length_lt)

/-- What the broker appends changes its place only. -/
theorem sendQueueMessage (h : s.Sound P rnd settings) {i : ℕ}
    (hs : s.step P (.sendQueueMessage i) = some s') : s'.Sound P rnd settings := by
  obtain ⟨r, hr, rfl⟩ := Option.map_eq_some_iff.mp hs
  have hperm : (s.appended ++ [r] ++ s.inFlight.eraseIdx i).Perm (s.appended ++ s.inFlight) := by
    obtain ⟨hi, rfl⟩ := List.getElem?_eq_some_iff.mp hr
    rw [List.append_assoc]
    exact (List.getElem_cons_eraseIdx_perm hi).append_left _
  refine ⟨h.generator_eq, fun r hr => h.genuine r (hperm.mem_iff.mp hr), ?_, ?_, h.page_eq,
    h.watched⟩
  · exact (hperm.map _).nodup_iff.mpr h.once
  · obtain ⟨reports, hreports, hstore⟩ := h.stored
    refine ⟨reports, ?_, hstore⟩
    rw [← List.append_assoc]
    exact hreports.append (List.Subperm.refl _)

theorem sendFails (h : s.Sound P rnd settings) {i : ℕ}
    (hs : s.step P (.sendFails i) = some s') : s'.Sound P rnd settings := by
  obtain ⟨r, hr, rfl⟩ := Option.map_eq_some_iff.mp hs
  have hsublist : (s.appended ++ s.inFlight.eraseIdx i).Sublist (s.appended ++ s.inFlight) :=
    (List.eraseIdx_sublist s.inFlight i).append_left s.appended
  exact ⟨h.generator_eq, fun r hr => h.genuine r (hsublist.subset hr),
    h.once.sublist (hsublist.map _), h.stored, h.page_eq, h.watched⟩

theorem ackAll (h : s.Sound P rnd settings) (hs : s.step P .ackAll = some s') :
    s'.Sound P rnd settings := by
  obtain rfl := Option.some.inj hs
  obtain ⟨reports, hreports, hstore⟩ := h.stored
  refine ⟨h.generator_eq, h.genuine, h.once, ⟨reports, ?_, hstore⟩, h.page_eq, h.watched⟩
  exact ((List.nil_sublist s.queue).append_left reports).subperm.trans hreports

/-- What a poll takes off the queue it stores at most once. -/
theorem poll (h : s.Sound P rnd settings) {p : R.Poll} {taken : ℕ}
    {accepted : List (List UInt8)} (hs : s.step P (.poll p taken accepted) = some s') :
    s'.Sound P rnd settings := by
  obtain ⟨forwarder, new, -, -, hnew, haccepted, rfl⟩ := Pipeline.poll_cases hs
  obtain ⟨reports', hreports', rfl⟩ := exists_map_eq_of_subperm haccepted
  obtain ⟨reports, hreports, hstore⟩ := h.stored
  refine ⟨h.generator_eq, h.genuine, h.once, ⟨reports ++ reports', ?_, ?_⟩, h.page_eq, ?_⟩
  · refine List.Subperm.trans ?_ hreports
    have htaken := (hreports'.trans hnew.subperm).append (List.Subperm.refl (s.queue.drop taken))
    rw [List.take_append_drop] at htaken
    rw [List.append_assoc]
    exact (List.Subperm.refl reports).append htaken
  · rw [List.map_append, hstore]
  · obtain ⟨before, heard, after, hsplit, hposition, hfeeds⟩ := h.watched
    refine ⟨before, heard, after ++ reports'.map P.body, ?_, hposition, hfeeds⟩
    rw [hsplit, List.append_assoc _ after]

theorem load (h : s.Sound P rnd settings) {position : ℕ}
    (hs : s.step P (.load position) = some s') : s'.Sound P rnd settings := by
  obtain ⟨hposition, hs⟩ := Option.ite_none_right_eq_some.mp hs
  obtain rfl := Option.some.inj hs
  refine ⟨h.generator_eq, h.genuine, h.once, h.stored, rfl,
    s.store.take position, [], s.store.drop position, ?_, ?_, rfl⟩
  · rw [List.append_nil, List.take_append_drop]
  · rw [List.append_nil, List.length_take, Nat.min_eq_left hposition]

theorem deliver (h : s.Sound P rnd settings) {data : String}
    (hs : s.step P (.deliver data) = some s') : s'.Sound P rnd settings := by
  obtain ⟨body, page, hbody, hdata, hpage, rfl⟩ := Pipeline.deliver_cases hs
  obtain ⟨before, heard, after, hsplit, hposition, hfeeds⟩ := h.watched
  refine ⟨h.generator_eq, h.genuine, h.once, h.stored, ?_, before, heard ++ [body],
    after.drop 1, ?_, ?_, ?_⟩
  · exact (dashboard P.number).run_concat_eq_some.mpr ⟨s.page, h.page_eq, hpage⟩
  · rw [hsplit, hposition, List.getElem?_append_right (Nat.le_refl _), Nat.sub_self] at hbody
    obtain ⟨rest, rfl⟩ : ∃ rest, after = body :: rest := by
      cases after with
      | nil => cases hbody
      | cons first rest =>
        obtain rfl := Option.some.inj hbody
        exact ⟨rest, rfl⟩
    simp [hsplit]
  · simp only [hposition, List.length_append, List.length_singleton, Nat.add_assoc]
  · rw [feeds_concat, List.map_append, hfeeds, List.map_append]
    exact congrArg _ (congrArg (fun c => [c]) hdata)

theorem select (h : s.Sound P rnd settings) {e : ℕ} (hs : s.step P (.select e) = some s') :
    s'.Sound P rnd settings := by
  obtain ⟨page, hpage, rfl⟩ := Option.map_eq_some_iff.mp hs
  refine ⟨h.generator_eq, h.genuine, h.once, h.stored, ?_, ?_⟩
  · exact (dashboard P.number).run_concat_eq_some.mpr ⟨s.page, h.page_eq, hpage⟩
  · rw [feeds_concat, feeds_select, List.append_nil]
    exact h.watched

/-- Every event keeps the parties in agreement. -/
theorem step (h : s.Sound P rnd settings) {e : PipelineEvent R} (hs : s.step P e = some s') :
    s'.Sound P rnd settings := by
  cases e with
  | generator e => exact h.generator hs
  | sendQueueMessage i => exact h.sendQueueMessage hs
  | sendFails i => exact h.sendFails hs
  | ackAll => exact h.ackAll hs
  | poll p taken accepted => exact h.poll hs
  | load position => exact h.load hs
  | deliver data => exact h.deliver hs
  | select e => exact h.select hs

end Pipeline.Sound

/-- The parties agree in every state of every run. -/
theorem sound_of_run {events : List (PipelineEvent R)} {s : Pipeline R ν}
    (h : (pipeline P R).run (.init rnd settings) events = some s) : s.Sound P rnd settings :=
  (pipeline P R).run_preserves (fun _ _ _ hI hs => hI.step hs) Pipeline.Sound.init h

/-! ## Runs that keep the order -/

/-- The event keeps the order: the broker appends reports in the order they were
built in, and the store takes them in the order they are submitted in. -/
def InOrder (s : Pipeline R ν) : PipelineEvent R → Prop
  | .sendQueueMessage i => i = 0
  | .poll p _ accepted =>
    ∀ forwarder, R.step s.forwarder p = some forwarder → accepted.Sublist (s.submitted forwarder)
  | _ => True

variable (P rnd settings) in
/-- The stored reports are older than the queued ones, these older than those on
their way, and all were built one after the other. -/
def Pipeline.Ordered (s : Pipeline R ν) : Prop :=
  ∃ reports : List Report, s.store = reports.map P.body ∧
    InLine P rnd settings s.history (reports ++ s.queue ++ s.inFlight)

namespace Pipeline.Ordered

variable {s s' : Pipeline R ν}

theorem init : (Pipeline.init rnd settings : Pipeline R ν).Ordered P rnd settings :=
  ⟨[], rfl, fun _ hr => absurd hr List.not_mem_nil, List.Pairwise.nil⟩

theorem generator (h : s.Ordered P rnd settings) (hsound : s.Sound P rnd settings) {e : Event}
    (hs : s.step P (.generator e) = some s') : s'.Ordered P rnd settings := by
  obtain rfl := Option.some.inj hs
  obtain ⟨reports, hstore, hline⟩ := h
  refine ⟨reports, hstore, ?_, ?_⟩
  · intro r hr
    rw [← List.append_assoc] at hr
    rcases List.mem_append.mp hr with hr | hr
    · exact (hline.genuine r hr).later e
    · exact (hsound.genuine_built hr).1
  · rw [← List.append_assoc, List.pairwise_append]
    refine ⟨hline.pairwise, ?_, fun r hr r' hr' => ?_⟩
    · cases e <;> simp [Pipeline.built]
    · rw [Report.Before, (hsound.genuine_built hr').2]
      exact (hline.genuine r hr).ticked

/-- The oldest report on its way becomes the youngest in the queue. -/
theorem sendQueueMessage (h : s.Ordered P rnd settings)
    (hs : s.step P (.sendQueueMessage 0) = some s') : s'.Ordered P rnd settings := by
  obtain ⟨r, hr, rfl⟩ := Option.map_eq_some_iff.mp hs
  obtain ⟨reports, hstore, hline⟩ := h
  refine ⟨reports, hstore, ?_⟩
  rcases hflight : s.inFlight with - | ⟨first, rest⟩
  · rw [hflight] at hr
    cases hr
  · rw [hflight] at hr hline
    obtain rfl := Option.some.inj hr
    have hmoved :
        reports ++ (s.queue ++ [first]) ++ rest = reports ++ s.queue ++ first :: rest := by
      simp
    exact hmoved ▸ hline

theorem poll (h : s.Ordered P rnd settings) {p : R.Poll} {taken : ℕ}
    {accepted : List (List UInt8)} (horder : InOrder s (.poll p taken accepted))
    (hs : s.step P (.poll p taken accepted) = some s') : s'.Ordered P rnd settings := by
  obtain ⟨forwarder, new, hstep, hsubmitted, hnew, -, rfl⟩ := Pipeline.poll_cases hs
  have haccepted := horder forwarder hstep
  rw [hsubmitted] at haccepted
  obtain ⟨stored, hstored, rfl⟩ := List.sublist_map_iff.mp haccepted
  obtain ⟨reports, hstore, hline⟩ := h
  refine ⟨reports ++ stored, by rw [List.map_append, ← hstore], hline.sublist ?_⟩
  have hqueue := (hstored.trans hnew).append (List.Sublist.refl (s.queue.drop taken))
  rw [List.take_append_drop] at hqueue
  rw [List.append_assoc reports]
  exact ((List.Sublist.refl reports).append hqueue).append_right s.inFlight

/-- An event that keeps the order keeps the parties in order. -/
theorem step (h : s.Ordered P rnd settings) (hsound : s.Sound P rnd settings)
    {e : PipelineEvent R} (horder : InOrder s e) (hs : s.step P e = some s') :
    s'.Ordered P rnd settings := by
  cases e with
  | generator e => exact h.generator hsound hs
  | sendQueueMessage i =>
    obtain rfl : i = 0 := horder
    exact h.sendQueueMessage hs
  | sendFails i =>
    obtain ⟨r, -, rfl⟩ := Option.map_eq_some_iff.mp hs
    obtain ⟨reports, hstore, hline⟩ := h
    exact ⟨reports, hstore, hline.sublist ((List.eraseIdx_sublist s.inFlight i).append_left _)⟩
  | ackAll =>
    obtain rfl := Option.some.inj hs
    obtain ⟨reports, hstore, hline⟩ := h
    exact ⟨reports, hstore, hline.sublist
      (((List.nil_sublist s.queue).append_left reports).append_right s.inFlight)⟩
  | poll p taken accepted => exact h.poll horder hs
  | load position =>
    obtain ⟨-, hs⟩ := Option.ite_none_right_eq_some.mp hs
    obtain rfl := Option.some.inj hs
    exact h
  | deliver data =>
    obtain ⟨body, page, -, -, -, rfl⟩ := Pipeline.deliver_cases hs
    exact h
  | select e =>
    obtain ⟨page, -, rfl⟩ := Option.map_eq_some_iff.mp hs
    exact h

end Pipeline.Ordered

/-- A run that keeps the order at every step keeps the parties in order. -/
theorem ordered_of_run {events : List (PipelineEvent R)} {s : Pipeline R ν}
    (horder : (pipeline P R).Meets InOrder (.init rnd settings) events)
    (h : (pipeline P R).run (.init rnd settings) events = some s) :
    s.Sound P rnd settings ∧ s.Ordered P rnd settings :=
  (pipeline P R).run_invariant (I := fun s => s.Sound P rnd settings ∧ s.Ordered P rnd settings)
    (fun _ _ _ hI hC hs => ⟨hI.1.step hs, hI.2.step hI.1 hC hs⟩)
    ⟨Pipeline.Sound.init, Pipeline.Ordered.init⟩ horder h

/-! ## As long as the forwarder runs -/

/-- An event of the feed with these bytes as its body. -/
def feedOf (body : List UInt8) : String := eventOf (base64 body)

theorem carried_feedOf (body : List UInt8) : carried (feedOf body) = some (latin1 body) :=
  carries_iff.mp ⟨.obj [("Body", .str (base64 body))], base64 body, Json.parse_stringify _, rfl,
    atob_base64 body⟩

/-- A page that listens takes any message. -/
theorem exists_step_feed (number : Option Json → ν) {d : Dashboard ν} (hsub : d.subscribed = true)
    (data : String) : ∃ d', d.step number (.feed data) = some d' := by
  rw [Dashboard.step]
  exact ⟨_, if_pos hsub⟩

namespace Pipeline

variable {s s' : Pipeline R ν}

variable (P) in
/-- A forwarder that runs can bring the whole queue into the store. -/
theorem exists_poll (s : Pipeline R ν) (hrunning : R.running s.forwarder = true) :
    ∃ p forwarder, InOrder s (.poll p s.queue.length (s.queue.map P.body)) ∧
      (pipeline P R).step s (.poll p s.queue.length (s.queue.map P.body)) = some { s with
        queue := []
        forwarder := forwarder
        store := s.store ++ s.queue.map P.body } := by
  obtain ⟨p, forwarder, hstep, hreceived, hsubmitted, -⟩ :=
    R.carries hrunning (s.queue.map fun r => ⟨"", P.body r⟩)
  have hbodies : (R.received p).map Message.body = s.queue.map P.body := by
    rw [hreceived, List.map_map]
    rfl
  have hnew : s.submitted forwarder = s.queue.map P.body := by
    rw [submitted, hsubmitted, List.drop_left, List.map_map]
    rfl
  refine ⟨p, forwarder, ?_, Option.bind_eq_some_iff.mpr ⟨forwarder, hstep, ?_⟩⟩
  · intro forwarder' hstep'
    obtain rfl := Option.some.inj (hstep.symm.trans hstep')
    rw [hnew]
  · rw [if_pos, List.drop_length]
    rw [List.take_length, hbodies, hnew]
    exact ⟨List.Sublist.refl _, List.Subperm.refl _⟩

variable (P) in
/-- A page can be loaded that gets the last event of the store. -/
theorem exists_visit (s : Pipeline R ν) {store : List (List UInt8)} {body : List UInt8}
    (hstore : s.store = store ++ [body]) :
    ∃ page, Dashboard.init.step P.number (.feed (feedOf body)) = some page ∧
      (pipeline P R).run s [.load store.length, .deliver (feedOf body)] = some { s with
        position := store.length + 1
        page := page
        visit := [.feed (feedOf body)] } ∧
      (pipeline P R).Meets InOrder s [.load store.length, .deliver (feedOf body)] := by
  have hload : (pipeline P R).step s (.load store.length) =
      some { s with position := store.length, page := .init, visit := [] } :=
    if_pos (by rw [hstore, List.length_append]; omega)
  have hbody : s.store[store.length]? = some body := by
    rw [hstore, List.getElem?_concat_length]
  obtain ⟨page, hpage⟩ := exists_step_feed P.number (rfl : Dashboard.init.subscribed = true)
    (feedOf body)
  have hdeliver : (pipeline P R).step { s with
        position := store.length
        page := .init
        visit := [] } (.deliver (feedOf body)) = some { s with
        position := store.length + 1
        page := page
        visit := [.feed (feedOf body)] } := by
    refine Option.bind_eq_some_iff.mpr ⟨body, hbody, ?_⟩
    rw [if_pos (carried_feedOf body), browse, hpage]
    rfl
  exact ⟨page, hpage, (pipeline P R).run_meets_cons hload trivial
    ((pipeline P R).run_meets_cons hdeliver trivial ⟨rfl, trivial⟩)⟩

variable (P) in
/-- **As long as the forwarder runs** the next tick can reach a page, in order if
no report is on its way. -/
theorem exists_catch_up (s : Pipeline R ν) (hrunning : R.running s.forwarder = true) :
    ∃ events s', (pipeline P R).run s events = some s' ∧
      (s.inFlight = [] → (pipeline P R).Meets InOrder s events) ∧
      s'.generator = s.generator ∧ s'.history = s.history ++ [.tick] ∧
      s.store.length < s'.store.length ∧
      ∃ data, carried data = some (latin1 (utf8 (P.serializeObject
          (onRateSend P.toString s.generator.rates)))) ∧
        s'.visit = [.feed data] ∧ Dashboard.init.step P.number (.feed data) = some s'.page := by
  let r : Report := ⟨onRateSend P.toString s.generator.rates, s.history⟩
  let s₁ : Pipeline R ν := { s with
    history := s.history ++ [.tick]
    inFlight := s.inFlight ++ [r] }
  let s₂ : Pipeline R ν := { s₁ with
    inFlight := s₁.inFlight.eraseIdx s.inFlight.length
    queue := s.queue ++ [r]
    appended := s.appended ++ [r] }
  have htick : (pipeline P R).step s (.generator .tick) = some s₁ := rfl
  have hsend : (pipeline P R).step s₁ (.sendQueueMessage s.inFlight.length) = some s₂ :=
    Option.map_eq_some_iff.mpr ⟨r, List.getElem?_concat_length .., rfl⟩
  obtain ⟨p, forwarder, horder, hpoll⟩ := exists_poll P s₂ hrunning
  let s₃ : Pipeline R ν := { s₂ with
    queue := []
    forwarder := forwarder
    store := s.store ++ s₂.queue.map P.body }
  have hstore : s₃.store = s.store ++ s.queue.map P.body ++ [P.body r] := by
    change s.store ++ (s.queue ++ [r]).map P.body = _
    rw [List.map_append, List.append_assoc]
    rfl
  obtain ⟨page, hpage, hrun, hmeets⟩ := exists_visit P s₃ hstore
  have hall := fun C h₁ h₂ h₃ h₄ => (pipeline P R).run_meets_cons (C := C) htick h₁
    ((pipeline P R).run_meets_cons hsend h₂ ((pipeline P R).run_meets_cons hpoll h₃ ⟨hrun, h₄⟩))
  refine ⟨_, _, (hall (fun _ _ => True) trivial trivial trivial
    ((pipeline P R).meets_of_forall (fun _ _ => trivial) _ _)).1,
    fun hnone => (hall InOrder trivial ?_ horder hmeets).2, rfl, rfl, ?_, feedOf (P.body r),
    carried_feedOf _, rfl, hpage⟩
  · rw [InOrder, hnone, List.length_nil]
  · rw [hstore, List.length_append, List.length_append, List.length_singleton]
    omega

end Pipeline

end

end KubemqWorkshop
