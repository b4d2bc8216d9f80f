import AgenticSoc.ReplayLifecycle

/-!
# How a replay ends

What the controller does to one replay is a walk of a small automaton over its state, the
ending events published for it, and the place of its worker. The state becomes completed
before the snapshots and the completion event, so an exception after it fails the replay
again; nothing else changes an end.
-/
namespace ReplayEndings

open EventPublishing (ReplayEventType)
open ReplayLifecycle
open Function (update)

/-! ## The course of one replay -/

/-- The state of a replay, the ending events published for it, and where its worker is. -/
structure Course where
  state : ReplayState
  endings : List ReplayEventType
  place : Option WorkerAt
  deriving DecidableEq, Repr

/-- A worker goes on without a change of its replay. -/
inductive Passes : WorkerAt → WorkerAt → Prop where
  | begins (place : WorkerAt) (h : place = .building ∨ place = .failing true) : Passes .start place
  | builds (place : WorkerAt) (h : place = .built ∨ place = .failing false) : Passes .building place
  | attaches (place : WorkerAt) (h : place = .ready ∨ place = .failing true) : Passes .built place
  | stops (cancelled : Bool) : Passes .running (.failing cancelled)
  | returns : Passes .running .returned
  | emits : Passes .finalizing .announcing
  | closes : Passes .closing .ended

/-- A turn of a replay, and whether it is an exception behind its completion. -/
inductive Turn : Bool → Course → Course → Prop where
  | same (c : Course) : Turn false c c
  | starts (endings : List ReplayEventType) (place : Option WorkerAt) (h : place = none ∨ place = some .ended) :
      Turn false ⟨.created, endings, place⟩ ⟨.created, endings, some .start⟩
  | resumes (endings : List ReplayEventType) (place : Option WorkerAt) :
      Turn false ⟨.paused, endings, place⟩ ⟨.running, endings, place⟩
  | pauses (endings : List ReplayEventType) (place : Option WorkerAt) :
      Turn false ⟨.running, endings, place⟩ ⟨.paused, endings, place⟩
  | passes (state : ReplayState) (endings : List ReplayEventType) {place place' : WorkerAt} (h : Passes place place') :
      Turn false ⟨state, endings, some place⟩ ⟨state, endings, some place'⟩
  | readies (state : ReplayState) (endings : List ReplayEventType) :
      Turn false ⟨state, endings, some .ready⟩ ⟨if state = .created then .running else state, endings, some .running⟩
  | completes (state : ReplayState) (endings : List ReplayEventType) :
      Turn false ⟨state, endings, some .returned⟩ ⟨.completed, endings, some .finalizing⟩
  | announces (state : ReplayState) (endings : List ReplayEventType) :
      Turn false ⟨state, endings, some .announcing⟩ ⟨state, endings ++ [.replayCompleted], some .closing⟩
  | late (state : ReplayState) (endings more : List ReplayEventType) {place : WorkerAt}
      (h : place = .finalizing ∨ place = .announcing) :
      Turn true ⟨state, endings, some place⟩ ⟨state, endings ++ more, some (.failing false)⟩
  | fails (state : ReplayState) (endings : List ReplayEventType) (cancelled : Bool) :
      Turn false ⟨state, endings, some (.failing cancelled)⟩
        ⟨.failed, endings, some (if cancelled then .closing else .reporting)⟩
  | reports (state : ReplayState) (endings : List ReplayEventType) (more : List ReplayEventType)
      (h : more = [] ∨ more = [.replayFailed]) :
      Turn false ⟨state, endings, some .reporting⟩ ⟨state, endings ++ more, some .closing⟩

/-- The course fits the place of the worker, if no exception came late. -/
def Fits (c : Course) : Prop :=
  match c.place with
  | none | some .start | some .building | some .built | some .ready => c.state = .created ∧ c.endings = []
  | some .running | some .returned => (c.state = .running ∨ c.state = .paused) ∧ c.endings = []
  | some .finalizing | some .announcing => c.state = .completed ∧ c.endings = []
  | some (.failing _) => c.state.terminal = false ∧ c.endings = []
  | some .reporting => c.state = .failed ∧ c.endings = []
  | some .closing | some .ended =>
    (c.state = .completed ∧ c.endings = [.replayCompleted]) ∨
      (c.state = .failed ∧ (c.endings = [] ∨ c.endings = [.replayFailed]))

/-- The replay has completed and its worker is about to fail it. -/
def Doomed (c : Course) : Prop := c.state = .completed ∧ c.place = some (.failing false)

/-- At most one ending event has been published, and it is that of the final state. -/
def Matching (c : Course) : Prop :=
  c.endings = [] ∨ (c.endings = [.replayCompleted] ∧ c.state = .completed) ∨
    (c.endings = [.replayFailed] ∧ c.state = .failed)

def KeepsEnd (c c' : Course) : Prop := c.state.terminal = true → c'.state = c.state

section Turns

variable {c c' : Course}

theorem fits_matching (h : Fits c) : Matching c := by
  obtain ⟨state, endings, place⟩ := c
  unfold Fits at h
  unfold Matching
  split at h
  all_goals first
    | exact .inl h.2
    | rcases h with ⟨hstate, hendings⟩ | ⟨hstate, hendings | hendings⟩
      · exact .inr (.inl ⟨hendings, hstate⟩)
      · exact .inl hendings
      · exact .inr (.inr ⟨hendings, hstate⟩)

/-- An exception may leave no event behind. -/
theorem turn_late_silent {state : ReplayState} {endings : List ReplayEventType} {place : WorkerAt}
    (h : place = .finalizing ∨ place = .announcing) :
    Turn true ⟨state, endings, some place⟩ ⟨state, endings, some (.failing false)⟩ := by
  simpa only [List.append_nil] using Turn.late state endings [] h

theorem turn_reports_silent {state : ReplayState} {endings : List ReplayEventType} :
    Turn false ⟨state, endings, some .reporting⟩ ⟨state, endings, some .closing⟩ := by
  simpa only [List.append_nil] using Turn.reports state endings [] (.inl rfl)

/-- A turn that is no late exception keeps an end and what fits. -/
theorem turn_fits (h : Fits c) (hturn : Turn false c c') : KeepsEnd c c' ∧ Fits c' := by
  unfold KeepsEnd
  cases hturn with
  | same => exact ⟨fun _ => rfl, h⟩
  | starts endings place hplace =>
    refine ⟨fun _ => rfl, ?_⟩
    rcases hplace with rfl | rfl
    · exact h
    · simp [Fits] at h
  | resumes endings place =>
    refine ⟨fun hterminal => Bool.noConfusion hterminal, ?_⟩
    unfold Fits at h ⊢
    grind [ReplayState.terminal]
  | pauses endings place =>
    refine ⟨fun hterminal => Bool.noConfusion hterminal, ?_⟩
    unfold Fits at h ⊢
    grind [ReplayState.terminal]
  | passes state endings hpasses =>
    refine ⟨fun _ => rfl, ?_⟩
    cases hpasses with
    | begins place hplace => rcases hplace with rfl | rfl <;> simp_all [Fits, ReplayState.terminal]
    | builds place hplace => rcases hplace with rfl | rfl <;> simp_all [Fits, ReplayState.terminal]
    | attaches place hplace => rcases hplace with rfl | rfl <;> simp_all [Fits, ReplayState.terminal]
    | stops cancelled =>
      obtain ⟨hstate | hstate, hendings⟩ := h
      · exact ⟨by rw [show state = .running from hstate]; rfl, hendings⟩
      · exact ⟨by rw [show state = .paused from hstate]; rfl, hendings⟩
    | returns => exact h
    | emits => exact h
    | closes => exact h
  | readies state endings =>
    obtain ⟨hstate, hendings⟩ := h
    obtain rfl : state = .created := hstate
    exact ⟨fun hterminal => Bool.noConfusion hterminal, .inl rfl, hendings⟩
  | completes state endings =>
    obtain ⟨hstate | hstate, hendings⟩ := h
    · obtain rfl : state = .running := hstate
      exact ⟨fun hterminal => Bool.noConfusion hterminal, rfl, hendings⟩
    · obtain rfl : state = .paused := hstate
      exact ⟨fun hterminal => Bool.noConfusion hterminal, rfl, hendings⟩
  | announces state endings =>
    obtain ⟨hstate, hendings⟩ := h
    obtain rfl : endings = [] := hendings
    exact ⟨fun _ => rfl, .inl ⟨hstate, rfl⟩⟩
  | fails state endings cancelled =>
    obtain ⟨hstate, hendings⟩ := h
    refine ⟨fun hterminal => ?_, ?_⟩
    · rw [show state.terminal = false from hstate] at hterminal
      cases hterminal
    · cases cancelled with
      | true => exact .inr ⟨rfl, .inl hendings⟩
      | false => exact ⟨rfl, hendings⟩
  | reports state endings more hmore =>
    obtain ⟨hstate, hendings⟩ := h
    obtain rfl : endings = [] := hendings
    exact ⟨fun _ => rfl, .inr ⟨hstate, hmore⟩⟩

/-- A late exception dooms a replay that fits. -/
theorem turn_late (h : Fits c) (hturn : Turn true c c') : Doomed c' := by
  cases hturn with
  | late state endings more hplace => rcases hplace with rfl | rfl <;> exact ⟨h.1, rfl⟩

/-- A doomed replay waits for its worker, which changes the end. -/
theorem turn_doomed {late : Bool} (h : Doomed c) (hturn : Turn late c c') : Doomed c' ∨ ¬ KeepsEnd c c' := by
  obtain ⟨hstate, hplace⟩ := h
  cases hturn with
  | same => exact .inl ⟨hstate, hplace⟩
  | starts => cases hstate
  | resumes => cases hstate
  | pauses => cases hstate
  | passes state endings hpasses => cases hpasses <;> cases hplace
  | readies => cases hplace
  | completes => cases hplace
  | announces => cases hplace
  | late state endings more hor => rcases hor with rfl | rfl <;> cases hplace
  | fails state endings cancelled =>
    obtain rfl : state = .completed := hstate
    exact .inr fun hkeeps => ReplayState.noConfusion (hkeeps rfl)
  | reports => cases hplace

end Turns

/-! ## The controller walks it -/

def endingOf (r : Nat) : Entry → Option ReplayEventType
  | .registered _ => none
  | .published r' event => if r' = r ∧ (event = .replayCompleted ∨ event = .replayFailed) then some event else none

def courseOf (s : State) (r : Nat) : Course where
  state := (s.runs r).state
  endings := s.log.filterMap (endingOf r)
  place := (s.runs r).thread.map fun w => (s.workers w).place

/-- An exception after the runner of the replay has returned, before its completion is published. -/
def Late (s : State) (r : Nat) : Move → Prop
  | .worker w (.raises _) => (s.workers w).run = r ∧ ((s.workers w).place = .finalizing ∨ (s.workers w).place = .announcing)
  | _ => False

section Walks

variable {s s' : State} {r r' w c : Nat} {event : ReplayEventType} {place : WorkerAt} {run : Run}

theorem courseOf_setRun (hthread : run.thread = (s.runs r).thread) :
    courseOf (s.setRun r run) r = { courseOf s r with state := run.state } := by
  unfold courseOf
  rw [show (s.setRun r run).runs r = run from Function.update_self .., hthread]
  rfl

theorem courseOf_setRun_other (hr : r' ≠ r) : courseOf (s.setRun r run) r' = courseOf s r' := by
  unfold courseOf
  rw [show (s.setRun r run).runs r' = s.runs r' from Function.update_of_ne hr ..]
  rfl

theorem courseOf_setWorker (hthread : (s.runs r).thread = some w) :
    courseOf (s.setWorker w place) r = { courseOf s r with place := some place } := by
  unfold courseOf
  rw [show (s.setWorker w place).runs r = s.runs r from rfl, hthread]
  simp [State.setWorker]

theorem courseOf_setWorker_other (hthread : (s.runs r).thread ≠ some w) :
    courseOf (s.setWorker w place) r = courseOf s r := by
  unfold courseOf
  rw [show (s.setWorker w place).runs r = s.runs r from rfl]
  cases h : (s.runs r).thread with
  | none => rfl
  | some w' =>
    have hw : w' ≠ w := fun hw => hthread (h.trans (congrArg some hw))
    simp [State.setWorker, Function.update_of_ne hw]

theorem courseOf_publish :
    courseOf (s.publish r' event) r = { courseOf s r with
      endings := (courseOf s r).endings ++ (endingOf r (.published r' event)).toList } := by
  unfold courseOf
  rw [show (s.publish r' event).log = s.log ++ [.published r' event] from rfl, List.filterMap_append]
  cases h : endingOf r (.published r' event) <;> simp [h, State.publish]

theorem courseOf_publish_other (h : r' ≠ r ∨ (event ≠ .replayCompleted ∧ event ≠ .replayFailed)) :
    courseOf (s.publish r' event) r = courseOf s r := by
  have hnone : endingOf r (.published r' event) = none := by
    refine if_neg ?_
    rintro ⟨hr, hcompleted | hfailed⟩
    · exact h.elim (fun hne => hne hr) fun hne => hne.1 hcompleted
    · exact h.elim (fun hne => hne hr) fun hne => hne.2 hfailed
  rw [courseOf_publish, hnone]
  simp

theorem courseOf_published_other {o : Outcome} (h : r' ≠ r ∨ (event ≠ .replayCompleted ∧ event ≠ .replayFailed)) :
    courseOf (published s r' event o) r = courseOf s r := by
  cases o with
  | returns => exact courseOf_publish_other h
  | raises delivered =>
    cases delivered with
    | false => rfl
    | true => exact courseOf_publish_other h

theorem control_not_ending : ∀ event ∈ controlEvents, event ≠ .replayCompleted ∧ event ≠ .replayFailed := by decide

theorem sink_not_ending : ∀ event ∈ sinkEvents, event ≠ .replayCompleted ∧ event ≠ .replayFailed := by decide

theorem snapshot_not_ending : ∀ event ∈ snapshotEvents, event ≠ .replayCompleted ∧ event ≠ .replayFailed := by decide

/-- A control section turns the one replay it finds. -/
def TurnsSection (s : State) (sec : Section) : Prop :=
  ∀ s' announced, sec = .ok (s', announced) → ∀ r, Turn false (courseOf s r) (courseOf s' r)

theorem turn_setRun {r : Nat} (h : Turn false (courseOf s r) { courseOf s r with state := run.state })
    (hthread : run.thread = (s.runs r).thread) (r' : Nat) : Turn false (courseOf s r') (courseOf (s.setRun r run) r') := by
  by_cases hr : r' = r
  · subst hr
    rwa [courseOf_setRun hthread]
  · rw [courseOf_setRun_other hr]
    exact .same _

theorem turn_startWorker (h : Kept s) {r : Nat} (hcreated : (s.runs r).state = .created)
    (hdead : s.isAlive (s.runs r).thread = false) (r' : Nat) : Turn false (courseOf s r') (courseOf (s.startWorker r) r') := by
  by_cases hr : r' = r
  · subst hr
    have hafter : courseOf (s.startWorker r') r' = ⟨.created, (courseOf s r').endings, some .start⟩ := by
      unfold courseOf
      rw [show (s.startWorker r').runs r' = { s.runs r' with thread := some s.workerCount } from Function.update_self ..]
      simp [State.startWorker, hcreated]
    have hbefore : courseOf s r' = ⟨.created, (courseOf s r').endings, (courseOf s r').place⟩ := by
      rw [← hcreated]
      rfl
    rw [hafter, hbefore]
    refine .starts _ _ ?_
    unfold courseOf
    cases hthread : (s.runs r').thread with
    | none => exact .inl rfl
    | some w =>
      rw [hthread] at hdead
      refine .inr (congrArg some ?_)
      simpa [State.isAlive] using hdead
  · have hsame : courseOf (s.startWorker r) r' = courseOf s r' := by
      unfold courseOf
      rw [show (s.startWorker r).runs r' = s.runs r' from Function.update_of_ne hr ..]
      cases hthread : (s.runs r').thread with
      | none => rfl
      | some w =>
        have hw : w ≠ s.workerCount := Nat.ne_of_lt (h.owned r' w hthread).1
        simp [State.startWorker, Function.update_of_ne hw]
    rw [hsame]
    exact .same _

theorem play_turns (h : Kept s) {replayId : String} : TurnsSection s (play s replayId) := by
  intro s' announced hplay
  obtain ⟨r, -, hrunnable, hplay⟩ := section_ok hplay
  have hgoing := not_stopping hrunnable
  split at hplay
  · cases hplay
  next hnot =>
  split at hplay
  · next hcreated =>
    split at hplay
    · cases hplay
    · next hdead =>
      cases hplay
      exact turn_startWorker h hcreated (Bool.eq_false_iff.mpr hdead)
  · next hstarted =>
    split at hplay
    · cases hplay
    · cases hplay
      have hpaused : (s.runs r).state = .paused := by
        cases hstate : (s.runs r).state with
        | created => exact absurd hstate hstarted
        | running => exact absurd hstate hnot
        | paused => rfl
        | completed => exact absurd (.inl (by rw [hstate]; rfl)) hgoing
        | failed => exact absurd (.inl (by rw [hstate]; rfl)) hgoing
      refine turn_setRun ?_ (by rfl)
      rw [show courseOf s r = ⟨.paused, (courseOf s r).endings, (courseOf s r).place⟩ by rw [← hpaused]; rfl]
      exact .resumes _ _

theorem pause_turns {replayId : String} : TurnsSection s (pause s replayId) := by
  intro s' announced hpause
  obtain ⟨r, -, -, hpause⟩ := section_ok hpause
  split at hpause
  · cases hpause
  · next hrunning =>
    cases hpause
    refine turn_setRun ?_ (by rfl)
    rw [show courseOf s r = ⟨.running, (courseOf s r).endings, (courseOf s r).place⟩ by
      rw [← not_not.mp hrunning]; rfl]
    exact .pauses _ _

theorem stepReplay_turns {replayId : String} : TurnsSection s (stepReplay s replayId) := by
  intro s' announced hstep
  obtain ⟨r, -, -, hstep⟩ := section_ok hstep
  split at hstep
  · cases hstep
  · split at hstep
    · cases hstep
    · cases hstep
      exact turn_setRun (.same _) (by rfl)

theorem afterSection_turns {sec : Section} (hsec : TurnsSection s sec) (r : Nat) :
    Turn false (courseOf s r) (courseOf (afterSection s c sec) r) := by
  cases hresult : sec with
  | error e => exact .same _
  | ok result =>
    obtain ⟨s', announced⟩ := result
    have hturn := hsec s' announced hresult r
    cases announced with
    | none => exact hturn
    | some announced => exact hturn

theorem request_turns (h : Kept s) {q : Request} (hrequest : request s c q = some s') (r : Nat) :
    Turn false (courseOf s r) (courseOf s' r) := by
  have hacquire : ∀ place, acquire s c place = some s' → courseOf s' r = courseOf s r := by
    intro place hacquire
    unfold acquire at hacquire
    split at hacquire
    · cases hacquire
      rfl
    · cases hacquire
  unfold request at hrequest
  split at hrequest
  · cases q with
    | create =>
      rw [hacquire _ hrequest]
      exact .same _
    | restart replayId =>
      rw [hacquire _ hrequest]
      exact .same _
    | play replayId =>
      cases hrequest
      exact afterSection_turns (play_turns h) r
    | pause replayId =>
      cases hrequest
      exact afterSection_turns pause_turns r
    | step replayId =>
      cases hrequest
      exact afterSection_turns stepReplay_turns r
  · cases hrequest

theorem checkActive_course (s : State) (c : Nat) (restarting : Bool) (o : Outcome) (r : Nat) :
    courseOf (checkActive s c restarting o) r = courseOf s r := by
  unfold checkActive
  dsimp only
  repeat' split
  all_goals rfl

theorem courseOf_register (h : Kept s) (replayId : String) (r : Nat) :
    courseOf (s.register replayId) r = courseOf s r := by
  have hlog : (s.register replayId).log.filterMap (endingOf r) = s.log.filterMap (endingOf r) := by
    rw [show (s.register replayId).log = s.log ++ [.registered s.runCount] from rfl, List.filterMap_append]
    exact List.append_nil _
  by_cases hr : r = s.runCount
  · subst hr
    obtain ⟨hthread, hstate⟩ := h.unborn s.runCount (Nat.le_refl _)
    unfold courseOf
    rw [hlog, hthread, hstate,
      show (s.register replayId).runs s.runCount = Run.new replayId from Function.update_self ..]
    rfl
  · unfold courseOf
    rw [hlog, show (s.register replayId).runs r = s.runs r from Function.update_of_ne hr ..]
    rfl

/-- Creating a replay and announcing control events changes no course; restarting plays. -/
theorem callStep_turns (h : Kept s) {o : Outcome} {hex : String} (hcall : callStep s c o hex = some s') (r : Nat) :
    Turn false (courseOf s r) (courseOf s' r) := by
  have hreliable := h.reliable c
  unfold callStep at hcall
  cases hplace : s.calls c with
  | idle =>
    rw [hplace] at hcall
    cases hcall
  | publishing r' event =>
    rw [hplace] at hcall hreliable
    cases hcall
    rw [show courseOf ((published s r' event o).finish c) r = courseOf s r from
      courseOf_published_other (.inr (control_not_ending event hreliable))]
    exact .same _
  | creating place restarting =>
    rw [hplace] at hcall
    cases hcall
    have hsame : courseOf (createStep s c restarting o hex place) r = courseOf s r := by
      cases place with
      | checking => exact checkActive_course s c restarting o r
      | joining terminalId thread =>
        simp only [createStep]
        split <;> rfl
      | dropping terminalId => rfl
      | registering =>
        simp only [createStep]
        split
        · exact courseOf_register h hex r
        · rfl
      | announcing r' =>
        have hpublished : courseOf (published s r' .replayCreated o) r = courseOf s r :=
          courseOf_published_other (.inr (by decide))
        simp only [createStep]
        split <;> exact hpublished
    rw [hsame]
    exact .same _
  | playing replayId =>
    rw [hplace] at hcall
    cases hcall
    exact afterSection_turns (play_turns h) r
  | cancelling replayId =>
    rw [hplace] at hcall
    cases hrequire : require s replayId with
    | error e =>
      simp only [hrequire] at hcall
      cases hcall
      exact .same _
    | ok r' =>
      simp only [hrequire] at hcall
      cases hcall
      refine turn_setRun ?_ ?_ r
      · exact .same _
      · rfl
  | joining replayId r' =>
    rw [hplace] at hcall
    simp only at hcall
    split at hcall
    · cases hcall
      exact .same _
    · cases hcall
      exact .same _
  | dropping replayId =>
    rw [hplace] at hcall
    cases hcall
    exact .same _

/-- A worker changes the course of its own replay only. -/
theorem workerStep_other (h : Kept s) {m : WorkerMove} (hworker : workerStep s w m = some s')
    (hr : (s.workers w).run ≠ r) : courseOf s' r = courseOf s r := by
  have hthread : (s.runs r).thread ≠ some w := fun hthread => hr (h.owned r w hthread).2
  have hplaced : ∀ (t : State) place, t.runs r = s.runs r → courseOf t r = courseOf s r →
      courseOf (t.setWorker w place) r = courseOf s r := by
    intro t place hrun hsame
    exact (courseOf_setWorker_other (by rwa [hrun])).trans hsame
  have hruns : ∀ run, (s.setRun (s.workers w).run run).runs r = s.runs r := fun run =>
    Function.update_of_ne (Ne.symm hr) ..
  have hset : ∀ run, courseOf (s.setRun (s.workers w).run run) r = courseOf s r := fun run =>
    courseOf_setRun_other (Ne.symm hr)
  have hpublished : ∀ event o, courseOf (published s (s.workers w).run event o) r = courseOf s r := fun event o =>
    courseOf_published_other (.inl hr)
  have hpublishedRuns : ∀ event o, (published s (s.workers w).run event o).runs r = s.runs r := by
    intro event o
    cases o with
    | returns => rfl
    | raises delivered => cases delivered <;> rfl
  unfold workerStep at hworker
  dsimp only at hworker
  split at hworker
  · cases hworker
    exact hplaced s _ rfl rfl
  · cases hworker
    exact hplaced s _ rfl rfl
  · cases hworker
    exact hplaced s _ rfl rfl
  · split at hworker
    · cases hworker
      exact hplaced s _ rfl rfl
    · cases hworker
      exact hplaced _ _ (hruns _) (hset _)
  · cases hworker
    exact hplaced _ _ (hruns _) (hset _)
  · split at hworker
    · cases hworker
      exact hpublished _ .returns
    · cases hworker
      rfl
  · split at hworker
    · cases hworker
      exact hplaced s _ rfl rfl
    · cases hworker
  · cases hworker
    exact hset _
  · cases hworker
    exact hplaced s _ rfl rfl
  · cases hworker
    exact hplaced s _ rfl rfl
  · cases hworker
    exact hplaced _ _ (hruns _) (hset _)
  · split at hworker
    · cases hworker
      exact hpublished _ .returns
    · cases hworker
  · cases hworker
    exact hplaced s _ rfl rfl
  · cases hworker
    exact hplaced s _ rfl rfl
  · cases hworker
    exact hplaced _ _ rfl (hpublished _ .returns)
  · cases hworker
    exact hplaced _ _ (hpublishedRuns _ _) (hpublished _ _)
  · cases hworker
    exact hplaced _ _ (hruns _) (hset _)
  · cases hworker
    exact hplaced _ _ rfl (hpublished _ .returns)
  · cases hworker
    exact hplaced _ _ (hpublishedRuns _ _) (hpublished _ _)
  · cases hworker
    exact hplaced s _ rfl rfl
  · cases hworker
    exact hplaced s _ rfl rfl
  · cases hworker

theorem worker_live {m : WorkerMove} (hworker : workerStep s w m = some s') : Live s w := by
  intro hended
  unfold workerStep at hworker
  rw [hended] at hworker
  cases m <;> cases hworker

theorem courseOf_pass (hthread : (s.runs r).thread = some w) (place : WorkerAt) :
    courseOf (s.setWorker w place) r = ⟨(s.runs r).state, (courseOf s r).endings, some place⟩ :=
  courseOf_setWorker hthread

theorem courseOf_setRun_pass (hthread : (s.runs r).thread = some w) (hsame : run.thread = (s.runs r).thread) (place : WorkerAt) :
    courseOf ((s.setRun r run).setWorker w place) r = ⟨run.state, (courseOf s r).endings, some place⟩ := by
  have hthread' : ((s.setRun r run).runs r).thread = some w := by
    rw [show (s.setRun r run).runs r = run from Function.update_self .., hsame, hthread]
  rw [courseOf_setWorker hthread', courseOf_setRun hsame]

theorem courseOf_publish_pass (hthread : (s.runs r).thread = some w) (hevent : event = .replayCompleted ∨ event = .replayFailed)
    (place : WorkerAt) :
    courseOf ((s.publish r event).setWorker w place) r = ⟨(s.runs r).state, (courseOf s r).endings ++ [event], some place⟩ := by
  have hending : endingOf r (.published r event) = some event := if_pos ⟨rfl, hevent⟩
  rw [courseOf_setWorker (show ((s.publish r event).runs r).thread = some w from hthread), courseOf_publish, hending]
  rfl

/-- A worker turns its replay; the turn is late just when the move is. -/
theorem workerStep_turns (h : Kept s) {m : WorkerMove} (hworker : workerStep s w m = some s')
    (hr : (s.workers w).run = r) :
    ∃ late, Turn late (courseOf s r) (courseOf s' r) ∧ (late = true ↔ Late s r (.worker w m)) := by
  have hthread : (s.runs r).thread = some w := hr ▸ (h.live w (worker_live hworker)).2
  have hbefore : ∀ place, (s.workers w).place = place →
      courseOf s r = ⟨(s.runs r).state, (courseOf s r).endings, some place⟩ := by
    intro place hplace
    unfold courseOf
    rw [hthread, Option.map_some, hplace]
  have hpass := courseOf_pass hthread
  have htimely : ∀ {c c' : Course}, Turn false c c' → ¬ Late s r (.worker w m) →
      ∃ late, Turn late c c' ∧ (late = true ↔ Late s r (.worker w m)) :=
    fun hturn hnot => ⟨false, hturn, iff_of_false Bool.false_ne_true hnot⟩
  have hgoes : ¬ Late s r (.worker w .goes) := id
  unfold workerStep at hworker
  dsimp only at hworker
  rw [hr] at hworker
  split at hworker
  · next hplace =>
    cases hworker
    refine htimely ?_ hgoes
    rw [hbefore _ hplace, hpass]
    refine .passes _ _ (.begins _ ?_)
    split
    · exact .inr rfl
    · exact .inl rfl
  · next hplace =>
    cases hworker
    refine htimely ?_ hgoes
    rw [hbefore _ hplace, hpass]
    exact .passes _ _ (.builds _ (.inl rfl))
  · next hplace =>
    cases hworker
    refine htimely ?_ (fun hlate => ?_)
    · rw [hbefore _ hplace, hpass]
      exact .passes _ _ (.builds _ (.inr rfl))
    · rcases hlate with ⟨-, hlate | hlate⟩ <;> rw [hplace] at hlate <;> cases hlate
  · next hplace =>
    split at hworker
    · cases hworker
      refine htimely ?_ hgoes
      rw [hbefore _ hplace, hpass]
      exact .passes _ _ (.attaches _ (.inr rfl))
    · cases hworker
      refine htimely ?_ hgoes
      rw [hbefore _ hplace, courseOf_setRun_pass hthread (by rfl)]
      exact .passes _ _ (.attaches _ (.inl rfl))
  · next hplace =>
    cases hworker
    refine htimely ?_ hgoes
    rw [hbefore _ hplace, courseOf_setRun_pass hthread (by rfl)]
    exact .readies _ _
  · split at hworker
    · next hsink =>
      cases hworker
      refine htimely ?_ id
      rw [courseOf_publish_other (.inr (sink_not_ending _ hsink))]
      exact .same _
    · cases hworker
      exact htimely (.same _) id
  · next hplace =>
    split at hworker
    · cases hworker
      refine htimely ?_ id
      rw [hbefore _ hplace, hpass]
      exact .passes _ _ (.stops true)
    · cases hworker
  · cases hworker
    refine htimely ?_ id
    rw [courseOf_setRun (by rfl)]
    exact .same _
  · next hplace =>
    cases hworker
    refine htimely ?_ (fun hlate => ?_)
    · rw [hbefore _ hplace, hpass]
      exact .passes _ _ (.stops false)
    · rcases hlate with ⟨-, hlate | hlate⟩ <;> rw [hplace] at hlate <;> cases hlate
  · next hplace =>
    cases hworker
    refine htimely ?_ hgoes
    rw [hbefore _ hplace, hpass]
    exact .passes _ _ .returns
  · next hplace =>
    cases hworker
    refine htimely ?_ hgoes
    rw [hbefore _ hplace, courseOf_setRun_pass hthread (by rfl)]
    exact .completes _ _
  · split at hworker
    · next hsnapshot =>
      cases hworker
      refine htimely ?_ id
      rw [courseOf_publish_other (.inr (snapshot_not_ending _ hsnapshot))]
      exact .same _
    · cases hworker
  · next hplace =>
    cases hworker
    refine ⟨true, ?_, iff_of_true rfl ⟨hr, .inl hplace⟩⟩
    rw [hbefore _ hplace, hpass]
    exact turn_late_silent (.inl rfl)
  · next hplace =>
    cases hworker
    refine htimely ?_ hgoes
    rw [hbefore _ hplace, hpass]
    exact .passes _ _ .emits
  · next hplace =>
    cases hworker
    refine htimely ?_ hgoes
    rw [hbefore _ hplace, courseOf_publish_pass hthread (.inl rfl)]
    exact .announces _ _
  · next delivered hplace =>
    cases hworker
    refine ⟨true, ?_, iff_of_true rfl ⟨hr, .inr hplace⟩⟩
    cases delivered with
    | false =>
      rw [hbefore _ hplace, show courseOf ((published s r .replayCompleted (.raises false)).setWorker w (.failing false)) r = _
        from hpass _]
      exact turn_late_silent (.inr rfl)
    | true =>
      rw [hbefore _ hplace, show courseOf ((published s r .replayCompleted (.raises true)).setWorker w (.failing false)) r = _
        from courseOf_publish_pass hthread (.inl rfl) _]
      exact .late _ _ _ (.inr rfl)
  · next hplace =>
    cases hworker
    refine htimely ?_ hgoes
    rw [hbefore _ hplace, courseOf_setRun_pass hthread (by rfl)]
    exact .fails _ _ _
  · next hplace =>
    cases hworker
    refine htimely ?_ hgoes
    rw [hbefore _ hplace, courseOf_publish_pass hthread (.inr rfl)]
    exact .reports _ _ _ (.inr rfl)
  · next delivered hplace =>
    cases hworker
    refine htimely ?_ (fun hlate => ?_)
    · cases delivered with
      | false =>
        rw [hbefore _ hplace, show courseOf ((published s r .replayFailed (.raises false)).setWorker w .closing) r = _
          from hpass _]
        exact turn_reports_silent
      | true =>
        rw [hbefore _ hplace, show courseOf ((published s r .replayFailed (.raises true)).setWorker w .closing) r = _
          from courseOf_publish_pass hthread (.inr rfl) _]
        exact .reports _ _ _ (.inr rfl)
    · rcases hlate with ⟨-, hlate | hlate⟩ <;> rw [hplace] at hlate <;> cases hlate
  · next hplace =>
    cases hworker
    refine htimely ?_ hgoes
    rw [hbefore _ hplace, hpass]
    exact .passes _ _ .closes
  · next hplace =>
    cases hworker
    refine htimely ?_ (fun hlate => ?_)
    · rw [hbefore _ hplace, hpass]
      exact .passes _ _ .closes
    · rcases hlate with ⟨-, hlate | hlate⟩ <;> rw [hplace] at hlate <;> cases hlate
  · cases hworker

/-- Every move turns every replay, late just when the move is. -/
theorem step_turns (h : Kept s) {m : Move} (hstep : step s m = some s') (r : Nat) :
    ∃ late, Turn late (courseOf s r) (courseOf s' r) ∧ (late = true ↔ Late s r m) := by
  cases m with
  | request c q => exact ⟨false, request_turns h hstep r, iff_of_false Bool.false_ne_true id⟩
  | call c o hex => exact ⟨false, callStep_turns h hstep r, iff_of_false Bool.false_ne_true id⟩
  | worker w m =>
    by_cases hr : (s.workers w).run = r
    · exact workerStep_turns h hstep hr
    · refine ⟨false, ?_, iff_of_false Bool.false_ne_true ?_⟩
      · rw [workerStep_other h hstep hr]
        exact .same _
      · cases m with
        | raises delivered => exact fun hlate => hr hlate.1
        | goes => exact id
        | publishes event => exact id
        | findsCancelled => exact id
        | clearsEvent => exact id

end Walks

/-! ## Ends are final -/

/-- No exception of the replay comes late in the run. -/
def NoneLate (r : Nat) (s : State) : List Move → Prop
  | [] => True
  | m :: ms => ¬ Late s r m ∧ ∀ s', step s m = some s' → NoneLate r s' ms

/-- Once the replay is completed or failed, no move of the run changes its state. -/
def Final (r : Nat) (s : State) : List Move → Prop
  | [] => True
  | m :: ms => ∀ s', step s m = some s' → KeepsEnd (courseOf s r) (courseOf s' r) ∧ Final r s' ms

section Ends

variable {s s' : State} {r : Nat} {ms : List Move}

theorem timely_run (h : Kept s) (hfits : Fits (courseOf s r)) (hrun : run s ms = some s') (hnone : NoneLate r s ms) :
    Final r s ms ∧ Fits (courseOf s' r) := by
  induction ms generalizing s with
  | nil =>
    cases hrun
    exact ⟨trivial, hfits⟩
  | cons m ms ih =>
    obtain ⟨t, ht, hrest⟩ := Option.bind_eq_some_iff.mp hrun
    obtain ⟨late, hturn, hlate⟩ := step_turns h ht r
    obtain rfl : late = false := Bool.eq_false_iff.mpr fun hl => hnone.1 (hlate.mp hl)
    obtain ⟨hkeeps, hfits'⟩ := turn_fits hfits hturn
    obtain ⟨hfinal, hend⟩ := ih (step_kept h ht) hfits' hrest (hnone.2 t ht)
    refine ⟨fun t' ht' => ?_, hend⟩
    rw [ht] at ht'
    cases ht'
    exact ⟨hkeeps, hfinal⟩

/-- A doomed replay is failed before its worker ends. -/
theorem doomed_run (h : Kept s) (hdoomed : Doomed (courseOf s r)) (hrun : run s ms = some s') (hended : ∀ w, ¬ Live s' w) :
    ¬ Final r s ms := by
  induction ms generalizing s with
  | nil =>
    cases hrun
    obtain ⟨w, -, hplace⟩ := Option.map_eq_some_iff.mp hdoomed.2
    refine absurd ?_ (hended w)
    unfold Live
    rw [hplace]
    exact WorkerAt.noConfusion
  | cons m ms ih =>
    obtain ⟨t, ht, hrest⟩ := Option.bind_eq_some_iff.mp hrun
    obtain ⟨late, hturn, -⟩ := step_turns h ht r
    intro hfinal
    rcases turn_doomed hdoomed hturn with hdoomed' | hchanged
    · exact ih (step_kept h ht) hdoomed' hrest (hfinal t ht).2
    · exact hchanged (hfinal t ht).1

theorem late_run (h : Kept s) (hfits : Fits (courseOf s r)) (hrun : run s ms = some s') (hlate : ¬ NoneLate r s ms)
    (hended : ∀ w, ¬ Live s' w) : ¬ Final r s ms := by
  induction ms generalizing s with
  | nil => exact absurd trivial hlate
  | cons m ms ih =>
    obtain ⟨t, ht, hrest⟩ := Option.bind_eq_some_iff.mp hrun
    obtain ⟨late, hturn, hiff⟩ := step_turns h ht r
    intro hfinal
    cases late with
    | true => exact doomed_run (step_kept h ht) (turn_late hfits hturn) hrest hended (hfinal t ht).2
    | false =>
      refine ih (step_kept h ht) (turn_fits hfits hturn).2 hrest (fun hnone => hlate ⟨?_, ?_⟩) (hfinal t ht).2
      · exact fun hl => Bool.false_ne_true (hiff.mpr hl)
      · intro t' ht'
        rw [ht] at ht'
        cases ht'
        exact hnone

def Smooth : Move → Bool
  | .worker _ (.raises _) => false
  | _ => true

/-- A run in which no worker raises has no late exception. -/
theorem noneLate_of_smooth (h : ∀ m ∈ ms, Smooth m = true) : NoneLate r s ms := by
  induction ms generalizing s with
  | nil => trivial
  | cons m ms ih =>
    refine ⟨fun hlate => ?_, fun t _ => ih fun m' hm' => h m' (List.mem_cons_of_mem m hm')⟩
    have hsmooth := h m List.mem_cons_self
    cases m with
    | request c q => exact hlate
    | call c o hex => exact hlate
    | worker w m =>
      cases m with
      | raises delivered => cases hsmooth
      | goes => exact hlate
      | publishes event => exact hlate
      | findsCancelled => exact hlate
      | clearsEvent => exact hlate

end Ends

/-- In a run without late exceptions of a replay its end is final and matched by what was
published; in a run that ends with all workers, only in such a run. -/
theorem end_final_iff {ms : List Move} {s : State} (hrun : run start ms = some s) (r : Nat) :
    (NoneLate r start ms → Final r start ms ∧ Matching (courseOf s r)) ∧
      ((∀ w, ¬ Live s w) → (Final r start ms ∧ Matching (courseOf s r) ↔ NoneLate r start ms)) := by
  have hfits : Fits (courseOf start r) := ⟨rfl, rfl⟩
  have htimely : NoneLate r start ms → Final r start ms ∧ Matching (courseOf s r) := by
    intro hnone
    obtain ⟨hfinal, hend⟩ := timely_run kept_start hfits hrun hnone
    exact ⟨hfinal, fits_matching hend⟩
  refine ⟨htimely, fun hended => ⟨fun ⟨hfinal, _⟩ => ?_, htimely⟩⟩
  by_contra hlate
  exact late_run kept_start hfits hrun hlate hended hfinal

/-- A replay is created, played and completed. -/
def completed : List Move :=
  [.request 0 .create, .call 0 .returns "", .call 0 .returns "a", .call 0 .returns "", .request 0 (.play "a")] ++
    List.replicate 6 (.worker 0 .goes) ++ [.worker 0 .goes, .worker 0 .goes, .worker 0 .goes]

theorem end_final_completed : ∃ s, run start completed = some s ∧ Final 0 start completed ∧ Matching (courseOf s 0) ∧
    (Final 0 start completed ∧ Matching (courseOf s 0) ↔ NoneLate 0 start completed) := by
  refine ⟨_, rfl, ?_⟩
  have hkept := run_kept kept_start (show run start completed = _ from rfl)
  obtain ⟨htimely, hiff⟩ := end_final_iff (show run start completed = _ from rfl) 0
  obtain ⟨hfinal, hmatching⟩ := htimely (noneLate_of_smooth (by decide))
  refine ⟨hfinal, hmatching, hiff fun w => ?_⟩
  cases w with
  | zero => exact fun hlive => hlive rfl
  | succ w => exact hkept.fresh (w + 1) (Nat.le_add_left 1 w)

/-- The adapter of a snapshot raises after the replay is completed. -/
def snapshotRaises : List Move :=
  [.request 0 .create, .call 0 .returns "", .call 0 .returns "a", .call 0 .returns "", .request 0 (.play "a")] ++
    List.replicate 6 (.worker 0 .goes) ++ [.worker 0 (.raises false)]

theorem end_changes : ∃ s s', run start snapshotRaises = some s ∧ step s (.worker 0 .goes) = some s' ∧
    (s.runs 0).state = .completed ∧ (s'.runs 0).state = .failed :=
  ⟨_, _, rfl, rfl, rfl, rfl⟩

end ReplayEndings
