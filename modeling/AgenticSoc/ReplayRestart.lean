import AgenticSoc.ReplayLifecycle

/-!
# What a restart is asked for

A restart takes over the settings of the old replay, or other ones it is given. It cancels
the old replay, waits for it and drops it from the registry before it looks at them, so a
restart that is refused leaves no replay behind.
-/
namespace ReplayRestart

open ReplayLifecycle (Outcome Request WorkerMove CallAt CreateAt Kept Reliable)
open Function (update)

inductive PacingSpeed where
  | x1 | x5 | x10 | max
  deriving DecidableEq, Repr

def PacingSpeed.value : PacingSpeed → String
  | .x1 => "1x"
  | .x5 => "5x"
  | .x10 => "10x"
  | .max => "max"

def PacingSpeed.all : List PacingSpeed := [.x1, .x5, .x10, .max]

/-- The conversion of a text, which raises when there is none of that value. -/
def PacingSpeed.ofValue (value : String) : Option PacingSpeed := PacingSpeed.all.find? fun p => p.value = value

theorem ofValue_value (p : PacingSpeed) : PacingSpeed.ofValue p.value = some p := by cases p <;> decide

/-- What a replay is created with. -/
structure Settings where
  sessionId : String
  sourceMode : String
  pacing : String
  deriving DecidableEq, Repr

structure Overrides where
  sessionId : Option String
  sourceMode : Option String
  pacing : Option String
  deriving DecidableEq, Repr

def Overrides.over (o : Overrides) (old : Settings) : Settings :=
  ⟨o.sessionId.getD old.sessionId, o.sourceMode.getD old.sourceMode, o.pacing.getD old.pacing⟩

/-- The supported source modes of the sessions that are known. -/
abbrev Catalog := String → Option (List String)

inductive Refusal where
  | invalidPacing | unknownSession | unsupportedSourceMode
  deriving DecidableEq, Repr

def pacingRefusal (t : Settings) : Option Refusal :=
  if (PacingSpeed.ofValue t.pacing).isNone then some .invalidPacing else none

def catalogRefusal (catalog : Catalog) (t : Settings) : Option Refusal :=
  match catalog t.sessionId with
  | none => some .unknownSession
  | some supported => if t.sourceMode ∈ supported then none else some .unsupportedSourceMode

/-- The life of the replays, with the settings of each run, and what each call is to create. -/
structure State where
  base : ReplayLifecycle.State
  settings : Nat → Settings
  target : Nat → Settings
  overrides : Nat → Overrides

def start : State where
  base := ReplayLifecycle.start
  settings := fun _ => ⟨"", "", ""⟩
  target := fun _ => ⟨"", "", ""⟩
  overrides := fun _ => ⟨none, none, none⟩

inductive Ask where
  | create (target : Settings)
  | restart (replayId : String) (overrides : Overrides)
  | play (replayId : String)
  | pause (replayId : String)
  | step (replayId : String)
  deriving DecidableEq, Repr

def Ask.request : Ask → Request
  | .create _ => .create
  | .restart replayId _ => .restart replayId
  | .play replayId => .play replayId
  | .pause replayId => .pause replayId
  | .step replayId => .step replayId

section Machine

variable (catalog : Catalog)

/-- What the next step of a call raises for the settings it is to create a replay with. A
restart converts the pacing first, and a creation last. -/
def raised (s : State) (c : Nat) : Option Refusal :=
  match s.base.calls c with
  | .creating .checking restarting =>
    ((if restarting then pacingRefusal (s.target c) else none)).or (catalogRefusal catalog (s.target c))
  | .creating .registering false => pacingRefusal (s.target c)
  | _ => none

def request (s : State) (c : Nat) (ask : Ask) : Option State :=
  (ReplayLifecycle.request s.base c ask.request).map fun base =>
    match ask with
    | .create target => { s with base := base, target := update s.target c target }
    | .restart _ overrides => { s with base := base, overrides := update s.overrides c overrides }
    | _ => { s with base := base }

/-- The old settings are read when the old replay is found, and a new run gets those of its call. -/
def callStep (s : State) (c : Nat) (o : Outcome) (hex : String) : Option State :=
  let o := if (raised catalog s c).isSome then .raises false else o
  (ReplayLifecycle.callStep s.base c o hex).map fun base =>
    match s.base.calls c with
    | .cancelling replayId =>
      match s.base.registry.lookup replayId with
      | none => { s with base := base }
      | some r => { s with base := base, target := update s.target c ((s.overrides c).over (s.settings r)) }
    | .creating .registering _ =>
      if o = .returns then { s with base := base, settings := update s.settings s.base.runCount (s.target c) }
      else { s with base := base }
    | _ => { s with base := base }

inductive Move where
  | request (call : Nat) (ask : Ask)
  | call (call : Nat) (o : Outcome) (hex : String)
  | worker (w : Nat) (m : WorkerMove)
  deriving DecidableEq, Repr

/-- The call that a move begins. -/
def Move.begins : Move → Option Nat
  | .request c _ => some c
  | .call _ _ _ | .worker _ _ => none

def step (s : State) : Move → Option State
  | .request c ask => request s c ask
  | .call c o hex => callStep catalog s c o hex
  | .worker w m => (ReplayLifecycle.workerStep s.base w m).map fun base => { s with base := base }

def run (s : State) : List Move → Option State
  | [] => some s
  | m :: ms => (step catalog s m).bind fun s' => run s' ms

end Machine

/-! ## A restart that is refused -/

/-- The registry, the active replay and the replay of this identity are as before. -/
structure Unchanged (replayId : String) (s s' : State) : Prop where
  registry : s'.base.registry = s.base.registry
  activeId : s'.base.activeId = s.base.activeId
  replay : ∀ r, s.base.registry.lookup replayId = some r → s'.base.runs r = s.base.runs r

/-- A restart is called in the first state and has raised in the second, because of the
settings; other calls and the workers go on in between. -/
def Refused (catalog : Catalog) (replayId : String) (e : Refusal) (s s' : State) : Prop :=
  ∃ c overrides s₁ ms s₂ o hex, step catalog s (.request c (.restart replayId overrides)) = some s₁ ∧
    (∀ m ∈ ms, m.begins ≠ some c) ∧ run catalog s₁ ms = some s₂ ∧ raised catalog s₂ c = some e ∧
    step catalog s₂ (.call c o hex) = some s'

section Proofs

variable {catalog : Catalog} {s s' : State} {c : Nat} {replayId : String}

/-- Each step is one of the life of the replays, and a request one of the same call. -/
theorem step_base {m : Move} (h : step catalog s m = some s') : ∃ m', ReplayLifecycle.step s.base m' = some s'.base ∧
    ∀ c q, m' = .request c q → m.begins = some c := by
  cases m with
  | request c ask =>
    obtain ⟨base, hbase, rfl⟩ := Option.map_eq_some_iff.mp h
    refine ⟨.request c ask.request, ?_, fun c' q hsame => ?_⟩
    · cases ask <;> exact hbase
    · cases hsame
      rfl
  | call c o hex =>
    obtain ⟨base, hbase, rfl⟩ := Option.map_eq_some_iff.mp h
    generalize (if (raised catalog s c).isSome then Outcome.raises false else o) = o at hbase ⊢
    refine ⟨.call c o hex, hbase.trans (congrArg some ?_), by simp⟩
    split
    · split <;> rfl
    · split <;> rfl
    · rfl
  | worker w m =>
    obtain ⟨base, hbase, rfl⟩ := Option.map_eq_some_iff.mp h
    exact ⟨.worker w m, hbase, by simp⟩

theorem step_kept {m : Move} (h : Kept s.base) (hstep : step catalog s m = some s') : Kept s'.base := by
  obtain ⟨m', hm', -⟩ := step_base hstep
  exact ReplayLifecycle.step_kept h hm'

theorem run_kept {ms : List Move} (h : Kept s.base) (hrun : run catalog s ms = some s') : Kept s'.base := by
  induction ms generalizing s with
  | nil =>
    cases hrun
    exact h
  | cons m ms ih =>
    obtain ⟨t, ht, hrest⟩ := Option.bind_eq_some_iff.mp hrun
    exact ih (step_kept h ht) hrest

/-- A move that another call or a worker makes while a call holds the lifecycle lock. -/
structure Aside (c : Nat) (s s' : ReplayLifecycle.State) : Prop where
  call : s'.calls c = s.calls c
  registry : s'.registry = s.registry
  activeId : s'.activeId = s.activeId

theorem Aside.published {b b' : ReplayLifecycle.State} (h : Aside c b b') (r : Nat) (event : EventPublishing.ReplayEventType)
    (o : Outcome) : Aside c b (ReplayLifecycle.published b' r event o) := by
  cases o with
  | returns => exact ⟨h.call, h.registry, h.activeId⟩
  | raises delivered => cases delivered <;> exact ⟨h.call, h.registry, h.activeId⟩

theorem workerStep_aside {b b' : ReplayLifecycle.State} {w : Nat} {m : WorkerMove}
    (h : ReplayLifecycle.workerStep b w m = some b') : Aside c b b' := by
  have hpublished : ∀ r event o, Aside c b (ReplayLifecycle.published b r event o) :=
    fun r event o => Aside.published ⟨rfl, rfl, rfl⟩ r event o
  unfold ReplayLifecycle.workerStep at h
  dsimp only at h
  split at h
  all_goals first
    | exact absurd h.symm (Option.some_ne_none _)
    | cases h
      exact ⟨rfl, rfl, rfl⟩
    | cases h
      exact ⟨(hpublished _ _ _).call, (hpublished _ _ _).registry, (hpublished _ _ _).activeId⟩
    | split at h <;> cases h <;> exact ⟨rfl, rfl, rfl⟩

theorem afterSection_aside {b : ReplayLifecycle.State} {c' : Nat} (hne : c' ≠ c) {sec : ReplayLifecycle.Section}
    (hsec : ∀ b' announced, sec = .ok (b', announced) → Aside c b b') : Aside c b (ReplayLifecycle.afterSection b c' sec) := by
  cases sec with
  | error e => exact ⟨Function.update_of_ne hne.symm .., rfl, rfl⟩
  | ok result =>
    obtain ⟨b', announced⟩ := result
    obtain ⟨hcall, hregistry, hactive⟩ := hsec b' announced rfl
    cases announced with
    | none => exact ⟨(Function.update_of_ne hne.symm ..).trans hcall, hregistry, hactive⟩
    | some announced => exact ⟨(Function.update_of_ne hne.symm ..).trans hcall, hregistry, hactive⟩

theorem play_aside {b : ReplayLifecycle.State} : ∀ b' announced, ReplayLifecycle.play b replayId = .ok (b', announced) →
    Aside c b b' := by
  intro b' announced h
  obtain ⟨r, -, -, h⟩ := ReplayLifecycle.section_ok h
  split at h
  · cases h
  split at h
  · split at h
    · cases h
    · cases h
      exact ⟨rfl, rfl, rfl⟩
  · split at h
    · cases h
    · cases h
      exact ⟨rfl, rfl, rfl⟩

theorem pause_aside {b : ReplayLifecycle.State} : ∀ b' announced, ReplayLifecycle.pause b replayId = .ok (b', announced) →
    Aside c b b' := by
  intro b' announced h
  obtain ⟨r, -, -, h⟩ := ReplayLifecycle.section_ok h
  split at h
  · cases h
  · cases h
    exact ⟨rfl, rfl, rfl⟩

theorem stepReplay_aside {b : ReplayLifecycle.State} :
    ∀ b' announced, ReplayLifecycle.stepReplay b replayId = .ok (b', announced) → Aside c b b' := by
  intro b' announced h
  obtain ⟨r, -, -, h⟩ := ReplayLifecycle.section_ok h
  split at h
  · cases h
  · split at h
    · cases h
    · cases h
      exact ⟨rfl, rfl, rfl⟩

theorem request_aside {b b' : ReplayLifecycle.State} {c' : Nat} (hne : c' ≠ c) (hown : b.lifecycleLock = some c)
    {q : Request} (h : ReplayLifecycle.request b c' q = some b') : Aside c b b' := by
  have hacquire : ∀ place, ReplayLifecycle.acquire b c' place ≠ some b' := by
    intro place hacquire
    unfold ReplayLifecycle.acquire at hacquire
    rw [hown, if_neg (by nofun)] at hacquire
    cases hacquire
  unfold ReplayLifecycle.request at h
  split at h
  · cases q with
    | create => exact absurd h (hacquire _)
    | restart replayId => exact absurd h (hacquire _)
    | play replayId =>
      cases h
      exact afterSection_aside hne play_aside
    | pause replayId =>
      cases h
      exact afterSection_aside hne pause_aside
    | step replayId =>
      cases h
      exact afterSection_aside hne stepReplay_aside
  · cases h

/-- Another call that goes on meanwhile has left the lifecycle lock or never needed it. -/
theorem callStep_aside {b b' : ReplayLifecycle.State} (hkept : Kept b) {c' : Nat} (hne : c' ≠ c)
    (hown : b.lifecycleLock = some c) {o : Outcome} {hex : String} (h : ReplayLifecycle.callStep b c' o hex = some b') :
    Aside c b b' := by
  have hunlocked : (b.calls c').locked ≠ true := by
    intro hlocked
    rw [hkept.locked c' hlocked] at hown
    exact hne (Option.some.inj hown)
  unfold ReplayLifecycle.callStep at h
  cases hplace : b.calls c' with
  | idle =>
    rw [hplace] at h
    cases h
  | publishing r event =>
    rw [hplace] at h
    cases h
    have hpublished : Aside c b (ReplayLifecycle.published b r event o) := Aside.published ⟨rfl, rfl, rfl⟩ r event o
    exact ⟨(Function.update_of_ne hne.symm ..).trans hpublished.call, hpublished.registry, hpublished.activeId⟩
  | creating place restarting => exact absurd (by rw [hplace]; rfl) hunlocked
  | playing replayId => exact absurd (by rw [hplace]; rfl) hunlocked
  | cancelling replayId => exact absurd (by rw [hplace]; rfl) hunlocked
  | joining replayId r => exact absurd (by rw [hplace]; rfl) hunlocked
  | dropping replayId => exact absurd (by rw [hplace]; rfl) hunlocked

/-! ## How far a restart has come -/

/-- What has happened since a restart of this replay was called, by its place: nothing in the
registry up to the drop, and there is nothing in it after. -/
def Since (s₀ : ReplayLifecycle.State) (replayId : String) (s : ReplayLifecycle.State) : CallAt → Prop
  | .cancelling id | .joining id _ | .dropping id => id = replayId ∧ s.registry = s₀.registry ∧ s.activeId = s₀.activeId
  | .creating .checking restarting => restarting = true ∧ (∃ r, s₀.registry = [(replayId, r)]) ∧
      s₀.activeId = some replayId ∧ s.registry = [] ∧ s.activeId = none
  | .creating _ restarting => restarting = true
  | _ => True

theorem Since.aside {s₀ b b' : ReplayLifecycle.State} (h : Since s₀ replayId b (b.calls c)) (haside : Aside c b b') :
    Since s₀ replayId b' (b'.calls c) := by
  rw [haside.call]
  unfold Since at h ⊢
  rw [haside.registry, haside.activeId]
  exact h

theorem since_setCall {s₀ b : ReplayLifecycle.State} {place : CallAt} (h : Since s₀ replayId b place) :
    Since s₀ replayId (b.setCall c place) ((b.setCall c place).calls c) := by
  rw [show (b.setCall c place).calls c = place from Function.update_self ..]
  exact h

theorem since_finish (s₀ b : ReplayLifecycle.State) : Since s₀ replayId (b.finish c) ((b.finish c).calls c) := by
  rw [show (b.finish c).calls c = .idle from Function.update_self ..]
  trivial

theorem since_afterSection (s₀ b : ReplayLifecycle.State) (sec : ReplayLifecycle.Section) :
    Since s₀ replayId (ReplayLifecycle.afterSection b c sec) ((ReplayLifecycle.afterSection b c sec).calls c) := by
  cases sec with
  | error e => exact since_finish s₀ b
  | ok result =>
    obtain ⟨b', announced⟩ := result
    cases announced with
    | none => exact since_finish s₀ b'
    | some announced =>
      have hpublishing : Since s₀ replayId b' (.publishing announced.1 announced.2) := trivial
      exact since_setCall hpublishing

theorem Since.createStep {s₀ b : ReplayLifecycle.State} {place : CreateAt} {restarting : Bool}
    (h : Since s₀ replayId b (.creating place restarting)) (o : Outcome) (hex : String) :
    Since s₀ replayId (ReplayLifecycle.createStep b c restarting o hex place)
      ((ReplayLifecycle.createStep b c restarting o hex place).calls c) := by
  cases place with
  | checking =>
    obtain ⟨hrestarting, -, -, -, hactive⟩ := h
    simp only [ReplayLifecycle.createStep, ReplayLifecycle.checkActive, hactive]
    split
    · exact since_setCall hrestarting
    · exact since_finish s₀ b
  | joining terminalId thread =>
    simp only [ReplayLifecycle.createStep]
    split
    · exact since_finish s₀ b
    · exact since_setCall h
  | dropping terminalId => exact since_setCall (b := b.pop terminalId) h
  | registering =>
    simp only [ReplayLifecycle.createStep]
    split
    · exact since_setCall (b := b.register hex) h
    · exact since_finish s₀ b
  | announcing r =>
    simp only [ReplayLifecycle.createStep]
    split
    · exact since_setCall (b := ReplayLifecycle.published b r .replayCreated o) trivial
    · exact since_finish s₀ _

/-- The restart itself goes on. -/
theorem Since.callStep {s₀ b b' : ReplayLifecycle.State} (h : Since s₀ replayId b (b.calls c)) (hkept : Kept b) {o : Outcome}
    {hex : String} (hcall : ReplayLifecycle.callStep b c o hex = some b') : Since s₀ replayId b' (b'.calls c) := by
  have hreliable := hkept.reliable c
  unfold ReplayLifecycle.callStep at hcall
  cases hplace : b.calls c with
  | idle =>
    rw [hplace] at hcall
    cases hcall
  | publishing r event =>
    rw [hplace] at hcall
    cases hcall
    exact since_finish s₀ _
  | creating place restarting =>
    rw [hplace] at hcall h
    cases hcall
    exact h.createStep o hex
  | playing id =>
    rw [hplace] at hcall
    cases hcall
    exact since_afterSection s₀ b _
  | cancelling id =>
    rw [hplace] at hcall h
    dsimp only at hcall
    split at hcall
    · cases hcall
      exact since_finish s₀ b
    · cases hcall
      exact since_setCall (b := b.setRun _ _) h
  | joining id r =>
    rw [hplace] at hcall h
    dsimp only at hcall
    split at hcall
    · cases hcall
      exact since_finish s₀ b
    · cases hcall
      exact since_setCall h
  | dropping id =>
    rw [hplace] at hcall h hreliable
    cases hcall
    obtain ⟨rfl, hregistry, hactive⟩ := h
    obtain ⟨r, hone, -⟩ := hreliable
    have hpopped : b.activeId = some id := by
      rcases hkept.single with ⟨hnil, -⟩ | ⟨id', r', hone', hactive', -⟩
      · rw [hone] at hnil
        cases hnil
      · rw [hone] at hone'
        cases hone'
        exact hactive'
    refine since_setCall (b := b.pop id) ⟨rfl, ⟨r, hregistry.symm.trans hone⟩, hactive.symm.trans hpopped, ?_, if_pos hpopped⟩
    change b.registry.filter _ = []
    rw [hone]
    simp

theorem createStep_calls {b : ReplayLifecycle.State} {c' : Nat} (hne : c' ≠ c) (restarting : Bool) (o : Outcome) (hex : String)
    (place : CreateAt) : (ReplayLifecycle.createStep b c' restarting o hex place).calls c = b.calls c := by
  have hset : ∀ (t : ReplayLifecycle.State) place, t.calls c = b.calls c → (t.setCall c' place).calls c = b.calls c :=
    fun t place h => (Function.update_of_ne hne.symm ..).trans h
  have hfinish : ∀ t : ReplayLifecycle.State, t.calls c = b.calls c → (t.finish c').calls c = b.calls c :=
    fun t h => (Function.update_of_ne hne.symm ..).trans h
  cases place with
  | checking =>
    simp only [ReplayLifecycle.createStep, ReplayLifecycle.checkActive]
    split
    · split
      · exact hset b _ rfl
      · exact hfinish b rfl
    · split
      · split
        · exact hset b _ rfl
        · exact hfinish b rfl
      · split
        · split
          · exact hset b _ rfl
          · exact hfinish b rfl
        · exact hfinish b rfl
  | joining terminalId thread =>
    simp only [ReplayLifecycle.createStep]
    split
    · exact hfinish b rfl
    · exact hset b _ rfl
  | dropping terminalId => exact hset _ _ rfl
  | registering =>
    simp only [ReplayLifecycle.createStep]
    split
    · exact hset _ _ rfl
    · exact hfinish b rfl
  | announcing r =>
    have hpublished : Aside c b (ReplayLifecycle.published b r .replayCreated o) := Aside.published ⟨rfl, rfl, rfl⟩ r _ o
    simp only [ReplayLifecycle.createStep]
    split
    · exact hset _ _ hpublished.call
    · exact hfinish _ hpublished.call

theorem step_calls {b b' : ReplayLifecycle.State} {m : ReplayLifecycle.Move} (hrequest : ∀ q, m ≠ .request c q)
    (hcall : ∀ o hex, m ≠ .call c o hex) (hstep : ReplayLifecycle.step b m = some b') : b'.calls c = b.calls c := by
  cases m with
  | request c' q =>
    have hne : c' ≠ c := fun hc => hrequest q (by rw [hc])
    have hacquire : ∀ place, ReplayLifecycle.acquire b c' place = some b' → b'.calls c = b.calls c := by
      intro place h
      unfold ReplayLifecycle.acquire at h
      split at h
      · cases h
        exact Function.update_of_ne hne.symm ..
      · cases h
    change ReplayLifecycle.request b c' q = some b' at hstep
    unfold ReplayLifecycle.request at hstep
    split at hstep
    · cases q with
      | create => exact hacquire _ hstep
      | restart replayId => exact hacquire _ hstep
      | play replayId =>
        cases hstep
        exact (afterSection_aside hne play_aside).call
      | pause replayId =>
        cases hstep
        exact (afterSection_aside hne pause_aside).call
      | step replayId =>
        cases hstep
        exact (afterSection_aside hne stepReplay_aside).call
    · cases hstep
  | call c' o hex =>
    have hne : c' ≠ c := fun hc => hcall o hex (by rw [hc])
    change ReplayLifecycle.callStep b c' o hex = some b' at hstep
    unfold ReplayLifecycle.callStep at hstep
    split at hstep
    · cases hstep
    · rename_i r event _
      cases hstep
      exact (Function.update_of_ne hne.symm ..).trans (Aside.published (b := b) ⟨rfl, rfl, rfl⟩ r event o).call
    · cases hstep
      exact createStep_calls hne _ o hex _
    · cases hstep
      exact (afterSection_aside hne play_aside).call
    · split at hstep <;> cases hstep <;> exact Function.update_of_ne hne.symm ..
    · split at hstep <;> cases hstep <;> exact Function.update_of_ne hne.symm ..
    · cases hstep
      exact Function.update_of_ne hne.symm ..
  | worker w m => exact (workerStep_aside hstep).call

/-- Other calls and the workers leave the restart and the registry alone, as it holds the lock. -/
theorem since_other {s₀ b b' : ReplayLifecycle.State} (hkept : Kept b) (h : Since s₀ replayId b (b.calls c))
    {m : ReplayLifecycle.Move} (hrequest : ∀ q, m ≠ .request c q) (hcall : ∀ o hex, m ≠ .call c o hex)
    (hstep : ReplayLifecycle.step b m = some b') : Since s₀ replayId b' (b'.calls c) := by
  by_cases hlocked : (b.calls c).locked = true
  · have hown := hkept.locked c hlocked
    refine h.aside ?_
    cases m with
    | request c' q => exact request_aside (fun hc => hrequest q (by rw [hc])) hown hstep
    | call c' o hex => exact callStep_aside hkept (fun hc => hcall o hex (by rw [hc])) hown hstep
    | worker w m => exact workerStep_aside hstep
  · rw [step_calls hrequest hcall hstep]
    cases hplace : b.calls c with
    | idle => trivial
    | publishing r event => trivial
    | creating place restarting => exact absurd (by rw [hplace]; rfl) hlocked
    | playing id => exact absurd (by rw [hplace]; rfl) hlocked
    | cancelling id => exact absurd (by rw [hplace]; rfl) hlocked
    | joining id r => exact absurd (by rw [hplace]; rfl) hlocked
    | dropping id => exact absurd (by rw [hplace]; rfl) hlocked

theorem since_step {s₀ : ReplayLifecycle.State} (hkept : Kept s.base) (h : Since s₀ replayId s.base (s.base.calls c))
    {m : Move} (hm : m.begins ≠ some c) (hstep : step catalog s m = some s') :
    Since s₀ replayId s'.base (s'.base.calls c) := by
  obtain ⟨m', hbase, hrequest⟩ := step_base hstep
  by_cases hown : ∃ o hex, m' = .call c o hex
  · obtain ⟨o, hex, rfl⟩ := hown
    exact h.callStep hkept hbase
  · refine since_other hkept h (fun q hq => ?_) (fun o hex hcall => hown ⟨o, hex, hcall⟩) hbase
    exact hm (hrequest c q hq)

theorem since_run {s₀ : ReplayLifecycle.State} {ms : List Move} (hkept : Kept s.base)
    (h : Since s₀ replayId s.base (s.base.calls c)) (hms : ∀ m ∈ ms, m.begins ≠ some c)
    (hrun : run catalog s ms = some s') : Since s₀ replayId s'.base (s'.base.calls c) := by
  induction ms generalizing s with
  | nil =>
    cases hrun
    exact h
  | cons m ms ih =>
    obtain ⟨t, ht, hrest⟩ := Option.bind_eq_some_iff.mp hrun
    exact ih (step_kept hkept ht) (since_step hkept h (hms m List.mem_cons_self) ht) (fun m hm => hms m (List.mem_cons_of_mem _ hm)) hrest

/-- A restart that has begun has changed nothing yet. -/
theorem since_request {overrides : Overrides} (hstep : step catalog s (.request c (.restart replayId overrides)) = some s') :
    Since s.base replayId s'.base (s'.base.calls c) := by
  obtain ⟨base, hbase, rfl⟩ := Option.map_eq_some_iff.mp hstep
  change ReplayLifecycle.request s.base c (.restart replayId) = some base at hbase
  unfold ReplayLifecycle.request ReplayLifecycle.acquire at hbase
  split at hbase
  · dsimp only at hbase
    split at hbase
    · cases hbase
      have hcancelling : Since s.base replayId { s.base with lifecycleLock := some c } (.cancelling replayId) := ⟨rfl, rfl, rfl⟩
      exact since_setCall hcancelling
    · cases hbase
  · cases hbase

/-- A restart that raises for the settings does so with the registry emptied. -/
theorem raised_emptied {s₀ : ReplayLifecycle.State} (h : Since s₀ replayId s.base (s.base.calls c)) {e : Refusal}
    (hraised : raised catalog s c = some e) : (∃ restarting, s.base.calls c = .creating .checking restarting) ∧
      (∃ r, s₀.registry = [(replayId, r)]) ∧ s₀.activeId = some replayId ∧ s.base.registry = [] ∧ s.base.activeId = none := by
  unfold raised at hraised
  cases hplace : s.base.calls c with
  | creating place restarting =>
    rw [hplace] at hraised h
    cases place with
    | checking =>
      obtain ⟨-, hrest⟩ := h
      exact ⟨⟨restarting, rfl⟩, hrest⟩
    | registering =>
      obtain rfl : restarting = true := h
      cases hraised
    | joining _ _ => cases hraised
    | dropping _ => cases hraised
    | announcing _ => cases hraised
  | idle => rw [hplace] at hraised; cases hraised
  | publishing _ _ => rw [hplace] at hraised; cases hraised
  | playing _ => rw [hplace] at hraised; cases hraised
  | cancelling _ => rw [hplace] at hraised; cases hraised
  | joining _ _ => rw [hplace] at hraised; cases hraised
  | dropping _ => rw [hplace] at hraised; cases hraised

/-- With that the call is over. -/
theorem raised_over {restarting : Bool} (hplace : s.base.calls c = .creating .checking restarting)
    (hactive : s.base.activeId = none) (hraised : (raised catalog s c).isSome = true) {o : Outcome} {hex : String}
    (hstep : step catalog s (.call c o hex) = some s') : s'.base = s.base.finish c := by
  obtain ⟨base, hbase, rfl⟩ := Option.map_eq_some_iff.mp hstep
  rw [if_pos hraised] at hbase
  simp only [ReplayLifecycle.callStep, hplace, ReplayLifecycle.createStep, ReplayLifecycle.checkActive, hactive] at hbase
  cases hbase
  rw [hplace]
  rfl

/-- A restart that raises because of the session, its source mode or the pacing always leaves
the registry without the replay. -/
theorem refused_restart (catalog : Catalog) {ms : List Move} {s s' : State} (hrun : run catalog start ms = some s)
    {replayId : String} {e : Refusal} (h : Refused catalog replayId e s s') :
    ¬ Unchanged replayId s s' ∧ (∃ r, s.base.registry = [(replayId, r)]) ∧ s.base.activeId = some replayId ∧
      s'.base.registry = [] ∧ s'.base.activeId = none := by
  obtain ⟨c, overrides, s₁, more, s₂, o, hex, hask, hmore, hrest, hraised, hlast⟩ := h
  have hkept := run_kept ReplayLifecycle.kept_start hrun
  have hsince := since_run (step_kept hkept hask) (since_request hask) hmore hrest
  obtain ⟨⟨restarting, hplace⟩, hone, hactive, hnil, hnone⟩ := raised_emptied hsince hraised
  have hover := raised_over hplace hnone (by rw [hraised]; rfl) hlast
  have hgone : s'.base.registry = [] := by rw [hover]; exact hnil
  refine ⟨fun hsame => ?_, hone, hactive, hgone, by rw [hover]; exact hnone⟩
  obtain ⟨r, hone⟩ := hone
  have hregistry := hsame.registry
  rw [hgone, hone] at hregistry
  cases hregistry

/-- A replay runs, and is restarted with a session that the catalog does not know. -/
def playedThenRestarted : List Move :=
  [.request 0 (.create ⟨"session", "feature_store", "max"⟩), .call 0 .returns "", .call 0 .returns "a", .call 0 .returns "",
    .request 0 (.play "a"), .worker 0 .goes, .worker 0 .goes, .worker 0 .goes, .worker 0 .goes]

def oneSession : Catalog := fun sessionId => if sessionId = "session" then some ["feature_store"] else none

def unknownSession : Overrides := ⟨some "other session", none, none⟩

/-- The restart cancels the replay, whose worker then ends. -/
def untilRefusal : List Move :=
  [.call 1 .returns "", .worker 0 .findsCancelled, .worker 0 .goes, .worker 0 .goes, .call 1 .returns "", .call 1 .returns ""]

theorem unknown_session_refused : ∃ s s', run oneSession start playedThenRestarted = some s ∧
    Refused oneSession "a" .unknownSession s s' ∧ s.base.registry = [("a", 0)] ∧ s'.base.registry = [] :=
  ⟨_, _, rfl, ⟨1, unknownSession, _, untilRefusal, _, .returns, "", rfl, by decide, rfl, by decide, rfl⟩, rfl, rfl⟩

theorem refused_restart_unknown : ∃ s s', run oneSession start playedThenRestarted = some s ∧
    Refused oneSession "a" .unknownSession s s' ∧ ¬ Unchanged "a" s s' := by
  obtain ⟨s, s', hrun, hrefused, -⟩ := unknown_session_refused
  exact ⟨s, s', hrun, hrefused, (refused_restart oneSession hrun hrefused).1⟩

/-- The replay that was running is gone. -/
theorem unknown_session_drops : ¬ ∀ s s', run oneSession start playedThenRestarted = some s →
    Refused oneSession "a" .unknownSession s s' → Unchanged "a" s s' := by
  intro h
  obtain ⟨s, s', hrun, hrefused, hone, hnil⟩ := unknown_session_refused
  have hregistry := (h s s' hrun hrefused).registry
  rw [hone, hnil] at hregistry
  cases hregistry

end Proofs

end ReplayRestart
