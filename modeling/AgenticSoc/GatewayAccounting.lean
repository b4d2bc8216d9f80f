import AgenticSoc.FindingGateway
import AgenticSoc.RiskPropagation

/-!
# The accounts of the finding gateway

Anything may be submitted: what an attribute gives, how a value compares or prints and
what a subscriber does are the submission's own. Counting comes before the steps that may
fail, so a step that fails leaves a submission without an account.
-/
namespace GatewayAccounting

open DeviceAbm FindingGateway

/-- What reading an attribute gives. -/
inductive Read (α : Type) where
  | absent
  | raises (error : String)
  | value (a : α)

/-- The value of a finding type: a text, or an object with its answer to the comparison
with the two names and to being printed. -/
inductive TypeName where
  | text (s : String)
  | object (equal : Except String Bool) (printed : Except String Unit)

/-- What may stand as an entity: a text, another value that can be a key, or one that cannot. -/
inductive EntityName where
  | text (s : String)
  | stranger
  | unhashable

inductive Kind where
  | network | behavior
  deriving DecidableEq

/-- What the gateway reads of an object. The kind is what the instance tests tell; an object
that they raise for counts as none. -/
structure Submission (F : Type) where
  kind : Option Kind
  findingType : Read TypeName
  timestampUtc : Read (Option String)
  entityId : Read EntityName
  windowId : Read Int
  score : Read F
  sourceModel : Read Unit
  provenance : Read Unit

section Model

variable {F σ : Type}

def Read.get {α : Type} (name : String) : Read α → Except String α
  | .absent => .error ("AttributeError: " ++ name)
  | .raises e => .error e
  | .value a => .ok a

/-- The comparison of the type with the names of the findings. -/
def Submission.named (x : Submission F) : Except String Bool :=
  match x.findingType with
  | .absent => .ok false
  | .raises e => .error e
  | .value (.text s) => .ok (s = "NetworkFinding" || s = "BehaviorFinding")
  | .value (.object equal _) => equal

def Submission.printed (x : Submission F) : Except String Unit :=
  match x.findingType with
  | .value (.object _ printed) => printed
  | _ => .ok ()

/-- The text of the timestamp, when it is a valid one. -/
def Submission.validTime (validTimestamp : String → Bool) (x : Submission F) : Option String :=
  match x.timestampUtc with
  | .value (some s) => if validTimestamp s then some s else none
  | _ => none

def Submission.entity (x : Submission F) : Except String (Option String) :=
  match x.entityId with
  | .value (.text s) => .ok (some s)
  | .value .stranger => .ok none
  | .value .unhashable => .error "TypeError: unhashable"
  | .raises e => .error e
  | .absent => .error "AttributeError: entity_id"

/-- The entity of a rejection, where a missing attribute is allowed. -/
def Submission.rejectedEntity (x : Submission F) : Except String Unit :=
  match x.entityId with
  | .raises e => .error e
  | _ => .ok ()

/-- What the log of accepted findings reads. -/
def Submission.logged (x : Submission F) : Except String Unit := do
  let _ ← x.windowId.get "window_id"
  let _ ← x.provenance.get "provenance"
  x.sourceModel.get "source_model"

/-! ## Evidence -/

variable [RiskNumber F]

def withWindow (w : Int) (abm : Abm F) : Abm F := { abm with currentWindowId := some (laterWindow abm.currentWindowId w) }

def noteNetworkRisk (p : F) (timestampUtc : String) (st : DeviceState F) : DeviceState F :=
  { st with networkRisk := some p, networkObserved := true, lastNetworkUpdate := some timestampUtc }

def noteNetworkWindow (p : F) (w : Int) (st : DeviceState F) : DeviceState F :=
  { st with
    lastNetworkWindow := some w
    compromised := st.compromised || (st.isProtectedAsset && RiskNumber.half ≤ p) }

def noteBehaviorRisk (p : F) (timestampUtc : String) (st : DeviceState F) : DeviceState F :=
  { st with behaviorRisk := some p, behaviorObserved := true, lastBehaviorUpdate := some timestampUtc }

def noteBehaviorWindow (w : Int) (st : DeviceState F) : DeviceState F := { st with lastBehaviorWindow := some w }

/-- Evidence for a device, field by field: what raises on the way leaves the rest undone. -/
def applyNetwork (abm : Abm F) (entityId timestampUtc : String) (x : Submission F) : Except String Unit × Abm F :=
  match x.score.get "attack_probability" with
  | .error e => (.error e, abm)
  | .ok p =>
    let abm := { abm with states := withState entityId (noteNetworkRisk p timestampUtc) abm.states }
    match x.windowId.get "window_id" with
    | .error e => (.error e, abm)
    | .ok w => (.ok (), withWindow w { abm with states := withState entityId (noteNetworkWindow p w) abm.states })

def applyBehavior (abm : Abm F) (st : DeviceState F) (timestampUtc : String) (x : Submission F) : Except String Unit × Abm F :=
  if !st.behaviorSupported then (.error ("behavior evidence for unsupported device " ++ st.nodeId), abm)
  else
    match x.score.get "deviation_score" with
    | .error e => (.error e, abm)
    | .ok p =>
      let abm := { abm with states := withState st.nodeId (noteBehaviorRisk p timestampUtc) abm.states }
      match x.windowId.get "window_id" with
      | .error e => (.error e, abm)
      | .ok w => (.ok (), withWindow w { abm with states := withState st.nodeId (noteBehaviorWindow w) abm.states })

def applyKind (abm : Abm F) (st : DeviceState F) (timestampUtc : String) (x : Submission F) :
    Kind → Except String Unit × Abm F
  | .network => applyNetwork abm st.nodeId timestampUtc x
  | .behavior => applyBehavior abm st timestampUtc x

/-! ## The call -/

/-- A subscriber sees the finding and may raise; it has a state of its own and the gateway. -/
abbrev Subscriber (F σ : Type) := Submission F → Gateway F × σ → Except String Unit × (Gateway F × σ)

/-- The subscribers in turn, up to the first that raises. -/
def notify (x : Submission F) : List (Subscriber F σ) → Gateway F × σ → Except String Unit × (Gateway F × σ)
  | [], s => (.ok (), s)
  | callback :: rest, s =>
    match callback x s with
    | (.error e, s') => (.error e, s')
    | (.ok (), s') => notify x rest s'

def countAccepted (stats : GatewayStats) : Kind → GatewayStats
  | .network => { stats with acceptedNetwork := stats.acceptedNetwork + 1 }
  | .behavior => { stats with acceptedBehavior := stats.acceptedBehavior + 1 }

def rejectSchema (stats : GatewayStats) : GatewayStats := { stats with rejectedSchema := stats.rejectedSchema + 1 }
def rejectTimestamp (stats : GatewayStats) : GatewayStats := { stats with rejectedTimestamp := stats.rejectedTimestamp + 1 }
def rejectUnknown (stats : GatewayStats) : GatewayStats :=
  { stats with rejectedUnknownEntity := stats.rejectedUnknownEntity + 1 }

/-- The end of a rejection, once it is counted. -/
def rejected (g : Gateway F) (s : σ) (logged : Except String Unit) : Except String Bool × (Gateway F × σ) :=
  (logged.map fun _ => false, (g, s))

/-- The evidence, the account, the log and the subscribers. -/
def accept (subscribers : List (Subscriber F σ)) (g : Gateway F) (s : σ) (st : DeviceState F) (timestampUtc : String)
    (k : Kind) (x : Submission F) : Except String Bool × (Gateway F × σ) :=
  match applyKind g.abm st timestampUtc x k with
  | (.error e, abm) => (.error e, ({ g with abm := abm }, s))
  | (.ok (), abm) =>
    let g := ⟨abm, countAccepted g.stats k⟩
    match x.logged with
    | .error e => (.error e, (g, s))
    | .ok () =>
      match notify x subscribers (g, s) with
      | (.error e, s') => (.error e, s')
      | (.ok (), s') => (.ok true, s')

def submit (validTimestamp : String → Bool) (subscribers : List (Subscriber F σ)) (state : Gateway F × σ)
    (x : Submission F) : Except String Bool × (Gateway F × σ) :=
  let (g, s) := state
  let stats := { g.stats with submitted := g.stats.submitted + 1 }
  match x.named with
  | .error e => (.error e, ({ g with stats := stats }, s))
  | .ok false => rejected { g with stats := rejectSchema stats } s x.printed
  | .ok true =>
    match x.validTime validTimestamp with
    | none => rejected { g with stats := rejectTimestamp stats } s x.rejectedEntity
    | some timestampUtc =>
      match x.kind with
      | none => (.ok false, ({ g with stats := rejectSchema stats }, s))
      | some k =>
        match x.entity with
        | .error e => (.error e, ({ g with stats := stats }, s))
        | .ok entityId =>
          match entityId.bind g.abm.resolve with
          | none => (.ok false, ({ g with stats := rejectUnknown stats }, s))
          | some st => accept subscribers { g with stats := stats } s st timestampUtc k x

def run (validTimestamp : String → Bool) (subscribers : List (Subscriber F σ)) (start : Gateway F × σ)
    (xs : List (Submission F)) : Gateway F × σ :=
  xs.foldl (fun s x => (submit validTimestamp subscribers s x).2) start

/-! ## What a call should do -/

/-- Every submission has an account. -/
def Balanced (stats : GatewayStats) : Prop :=
  stats.submitted = stats.acceptedNetwork + stats.acceptedBehavior + stats.rejectedSchema + stats.rejectedTimestamp +
    stats.rejectedUnknownEntity

/-- A device without the fields of one kind of evidence. -/
def withoutKind : Kind → DeviceState F → DeviceState F
  | .network, st =>
    { st with
      networkRisk := none
      networkObserved := false
      lastNetworkUpdate := none
      lastNetworkWindow := none
      compromised := false }
  | .behavior, st =>
    { st with
      behaviorRisk := none
      behaviorObserved := false
      lastBehaviorUpdate := none
      lastBehaviorWindow := none }

/-- Beside the current window only the fields of this kind of evidence of this device differ. -/
structure OnlyEvidence (k : Kind) (entityId : String) (abm abm' : Abm F) : Prop where
  rest : { abm' with states := [], currentWindowId := none } = { abm with states := [], currentWindowId := none }
  states : List.Forall₂ (fun st st' => withoutKind k st' = withoutKind k st ∧ (st.nodeId ≠ entityId → st' = st))
    abm.states abm'.states

/-- The device and the kind of a submission that is accepted if nothing fails. -/
def Acceptable (validTimestamp : String → Bool) (g : Gateway F) (x : Submission F) (k : Kind) (st : DeviceState F)
    (timestampUtc : String) : Prop :=
  x.named = .ok true ∧ x.validTime validTimestamp = some timestampUtc ∧ x.kind = some k ∧
    ∃ entityId, x.entityId = .value (.text entityId) ∧ g.abm.resolve entityId = some st

/-- The gateway before the subscribers see an accepted submission. -/
def accepted (g : Gateway F) (st : DeviceState F) (timestampUtc : String) (k : Kind) (x : Submission F) : Gateway F :=
  ⟨(applyKind g.abm st timestampUtc x k).2, countAccepted { g.stats with submitted := g.stats.submitted + 1 } k⟩

/-- Nothing that the call does outside its guards raises. -/
structure Silent (validTimestamp : String → Bool) (subscribers : List (Subscriber F σ)) (state : Gateway F × σ)
    (x : Submission F) : Prop where
  named : ∃ b, x.named = .ok b
  printed : x.named = .ok false → x.printed = .ok ()
  rejectedEntity : x.named = .ok true → x.validTime validTimestamp = none → x.rejectedEntity = .ok ()
  entity : ∀ t, x.named = .ok true → x.validTime validTimestamp = some t → x.kind ≠ none → ∃ e, x.entity = .ok e
  score : ∀ k st t, Acceptable validTimestamp state.1 x k st t → ∃ p, x.score = .value p
  window : ∀ k st t, Acceptable validTimestamp state.1 x k st t → ∃ w, x.windowId = .value w
  logged : ∀ k st t, Acceptable validTimestamp state.1 x k st t → x.provenance = .value () ∧ x.sourceModel = .value ()
  supported : ∀ st t, Acceptable validTimestamp state.1 x .behavior st t → st.behaviorSupported = true
  heard : ∀ k st t, Acceptable validTimestamp state.1 x k st t →
    (notify x subscribers (accepted state.1 st t k x, state.2)).1 = .ok ()

/-- Nothing raises, and the subscribers leave the gateway as it is. -/
structure Quiet (validTimestamp : String → Bool) (subscribers : List (Subscriber F σ)) (state : Gateway F × σ)
    (x : Submission F) : Prop extends Silent validTimestamp subscribers state x where
  untouched : ∀ k st t, Acceptable validTimestamp state.1 x k st t →
    (notify x subscribers (accepted state.1 st t k x, state.2)).2.1 = accepted state.1 st t k x

/-- The call returns and is accounted for; a rejection leaves the devices as they were, and
an accepted finding changes the evidence of its kind of its device. -/
structure Accounted (g g' : Gateway F) (x : Submission F) (answer : Except String Bool) : Prop where
  returns : ∃ b, answer = .ok b
  balanced : Balanced g'.stats
  rejected : answer = .ok false → g'.abm = g.abm
  accepted : answer = .ok true → ∃ k entityId, x.kind = some k ∧ x.entityId = .value (.text entityId) ∧
    OnlyEvidence k entityId g.abm g'.abm

/-! ## Evidence keeps to its fields -/

omit [RiskNumber F] in
theorem onlyEvidence_refl (k : Kind) (entityId : String) (abm : Abm F) : OnlyEvidence k entityId abm abm :=
  ⟨rfl, List.forall₂_same.mpr fun _ _ => ⟨rfl, fun _ => rfl⟩⟩

omit [RiskNumber F] in
theorem OnlyEvidence.window {k : Kind} {entityId : String} {abm abm' : Abm F} (h : OnlyEvidence k entityId abm abm')
    (w : Option Int) : OnlyEvidence k entityId abm { abm' with currentWindowId := w } :=
  ⟨h.rest, h.states⟩

omit [RiskNumber F] in
/-- A change of one device that keeps to the fields of the evidence. -/
theorem OnlyEvidence.change {k : Kind} {entityId : String} {abm abm' : Abm F} (h : OnlyEvidence k entityId abm abm')
    {f : DeviceState F → DeviceState F} (hf : ∀ st, withoutKind k (f st) = withoutKind k st) :
    OnlyEvidence k entityId abm { abm' with states := withState entityId f abm'.states } := by
  refine ⟨h.rest, ?_⟩
  rw [withState, List.forall₂_map_right_iff]
  refine h.states.imp fun st st' hst => ?_
  have hnode : st'.nodeId = st.nodeId := by
    have hkept := congrArg DeviceState.nodeId hst.1
    cases k <;> exact hkept
  split
  · rename_i hsame
    exact ⟨(hf st').trans hst.1, fun hother => absurd (hnode.symm.trans hsame) hother⟩
  · exact hst

theorem applyKind_only (abm : Abm F) {st : DeviceState F} (timestampUtc : String) {x : Submission F} (k : Kind) :
    OnlyEvidence k st.nodeId abm (applyKind abm st timestampUtc x k).2 := by
  have hstart := onlyEvidence_refl k st.nodeId abm
  cases k with
  | network =>
    simp only [applyKind, applyNetwork]
    split
    · exact hstart
    · rename_i p _
      have hrisk := hstart.change (f := noteNetworkRisk p timestampUtc) fun _ => rfl
      split
      · exact hrisk
      · exact (hrisk.change (f := noteNetworkWindow _ _) fun _ => rfl).window _
  | behavior =>
    simp only [applyKind, applyBehavior]
    split
    · exact hstart
    · split
      · exact hstart
      · rename_i p _
        have hrisk := hstart.change (f := noteBehaviorRisk p timestampUtc) fun _ => rfl
        split
        · exact hrisk
        · exact (hrisk.change (f := noteBehaviorWindow _) fun _ => rfl).window _

/-- Evidence with readable numbers for a device that takes it is applied. -/
theorem applyKind_ok (abm : Abm F) {st : DeviceState F} (timestampUtc : String) {x : Submission F} {k : Kind} {p : F} {w : Int}
    (hp : x.score = .value p) (hw : x.windowId = .value w) (hk : k = .behavior → st.behaviorSupported = true) :
    (applyKind abm st timestampUtc x k).1 = .ok () := by
  cases k with
  | network => simp only [applyKind, applyNetwork, hp, hw, Read.get]
  | behavior => simp only [applyKind, applyBehavior, hp, hw, hk rfl, Read.get, Bool.not_true, if_false, Bool.false_eq_true]

omit [RiskNumber F] in
theorem entity_some {x : Submission F} {entityId : String} (h : x.entity = .ok (some entityId)) :
    x.entityId = .value (.text entityId) := by
  unfold Submission.entity at h
  split at h <;> cases h
  assumption

omit [RiskNumber F] in
theorem resolve_nodeId {abm : Abm F} {entityId : String} {st : DeviceState F} (h : abm.resolve entityId = some st) :
    st.nodeId = entityId := by
  simpa using List.find?_some h

/-! ## One call -/

section Call

variable {validTimestamp : String → Bool} {subscribers : List (Subscriber F σ)} {g : Gateway F} {s : σ} {x : Submission F}

theorem accept_answer {k : Kind} {st : DeviceState F} {t : String} (hacceptable : Acceptable validTimestamp g x k st t)
    (h : Silent validTimestamp subscribers (g, s) x) :
    accept subscribers { g with stats := { g.stats with submitted := g.stats.submitted + 1 } } s st t k x =
      (.ok true, (notify x subscribers (accepted g st t k x, s)).2) := by
  obtain ⟨p, hp⟩ := h.score k st t hacceptable
  obtain ⟨w, hw⟩ := h.window k st t hacceptable
  obtain ⟨hprovenance, hsource⟩ := h.logged k st t hacceptable
  have hsupported : k = .behavior → st.behaviorSupported = true := by
    rintro rfl
    exact h.supported st t hacceptable
  have happly : applyKind g.abm st t x k = (.ok (), (applyKind g.abm st t x k).2) :=
    Prod.ext (applyKind_ok g.abm t hp hw hsupported) rfl
  have hlogged : x.logged = .ok () := by
    simp only [Submission.logged, hw, hprovenance, hsource, Read.get]
    rfl
  have hnotify : notify x subscribers (⟨(applyKind g.abm st t x k).2,
      countAccepted { g.stats with submitted := g.stats.submitted + 1 } k⟩, s) =
        (.ok (), (notify x subscribers (accepted g st t k x, s)).2) := Prod.ext (h.heard k st t hacceptable) rfl
  simp only [accept]
  rw [happly]
  dsimp only
  rw [hlogged]
  dsimp only
  rw [hnotify]

/-- A silent call counts one rejection, or accepts and calls the subscribers. -/
theorem submit_silent (h : Silent validTimestamp subscribers (g, s) x) :
    (∃ reject ∈ [rejectSchema, rejectTimestamp, rejectUnknown], submit validTimestamp subscribers (g, s) x =
      (.ok false, ({ g with stats := reject { g.stats with submitted := g.stats.submitted + 1 } }, s))) ∨
    ∃ k st t, Acceptable validTimestamp g x k st t ∧ submit validTimestamp subscribers (g, s) x =
      (.ok true, (notify x subscribers (accepted g st t k x, s)).2) := by
  obtain ⟨b, hnamed⟩ := h.named
  cases b with
  | false =>
    refine .inl ⟨rejectSchema, by simp, ?_⟩
    simp only [submit, hnamed, rejected, h.printed hnamed]
    rfl
  | true =>
    cases htime : x.validTime validTimestamp with
    | none =>
      refine .inl ⟨rejectTimestamp, by simp, ?_⟩
      simp only [submit, hnamed, htime, rejected, h.rejectedEntity hnamed htime]
      rfl
    | some t =>
      cases hkind : x.kind with
      | none =>
        refine .inl ⟨rejectSchema, by simp, ?_⟩
        simp only [submit, hnamed, htime, hkind]
      | some k =>
        obtain ⟨e, hentity⟩ := h.entity t hnamed htime (by rw [hkind]; nofun)
        cases hresolve : e.bind g.abm.resolve with
        | none =>
          refine .inl ⟨rejectUnknown, by simp, ?_⟩
          simp only [submit, hnamed, htime, hkind, hentity, hresolve]
        | some st =>
          obtain ⟨entityId, rfl, hst⟩ := Option.bind_eq_some_iff.mp hresolve
          have hacceptable : Acceptable validTimestamp g x k st t :=
            ⟨hnamed, htime, hkind, entityId, entity_some hentity, hst⟩
          refine .inr ⟨k, st, t, hacceptable, ?_⟩
          simp only [submit, hnamed, htime, hkind, hentity, hresolve]
          exact accept_answer hacceptable h

omit [RiskNumber F] in
/-- Each way of rejecting keeps the account. -/
theorem rejected_balanced {reject : GatewayStats → GatewayStats} (hreject : reject ∈ [rejectSchema, rejectTimestamp, rejectUnknown])
    (hbalanced : Balanced g.stats) : Balanced (reject { g.stats with submitted := g.stats.submitted + 1 }) := by
  simp only [List.mem_cons, List.not_mem_nil, or_false] at hreject
  rcases hreject with rfl | rfl | rfl <;>
    simp only [Balanced, rejectSchema, rejectTimestamp, rejectUnknown] at hbalanced ⊢ <;> omega

/-- A quiet call is accounted for. -/
theorem submit_accounted (hbalanced : Balanced g.stats) (h : Quiet validTimestamp subscribers (g, s) x) :
    Accounted g (submit validTimestamp subscribers (g, s) x).2.1 x (submit validTimestamp subscribers (g, s) x).1 := by
  rcases submit_silent h.toSilent with ⟨reject, hreject, hanswer⟩ | ⟨k, st, t, hacceptable, hanswer⟩
  · rw [hanswer]
    exact ⟨⟨false, rfl⟩, rejected_balanced hreject hbalanced, fun _ => rfl, nofun⟩
  · have huntouched := h.untouched k st t hacceptable
    obtain ⟨-, -, hkind, entityId, hentity, hresolve⟩ := hacceptable
    rw [hanswer]
    dsimp only at huntouched ⊢
    rw [huntouched]
    refine ⟨⟨true, rfl⟩, ?_, nofun, fun _ => ⟨k, entityId, hkind, hentity, ?_⟩⟩
    · cases k <;> simp only [Balanced, accepted, countAccepted] at hbalanced ⊢ <;> omega
    · have honly : OnlyEvidence k st.nodeId g.abm (applyKind g.abm st t x k).2 := applyKind_only g.abm t k
      rw [resolve_nodeId hresolve] at honly
      exact honly

/-! ### What a call that returns tells -/

omit [RiskNumber F] in
theorem Read.get_ok {α : Type} {name : String} {r : Read α} {a : α} (h : r.get name = .ok a) : r = .value a := by
  cases r with
  | absent => cases h
  | raises e => cases h
  | value b => cases h; rfl

theorem applyKind_returns {abm : Abm F} {st : DeviceState F} {t : String} {k : Kind}
    (h : (applyKind abm st t x k).1 = .ok ()) : (∃ p, x.score = .value p) ∧ (∃ w, x.windowId = .value w) ∧
      (k = .behavior → st.behaviorSupported = true) := by
  cases k with
  | network =>
    simp only [applyKind, applyNetwork] at h
    split at h
    · cases h
    · rename_i p hp
      split at h
      · cases h
      · rename_i w hw
        exact ⟨⟨p, Read.get_ok hp⟩, ⟨w, Read.get_ok hw⟩, nofun⟩
  | behavior =>
    simp only [applyKind, applyBehavior] at h
    split at h
    · cases h
    · rename_i hsupported
      split at h
      · cases h
      · rename_i p hp
        split at h
        · cases h
        · rename_i w hw
          exact ⟨⟨p, Read.get_ok hp⟩, ⟨w, Read.get_ok hw⟩, fun _ => by simpa using hsupported⟩

omit [RiskNumber F] in
theorem logged_returns {w : Int} (hw : x.windowId = .value w) (h : x.logged = .ok ()) :
    x.provenance = .value () ∧ x.sourceModel = .value () := by
  simp only [Submission.logged, hw, Read.get] at h
  cases hp : x.provenance with
  | absent => rw [hp] at h; cases h
  | raises e => rw [hp] at h; cases h
  | value u =>
    refine ⟨rfl, ?_⟩
    cases hs : x.sourceModel with
    | absent => rw [hp, hs] at h; cases h
    | raises e => rw [hp, hs] at h; cases h
    | value u => rfl

theorem accept_returns {stats : GatewayStats} {st : DeviceState F} {t : String} {k : Kind} {b : Bool}
    (h : (accept subscribers ⟨g.abm, stats⟩ s st t k x).1 = .ok b) :
    (applyKind g.abm st t x k).1 = .ok () ∧ x.logged = .ok () ∧
      (notify x subscribers (⟨(applyKind g.abm st t x k).2, countAccepted stats k⟩, s)).1 = .ok () := by
  simp only [accept] at h
  split at h
  · cases h
  · rename_i abm happly
    rw [happly]
    split at h
    · cases h
    · rename_i hlogged
      split at h
      · cases h
      · rename_i s' hnotify
        exact ⟨rfl, hlogged, congrArg Prod.fst hnotify⟩

/-- The device and the kind of an acceptable submission are the ones that the call finds. -/
theorem silent_of_accept {k : Kind} {st : DeviceState F} {t entityId : String}
    (hnamed : x.named = .ok true) (htime : x.validTime validTimestamp = some t) (hkind : x.kind = some k)
    (hentity : x.entityId = .value (.text entityId)) (hst : g.abm.resolve entityId = some st)
    (happly : (applyKind g.abm st t x k).1 = .ok ()) (hlogged : x.logged = .ok ())
    (hnotify : (notify x subscribers (accepted g st t k x, s)).1 = .ok ()) :
    Silent validTimestamp subscribers (g, s) x := by
  obtain ⟨hscore, ⟨w, hw⟩, hsupported⟩ := applyKind_returns happly
  have hsame : ∀ k' st' t', Acceptable validTimestamp g x k' st' t' → k' = k ∧ st' = st ∧ t' = t := by
    rintro k' st' t' ⟨-, htime', hkind', entityId', hentity', hst'⟩
    rw [htime] at htime'
    rw [hkind] at hkind'
    rw [hentity] at hentity'
    cases htime'
    cases hkind'
    cases hentity'
    rw [hst] at hst'
    cases hst'
    exact ⟨rfl, rfl, rfl⟩
  refine ⟨⟨true, hnamed⟩, fun h => ?_, fun _ h => ?_, fun _ _ _ _ => ⟨some entityId, ?_⟩, fun _ _ _ _ => hscore,
    fun _ _ _ _ => ⟨w, hw⟩, fun _ _ _ _ => logged_returns hw hlogged, fun st' t' h => ?_, fun k' st' t' h => ?_⟩
  · rw [hnamed] at h
    cases h
  · rw [htime] at h
    cases h
  · simp only [Submission.entity, hentity]
  · obtain ⟨rfl, rfl, -⟩ := hsame _ _ _ h
    exact hsupported rfl
  · obtain ⟨rfl, rfl, rfl⟩ := hsame _ _ _ h
    exact hnotify

omit [RiskNumber F] in
/-- A rejection returns when its log does not fail. -/
theorem rejected_returns {logged : Except String Unit} {b : Bool} (h : (rejected g s logged).1 = .ok b) :
    logged = .ok () := by
  cases logged with
  | error e => cases h
  | ok u => rfl

/-- A call returns when nothing outside its guards raises. -/
theorem returns_iff : (∃ b, (submit validTimestamp subscribers (g, s) x).1 = .ok b) ↔
    Silent validTimestamp subscribers (g, s) x := by
  constructor
  · rintro ⟨b, h⟩
    simp only [submit] at h
    cases hnamed : x.named with
    | error e =>
      rw [hnamed] at h
      cases h
    | ok isNamed =>
      cases isNamed with
      | false =>
        simp only [hnamed] at h
        have hunnamed : ¬ (Except.ok false : Except String Bool) = .ok true := nofun
        refine ⟨⟨false, hnamed⟩, fun _ => rejected_returns h, ?_, ?_, ?_, ?_, ?_, ?_, ?_⟩ <;>
          simp only [Acceptable, hnamed, hunnamed, false_and, IsEmpty.forall_iff, implies_true]
      | true =>
        simp only [hnamed] at h
        have hprinted : ¬ x.named = .ok false := by
          rw [hnamed]
          nofun
        cases htime : x.validTime validTimestamp with
        | none =>
          simp only [htime] at h
          refine ⟨⟨true, hnamed⟩, fun hn => absurd hn hprinted, fun _ _ => rejected_returns h, ?_, ?_, ?_, ?_, ?_, ?_⟩ <;>
            simp only [Acceptable, htime, reduceCtorEq, false_and, and_false, IsEmpty.forall_iff, implies_true]
        | some t =>
          simp only [htime] at h
          cases hkind : x.kind with
          | none =>
            refine ⟨⟨true, hnamed⟩, fun hn => absurd hn hprinted, ?_, ?_, ?_, ?_, ?_, ?_, ?_⟩ <;>
              simp [Acceptable, htime, hkind]
          | some k =>
            simp only [hkind] at h
            cases hentity : x.entity with
            | error e =>
              rw [hentity] at h
              cases h
            | ok e =>
              simp only [hentity] at h
              cases hresolve : e.bind g.abm.resolve with
              | none =>
                have hnone : ∀ k st t, ¬ Acceptable validTimestamp g x k st t := by
                  rintro k st t ⟨-, -, -, entityId, hid, hst⟩
                  simp only [Submission.entity, hid] at hentity
                  cases hentity
                  rw [Option.bind_some, hst] at hresolve
                  cases hresolve
                refine ⟨⟨true, hnamed⟩, fun hn => absurd hn hprinted, fun _ ht => ?_, fun _ _ _ _ => ⟨e, hentity⟩,
                  fun _ _ _ ha => absurd ha (hnone _ _ _), fun _ _ _ ha => absurd ha (hnone _ _ _),
                  fun _ _ _ ha => absurd ha (hnone _ _ _), fun _ _ ha => absurd ha (hnone _ _ _),
                  fun _ _ _ ha => absurd ha (hnone _ _ _)⟩
                rw [htime] at ht
                cases ht
              | some st =>
                simp only [hresolve] at h
                obtain ⟨entityId, rfl, hst⟩ := Option.bind_eq_some_iff.mp hresolve
                obtain ⟨happly, hlogged, hnotify⟩ := accept_returns h
                exact silent_of_accept hnamed htime hkind (entity_some hentity) hst happly hlogged hnotify
  · intro h
    rcases submit_silent h with ⟨reject, -, hanswer⟩ | ⟨k, st, t, -, hanswer⟩
    · exact ⟨false, congrArg Prod.fst hanswer⟩
    · exact ⟨true, congrArg Prod.fst hanswer⟩

end Call

/-! ## Runs -/

section Runs

variable (validTimestamp : String → Bool) (subscribers : List (Subscriber F σ))

theorem run_append (start : Gateway F × σ) (xs : List (Submission F)) (x : Submission F) :
    run validTimestamp subscribers start (xs ++ [x]) =
      (submit validTimestamp subscribers (run validTimestamp subscribers start xs) x).2 := by
  rw [run, List.foldl_append]
  rfl

/-- Every call of the run is quiet when it is made. -/
def QuietRun (start : Gateway F × σ) (xs : List (Submission F)) : Prop :=
  ∀ before x after, xs = before ++ x :: after →
    Quiet validTimestamp subscribers (run validTimestamp subscribers start before) x

theorem run_balanced {start : Gateway F × σ} (hstart : Balanced start.1.stats) (xs : List (Submission F)) :
    QuietRun validTimestamp subscribers start xs → Balanced (run validTimestamp subscribers start xs).1.stats := by
  induction xs using List.reverseRecOn with
  | nil => exact fun _ => hstart
  | append_singleton xs x ih =>
    intro hquiet
    have hbefore : QuietRun validTimestamp subscribers start xs := by
      intro before y after hxs
      exact hquiet before y (after ++ [x]) (by rw [hxs, List.append_assoc, List.cons_append])
    rw [run_append]
    exact (submit_accounted (ih hbefore) (hquiet xs x [] rfl)).balanced

/-- A call returns when nothing outside its guards raises. In a run of such calls whose
subscribers leave the gateway as it is every submission is accounted for, and changes no
more than its evidence. -/
theorem every_submission_accounted (start : Gateway F × σ) (hstart : Balanced start.1.stats) (xs : List (Submission F)) :
    (∀ state x, (∃ b, (submit validTimestamp subscribers state x).1 = .ok b) ↔
      Silent validTimestamp subscribers state x) ∧
    (QuietRun validTimestamp subscribers start xs → ∀ before x after, xs = before ++ x :: after →
      let s := run validTimestamp subscribers start before
      Accounted s.1 (submit validTimestamp subscribers s x).2.1 x (submit validTimestamp subscribers s x).1) := by
  refine ⟨fun _ _ => returns_iff, ?_⟩
  intro hquiet before x after hxs
  have hbefore : QuietRun validTimestamp subscribers start before := by
    intro first y rest hsplit
    exact hquiet first y (rest ++ x :: after) (by rw [hxs, hsplit, List.append_assoc, List.cons_append])
  exact submit_accounted (run_balanced validTimestamp subscribers hstart before hbefore) (hquiet before x after hxs)

end Runs

/-! ## Findings -/

def ofFinding : Finding F → Submission F
  | .network f =>
    { kind := some .network
      findingType := .value (.text "NetworkFinding")
      timestampUtc := .value (some f.timestampUtc)
      entityId := .value (.text f.entityId)
      windowId := .value f.windowId
      score := .value f.attackProbability
      sourceModel := .value ()
      provenance := .value () }
  | .behavior f =>
    { kind := some .behavior
      findingType := .value (.text "BehaviorFinding")
      timestampUtc := .value (some f.timestampUtc)
      entityId := .value (.text f.entityId)
      windowId := .value f.windowId
      score := .value f.deviationScore
      sourceModel := .value ()
      provenance := .value () }

omit [RiskNumber F] in
theorem withState_withState {entityId : String} {f f' : DeviceState F → DeviceState F} {states : List (DeviceState F)}
    (hf : ∀ st, (f st).nodeId = st.nodeId) :
    withState entityId f' (withState entityId f states) = withState entityId (fun st => f' (f st)) states := by
  simp only [withState, List.map_map]
  refine List.map_congr_left fun st _ => ?_
  by_cases hst : st.nodeId = entityId
  · simp [hst, hf st]
  · simp [hst]

theorem applyNetwork_finding (abm : Abm F) {st : DeviceState F} (f : NetworkFinding F) (hst : abm.resolve f.entityId = some st) :
    applyNetworkEvidence abm f = .ok (applyNetwork abm st.nodeId f.timestampUtc (ofFinding (.network f))).2 := by
  have hboth : withState f.entityId (noteNetworkWindow f.attackProbability f.windowId)
      (withState f.entityId (noteNetworkRisk f.attackProbability f.timestampUtc) abm.states) =
        withState f.entityId (DeviceState.noteNetwork f) abm.states := withState_withState fun _ => rfl
  simp only [applyNetworkEvidence, hst, applyNetwork, ofFinding, Read.get, resolve_nodeId hst, hboth, withWindow]

omit [RiskNumber F] in
theorem applyBehavior_finding (abm : Abm F) {st : DeviceState F} (f : BehaviorFinding F) (hst : abm.resolve f.entityId = some st)
    (hsupported : st.behaviorSupported = true) :
    applyBehaviorEvidence abm f = .ok (applyBehavior abm st f.timestampUtc (ofFinding (.behavior f))).2 := by
  have hboth : withState f.entityId (noteBehaviorWindow f.windowId)
      (withState f.entityId (noteBehaviorRisk f.deviationScore f.timestampUtc) abm.states) =
        withState f.entityId (DeviceState.noteBehavior f) abm.states := withState_withState fun _ => rfl
  simp only [applyBehaviorEvidence, hst, applyBehavior, ofFinding, Read.get, resolve_nodeId hst, hboth, withWindow, hsupported,
    Bool.not_true, Bool.false_eq_true, if_false]

/-- Without subscribers a validated finding is taken as the gateway of findings takes it. -/
theorem submit_ofFinding (validTimestamp : String → Bool) (g : Gateway F) (f : Finding F) :
    (submit validTimestamp [] (g, ()) (ofFinding f)).1 = (FindingGateway.submit validTimestamp g (.finding f)).2 ∧
      (submit validTimestamp [] (g, ()) (ofFinding f)).2.1 = (FindingGateway.submit validTimestamp g (.finding f)).1 := by
  cases f with
  | network f =>
    by_cases hvalid : validTimestamp f.timestampUtc = true
    · cases hst : g.abm.resolve f.entityId with
      | none =>
        simp [submit, ofFinding, Submission.named, Submission.validTime, hvalid, Submission.entity, hst, rejectUnknown,
          FindingGateway.submit, FindingGateway.Submission.findingType, FindingGateway.Submission.timestampUtc,
          Finding.timestampUtc, Finding.entityId]
      | some st =>
        have happly := applyNetwork_finding g.abm f hst
        simp [submit, ofFinding, Submission.named, Submission.validTime, hvalid, Submission.entity, hst, accept, applyKind,
          applyNetwork, Read.get, Submission.logged, bind, Except.bind, notify, countAccepted, GatewayStats.accept,
          FindingGateway.submit, FindingGateway.Submission.findingType, FindingGateway.Submission.timestampUtc,
          Finding.timestampUtc, Finding.entityId, applyEvidence, happly]
    · simp [submit, ofFinding, Submission.named, Submission.validTime, hvalid, rejected, Submission.rejectedEntity, rejectTimestamp,
        FindingGateway.submit, FindingGateway.Submission.findingType, FindingGateway.Submission.timestampUtc,
        Finding.timestampUtc, Except.map]
  | behavior f =>
    by_cases hvalid : validTimestamp f.timestampUtc = true
    · cases hst : g.abm.resolve f.entityId with
      | none =>
        simp [submit, ofFinding, Submission.named, Submission.validTime, hvalid, Submission.entity, hst, rejectUnknown,
          FindingGateway.submit, FindingGateway.Submission.findingType, FindingGateway.Submission.timestampUtc,
          Finding.timestampUtc, Finding.entityId]
      | some st =>
        cases hsupported : st.behaviorSupported with
        | false =>
          simp [submit, ofFinding, Submission.named, Submission.validTime, hvalid, Submission.entity, hst, accept, applyKind,
            applyBehavior, hsupported, FindingGateway.submit, FindingGateway.Submission.findingType,
            FindingGateway.Submission.timestampUtc, Finding.timestampUtc, Finding.entityId, applyEvidence,
            applyBehaviorEvidence, resolve_nodeId hst]
        | true =>
          have happly := applyBehavior_finding g.abm f hst hsupported
          simp [submit, ofFinding, Submission.named, Submission.validTime, hvalid, Submission.entity, hst, accept, applyKind,
            applyBehavior, hsupported, Read.get, Submission.logged, bind, Except.bind, notify, countAccepted,
            GatewayStats.accept, FindingGateway.submit, FindingGateway.Submission.findingType,
            FindingGateway.Submission.timestampUtc, Finding.timestampUtc, Finding.entityId, applyEvidence, happly]
    · simp [submit, ofFinding, Submission.named, Submission.validTime, hvalid, rejected, Submission.rejectedEntity, rejectTimestamp,
        FindingGateway.submit, FindingGateway.Submission.findingType, FindingGateway.Submission.timestampUtc,
        Finding.timestampUtc, Except.map]

end Model

/-! ## Behaviour of a router -/

def routerState : DeviceState ℚ where
  nodeId := "router"
  role := "router"
  isProtectedAsset := true
  isAttacker := false
  behaviorSupported := false
  networkRisk := none
  behaviorRisk := none
  networkObserved := false
  behaviorObserved := false
  propagatedRisk := 0
  systemicRisk := 0
  compromised := false
  lastNetworkUpdate := none
  lastBehaviorUpdate := none
  lastNetworkWindow := none
  lastBehaviorWindow := none

def devGateway : Gateway ℚ where
  abm :=
    { params := ⟨1 / 2, 1 / 2, 3, fun _ => 1 / 2⟩
      topology := fun _ => none
      historyLimit := 8
      states := [routerState]
      history := []
      currentWindowId := none
      steps := 0 }
  stats := ⟨0, 0, 0, 0, 0, 0⟩

def routerNetwork : NetworkFinding ℚ := ⟨"router", 0, "2025-01-15T21:25:13.307Z", 9 / 10, "attack", 4 / 5⟩

def routerBehavior : BehaviorFinding ℚ :=
  ⟨"router", 1, "2025-01-15T21:25:18.307Z", 4 / 5, "continuous", 7 / 10, "cadence deviation"⟩

theorem every_submission_accounted_router :
    Accounted devGateway (submit (fun _ => true) [] (devGateway, ()) (ofFinding (.network routerNetwork))).2.1
      (ofFinding (.network routerNetwork))
      (submit (fun _ => true) [] (devGateway, ()) (ofFinding (.network routerNetwork))).1 := by
  have hreturns : (submit (fun _ => true) [] (devGateway, ()) (ofFinding (.network routerNetwork))).1 = .ok true := by
    decide
  have hquiet : QuietRun (fun _ => true) ([] : List (Subscriber ℚ Unit)) (devGateway, ()) [ofFinding (.network routerNetwork)] := by
    intro before x after hxs
    cases before with
    | nil =>
      cases hxs
      exact ⟨(returns_iff).mp ⟨true, hreturns⟩, fun _ _ _ _ => rfl⟩
    | cons y ys => simp at hxs
  exact (every_submission_accounted (fun _ => true) [] (devGateway, ()) rfl _).2 hquiet [] _ [] rfl

/-- Behaviour evidence of a known device that has none raises, and is submitted without an account. -/
theorem unsupported_behavior_unaccounted :
    (¬ ∃ b, (submit (fun _ => true) [] (devGateway, ()) (ofFinding (.behavior routerBehavior))).1 = .ok b) ∧
    ¬ Balanced (submit (fun _ => true) [] (devGateway, ()) (ofFinding (.behavior routerBehavior))).2.1.stats := by
  have hraises : (submit (fun _ => true) [] (devGateway, ()) (ofFinding (.behavior routerBehavior))).1 =
      .error "behavior evidence for unsupported device router" := by decide
  have hstats : (submit (fun _ => true) [] (devGateway, ()) (ofFinding (.behavior routerBehavior))).2.1.stats =
      ⟨1, 0, 0, 0, 0, 0⟩ := by decide
  refine ⟨?_, ?_⟩
  · rintro ⟨b, hb⟩
    rw [hraises] at hb
    cases hb
  · rw [hstats]
    simp [Balanced]

end GatewayAccounting
