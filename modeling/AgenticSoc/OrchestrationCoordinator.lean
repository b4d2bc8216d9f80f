import AgenticSoc.OrchestrationDecision

/-!
# The coordinator

Calls of `adjudicate` and `preflight` over the shared history of rounds, and the tasks
of the replicas. One call at a time holds the adjudication lock and moves from one
critical section to the next; tasks complete, other calls preflight and the coordinator
may be shut down between any two of its moves.
-/
namespace OrchestrationCoordinator

open OrchestrationMessages OrchestrationRound OrchestrationDecision

/-- The identity of a round. -/
abbrev RoundKey := String × Int × String

structure Config where
  replicas : List String
  replicas_ids : replicas.Perm orchestratorIds
  roundHistoryLimit : Nat
  history_pos : 1 ≤ roundHistoryLimit
  keys : String → Option Bytes

/-- How a replica's task fails. -/
inductive TaskError where
  | unavailable | omitted | raised
  deriving DecidableEq, Repr

section Machine

variable {F : Type} (R : Runtime F)

/-- A round of the history; the deliberations of an open one are with its call. -/
structure Entry where
  request : Request R
  terminal : Bool

variable {R}

def keyOf (request : Request R) : RoundKey := (request.requestId, request.requestVersion, request.roundId)

def Entry.digest (e : Entry R) : String := requestDigest R e.request.toOrchestrationRequestV1

variable (R)

/-- What follows when the completed futures are consumed: the earlier tasks among them
are started anew and the loop goes on, or the round is concluded. -/
inductive After where
  | loop (restart : List Nat)
  | conclude

/-- Where the call that holds the lock stands. -/
inductive Control where
  | submitting (rest : List String)
  | refused (orchestratorId : String) (rest : List String)
  | waiting
  | consuming (todo : List Nat) (after : After)
  | voting (orchestratorId : String) (todo : List Nat) (after : After)
  | restarting (todo : List Nat)
  | collecting
  | marking

/-- The call that holds the adjudication lock. The futures stand with their replicas. -/
structure Adjudication where
  call : Nat
  key : RoundKey
  round : DecisionRound R
  proposalFutures : List (Nat × String)
  voteFutures : List (Nat × String)
  busyFutures : List (Nat × String)
  control : Control

inductive Event where
  | began (call : Nat) (request : Request R)
  | preflighted (request : Request R)
  | rejected (call : Nat) (reason : String)
  | raised (call : Nat)
  | returned (call : Nat) (key : RoundKey) (decision : OrchestrationDecisionV1)

/-- The events stand in their order. -/
structure Coordinator where
  rounds : List (RoundKey × Entry R)
  activeKeys : List RoundKey
  closed : Bool
  executorsDown : Bool
  cache : BoundedReplayCache
  inflight : String → Option Nat
  done : Nat → Bool
  nextTask : Nat
  nextCall : Nat
  running : Option (Adjudication R)
  deciding : List (Nat × RoundKey × DecisionRound R)
  log : List (Event R)

def initial (cache : BoundedReplayCache) : Coordinator R :=
  ⟨[], [], false, false, cache, fun _ => none, fun _ => false, 0, 0, none, [], []⟩

inductive Action where
  | adjudicate (request : Request R)
  | startReplica (available : Bool)
  | lookUp
  | wait (expired : Bool) (completed : List Nat)
  | consumeProposal (answer : Except TaskError (Proposal R))
  | consumeVote (answer : Except TaskError (Vote R))
  | submitVote
  | restart
  | collect (completed : List Nat)
  | conclude (expired : Bool)
  | decide (call : Nat)
  | preflight (request : Request R)
  | complete (task : Nat)
  | clearInflight (orchestratorId : String) (task : Nat)
  | shutdown
  | shutdownExecutors

variable {R}

/-! ## The history of rounds -/

/-- The oldest rounds go while there are too many and the oldest is not active. -/
def evict (limit : Nat) (active : List RoundKey) : List (RoundKey × Entry R) → List (RoundKey × Entry R)
  | [] => []
  | e :: rest =>
    if limit < rest.length + 1 then if e.1 ∈ active then e :: rest else evict limit active rest
    else e :: rest

def findRound (rounds : List (RoundKey × Entry R)) (key : RoundKey) : Option (Entry R) :=
  (rounds.find? fun e => e.1 = key).map Prod.snd

/-- The round of the request's identity with the history after it. -/
def newRound (cfg : Config) (s : Coordinator R) (request : Request R) :
    Except String (List (RoundKey × Entry R) × Entry R) :=
  match findRound s.rounds (keyOf request) with
  | some e =>
    if e.digest ≠ requestDigest R request.toOrchestrationRequestV1 then
      .error "round identity reused with different request content"
    else .ok (s.rounds, e)
  | none =>
    let e : Entry R := ⟨request, false⟩
    .ok (evict cfg.roundHistoryLimit s.activeKeys (s.rounds ++ [(keyOf request, e)]), e)

def closeRound (rounds : List (RoundKey × Entry R)) (key : RoundKey) : List (RoundKey × Entry R) :=
  rounds.map fun e => if e.1 = key then (e.1, { e.2 with terminal := true }) else e

/-! ## Tasks -/

/-- The outcome of `_submit`: the replica's task is still running, or a new one is
queued, or the executors are down. -/
inductive Submitted where
  | refused
  | queued (task : Nat)
  | failed
  deriving DecidableEq, Repr

def Coordinator.runningTask (s : Coordinator R) (orchestratorId : String) : Option Nat :=
  match s.inflight orchestratorId with
  | some t => if s.done t then none else some t
  | none => none

def Coordinator.submit (s : Coordinator R) (orchestratorId : String) : Coordinator R × Submitted :=
  match s.runningTask orchestratorId with
  | some _ => (s, .refused)
  | none =>
    if s.executorsDown then (s, .failed)
    else
      ({ s with
          inflight := fun id => if id = orchestratorId then some s.nextTask else s.inflight id
          nextTask := s.nextTask + 1 }, .queued s.nextTask)

/-! ## The moves of a call -/

def popFuture (futures : List (Nat × String)) (task : Nat) : List (Nat × String) :=
  futures.filter fun f => f.1 ≠ task

def replicaOf (futures : List (Nat × String)) (task : Nat) : Option String :=
  (futures.find? fun f => f.1 = task).map Prod.snd

def TaskError.mark : TaskError → Mark
  | .unavailable => .unavailable
  | .omitted | .raised => .omitted

def Coordinator.withRunning (s : Coordinator R) (a : Adjudication R) : Coordinator R := { s with running := some a }

/-- The call leaves by an exception: the round is closed and the lock released. -/
def Coordinator.abandon (s : Coordinator R) (a : Adjudication R) : Coordinator R :=
  { s with
    rounds := closeRound s.rounds a.key
    activeKeys := s.activeKeys.filter (· ≠ a.key)
    running := none
    log := s.log ++ [.raised a.call] }

def adjudicate (cfg : Config) (s : Coordinator R) (request : Request R) : Coordinator R :=
  let call := s.nextCall
  let s := { s with nextCall := call + 1 }
  if s.closed then { s with log := s.log ++ [.rejected call "coordinator is closed"] }
  else
    match newRound cfg s request with
    | .error reason => { s with log := s.log ++ [.rejected call reason] }
    | .ok (rounds, e) =>
      if e.terminal then
        { s with
          rounds := rounds
          log := s.log ++ [.rejected call "request/version/round is already terminal"] }
      else
        { s with
          rounds := rounds
          activeKeys := if keyOf request ∈ s.activeKeys then s.activeKeys else s.activeKeys ++ [keyOf request]
          running := some ⟨call, keyOf request, .start e.request, [], [], [], .submitting cfg.replicas⟩
          log := s.log ++ [.began call request] }

/-- The next replica gets its task, is unavailable, or is still busy. -/
def startReplica (s : Coordinator R) (a : Adjudication R) (available : Bool) : Option (Coordinator R) :=
  match a.control with
  | .submitting (id :: rest) =>
    if !available then
      some (s.withRunning { a with round := a.round.mark .unavailable id, control := .submitting rest })
    else
      match s.submit id with
      | (s', .refused) => some (s'.withRunning { a with control := .refused id rest })
      | (s', .queued t) => some (s'.withRunning
          { a with proposalFutures := a.proposalFutures ++ [(t, id)], control := .submitting rest })
      | (s', .failed) => some (s'.abandon a)
  | _ => none

/-- The task that refused the submission is looked up in a second critical section. -/
def lookUp (s : Coordinator R) (a : Adjudication R) : Option (Coordinator R) :=
  match a.control with
  | .refused id rest =>
    match s.runningTask id with
    | some t => some (s.withRunning
        { a with busyFutures := a.busyFutures ++ [(t, id)], control := .submitting rest })
    | none => some (s.withRunning { a with control := .submitting rest })
  | _ => none

def Adjudication.pending (a : Adjudication R) : List Nat :=
  (a.proposalFutures ++ a.voteFutures ++ a.busyFutures).map Prod.fst

/-- The head of the loop, reached from the submissions and from each turn. -/
def Control.atLoop : Control → Bool
  | .submitting [] | .waiting => true
  | _ => false

/-- One turn of the loop: it ends when nothing is pending, a quorum is kept, the deadline
has passed or no future completed; else the completed ones are consumed. -/
def wait (s : Coordinator R) (a : Adjudication R) (expired : Bool) (completed : List Nat) :
    Option (Coordinator R) :=
  if a.control.atLoop then
    if a.pending = [] ∨ a.round.quorumDigest ≠ none ∨ expired ∨ completed = [] then
      some (s.withRunning { a with control := .collecting })
    else if completed.all (fun t => t ∈ a.pending && s.done t) then
      let after := After.loop (completed.filter fun t => t ∈ a.busyFutures.map Prod.fst)
      some (s.withRunning { a with control := .consuming completed after })
    else none
  else none

def After.control : After → Control
  | .loop restart => .restarting restart
  | .conclude => .marking

/-- The result of a proposal's task. -/
def consumeProposal (cfg : Config) (s : Coordinator R) (a : Adjudication R)
    (answer : Except TaskError (Proposal R)) : Option (Coordinator R) :=
  match a.control with
  | .consuming (t :: todo) after =>
    match replicaOf a.proposalFutures t with
    | none => none
    | some id =>
      let a := { a with proposalFutures := popFuture a.proposalFutures t, control := .consuming todo after }
      match answer with
      | .error e => some (s.withRunning { a with round := a.round.mark e.mark id })
      | .ok m =>
        let ((round, cache), status) := acceptProposal cfg.keys a.round s.cache m
        let s := { s with cache := cache }
        let a := { a with round := round }
        if status = .accepted then some (s.withRunning { a with control := .voting id todo after })
        else some (s.withRunning a)
  | _ => none

/-- The result of a vote's task, or nothing to consume: the task of an earlier round. -/
def consumeVote (cfg : Config) (s : Coordinator R) (a : Adjudication R)
    (answer : Except TaskError (Vote R)) : Option (Coordinator R) :=
  match a.control with
  | .consuming (t :: todo) after =>
    match replicaOf a.proposalFutures t with
    | some _ => none
    | none =>
      match replicaOf a.voteFutures t with
      | none => some (s.withRunning { a with control := .consuming todo after })
      | some id =>
        let a := { a with voteFutures := popFuture a.voteFutures t, control := .consuming todo after }
        match answer with
        | .error e => some (s.withRunning { a with round := a.round.mark e.mark id })
        | .ok m =>
          let ((round, cache), _) := acceptVote cfg.keys a.round s.cache m
          some ({ s with cache := cache }.withRunning { a with round := round })
  | _ => none

/-- The replica whose proposal was accepted gets the task of its vote. -/
def submitVote (s : Coordinator R) (a : Adjudication R) : Option (Coordinator R) :=
  match a.control with
  | .voting id todo after =>
    match s.submit id with
    | (s', .refused) => some (s'.withRunning
        { a with round := a.round.mark .delayed id, control := .consuming todo after })
    | (s', .queued t) => some (s'.withRunning
        { a with voteFutures := a.voteFutures ++ [(t, id)], control := .consuming todo after })
    | (s', .failed) => some (s'.withRunning
        { a with round := a.round.mark .omitted id, control := .consuming todo after })
  | _ => none

/-- A replica whose earlier task has completed gets its task. -/
def restart (s : Coordinator R) (a : Adjudication R) : Option (Coordinator R) :=
  match a.control with
  | .consuming [] (.loop restart) => some (s.withRunning { a with control := .restarting restart })
  | .restarting [] => some (s.withRunning { a with control := .waiting })
  | .restarting (t :: todo) =>
    match replicaOf a.busyFutures t with
    | none => some (s.withRunning { a with control := .restarting todo })
    | some id =>
      let a := { a with busyFutures := popFuture a.busyFutures t, control := .restarting todo }
      match s.submit id with
      | (s', .refused) => some (s'.withRunning a)
      | (s', .queued t) => some (s'.withRunning { a with proposalFutures := a.proposalFutures ++ [(t, id)] })
      | (s', .failed) => some (s'.abandon a)
  | _ => none

/-- The futures that are done when the loop is over. -/
def collect (s : Coordinator R) (a : Adjudication R) (completed : List Nat) : Option (Coordinator R) :=
  match a.control with
  | .collecting =>
    if completed.all (fun t => t ∈ (a.proposalFutures ++ a.voteFutures).map Prod.fst && s.done t) then
      some (s.withRunning { a with control := .consuming completed .conclude })
    else none
  | .consuming [] .conclude => some (s.withRunning { a with control := .marking })
  | _ => none

/-- The replicas that are still pending are timed out or delayed; the round is closed
and the lock released. -/
def conclude (s : Coordinator R) (a : Adjudication R) (expired : Bool) : Option (Coordinator R) :=
  match a.control with
  | .marking =>
    let ids := ((a.proposalFutures ++ a.voteFutures ++ a.busyFutures).map Prod.snd).dedup
    let round := ids.foldl (fun r id => r.mark (if expired then .timedOut else .delayed) id) a.round
    some { s with
      rounds := closeRound s.rounds a.key
      activeKeys := s.activeKeys.filter (· ≠ a.key)
      running := none
      deciding := s.deciding ++ [(a.call, a.key, round.close)] }
  | _ => none

/-- The decision is built when the lock is released. -/
def decide (s : Coordinator R) (call : Nat) : Option (Coordinator R) :=
  match s.deciding.find? fun d => d.1 = call with
  | none => none
  | some (_, key, round) =>
    let s := { s with deciding := s.deciding.filter fun d => d.1 ≠ call }
    match (buildDecision round).2 with
    | some d => some { s with log := s.log ++ [.returned call key d] }
    | none => some { s with log := s.log ++ [.raised call] }

def preflight (cfg : Config) (s : Coordinator R) (request : Request R) : Coordinator R :=
  let call := s.nextCall
  let s := { s with nextCall := call + 1 }
  match newRound cfg s request with
  | .error reason => { s with log := s.log ++ [.rejected call reason] }
  | .ok (rounds, e) =>
    if e.terminal ∨ keyOf request ∈ s.activeKeys then
      { s with
        rounds := rounds
        log := s.log ++ [.rejected call "request/version/round is already active or terminal"] }
    else { s with rounds := rounds, log := s.log ++ [.preflighted request] }

/-- A move of the call that holds the lock. -/
def move (cfg : Config) (s : Coordinator R) (a : Adjudication R) : Action R → Option (Coordinator R)
  | .startReplica available => startReplica s a available
  | .lookUp => lookUp s a
  | .wait expired completed => wait s a expired completed
  | .consumeProposal answer => consumeProposal cfg s a answer
  | .consumeVote answer => consumeVote cfg s a answer
  | .submitVote => submitVote s a
  | .restart => restart s a
  | .collect completed => collect s a completed
  | .conclude expired => conclude s a expired
  | _ => none

def step (cfg : Config) (s : Coordinator R) : Action R → Option (Coordinator R)
  | .adjudicate request => if s.running.isSome then none else some (adjudicate cfg s request)
  | .decide call => decide s call
  | .preflight request => some (preflight cfg s request)
  | .complete task => if task < s.nextTask then some { s with done := fun t => t = task || s.done t } else none
  | .clearInflight id task =>
    if s.done task then
      some { s with inflight := fun id' => if id' = id ∧ s.inflight id = some task then none else s.inflight id' }
    else none
  | .shutdown => some { s with closed := true }
  | .shutdownExecutors => if s.closed then some { s with executorsDown := true } else none
  | action => s.running.bind fun a => move cfg s a action

def run (cfg : Config) (s : Coordinator R) : List (Action R) → Option (Coordinator R)
  | [] => some s
  | c :: cs => (step cfg s c).bind fun s' => run cfg s' cs

variable (cfg : Config)

/-- Every step of the run starts where the condition holds. -/
def Along (P : Coordinator R → Action R → Prop) : Coordinator R → List (Action R) → Prop
  | _, [] => True
  | s, c :: cs => P s c ∧ ∀ s', step cfg s c = some s' → Along P s' cs

/-- A condition that is decided at each step. -/
def checkAlong (check : Coordinator R → Action R → Bool) : Coordinator R → List (Action R) → Bool
  | _, [] => true
  | s, c :: cs => check s c && (step cfg s c).all fun s' => checkAlong check s' cs

theorem along_of_check {P : Coordinator R → Action R → Prop} {check : Coordinator R → Action R → Bool}
    (hcheck : ∀ s c, check s c = true → P s c) {s : Coordinator R} {actions : List (Action R)}
    (h : checkAlong cfg check s actions = true) : Along cfg P s actions := by
  induction actions generalizing s with
  | nil => trivial
  | cons c cs ih =>
    rw [checkAlong, Bool.and_eq_true] at h
    refine ⟨hcheck s c h.1, fun s' hs => ih ?_⟩
    rw [hs] at h
    exact h.2

theorem run_invariant {J : Coordinator R → Prop} {P : Coordinator R → Action R → Prop}
    (hstep : ∀ s c s', J s → P s c → step cfg s c = some s' → J s') {s s' : Coordinator R} {actions : List (Action R)}
    (h : J s) (halong : Along cfg P s actions) (hrun : run cfg s actions = some s') : J s' := by
  induction actions generalizing s with
  | nil =>
    cases hrun
    exact h
  | cons c cs ih =>
    simp only [run, Option.bind_eq_some_iff] at hrun
    obtain ⟨t, ht, hrest⟩ := hrun
    exact ih (hstep s c t h halong.1 ht) (halong.2 t ht) hrest

end Machine

end OrchestrationCoordinator
