import AgenticSoc.EventPublishing

/-!
# From the broker to the client

A connection subscribes, and from then on a hole is loud: the endpoint passes the mark of a
drain on as a gap notice. What the backlog of a new subscription leaves out is not. So a
client knows of every hole as long as each of its subscriptions starts where it stands.
-/
namespace EventDelivery

open EventStreams EventPublishing

section Model

variable {F : Type}

def terminal (e : EventEnvelopeV1 F) : Bool := e.eventType = .replayCompleted || e.eventType = .replayFailed

/-- What the endpoint sends. -/
inductive Message (F : Type) where
  | envelope (e : EventEnvelopeV1 F)
  | gapNotice (replayId : String)

/-- The callbacks of the socket. An opening is noted with the oldest number that the broker
holds of the stream then. -/
inductive Callback where
  | opened (oldest : Option Nat)
  | event (sequenceNumber : Nat)
  | gap
  deriving DecidableEq

structure ReplaySocket where
  replayId : String
  lastSequence : Int
  reconnectAttempts : Nat
  closedByUser : Bool
  terminalSeen : Bool

def ReplaySocket.start (replayId : String) : ReplaySocket := ⟨replayId, -1, 0, false, false⟩

def maxReconnectAttempts : Nat := 6

def ReplaySocket.onMessage (socket : ReplaySocket) : Message F → ReplaySocket × List Callback
  | .gapNotice _ => (socket, [.gap])
  | .envelope e =>
    if e.replayId ≠ socket.replayId then (socket, [])
    else if e.sequenceNumber ≤ socket.lastSequence then (socket, [])
    else ({ socket with lastSequence := e.sequenceNumber, terminalSeen := socket.terminalSeen || terminal e },
      [.event e.sequenceNumber])

def ReplaySocket.scheduleReconnect (socket : ReplaySocket) : ReplaySocket :=
  if socket.closedByUser || socket.terminalSeen then socket
  else if maxReconnectAttempts ≤ socket.reconnectAttempts then socket
  else { socket with reconnectAttempts := socket.reconnectAttempts + 1 }

/-- An accepted connection: its subscriber, what is on its way to the client, and whether the
endpoint still serves it. -/
structure Connection (F : Type) where
  subscriberId : Nat
  inTransit : List (Message F)
  serving : Bool

/-- One stream with its counter, and one socket on it. -/
structure Session (F : Type) where
  broker : EventBroker (EventEnvelopeV1 F)
  sequence : Nat
  socket : ReplaySocket
  connection : Option (Connection F)
  callbacks : List Callback

def Session.start (ringSize : Nat) (ring_pos : 1 ≤ ringSize) (queueSize : Nat) (queue_pos : 1 ≤ queueSize)
    (replayId : String) : Session F :=
  ⟨.start ringSize ring_pos queueSize queue_pos, 0, .start replayId, none, []⟩

/-- The messages for a drain's events, and whether the loop goes on behind them. -/
def sends (replayId : String) : List (EventEnvelopeV1 F) → List (Message F) × Bool
  | [] => ([], true)
  | e :: events =>
    if e.replayId ≠ replayId then sends replayId events
    else if terminal e then ([.envelope e], false)
    else (.envelope e :: (sends replayId events).1, (sends replayId events).2)

/-- One round of the endpoint's loop. -/
def replayEvents (replayId : String) (broker : EventBroker (EventEnvelopeV1 F)) (c : Connection F) :
    EventBroker (EventEnvelopeV1 F) × Connection F :=
  let (broker, events, lagged) := drain broker c.subscriberId
  let (messages, goesOn) := sends replayId events
  if goesOn then
    (broker, { c with inTransit := c.inTransit ++ messages ++ if lagged then [.gapNotice replayId] else [] })
  else (unsubscribe broker c.subscriberId, { c with inTransit := c.inTransit ++ messages, serving := false })

inductive Action (F : Type) where
  | publish (e : EventEnvelopeV1 F)
  | connect (accepted : Bool)
  | serve
  | deliver
  | drop
  | close
  | subscribeOther (replayId : String)
  | drainOther (subscriberId : Nat)
  | unsubscribeOther (subscriberId : Nat)

/-- The envelope as the stream publishes it: those of the stream carry its next number. -/
def Session.numbered (s : Session F) (e : EventEnvelopeV1 F) : EventEnvelopeV1 F :=
  if e.replayId = s.socket.replayId then { e with sequenceNumber := s.sequence } else e

def Session.publish (s : Session F) (e : EventEnvelopeV1 F) : Session F :=
  { s with
    broker := EventStreams.publish EventEnvelopeV1.replayId s.broker (s.numbered e)
    sequence := if e.replayId = s.socket.replayId then s.sequence + 1 else s.sequence }

def Session.Opens (s : Session F) : Prop :=
  s.connection = none ∧ s.socket.closedByUser = false ∧ s.socket.terminalSeen = false

instance (s : Session F) : Decidable s.Opens :=
  match h : s.connection with
  | none => decidable_of_iff (s.socket.closedByUser = false ∧ s.socket.terminalSeen = false) (by simp [Session.Opens, h])
  | some _ => .isFalse fun ho => nomatch h.symm.trans ho.1

def Session.connect (s : Session F) (accepted : Bool) : Session F :=
  if s.Opens then
    if accepted then
      let (broker, subscriberId) := subscribe EventEnvelopeV1.replayId s.broker s.socket.replayId
      let oldest := (oldestAvailable EventEnvelopeV1.replayId s.broker s.socket.replayId).map EventEnvelopeV1.sequenceNumber
      { s with
        broker := broker
        socket := { s.socket with reconnectAttempts := 0 }
        connection := some ⟨subscriberId, [], true⟩
        callbacks := s.callbacks ++ [.opened oldest] }
    else { s with socket := s.socket.scheduleReconnect }
  else s

def Session.serve (s : Session F) : Session F :=
  match s.connection with
  | none => s
  | some c =>
    if c.serving then
      let (broker, c) := replayEvents s.socket.replayId s.broker c
      { s with broker := broker, connection := some c }
    else s

def Session.deliver (s : Session F) : Session F :=
  match s.connection with
  | none => s
  | some c =>
    match c.inTransit with
    | [] => s
    | m :: rest =>
      let (socket, called) := s.socket.onMessage m
      { s with
        socket := socket
        connection := some { c with inTransit := rest }
        callbacks := s.callbacks ++ called }

/-- The connection breaks, and what was on its way is lost. The endpoint's own end of it
stays subscribed until it finds out. -/
def Session.drop (s : Session F) : Session F :=
  match s.connection with
  | none => s
  | some _ => { s with connection := none, socket := s.socket.scheduleReconnect }

/-- The subscriber is not the one of the open connection. -/
def Session.Other (s : Session F) (subscriberId : Nat) : Prop := ∀ c ∈ s.connection, c.subscriberId ≠ subscriberId

instance (s : Session F) (subscriberId : Nat) : Decidable (s.Other subscriberId) :=
  match h : s.connection with
  | none => .isTrue fun c hc => nomatch h.symm.trans hc
  | some c => decidable_of_iff (c.subscriberId ≠ subscriberId) (by simp [Session.Other, h])

def step (s : Session F) : Action F → Session F
  | .publish e => s.publish e
  | .connect accepted => s.connect accepted
  | .serve => s.serve
  | .deliver => s.deliver
  | .drop => s.drop
  | .close => { s with socket := { s.socket with closedByUser := true }, connection := none }
  | .subscribeOther replayId => { s with broker := (subscribe EventEnvelopeV1.replayId s.broker replayId).1 }
  | .drainOther subscriberId =>
    if s.Other subscriberId then { s with broker := (drain s.broker subscriberId).1 } else s
  | .unsubscribeOther subscriberId =>
    if s.Other subscriberId then { s with broker := unsubscribe s.broker subscriberId } else s

def run (s : Session F) (actions : List (Action F)) : Session F := actions.foldl step s

end Model

/-! ## Loud holes -/

/-- The numbers of the events rise. Between neighbours that are not adjacent there is a gap
call, and so there is between an opening and the first event when that one lies beyond what
the broker still held at the opening. -/
structure Loud (callbacks : List Callback) : Prop where
  increasing : ∀ before a middle b after, callbacks = before ++ .event a :: (middle ++ .event b :: after) → a < b
  between : ∀ before a middle b after, callbacks = before ++ .event a :: (middle ++ .event b :: after) →
    (∀ n, .event n ∉ middle) → a + 1 < b → .gap ∈ middle
  first : ∀ before oldest middle b after, callbacks = before ++ .opened (some oldest) :: (middle ++ .event b :: after) →
    (∀ n, .event n ∉ before) → (∀ n, .event n ∉ middle) → (∀ o, .opened o ∉ middle) → oldest < b → .gap ∈ middle

/-- What the calls so far tell the client: the last number, whether a gap was called since,
and the oldest number held at the last opening. -/
structure Progress where
  last : Option Nat
  gap : Bool
  oldest : Option Nat

def Progress.note (p : Progress) : Callback → Progress
  | .opened oldest => ⟨p.last, p.gap && p.last.isSome, oldest⟩
  | .event n => ⟨some n, false, p.oldest⟩
  | .gap => ⟨p.last, true, p.oldest⟩

def progress (callbacks : List Callback) : Progress := callbacks.foldl Progress.note ⟨none, false, none⟩

/-- The client has not called this number or a later one. -/
def Progress.New (p : Progress) (n : Nat) : Prop := ∀ a, p.last = some a → a < n

/-- The number leaves no hole that is not called. -/
def Progress.Admits (p : Progress) (n : Nat) : Prop :=
  p.gap = false → (∀ a, p.last = some a → n ≤ a + 1) ∧ (p.last = none → ∀ o, p.oldest = some o → n ≤ o)

section Conditions

variable {F : Type}

/-- What the ring holds of the stream. -/
def Session.held (s : Session F) : List (EventEnvelopeV1 F) :=
  s.broker.ring.filter fun e => e.replayId = s.socket.replayId

/-- The first number that a new subscription gives. -/
def Session.firstNumber (s : Session F) : Nat :=
  ((backlog EventEnvelopeV1.replayId s.broker s.socket.replayId).head?.map EventEnvelopeV1.sequenceNumber).getD s.sequence

/-- A new subscription starts where the client stands: for a client without events all that
the ring holds of the stream fits the queue, and for any other one there is no hole up to
the first number, or the client knows of a gap already. -/
def Session.Resumes (s : Session F) : Prop :=
  if s.socket.lastSequence = -1 then s.held.length ≤ s.broker.subscriberQueueSize
  else (progress s.callbacks).gap = true ∨ (s.firstNumber : Int) ≤ s.socket.lastSequence + 1

instance (s : Session F) : Decidable s.Resumes := by unfold Session.Resumes; infer_instance

def Action.accepted : Action F → Bool
  | .connect accepted => accepted
  | _ => false

/-- Every subscription along the run starts where the client stands. -/
def Resuming (s : Session F) : List (Action F) → Prop
  | [] => True
  | a :: actions => (a.accepted = true → s.Opens → s.Resumes) ∧ Resuming (step s a) actions

instance Resuming.decide : (actions : List (Action F)) → (s : Session F) → Decidable (Resuming s actions)
  | [], _ => .isTrue trivial
  | a :: actions, s =>
    have : Decidable (Resuming (step s a) actions) := Resuming.decide actions (step s a)
    inferInstanceAs (Decidable (_ ∧ _))

end Conditions

/-! ## Calls that leave no hole -/

theorem progress_append (callbacks : List Callback) (c : Callback) :
    progress (callbacks ++ [c]) = (progress callbacks).note c := by
  simp [progress]

/-- Each event of the calls is new and leaves no hole. -/
def Heard (p : Progress) : List Callback → Prop
  | [] => True
  | c :: callbacks => (∀ n, c = .event n → p.New n ∧ p.Admits n) ∧ Heard (p.note c) callbacks

theorem heard_append (p : Progress) (before after : List Callback) :
    Heard p (before ++ after) ↔ Heard p before ∧ Heard (before.foldl Progress.note p) after := by
  induction before generalizing p with
  | nil => simp [Heard]
  | cons c before ih => simp [Heard, ih, and_assoc]

/-- The last number stays between two events, and a gap is not forgotten. -/
theorem progress_between (middle : List Callback) (p : Progress) {a : Nat} (ha : p.last = some a)
    (hnone : ∀ n, .event n ∉ middle) :
    (middle.foldl Progress.note p).last = some a ∧
      ((middle.foldl Progress.note p).gap = true → p.gap = true ∨ .gap ∈ middle) := by
  induction middle generalizing p with
  | nil => exact ⟨ha, .inl⟩
  | cons c middle ih =>
    have hrest : ∀ n, .event n ∉ middle := fun n hn => hnone n (List.mem_cons_of_mem _ hn)
    cases c with
    | event n => exact absurd List.mem_cons_self (hnone n)
    | gap =>
      obtain ⟨hlast, -⟩ := ih (p.note .gap) ha hrest
      exact ⟨hlast, fun _ => .inr List.mem_cons_self⟩
    | opened oldest =>
      obtain ⟨hlast, hgap⟩ := ih (p.note (.opened oldest)) ha hrest
      refine ⟨hlast, fun h => ?_⟩
      rcases hgap h with hbefore | hin
      · exact .inl (Bool.and_eq_true_iff.mp hbefore).1
      · exact .inr (List.mem_cons_of_mem _ hin)

/-- The last number of a list of calls is that of an event among them. -/
theorem progress_last (callbacks : List Callback) (p : Progress) (hnone : ∀ n, .event n ∉ callbacks) :
    (callbacks.foldl Progress.note p).last = p.last := by
  induction callbacks generalizing p with
  | nil => rfl
  | cons c callbacks ih =>
    have hrest : ∀ n, .event n ∉ callbacks := fun n hn => hnone n (List.mem_cons_of_mem _ hn)
    have hsame : (p.note c).last = p.last := by
      cases c with
      | event n => exact absurd List.mem_cons_self (hnone n)
      | gap => rfl
      | opened oldest => rfl
    simp only [List.foldl_cons]
    rw [ih (p.note c) hrest, hsame]

/-- Without an event or another opening, the calls behind an opening are gap calls. -/
theorem progress_opened (middle : List Callback) (p : Progress) (hgap : .gap ∉ middle)
    (hnone : ∀ n, .event n ∉ middle) (hclosed : ∀ o, .opened o ∉ middle) : middle.foldl Progress.note p = p := by
  cases middle with
  | nil => rfl
  | cons c middle =>
    cases c with
    | event n => exact absurd List.mem_cons_self (hnone n)
    | gap => exact absurd List.mem_cons_self hgap
    | opened o => exact absurd List.mem_cons_self (hclosed o)

/-- The numbers of heard events rise. -/
theorem Heard.rises (callbacks : List Callback) (p : Progress) (h : Heard p callbacks) {a b : Nat}
    (ha : p.last = some a) (hb : .event b ∈ callbacks) : a < b := by
  induction callbacks generalizing p a with
  | nil => cases hb
  | cons c callbacks ih =>
    rcases List.mem_cons.mp hb with rfl | hrest
    · exact (h.1 b rfl).1 a ha
    · cases c with
      | event n =>
        have han : a < n := (h.1 n rfl).1 a ha
        have hnb : n < b := ih (p.note (.event n)) h.2 rfl hrest
        omega
      | gap => exact ih (p.note .gap) h.2 ha hrest
      | opened o => exact ih (p.note (.opened o)) h.2 ha hrest

theorem Heard.loud {callbacks : List Callback} (h : Heard ⟨none, false, none⟩ callbacks) : Loud callbacks := by
  constructor
  · intro before a middle b after hsplit
    rw [hsplit, heard_append] at h
    exact h.2.2.rises _ _ rfl (by simp)
  · intro before a middle b after hsplit hnone hlt
    rw [hsplit, heard_append] at h
    have hrest := h.2.2
    rw [heard_append] at hrest
    obtain ⟨hlast, hgap⟩ := progress_between middle
      ((before.foldl Progress.note ⟨none, false, none⟩).note (.event a)) rfl hnone
    by_contra hsilent
    have hquiet : (middle.foldl Progress.note ((before.foldl Progress.note ⟨none, false, none⟩).note (.event a))).gap =
        false := by
      rw [← Bool.not_eq_true]
      intro hg
      rcases hgap hg with hbefore | hin
      · cases hbefore
      · exact hsilent hin
    have hle : b ≤ a + 1 := ((hrest.2.1 b rfl).2 hquiet).1 a hlast
    omega
  · intro before oldest middle b after hsplit hbefore hnone hclosed hlt
    rw [hsplit, heard_append] at h
    have hrest := h.2.2
    rw [heard_append] at hrest
    by_contra hsilent
    have hadmits := (hrest.2.1 b rfl).2
    rw [progress_opened middle _ hsilent hnone hclosed] at hadmits
    have hlast := progress_last before ⟨none, false, none⟩ hbefore
    have hle : b ≤ oldest := (hadmits (by simp [Progress.note, hlast])).2 hlast oldest rfl
    omega

/-! ## Messages ahead of the client -/

section Messages

variable {F : Type} {replayId : String}

/-- What an event of the stream makes of the progress: one that is not new is dropped. -/
def Progress.take (p : Progress) (n : Nat) : Progress :=
  match p.last with
  | none => p.note (.event n)
  | some a => if n ≤ a then p else p.note (.event n)

def Progress.receive (replayId : String) (p : Progress) : Message F → Progress
  | .gapNotice _ => p.note .gap
  | .envelope e => if e.replayId = replayId then p.take e.sequenceNumber else p

/-- None of the messages leaves a hole that is not called. -/
def Admitted (replayId : String) (p : Progress) : List (Message F) → Prop
  | [] => True
  | m :: messages => (∀ e, m = .envelope e → e.replayId = replayId → p.Admits e.sequenceNumber) ∧
      Admitted replayId (p.receive replayId m) messages

/-- The progress behind the messages. -/
def Progress.behind (replayId : String) (p : Progress) (messages : List (Message F)) : Progress :=
  messages.foldl (Progress.receive replayId) p

theorem admitted_append (p : Progress) (before after : List (Message F)) :
    Admitted replayId p (before ++ after) ↔
      Admitted replayId p before ∧ Admitted replayId (p.behind replayId before) after := by
  induction before generalizing p with
  | nil => simp [Admitted, Progress.behind]
  | cons m before ih => simp [Admitted, Progress.behind, ih, and_assoc]

theorem behind_append (p : Progress) (before after : List (Message F)) :
    p.behind replayId (before ++ after) = (p.behind replayId before).behind replayId after := List.foldl_append

/-- Whatever the client makes of a number, the next one leaves no hole behind it. -/
theorem Progress.take_admits (p : Progress) (n : Nat) : (p.take n).Admits (n + 1) := by
  unfold Progress.take
  cases hlast : p.last with
  | none => exact fun _ => ⟨fun a ha => by cases ha; exact Nat.le_refl _, nofun⟩
  | some a =>
    by_cases hle : n ≤ a
    · simp only [if_pos hle]
      intro _
      refine ⟨fun a' ha' => ?_, fun hnone => ?_⟩
      · rw [hlast, Option.some.injEq] at ha'
        omega
      · rw [hlast] at hnone
        cases hnone
    · simp only [if_neg hle]
      exact fun _ => ⟨fun a ha => by cases ha; exact Nat.le_refl _, nofun⟩

/-- The numbers of the events rise by one and end before the next number. -/
def Consecutive : List (EventEnvelopeV1 F) → Nat → Prop
  | [], _ => True
  | e :: events, next => e.sequenceNumber + events.length + 1 = next ∧ Consecutive events next

theorem consecutive_suffix (before : List (EventEnvelopeV1 F)) {events : List (EventEnvelopeV1 F)} {next : Nat}
    (h : Consecutive (before ++ events) next) : Consecutive events next := by
  induction before with
  | nil => exact h
  | cons e before ih => exact ih h.2

theorem consecutive_publish {events : List (EventEnvelopeV1 F)} {next : Nat} {e : EventEnvelopeV1 F}
    (h : Consecutive events next) (he : e.sequenceNumber = next) : Consecutive (events ++ [e]) (next + 1) := by
  induction events with
  | nil => exact ⟨by rw [he]; rfl, trivial⟩
  | cons e' events ih =>
    have hnumber := h.1
    refine ⟨?_, ih h.2⟩
    simp only [List.append_eq, List.length_append, List.length_singleton]
    omega

theorem Consecutive.length_le {events : List (EventEnvelopeV1 F)} {next : Nat} (h : Consecutive events next) :
    events.length ≤ next := by
  cases events with
  | nil => exact Nat.zero_le _
  | cons e events =>
    have hnumber := h.1
    rw [List.length_cons]
    omega

/-- Events in a row leave no hole when the first of them leaves none. -/
theorem admitted_consecutive (events : List (EventEnvelopeV1 F)) (p : Progress) {next first : Nat}
    (h : Consecutive events next) (hown : ∀ e ∈ events, e.replayId = replayId)
    (hfirst : first + events.length = next) (hadmits : p.Admits first) :
    Admitted replayId p (events.map .envelope) ∧ (p.behind replayId (events.map .envelope)).Admits next := by
  induction events generalizing p first with
  | nil =>
    rw [List.length_nil, Nat.add_zero] at hfirst
    exact ⟨trivial, hfirst ▸ hadmits⟩
  | cons e events ih =>
    have hnumber := h.1
    rw [List.length_cons] at hfirst
    have hat : e.sequenceNumber = first := by omega
    have heown : e.replayId = replayId := hown e List.mem_cons_self
    have hreceive : p.receive replayId (.envelope e) = p.take first := by
      simp [Progress.receive, heown, hat]
    obtain ⟨hrest, hnext⟩ := ih (p.take first) h.2 (fun e' he' => hown e' (List.mem_cons_of_mem _ he'))
      (by omega) (p.take_admits first)
    refine ⟨⟨fun e' he' _ => ?_, ?_⟩, ?_⟩
    · cases he'
      rw [hat]
      exact hadmits
    · rw [hreceive]
      exact hrest
    · simp only [Progress.behind, List.map_cons, List.foldl_cons, hreceive]
      exact hnext

/-- The messages for events of the stream are a first part of them, and all of them when the
loop goes on. -/
theorem sends_own (events : List (EventEnvelopeV1 F)) (hown : ∀ e ∈ events, e.replayId = replayId) :
    (∃ rest, events.map .envelope = (sends replayId events).1 ++ rest) ∧
      ((sends replayId events).2 = true → (sends replayId events).1 = events.map .envelope) := by
  induction events with
  | nil => exact ⟨⟨[], rfl⟩, fun _ => rfl⟩
  | cons e events ih =>
    obtain ⟨⟨rest, hrest⟩, hall⟩ := ih fun e' he' => hown e' (List.mem_cons_of_mem _ he')
    have heown : ¬ e.replayId ≠ replayId := not_not_intro (hown e List.mem_cons_self)
    simp only [sends, if_neg heown]
    cases terminal e with
    | true => exact ⟨⟨events.map .envelope, rfl⟩, nofun⟩
    | false =>
      refine ⟨⟨rest, by simp [hrest]⟩, fun h => ?_⟩
      simp only [Bool.false_eq_true, if_false] at h ⊢
      rw [hall h]
      rfl

end Messages

/-! ## Sessions -/

section Sessions

variable {F : Type}

/-- What a subscriber's next drain sends, as long as no event of it ends the stream. -/
def waiting (replayId : String) (sub : Subscriber (EventEnvelopeV1 F)) : List (Message F) :=
  sub.queue.map .envelope ++ if sub.state = .lagged then [.gapNotice replayId] else []

/-- The subscriber of a connection that is served: what is under way and what waits leaves no
hole that is not called, and neither does the next event of the stream. -/
structure Served (replayId : String) (queueSize : Nat) (p : Progress) (next : Nat) (inTransit : List (Message F))
    (sub : Subscriber (EventEnvelopeV1 F)) : Prop where
  replay : sub.replayId = replayId
  live : sub.state ≠ .closed
  full : sub.state = .lagged → queueSize ≤ sub.queue.length
  own : ∀ e ∈ sub.queue, e.replayId = replayId
  admitted : Admitted replayId p (inTransit ++ waiting replayId sub)
  next : (p.behind replayId (inTransit ++ waiting replayId sub)).Admits next

structure Ahead (s : Session F) (c : Connection F) : Prop where
  known : c.subscriberId < s.broker.nextId
  inTransit : Admitted s.socket.replayId (progress s.callbacks) c.inTransit
  served : c.serving = true → ∃ sub, s.broker.subs c.subscriberId = some sub ∧
    Served s.socket.replayId s.broker.subscriberQueueSize (progress s.callbacks) s.sequence c.inTransit sub

def Progress.lastSequence (p : Progress) : Int :=
  match p.last with
  | none => -1
  | some n => n

structure Coherent (s : Session F) : Prop where
  held : Consecutive s.held s.sequence
  position : s.socket.lastSequence = (progress s.callbacks).lastSequence
  heard : Heard ⟨none, false, none⟩ s.callbacks
  ahead : ∀ c ∈ s.connection, Ahead s c

variable {replayId : String} {queueSize : Nat} {p : Progress} {next : Nat} {inTransit : List (Message F)}
  {sub : Subscriber (EventEnvelopeV1 F)} {s : Session F}

/-- An event of another stream leaves the subscriber alone. -/
theorem Served.offer_other (h : Served replayId queueSize p next inTransit sub) {e : EventEnvelopeV1 F}
    (he : e.replayId ≠ replayId) : offer EventEnvelopeV1.replayId queueSize e sub = sub :=
  if_pos (.inr fun heq => he (heq.symm.trans h.replay))

/-- The next event of the stream joins the queue, or else the queue is marked. -/
theorem Served.offer_own (h : Served replayId queueSize p next inTransit sub) {e : EventEnvelopeV1 F}
    (he : e.replayId = replayId) (hnumber : e.sequenceNumber = next) :
    Served replayId queueSize p (next + 1) inTransit (offer EventEnvelopeV1.replayId queueSize e sub) := by
  have hmine : ¬ (sub.state = .closed ∨ sub.replayId ≠ e.replayId) := by
    rintro (hclosed | hother)
    · exact h.live hclosed
    · exact hother (h.replay.trans he.symm)
  unfold offer
  rw [if_neg hmine]
  by_cases hfull : queueSize ≤ sub.queue.length
  · rw [if_pos hfull]
    have hadmitted := (admitted_append p _ _).mp h.admitted
    have hqueue : Admitted replayId p (inTransit ++ sub.queue.map .envelope) := by
      rw [admitted_append]
      exact ⟨hadmitted.1, ((admitted_append _ _ _).mp hadmitted.2).1⟩
    refine ⟨h.replay, by simp, fun _ => hfull, h.own, ?_, ?_⟩
    · simp only [waiting, if_true, ← List.append_assoc]
      rw [admitted_append]
      exact ⟨hqueue, by simp, trivial⟩
    · simp only [waiting, if_true, ← List.append_assoc, behind_append]
      intro hquiet
      exact absurd hquiet Bool.true_eq_false.mp
  · rw [if_neg hfull]
    have hunmarked : sub.state ≠ .lagged := fun hl => hfull (h.full hl)
    have hbefore : waiting replayId sub = sub.queue.map .envelope := by simp [waiting, hunmarked]
    have hafter : waiting replayId { sub with queue := sub.queue ++ [e] } =
        waiting replayId sub ++ [.envelope e] := by
      simp [waiting, hunmarked]
    refine ⟨h.replay, h.live, fun hl => absurd hl hunmarked, ?_, ?_, ?_⟩
    · intro e' he'
      rcases List.mem_append.mp he' with hold | hnew
      · exact h.own e' hold
      · rw [List.mem_singleton.mp hnew]
        exact he
    · rw [hafter, ← List.append_assoc, admitted_append]
      refine ⟨h.admitted, fun e' he' _ => ?_, trivial⟩
      cases he'
      rw [hnumber]
      exact h.next
    · rw [hafter, ← List.append_assoc, behind_append]
      simp only [Progress.behind, List.foldl_cons, List.foldl_nil, Progress.receive, he, if_true, hnumber]
      exact Progress.take_admits _ _

/-- After a drain that ended nothing, the queue is under way. -/
theorem Served.drained (h : Served replayId queueSize p next inTransit sub) :
    Served replayId queueSize p next (inTransit ++ waiting replayId sub) sub.drained := by
  have hactive : sub.drained.state ≠ .lagged := by
    unfold Subscriber.drained
    split
    · simp
    · assumption
  have hnone : waiting replayId sub.drained = ([] : List (Message F)) := by
    rw [waiting, if_neg hactive]
    rfl
  refine ⟨h.replay, ?_, fun hl => absurd hl hactive, fun e he => absurd he List.not_mem_nil, ?_, ?_⟩
  · unfold Subscriber.drained
    split
    · simp
    · exact h.live
  · rw [hnone, List.append_nil]
    exact h.admitted
  · rw [hnone, List.append_nil]
    exact h.next

/-! ## Steps -/

theorem Coherent.connection (h : Coherent s) {c : Connection F} (hc : s.connection = some c) : Ahead s c :=
  h.ahead c hc

theorem held_publish (s : Session F) (e : EventEnvelopeV1 F) (h : Consecutive s.held s.sequence) :
    Consecutive (s.publish e).held (s.publish e).sequence := by
  have hsuffix : ∃ before, (s.broker.ring ++ [s.numbered e]).filter (fun x => decide (x.replayId = s.socket.replayId)) =
      before ++ (s.publish e).held := by
    refine ⟨((s.broker.ring ++ [s.numbered e]).take ((s.broker.ring ++ [s.numbered e]).length - s.broker.ringSize)).filter
      fun x => decide (x.replayId = s.socket.replayId), ?_⟩
    change _ = _ ++ (lastOf s.broker.ringSize (s.broker.ring ++ [s.numbered e])).filter
      fun x => decide (x.replayId = s.socket.replayId)
    rw [lastOf, ← List.filter_append, List.take_append_drop]
  obtain ⟨before, hbefore⟩ := hsuffix
  refine consecutive_suffix before ?_
  rw [← hbefore, List.filter_append]
  by_cases hown : e.replayId = s.socket.replayId
  · have hadded : [s.numbered e].filter (fun x => decide (x.replayId = s.socket.replayId)) = [s.numbered e] := by
      simp [Session.numbered, hown]
    have hsequence : (s.publish e).sequence = s.sequence + 1 := if_pos hown
    rw [hadded, hsequence]
    exact consecutive_publish h (by simp [Session.numbered, hown])
  · have hadded : [s.numbered e].filter (fun x => decide (x.replayId = s.socket.replayId)) = [] := by
      simp [Session.numbered, hown]
    have hsequence : (s.publish e).sequence = s.sequence := if_neg hown
    rw [hadded, List.append_nil, hsequence]
    exact h

theorem Coherent.publish (h : Coherent s) (e : EventEnvelopeV1 F) : Coherent (s.publish e) := by
  refine ⟨held_publish s e h.held, h.position, h.heard, fun c hc => ?_⟩
  have hahead := h.connection hc
  refine ⟨hahead.known, hahead.inTransit, fun hserving => ?_⟩
  obtain ⟨sub, hsub, hserved⟩ := hahead.served hserving
  refine ⟨offer EventEnvelopeV1.replayId s.broker.subscriberQueueSize (s.numbered e) sub, ?_, ?_⟩
  · simp [Session.publish, EventStreams.publish, hsub]
  · by_cases hown : e.replayId = s.socket.replayId
    · have hsequence : (s.publish e).sequence = s.sequence + 1 := if_pos hown
      rw [hsequence]
      exact hserved.offer_own (by simp [Session.numbered, hown]) (by simp [Session.numbered, hown])
    · have hsequence : (s.publish e).sequence = s.sequence := if_neg hown
      have hother : (s.numbered e).replayId ≠ s.socket.replayId := by simp [Session.numbered, hown]
      rw [hsequence, hserved.offer_other hother]
      exact hserved

/-- The backlog is the last part of what the ring holds of the stream. -/
theorem backlog_held (s : Session F) :
    backlog EventEnvelopeV1.replayId s.broker s.socket.replayId = lastOf s.broker.subscriberQueueSize s.held := rfl

theorem firstNumber_add (h : Consecutive s.held s.sequence) :
    s.firstNumber + (backlog EventEnvelopeV1.replayId s.broker s.socket.replayId).length = s.sequence := by
  have hbacklog : Consecutive (backlog EventEnvelopeV1.replayId s.broker s.socket.replayId) s.sequence := by
    refine consecutive_suffix (s.held.take (s.held.length - s.broker.subscriberQueueSize)) ?_
    rw [backlog_held, lastOf, List.take_append_drop]
    exact h
  unfold Session.firstNumber
  cases hlist : backlog EventEnvelopeV1.replayId s.broker s.socket.replayId with
  | nil => rfl
  | cons e events =>
    rw [hlist] at hbacklog
    have hnumber := hbacklog.1
    simp only [List.head?_cons, Option.map_some, Option.getD_some, List.length_cons]
    omega

theorem oldest_held (s : Session F) :
    oldestAvailable EventEnvelopeV1.replayId s.broker s.socket.replayId = s.held.head? := by
  rw [oldestAvailable, Session.held, List.head?_filter]

/-- Where the subscription resumes, its first number leaves no hole that is not called. -/
theorem Session.Resumes.admits (hs : s.Resumes) (hposition : s.socket.lastSequence = (progress s.callbacks).lastSequence) :
    ((progress s.callbacks).note (.opened (s.held.head?.map EventEnvelopeV1.sequenceNumber))).Admits s.firstNumber := by
  unfold Session.Resumes at hs
  rw [hposition] at hs
  cases hlast : (progress s.callbacks).last with
  | none =>
    simp only [Progress.lastSequence, hlast, if_true] at hs
    refine fun _ => ⟨fun a ha => (by cases hlast.symm.trans ha), fun _ o ho => ?_⟩
    have hall : backlog EventEnvelopeV1.replayId s.broker s.socket.replayId = s.held := by
      rw [backlog_held, lastOf, Nat.sub_eq_zero_of_le hs, List.drop_zero]
    change s.held.head?.map EventEnvelopeV1.sequenceNumber = some o at ho
    rw [Session.firstNumber, hall, ho]
    exact Nat.le_refl _
  | some n =>
    simp only [Progress.lastSequence, hlast] at hs
    rw [if_neg (by omega)] at hs
    intro hquiet
    change ((progress s.callbacks).gap && (progress s.callbacks).last.isSome) = false at hquiet
    rw [hlast, Option.isSome_some, Bool.and_true] at hquiet
    refine ⟨fun a ha => ?_, fun hnone => by cases hlast.symm.trans hnone⟩
    have han : n = a := Option.some.inj (hlast.symm.trans ha)
    rcases hs with hgap | hle
    · rw [hquiet] at hgap
      cases hgap
    · omega

theorem scheduleReconnect_keeps (socket : ReplaySocket) :
    socket.scheduleReconnect.replayId = socket.replayId ∧ socket.scheduleReconnect.lastSequence = socket.lastSequence := by
  unfold ReplaySocket.scheduleReconnect
  split
  · exact ⟨rfl, rfl⟩
  · split <;> exact ⟨rfl, rfl⟩

theorem Coherent.connect (h : Coherent s) (accepted : Bool) (hs : accepted = true → s.Opens → s.Resumes) :
    Coherent (s.connect accepted) := by
  unfold Session.connect
  split
  · rename_i hopens
    cases accepted with
    | false =>
      simp only [Bool.false_eq_true, if_false]
      obtain ⟨hreplay, hlast⟩ := scheduleReconnect_keeps s.socket
      refine ⟨?_, hlast.trans h.position, h.heard, fun c hc => by cases hopens.1.symm.trans hc⟩
      simp only [Session.held, hreplay]
      exact h.held
    | true =>
      simp only [if_true]
      have hadmits := (hs rfl hopens).admits h.position
      have hlast : ∀ (p : Progress) (o : Option Nat), (p.note (.opened o)).lastSequence = p.lastSequence := fun _ _ => rfl
      have hprogress := progress_append s.callbacks
        (.opened ((oldestAvailable EventEnvelopeV1.replayId s.broker s.socket.replayId).map EventEnvelopeV1.sequenceNumber))
      have hown : ∀ e ∈ backlog EventEnvelopeV1.replayId s.broker s.socket.replayId, e.replayId = s.socket.replayId := by
        intro e he
        rw [backlog_held] at he
        exact of_decide_eq_true (List.mem_filter.mp (List.mem_of_mem_drop he)).2
      have hbacklog : Consecutive (backlog EventEnvelopeV1.replayId s.broker s.socket.replayId) s.sequence := by
        refine consecutive_suffix (s.held.take (s.held.length - s.broker.subscriberQueueSize)) ?_
        rw [backlog_held, lastOf, List.take_append_drop]
        exact h.held
      refine ⟨h.held, ?_, ?_, fun c hc => ?_⟩
      · rw [hprogress, hlast]
        exact h.position
      · rw [heard_append]
        refine ⟨h.heard, ?_, trivial⟩
        intro n hn
        cases hn
      · cases hc
        refine ⟨Nat.lt_succ_self _, trivial, fun _ => ⟨_, if_pos rfl, rfl, fun hs => (by cases hs), fun hs => (by cases hs), hown, ?_, ?_⟩⟩
        · rw [hprogress, oldest_held]
          simp only [waiting, reduceCtorEq, if_false, List.append_nil, List.nil_append]
          exact (admitted_consecutive _ _ hbacklog hown (firstNumber_add h.held) hadmits).1
        · rw [hprogress, oldest_held]
          simp only [waiting, reduceCtorEq, if_false, List.append_nil, List.nil_append]
          exact (admitted_consecutive _ _ hbacklog hown (firstNumber_add h.held) hadmits).2
  · exact h

/-- A round of the endpoint moves the queue under way, or else it ends the service. -/
theorem Coherent.serve (h : Coherent s) : Coherent s.serve := by
  unfold Session.serve
  cases hconnection : s.connection with
  | none => exact h
  | some c =>
    have hahead := h.connection hconnection
    by_cases hserving : c.serving = true
    · simp only [hserving, if_true]
      obtain ⟨sub, hsub, hserved⟩ := hahead.served hserving
      obtain ⟨⟨rest, hrest⟩, hall⟩ := @sends_own F s.socket.replayId sub.queue hserved.own
      have hdrain : drain s.broker c.subscriberId = ({ s.broker with
          subs := fun id => if id = c.subscriberId then some sub.drained else s.broker.subs id }, sub.pending) := by
        simp [drain, hsub]
      simp only [replayEvents, hdrain, Subscriber.pending]
      cases hgoes : (sends s.socket.replayId sub.queue).2 with
      | true =>
        have hwaiting : c.inTransit ++ (sends s.socket.replayId sub.queue).1 ++
            (if decide (sub.state = .lagged) = true then [Message.gapNotice s.socket.replayId] else []) =
              c.inTransit ++ waiting s.socket.replayId sub := by
          rw [hall hgoes, waiting, List.append_assoc]
          simp only [decide_eq_true_eq]
        simp only [if_true, hwaiting]
        refine ⟨h.held, h.position, h.heard, fun c' hc' => ?_⟩
        cases hc'
        exact ⟨hahead.known, hserved.admitted, fun _ => ⟨sub.drained, if_pos rfl, hserved.drained⟩⟩
      | false =>
        simp only [Bool.false_eq_true, if_false]
        refine ⟨h.held, h.position, h.heard, fun c' hc' => ?_⟩
        cases hc'
        refine ⟨hahead.known, ?_, fun hserves => by cases hserves⟩
        have hadmitted := hserved.admitted
        rw [waiting, hrest, List.append_assoc, ← List.append_assoc, admitted_append] at hadmitted
        exact hadmitted.1
    · simp only [hserving]
      exact h

/-- What the socket makes of a message is what the progress makes of it. -/
theorem onMessage_receives {m : Message F} (hposition : s.socket.lastSequence = (progress s.callbacks).lastSequence)
    (hheard : Heard ⟨none, false, none⟩ s.callbacks)
    (hadmits : ∀ e, m = .envelope e → e.replayId = s.socket.replayId → (progress s.callbacks).Admits e.sequenceNumber) :
    let after := s.callbacks ++ (s.socket.onMessage m).2
    progress after = (progress s.callbacks).receive s.socket.replayId m ∧
      (s.socket.onMessage m).1.replayId = s.socket.replayId ∧
      (s.socket.onMessage m).1.lastSequence = (progress after).lastSequence ∧ Heard ⟨none, false, none⟩ after := by
  intro after
  cases m with
  | gapNotice id =>
    have hprogress : progress after = (progress s.callbacks).note .gap := progress_append _ _
    refine ⟨hprogress, rfl, ?_, ?_⟩
    · rw [hprogress]
      exact hposition
    · rw [heard_append]
      exact ⟨hheard, nofun, trivial⟩
  | envelope e =>
    simp only [after, ReplaySocket.onMessage, Progress.receive]
    by_cases hown : e.replayId = s.socket.replayId
    · simp only [hown, ne_eq, not_true_eq_false, if_false, if_true]
      by_cases hle : (e.sequenceNumber : Int) ≤ s.socket.lastSequence
      · -- the client has the number already
        have hdropped : (progress s.callbacks).take e.sequenceNumber = progress s.callbacks := by
          rw [hposition, Progress.lastSequence] at hle
          unfold Progress.take
          cases hlast : (progress s.callbacks).last with
          | none =>
            rw [hlast] at hle
            simp only at hle
            omega
          | some a =>
            rw [hlast] at hle
            simp only at hle
            exact if_pos (by omega)
        rw [if_pos hle, List.append_nil]
        exact ⟨hdropped.symm, rfl, hposition, hheard⟩
      · have hnew : (progress s.callbacks).New e.sequenceNumber := by
          intro a ha
          rw [hposition, Progress.lastSequence, ha] at hle
          simp only at hle
          omega
        have htake : (progress s.callbacks).take e.sequenceNumber = (progress s.callbacks).note (.event e.sequenceNumber) := by
          unfold Progress.take
          cases hlast : (progress s.callbacks).last with
          | none => rfl
          | some a => exact if_neg (Nat.not_le.mpr (hnew a hlast))
        have hprogress := progress_append s.callbacks (.event e.sequenceNumber)
        rw [if_neg hle]
        refine ⟨hprogress.trans htake.symm, rfl, ?_, ?_⟩
        · simp only [hprogress]
          rfl
        · rw [heard_append]
          refine ⟨hheard, fun n hn => ?_, trivial⟩
          cases hn
          exact ⟨hnew, hadmits e rfl hown⟩
    · simp only [hown, ne_eq, not_false_eq_true, if_true, if_false, List.append_nil]
      exact ⟨trivial, trivial, hposition, hheard⟩

theorem Coherent.deliver (h : Coherent s) : Coherent s.deliver := by
  unfold Session.deliver
  cases hconnection : s.connection with
  | none => exact h
  | some c =>
    have hahead := h.connection hconnection
    cases htransit : c.inTransit with
    | nil => simpa only [htransit] using h
    | cons m rest =>
      simp only [htransit]
      have hadmitted := hahead.inTransit
      rw [htransit] at hadmitted
      obtain ⟨hprogress, hreplay, hposition, hheard⟩ := onMessage_receives h.position h.heard hadmitted.1
      refine ⟨?_, hposition, hheard, fun c' hc' => ?_⟩
      · simp only [Session.held, hreplay]
        exact h.held
      · cases hc'
        refine ⟨hahead.known, ?_, fun hserving => ?_⟩
        · simp only [hprogress, hreplay]
          exact hadmitted.2
        · obtain ⟨sub, hsub, hserved⟩ := hahead.served hserving
          refine ⟨sub, hsub, ?_⟩
          have hmessages := hserved.admitted
          have hnext := hserved.next
          rw [htransit] at hmessages hnext
          simp only [hprogress, hreplay]
          exact ⟨hserved.replay, hserved.live, hserved.full, hserved.own, hmessages.2, hnext⟩

/-- Without an open connection nothing is ahead. -/
theorem Coherent.closed (h : Coherent s) {socket : ReplaySocket} (hreplay : socket.replayId = s.socket.replayId)
    (hlast : socket.lastSequence = s.socket.lastSequence) :
    Coherent { s with socket := socket, connection := none } := by
  refine ⟨?_, hlast.trans h.position, h.heard, nofun⟩
  simp only [Session.held, hreplay]
  exact h.held

/-- What other subscribers do leaves the session alone. -/
theorem Coherent.others (h : Coherent s) {broker : EventBroker (EventEnvelopeV1 F)} (hring : broker.ring = s.broker.ring)
    (hsize : broker.subscriberQueueSize = s.broker.subscriberQueueSize) (hnext : s.broker.nextId ≤ broker.nextId)
    (hsame : ∀ c ∈ s.connection, broker.subs c.subscriberId = s.broker.subs c.subscriberId) :
    Coherent { s with broker := broker } := by
  refine ⟨?_, h.position, h.heard, fun c hc => ?_⟩
  · simp only [Session.held, hring]
    exact h.held
  · have hahead := h.connection hc
    refine ⟨Nat.lt_of_lt_of_le hahead.known hnext, hahead.inTransit, fun hserving => ?_⟩
    obtain ⟨sub, hsub, hserved⟩ := hahead.served hserving
    refine ⟨sub, (hsame c hc).trans hsub, ?_⟩
    simp only [hsize]
    exact hserved

theorem Coherent.step (h : Coherent s) (a : Action F) (hs : a.accepted = true → s.Opens → s.Resumes) :
    Coherent (EventDelivery.step s a) := by
  cases a with
  | publish e => exact h.publish e
  | connect accepted => exact h.connect accepted hs
  | serve => exact h.serve
  | deliver => exact h.deliver
  | drop =>
    change Coherent s.drop
    unfold Session.drop
    cases s.connection with
    | none => exact h
    | some c => exact h.closed (scheduleReconnect_keeps s.socket).1 (scheduleReconnect_keeps s.socket).2
  | close => exact h.closed rfl rfl
  | subscribeOther replayId =>
    refine h.others rfl rfl (Nat.le_succ _) fun c hc => if_neg ?_
    exact Nat.ne_of_lt (h.connection hc).known
  | drainOther subscriberId =>
    simp only [EventDelivery.step]
    split
    · rename_i hother
      cases hsub : s.broker.subs subscriberId with
      | none =>
        have hdrain : (drain s.broker subscriberId).1 = s.broker := by simp [drain, hsub]
        rw [hdrain]
        exact h
      | some sub =>
        have hdrain : (drain s.broker subscriberId).1 = { s.broker with
            subs := fun id => if id = subscriberId then some sub.drained else s.broker.subs id } := by
          simp [drain, hsub]
        rw [hdrain]
        exact h.others rfl rfl (Nat.le_refl _) fun c hc => if_neg (hother c hc)
    · exact h
  | unsubscribeOther subscriberId =>
    simp only [EventDelivery.step]
    split
    · rename_i hother
      exact h.others rfl rfl (Nat.le_refl _) fun c hc => if_neg (hother c hc)
    · exact h

theorem Coherent.run (actions : List (Action F)) (s : Session F) (h : Coherent s) (hs : Resuming s actions) :
    Coherent (EventDelivery.run s actions) := by
  induction actions generalizing s with
  | nil => exact h
  | cons a actions ih => exact ih _ (h.step a hs.1) hs.2

theorem coherent_start (ringSize : Nat) (ring_pos : 1 ≤ ringSize) (queueSize : Nat) (queue_pos : 1 ≤ queueSize)
    (replayId : String) : Coherent (Session.start ringSize ring_pos queueSize queue_pos replayId : Session F) :=
  ⟨trivial, rfl, trivial, nofun⟩

/-- As long as each subscription starts where the client stands, the client knows of every
hole. -/
theorem loud_of_resuming (ringSize : Nat) (ring_pos : 1 ≤ ringSize) (queueSize : Nat) (queue_pos : 1 ≤ queueSize)
    (replayId : String) (actions : List (Action F))
    (h : Resuming (.start ringSize ring_pos queueSize queue_pos replayId) actions) :
    Loud (EventDelivery.run (.start ringSize ring_pos queueSize queue_pos replayId) actions).callbacks :=
  ((coherent_start ringSize ring_pos queueSize queue_pos replayId).run actions _ h).heard.loud

end Sessions

/-! ## A short backlog -/

def devEvent : EventEnvelopeV1 Unit :=
  ⟨"replay", "replay-0", 0, .windowStarted, none, none, "replay", none, .dict none [], .dict none []⟩

/-- A queue of one event and a slow client: the hole behind the first event is called. -/
theorem loud_of_resuming_dev :
    Loud (run (.start 4 (by decide) 1 (by decide) "replay")
      [.publish devEvent, .connect true, .publish devEvent, .serve, .publish devEvent, .serve, .deliver, .deliver,
        .deliver]).callbacks :=
  loud_of_resuming 4 (by decide) 1 (by decide) "replay" _ (by decide)

/-- Three events in the ring and a queue of two: the client begins with the second event, and
nothing says so. -/
theorem backlog_cut :
    ¬ Loud (run (.start 4 (by decide) 2 (by decide) "replay")
      [.publish devEvent, .publish devEvent, .publish devEvent, .connect true, .serve, .deliver]).callbacks := by
  intro h
  have hcalls : (run (.start 4 (by decide) 2 (by decide) "replay")
      [.publish devEvent, .publish devEvent, .publish devEvent, .connect true, .serve, .deliver]).callbacks =
        [] ++ .opened (some 0) :: ([] ++ .event 1 :: []) := by decide
  have hnone : ∀ c : Callback, c ∉ [] := fun c hc => absurd hc List.not_mem_nil
  exact hnone _ (h.first [] 0 [] 1 [] hcalls (fun n => hnone _) (fun n => hnone _) (fun o => hnone _) (by decide))

end EventDelivery
