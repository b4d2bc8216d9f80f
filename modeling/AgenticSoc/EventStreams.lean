import Mathlib.Data.List.Infix
import Mathlib.Tactic.Common

/-!
# The event broker

A bounded ring of all events and a bounded queue for each subscriber. A queue that is
full drops what is published and marks its subscriber, and the next drain says so: every
hole in what a subscriber obtains stands right behind a drain that was marked.
-/
namespace EventStreams

inductive SubscriberState where
  | active | lagged | closed
  deriving DecidableEq, Repr

structure Subscriber (E : Type) where
  replayId : String
  queue : List E
  state : SubscriberState

/-- The subscribers stand by their identity. -/
structure EventBroker (E : Type) where
  ringSize : Nat
  ring_pos : 1 ≤ ringSize
  subscriberQueueSize : Nat
  queue_pos : 1 ≤ subscriberQueueSize
  ring : List E
  subs : Nat → Option (Subscriber E)
  nextId : Nat

/-- The last elements, at most so many. -/
def lastOf {E : Type} (most : Nat) (l : List E) : List E := l.drop (l.length - most)

section Broker

variable {E : Type} (stream : E → String)

def EventBroker.start (ringSize : Nat) (ring_pos : 1 ≤ ringSize) (queueSize : Nat) (queue_pos : 1 ≤ queueSize) :
    EventBroker E := ⟨ringSize, ring_pos, queueSize, queue_pos, [], fun _ => none, 1⟩

/-- What a subscriber makes of a published event. -/
def offer (queueSize : Nat) (e : E) (sub : Subscriber E) : Subscriber E :=
  if sub.state = .closed ∨ sub.replayId ≠ stream e then sub
  else if queueSize ≤ sub.queue.length then { sub with state := .lagged }
  else { sub with queue := sub.queue ++ [e] }

def publish (b : EventBroker E) (e : E) : EventBroker E :=
  { b with
    ring := lastOf b.ringSize (b.ring ++ [e])
    subs := fun id => (b.subs id).map (offer stream b.subscriberQueueSize e) }

/-- What the ring still holds of the stream, cut to the size of a queue. -/
def backlog (b : EventBroker E) (replayId : String) : List E :=
  lastOf b.subscriberQueueSize (b.ring.filter fun e => stream e = replayId)

def subscribe (b : EventBroker E) (replayId : String) : EventBroker E × Nat :=
  ({ b with
      subs := fun id => if id = b.nextId then some ⟨replayId, backlog stream b replayId, .active⟩ else b.subs id
      nextId := b.nextId + 1 }, b.nextId)

def unsubscribe (b : EventBroker E) (subscriberId : Nat) : EventBroker E :=
  { b with subs := fun id => if id = subscriberId then none else b.subs id }

/-- What a drain returns: the queued events, and whether some were dropped since the last
one. -/
def Subscriber.pending (sub : Subscriber E) : List E × Bool := (sub.queue, sub.state = .lagged)

def Subscriber.drained (sub : Subscriber E) : Subscriber E :=
  { sub with queue := [], state := if sub.state = .lagged then .active else sub.state }

def drain (b : EventBroker E) (subscriberId : Nat) : EventBroker E × (List E × Bool) :=
  match b.subs subscriberId with
  | none => (b, ([], false))
  | some sub =>
    ({ b with subs := fun id => if id = subscriberId then some sub.drained else b.subs id }, sub.pending)

def oldestAvailable (b : EventBroker E) (replayId : String) : Option E :=
  b.ring.find? fun e => stream e = replayId

end Broker

/-! ## Runs -/

inductive Action (E : Type) where
  | publish (e : E)
  | subscribe (replayId : String)
  | drain (subscriberId : Nat)
  | unsubscribe (subscriberId : Nat)

/-- A broker whose events are numbered in the order of their publication, with what was
published, each subscription with the number of events before it, and the drains of each
subscriber. -/
structure Run (E : Type) where
  broker : EventBroker (Nat × E)
  published : List E
  subscribedAt : Nat → Option (String × Nat)
  drains : Nat → List (List (Nat × E) × Bool)

section Runs

variable {E : Type} (stream : E → String)

def streamOf (e : Nat × E) : String := stream e.2

def Run.start (ringSize : Nat) (ring_pos : 1 ≤ ringSize) (queueSize : Nat) (queue_pos : 1 ≤ queueSize) : Run E :=
  ⟨.start ringSize ring_pos queueSize queue_pos, [], fun _ => none, fun _ => []⟩

def step (s : Run E) : Action E → Run E
  | .publish e =>
    { s with broker := publish (streamOf stream) s.broker (s.published.length, e), published := s.published ++ [e] }
  | .subscribe replayId =>
    let (broker, id) := subscribe (streamOf stream) s.broker replayId
    { s with
      broker := broker
      subscribedAt := fun id' => if id' = id then some (replayId, s.published.length) else s.subscribedAt id' }
  | .drain id =>
    let (broker, reply) := drain s.broker id
    { s with broker := broker, drains := fun id' => if id' = id then s.drains id ++ [reply] else s.drains id' }
  | .unsubscribe id => { s with broker := unsubscribe s.broker id }

def run (s : Run E) (actions : List (Action E)) : Run E := actions.foldl (step stream) s

def events (drains : List (List (Nat × E) × Bool)) : List (Nat × E) := drains.flatMap Prod.fst

/-- What a subscriber has obtained from its drains. -/
def obtained (s : Run E) (id : Nat) : List (Nat × E) := events (s.drains id)

/-! ## Marked holes -/

/-- The numbered events are events of the stream in the order of their publication. -/
structure Ordered (published : List E) (replayId : String) (l : List (Nat × E)) : Prop where
  published : ∀ x ∈ l, published[x.1]? = some x.2 ∧ stream x.2 = replayId
  increasing : l.Pairwise fun x y => x.1 < y.1

/-- A number is among the events, or a marked drain ends right before it. -/
def Covered (drains : List (List (Nat × E) × Bool)) (k : Nat) : Prop :=
  (∃ x ∈ events drains, x.1 = k) ∨
  ∃ d ∈ drains, d.2 = true ∧ ∃ x, d.1.getLast? = some x ∧ x.1 < k ∧ ∀ y ∈ events drains, y.1 < k → y.1 ≤ x.1

/-- Each event of the stream since the subscription that meets the condition is covered. -/
def AllCovered (published : List E) (replayId : String) (since : Nat) (drains : List (List (Nat × E) × Bool))
    (P : Nat → Prop) : Prop :=
  ∀ k e, since ≤ k → published[k]? = some e → stream e = replayId → P k → Covered drains k

/-- What is known of a subscriber whose queue will be drained next. -/
structure Tracked (published : List E) (replayId : String) (since queueSize : Nat) (drains : List (List (Nat × E) × Bool))
    (sub : Subscriber (Nat × E)) : Prop where
  replay : sub.replayId = replayId
  live : sub.state ≠ .closed
  size : sub.queue.length ≤ queueSize
  full : sub.state = .lagged → queueSize ≤ sub.queue.length
  ordered : Ordered stream published replayId (events (drains ++ [sub.pending]))
  covered : AllCovered stream published replayId since (drains ++ [sub.pending]) fun _ => True

/-- What is known of the drains alone. -/
structure Settled (published : List E) (replayId : String) (since : Nat) (drains : List (List (Nat × E) × Bool)) :
    Prop where
  ordered : Ordered stream published replayId (events drains)
  covered : AllCovered stream published replayId since drains fun k => ∃ y ∈ events drains, k < y.1

/-- What is known of an identity: before its subscription, during it and after it. -/
def Known (published : List E) (queueSize : Nat) (drains : List (List (Nat × E) × Bool)) :
    Option (String × Nat) → Option (Subscriber (Nat × E)) → Prop
  | none, sub => sub = none ∧ events drains = []
  | some (replayId, since), some sub => Tracked stream published replayId since queueSize drains sub
  | some (replayId, since), none => Settled stream published replayId since drains

structure Kept (s : Run E) : Prop where
  known : ∀ id, Known stream s.published s.broker.subscriberQueueSize (s.drains id) (s.subscribedAt id) (s.broker.subs id)
  fresh : ∀ id, s.broker.nextId ≤ id → s.subscribedAt id = none
  ring : s.broker.ring.Pairwise (fun x y => x.1 < y.1)
  ringPublished : ∀ x ∈ s.broker.ring, s.published[x.1]? = some x.2

variable {stream}

theorem events_append (drains : List (List (Nat × E) × Bool)) (d : List (Nat × E) × Bool) :
    events (drains ++ [d]) = events drains ++ d.1 := by
  simp [events]

theorem last_greatest {l : List (Nat × E)} {x : Nat × E} (h : l.Pairwise fun x y => x.1 < y.1) (hx : l.getLast? = some x) :
    ∀ y ∈ l, y.1 ≤ x.1 := by
  obtain ⟨init, rfl⟩ := List.getLast?_eq_some_iff.mp hx
  intro y hy
  rcases List.mem_append.mp hy with hy | hy
  · exact Nat.le_of_lt ((List.pairwise_append.mp h).2.2 y hy x (List.mem_singleton.mpr rfl))
  · rw [List.mem_singleton.mp hy]

/-- Publishing adds to the end of what is published. -/
theorem published_grows {published : List E} {k : Nat} {e x : E} (h : published[k]? = some e) :
    (published ++ [x])[k]? = some e := by
  rw [List.getElem?_append_left]
  · exact h
  · exact (List.getElem?_eq_some_iff.mp h).1

theorem published_cases {published : List E} {k : Nat} {e x : E} (h : (published ++ [x])[k]? = some e) :
    published[k]? = some e ∨ (k = published.length ∧ e = x) := by
  rw [List.getElem?_append] at h
  split at h
  · exact .inl h
  · rename_i hge
    right
    rcases hn : k - published.length with _ | n
    · rw [hn] at h
      simp only [List.getElem?_cons_zero, Option.some.injEq] at h
      exact ⟨by omega, h.symm⟩
    · rw [hn] at h
      simp at h

theorem Ordered.grow {published : List E} {replayId : String} {l : List (Nat × E)} (h : Ordered stream published replayId l)
    (x : E) : Ordered stream (published ++ [x]) replayId l :=
  ⟨fun y hy => ⟨published_grows (h.published y hy).1, (h.published y hy).2⟩, h.increasing⟩

theorem Ordered.lt_length {published : List E} {replayId : String} {l : List (Nat × E)}
    (h : Ordered stream published replayId l) : ∀ x ∈ l, x.1 < published.length :=
  fun x hx => (List.getElem?_eq_some_iff.mp (h.published x hx).1).1

theorem Settled.grow {published : List E} {replayId : String} {since : Nat} {drains : List (List (Nat × E) × Bool)}
    (h : Settled stream published replayId since drains) (x : E) :
    Settled stream (published ++ [x]) replayId since drains := by
  refine ⟨h.ordered.grow x, fun k e hsince hk hstream hlater => ?_⟩
  rcases published_cases hk with hk | ⟨rfl, -⟩
  · exact h.covered k e hsince hk hstream hlater
  · obtain ⟨y, hy, hlt⟩ := hlater
    exact absurd (h.ordered.lt_length y hy) (Nat.lt_asymm hlt)

/-- What is known of the queue is more than what is needed of the drains. -/
theorem Tracked.settled {published : List E} {replayId : String} {since queueSize : Nat}
    {drains : List (List (Nat × E) × Bool)} {sub : Subscriber (Nat × E)}
    (h : Tracked stream published replayId since queueSize drains sub) : Settled stream published replayId since drains := by
  have hordered := h.ordered
  have hcovered := h.covered
  rw [events_append] at hordered
  obtain ⟨hbefore, -, hqueue⟩ := List.pairwise_append.mp hordered.increasing
  refine ⟨⟨fun x hx => hordered.published x (List.mem_append_left _ hx), hbefore⟩, fun k e hsince hk hstream hlater => ?_⟩
  obtain ⟨y, hy, hlt⟩ := hlater
  -- an event of the queue comes after everything that has been obtained
  have hnot : ∀ x ∈ sub.queue, ¬ x.1 ≤ k := fun x hx hle => absurd (hqueue y hy x hx) (by omega)
  rcases hcovered k e hsince hk hstream trivial with ⟨x, hx, rfl⟩ | ⟨d, hd, hmarked, x, hlast, hbelow, hmost⟩
  · rw [events_append] at hx
    rcases List.mem_append.mp hx with hx | hx
    · exact .inl ⟨x, hx, rfl⟩
    · exact absurd (Nat.le_refl _) (hnot x hx)
  · rcases List.mem_append.mp hd with hd | hd
    · refine .inr ⟨d, hd, hmarked, x, hlast, hbelow, fun z hz => hmost z ?_⟩
      rw [events_append]
      exact List.mem_append_left _ hz
    · rw [List.mem_singleton.mp hd] at hlast
      exact absurd (Nat.le_of_lt hbelow) (hnot x (List.mem_of_getLast? hlast))

section Offers

variable {published : List E} {replayId : String} {since queueSize : Nat} {drains : List (List (Nat × E) × Bool)}
  {sub : Subscriber (Nat × E)}

/-- An event of another stream. -/
theorem Tracked.skip (h : Tracked stream published replayId since queueSize drains sub) {e : E}
    (hother : stream e ≠ replayId) : Tracked stream (published ++ [e]) replayId since queueSize drains sub := by
  refine ⟨h.replay, h.live, h.size, h.full, h.ordered.grow e, fun k e' hsince hk hstream _ => ?_⟩
  rcases published_cases hk with hk | ⟨-, rfl⟩
  · exact h.covered k e' hsince hk hstream trivial
  · exact absurd hstream hother

/-- The queue is full: the event that is dropped comes right behind it. -/
theorem Tracked.mark (hpos : 1 ≤ queueSize) (h : Tracked stream published replayId since queueSize drains sub) (e : E)
    (hfull : queueSize ≤ sub.queue.length) :
    Tracked stream (published ++ [e]) replayId since queueSize drains { sub with state := .lagged } := by
  have hsame : events (drains ++ [({ sub with state := .lagged } : Subscriber (Nat × E)).pending]) =
      events (drains ++ [sub.pending]) := by
    rw [events_append, events_append]
    rfl
  refine ⟨h.replay, by simp, h.size, fun _ => hfull, ?_, fun k e' hsince hk hstream _ => ?_⟩
  · rw [hsame]
    exact h.ordered.grow e
  · unfold Covered
    rw [hsame]
    rcases published_cases hk with hk | ⟨rfl, -⟩
    · rcases h.covered k e' hsince hk hstream trivial with hin | ⟨d, hd, hmarked, x, hlast, hbelow, hmost⟩
      · exact .inl hin
      · right
        rcases List.mem_append.mp hd with hd | hd
        · exact ⟨d, List.mem_append_left _ hd, hmarked, x, hlast, hbelow, hmost⟩
        · rw [List.mem_singleton.mp hd] at hlast
          exact ⟨_, List.mem_append_right _ (List.mem_singleton.mpr rfl), by simp [Subscriber.pending], x, hlast, hbelow,
            hmost⟩
    · right
      have hne : sub.queue ≠ [] := by
        intro hnil
        rw [hnil, List.length_nil] at hfull
        omega
      have hlast : (events (drains ++ [sub.pending])).getLast? = some (sub.queue.getLast hne) := by
        rw [events_append]
        simp [Subscriber.pending, List.getLast?_append, List.getLast?_eq_some_getLast hne]
      exact ⟨_, List.mem_append_right _ (List.mem_singleton.mpr rfl), by simp [Subscriber.pending], sub.queue.getLast hne,
        List.getLast?_eq_some_getLast hne, h.ordered.lt_length _ (List.mem_of_getLast? hlast),
        fun y hy _ => last_greatest h.ordered.increasing hlast y hy⟩

/-- The queue has room: nothing has been dropped since the last drain. -/
theorem Tracked.take (h : Tracked stream published replayId since queueSize drains sub) {e : E}
    (hmine : stream e = replayId) (hroom : ¬ queueSize ≤ sub.queue.length) :
    Tracked stream (published ++ [e]) replayId since queueSize drains
      { sub with queue := sub.queue ++ [(published.length, e)] } := by
  have hunmarked : sub.state ≠ .lagged := fun hl => hroom (h.full hl)
  have hadded : events (drains ++ [({ sub with queue := sub.queue ++ [(published.length, e)] } :
      Subscriber (Nat × E)).pending]) = events (drains ++ [sub.pending]) ++ [(published.length, e)] := by
    rw [events_append, events_append, List.append_assoc]
    rfl
  have hlt := h.ordered.lt_length
  refine ⟨h.replay, h.live, ?_, fun hl => absurd hl hunmarked, ?_, fun k e' hsince hk hstream _ => ?_⟩
  · simp only [List.length_append, List.length_singleton]
    omega
  · rw [hadded]
    have hordered := h.ordered.grow e
    refine ⟨fun x hx => ?_, List.pairwise_append.mpr ⟨hordered.increasing, List.pairwise_singleton _ _, fun x hx y hy => ?_⟩⟩
    · rcases List.mem_append.mp hx with hx | hx
      · exact hordered.published x hx
      · rw [List.mem_singleton.mp hx]
        exact ⟨by simp, hmine⟩
    · rw [List.mem_singleton.mp hy]
      exact hlt x hx
  · unfold Covered
    rw [hadded]
    rcases published_cases hk with hk | ⟨rfl, -⟩
    · rcases h.covered k e' hsince hk hstream trivial with ⟨x, hx, rfl⟩ | ⟨d, hd, hmarked, x, hlast, hbelow, hmost⟩
      · exact .inl ⟨x, List.mem_append_left _ hx, rfl⟩
      · right
        rcases List.mem_append.mp hd with hd | hd
        · refine ⟨d, List.mem_append_left _ hd, hmarked, x, hlast, hbelow, fun y hy hyk => ?_⟩
          rcases List.mem_append.mp hy with hy | hy
          · exact hmost y hy hyk
          · rw [List.mem_singleton.mp hy] at hyk
            exact absurd (List.getElem?_eq_some_iff.mp hk).1 (Nat.lt_asymm hyk)
        · rw [List.mem_singleton.mp hd] at hmarked
          exact absurd (of_decide_eq_true hmarked) hunmarked
    · exact .inl ⟨(published.length, e), List.mem_append_right _ (List.mem_singleton.mpr rfl), rfl⟩

/-- A subscriber takes an event of its stream or is marked. -/
theorem Tracked.offer (hpos : 1 ≤ queueSize) (h : Tracked stream published replayId since queueSize drains sub) (e : E) :
    Tracked stream (published ++ [e]) replayId since queueSize drains
      (offer (streamOf stream) queueSize (published.length, e) sub) := by
  unfold EventStreams.offer
  split
  · rename_i hskip
    rcases hskip with hclosed | hother
    · exact absurd hclosed h.live
    · exact h.skip fun heq => hother (h.replay.trans heq.symm)
  · rename_i hmine
    rw [not_or, not_not] at hmine
    split
    · rename_i hfull
      exact h.mark hpos e hfull
    · rename_i hroom
      exact h.take (hmine.2.symm.trans h.replay) hroom

/-- A drain takes the queue as it stands. -/
theorem Tracked.drained (h : Tracked stream published replayId since queueSize drains sub) :
    Tracked stream published replayId since queueSize (drains ++ [sub.pending]) sub.drained := by
  have hactive : (if sub.state = .lagged then SubscriberState.active else sub.state) ≠ .lagged := by
    split
    · simp
    · assumption
  have hsame : ∀ d : List (Nat × E) × Bool, d.1 = [] →
      events (drains ++ [sub.pending] ++ [d]) = events (drains ++ [sub.pending]) := by
    intro d hd
    rw [events_append, hd, List.append_nil]
  refine ⟨h.replay, ?_, Nat.zero_le _, fun hl => absurd hl hactive, ?_, fun k e hsince hk hstream _ => ?_⟩
  · change (if sub.state = .lagged then SubscriberState.active else sub.state) ≠ .closed
    split
    · simp
    · exact h.live
  · rw [hsame _ rfl]
    exact h.ordered
  · unfold Covered
    rw [hsame _ rfl]
    rcases h.covered k e hsince hk hstream trivial with hin | ⟨d, hd, hrest⟩
    · exact .inl hin
    · exact .inr ⟨d, List.mem_append_left _ hd, hrest⟩

/-- An empty drain adds nothing. -/
theorem Settled.drained (h : Settled stream published replayId since drains) :
    Settled stream published replayId since (drains ++ [([], false)]) := by
  have hsame : events (drains ++ [(([] : List (Nat × E)), false)]) = events drains := by
    rw [events_append, List.append_nil]
  refine ⟨?_, fun k e hsince hk hstream hlater => ?_⟩
  · rw [hsame]
    exact h.ordered
  · unfold Covered
    rw [hsame] at hlater ⊢
    rcases h.covered k e hsince hk hstream hlater with hin | ⟨d, hd, hrest⟩
    · exact .inl hin
    · exact .inr ⟨d, List.mem_append_left _ hd, hrest⟩

end Offers

section Identities

variable {published : List E} {queueSize : Nat} {drains : List (List (Nat × E) × Bool)} {since : Option (String × Nat)}
  {sub : Option (Subscriber (Nat × E))}

theorem Known.publish (hpos : 1 ≤ queueSize) (h : Known stream published queueSize drains since sub) (e : E) :
    Known stream (published ++ [e]) queueSize drains since
      (sub.map (offer (streamOf stream) queueSize (published.length, e))) := by
  rcases since with _ | ⟨replayId, since⟩
  · exact ⟨by rw [h.1]; rfl, h.2⟩
  · cases sub with
    | none => exact Settled.grow h e
    | some sub => exact Tracked.offer hpos h e

theorem Known.drain_none (h : Known stream published queueSize drains since none) :
    Known stream published queueSize (drains ++ [([], false)]) since none := by
  rcases since with _ | ⟨replayId, since⟩
  · refine ⟨rfl, ?_⟩
    rw [events_append, h.2]
    rfl
  · exact Settled.drained h

theorem Known.drain_some {sub : Subscriber (Nat × E)} (h : Known stream published queueSize drains since (some sub)) :
    Known stream published queueSize (drains ++ [sub.pending]) since (some sub.drained) := by
  rcases since with _ | ⟨replayId, since⟩
  · exact absurd h.1 (Option.some_ne_none sub)
  · exact Tracked.drained h

theorem Known.unsubscribe (h : Known stream published queueSize drains since sub) :
    Known stream published queueSize drains since none := by
  rcases since with _ | ⟨replayId, since⟩
  · exact ⟨rfl, h.2⟩
  · cases sub with
    | none => exact h
    | some sub => exact Tracked.settled h

end Identities

theorem lastOf_sublist {α : Type} (most : Nat) (l : List α) : (lastOf most l).Sublist l := List.drop_sublist _ _

theorem lastOf_length {α : Type} (most : Nat) (l : List α) : (lastOf most l).length ≤ most := by
  rw [lastOf, List.length_drop]
  omega

/-! ## Steps -/

section Steps

variable {s : Run E}

theorem Kept.publish (h : Kept stream s) (e : E) : Kept stream (step stream s (.publish e)) := by
  refine ⟨fun id => (h.known id).publish s.broker.queue_pos e, h.fresh, ?_, fun x hx => ?_⟩
  · refine List.Pairwise.sublist (lastOf_sublist _ _) (List.pairwise_append.mpr ⟨h.ring, List.pairwise_singleton _ _, ?_⟩)
    intro x hx y hy
    rw [List.mem_singleton.mp hy]
    exact (List.getElem?_eq_some_iff.mp (h.ringPublished x hx)).1
  · rcases List.mem_append.mp ((lastOf_sublist _ _).subset hx) with hx | hx
    · exact published_grows (h.ringPublished x hx)
    · rw [List.mem_singleton.mp hx]
      simp [step]

/-- The backlog of the ring is all that a new subscriber has. -/
theorem Kept.backlog_ordered (h : Kept stream s) (replayId : String) :
    Ordered stream s.published replayId (backlog (streamOf stream) s.broker replayId) := by
  have hsub : (backlog (streamOf stream) s.broker replayId).Sublist
      (s.broker.ring.filter fun e => streamOf stream e = replayId) := lastOf_sublist _ _
  refine ⟨fun x hx => ?_, (h.ring.sublist List.filter_sublist).sublist hsub⟩
  have hin := List.mem_filter.mp (hsub.subset hx)
  exact ⟨h.ringPublished x hin.1, of_decide_eq_true hin.2⟩

theorem Kept.subscribe (h : Kept stream s) (replayId : String) : Kept stream (step stream s (.subscribe replayId)) := by
  refine ⟨fun id => ?_, fun id hid => ?_, h.ring, h.ringPublished⟩
  · change Known stream s.published s.broker.subscriberQueueSize (s.drains id)
      (if id = s.broker.nextId then some (replayId, s.published.length) else s.subscribedAt id)
      (if id = s.broker.nextId then some ⟨replayId, EventStreams.backlog (streamOf stream) s.broker replayId, .active⟩
        else s.broker.subs id)
    by_cases hid : id = s.broker.nextId
    · have hdrains : events (s.drains id) = [] := by
        have hk := h.known id
        rw [h.fresh id hid.ge] at hk
        exact hk.2
      rw [if_pos hid, if_pos hid]
      refine ⟨rfl, by simp, lastOf_length _ _, by simp, ?_, fun k e hsince hk _ _ => ?_⟩
      · rw [events_append, hdrains]
        exact h.backlog_ordered replayId
      · exact absurd (List.getElem?_eq_some_iff.mp hk).1 (by omega)
    · rw [if_neg hid, if_neg hid]
      exact h.known id
  · change s.broker.nextId + 1 ≤ id at hid
    change (if id = s.broker.nextId then some (replayId, s.published.length) else s.subscribedAt id) = none
    rw [if_neg (by omega)]
    exact h.fresh id (by omega)

theorem Kept.drain (h : Kept stream s) (id : Nat) : Kept stream (step stream s (.drain id)) := by
  cases hsub : s.broker.subs id with
  | none =>
    have hdrain : EventStreams.drain s.broker id = (s.broker, ([], false)) := by simp [EventStreams.drain, hsub]
    simp only [step, hdrain]
    refine ⟨fun id' => ?_, h.fresh, h.ring, h.ringPublished⟩
    have hk := h.known id'
    simp only
    split
    · rename_i hid
      rw [hid] at hk ⊢
      rw [hsub] at hk ⊢
      exact hk.drain_none
    · exact hk
  | some sub =>
    have hdrain : EventStreams.drain s.broker id = ({ s.broker with
        subs := fun id' => if id' = id then some sub.drained else s.broker.subs id' }, sub.pending) := by
      simp [EventStreams.drain, hsub]
    simp only [step, hdrain]
    refine ⟨fun id' => ?_, h.fresh, h.ring, h.ringPublished⟩
    have hk := h.known id'
    simp only
    by_cases hid : id' = id
    · rw [if_pos hid, if_pos hid]
      rw [hid] at hk ⊢
      rw [hsub] at hk
      exact hk.drain_some
    · rw [if_neg hid, if_neg hid]
      exact hk

theorem Kept.unsubscribe (h : Kept stream s) (id : Nat) : Kept stream (step stream s (.unsubscribe id)) := by
  refine ⟨fun id' => ?_, h.fresh, h.ring, h.ringPublished⟩
  change Known stream s.published s.broker.subscriberQueueSize (s.drains id') (s.subscribedAt id')
    (if id' = id then none else s.broker.subs id')
  split
  · exact (h.known id').unsubscribe
  · exact h.known id'

theorem Kept.run (h : Kept stream s) (actions : List (Action E)) : Kept stream (run stream s actions) := by
  induction actions generalizing s with
  | nil => exact h
  | cons c actions ih =>
    refine ih ?_
    cases c with
    | publish e => exact h.publish e
    | subscribe replayId => exact h.subscribe replayId
    | drain id => exact h.drain id
    | unsubscribe id => exact h.unsubscribe id

end Steps

theorem kept_start (ringSize : Nat) (ring_pos : 1 ≤ ringSize) (queueSize : Nat) (queue_pos : 1 ≤ queueSize) :
    Kept stream (Run.start ringSize ring_pos queueSize queue_pos) :=
  ⟨fun _ => ⟨rfl, rfl⟩, fun _ _ => rfl, List.Pairwise.nil, fun _ hx => absurd hx List.not_mem_nil⟩

/-- Every queue keeps its bound. What a subscriber obtains comes from its stream in the order
of publication, each event once, and an event since the subscription is missing between two
neighbours only behind a drain that was marked. -/
theorem no_silent_loss (ringSize : Nat) (ring_pos : 1 ≤ ringSize) (queueSize : Nat) (queue_pos : 1 ≤ queueSize)
    (actions : List (Action E)) :
    let s := run stream (Run.start ringSize ring_pos queueSize queue_pos) actions
    (∀ id sub, s.broker.subs id = some sub → sub.queue.length ≤ s.broker.subscriberQueueSize) ∧
    ∀ id replayId since, s.subscribedAt id = some (replayId, since) →
      (∀ x ∈ obtained s id, s.published[x.1]? = some x.2 ∧ stream x.2 = replayId) ∧
      (obtained s id).Pairwise (fun x y => x.1 < y.1) ∧
      ∀ before x y after, obtained s id = before ++ x :: y :: after →
        ∀ k e, since ≤ k → x.1 < k → k < y.1 → s.published[k]? = some e → stream e = replayId →
          ∃ d ∈ s.drains id, x ∈ d.1 ∧ d.2 = true := by
  intro s
  have hkept : Kept stream s := (kept_start ringSize ring_pos queueSize queue_pos).run actions
  refine ⟨fun id sub hsub => ?_, fun id replayId since hsince => ?_⟩
  · have hk := hkept.known id
    rw [hsub] at hk
    cases hat : s.subscribedAt id with
    | none =>
      rw [hat] at hk
      exact absurd hk.1 (Option.some_ne_none sub)
    | some at' =>
      rw [hat] at hk
      exact Tracked.size hk
  · have hsettled : Settled stream s.published replayId since (s.drains id) := by
      have hk := (hkept.known id).unsubscribe
      rw [hsince] at hk
      exact hk
    refine ⟨hsettled.ordered.published, hsettled.ordered.increasing, fun before x y after hsplit k e hle hx hy hk hstream => ?_⟩
    have hyin : y ∈ obtained s id := by
      rw [hsplit]
      exact List.mem_append_right _ (List.mem_cons_of_mem x List.mem_cons_self)
    -- nothing that was obtained lies between the two neighbours
    have hnone : ∀ z ∈ obtained s id, x.1 < z.1 → ¬ z.1 < y.1 := by
      intro z hz hxz hzy
      have hsorted := hsettled.ordered.increasing
      change (obtained s id).Pairwise _ at hsorted
      rw [hsplit] at hz hsorted
      obtain ⟨-, htail, hcross⟩ := List.pairwise_append.mp hsorted
      rw [List.pairwise_cons, List.pairwise_cons] at htail
      rcases List.mem_append.mp hz with hz | hz
      · exact absurd (hcross z hz x List.mem_cons_self) (Nat.lt_asymm hxz)
      · rcases List.mem_cons.mp hz with rfl | hz
        · exact absurd hxz (Nat.lt_irrefl _)
        · rcases List.mem_cons.mp hz with rfl | hz
          · exact absurd hzy (Nat.lt_irrefl _)
          · exact absurd (htail.2.1 z hz) (Nat.lt_asymm hzy)
    rcases hsettled.covered k e hle hk hstream ⟨y, hyin, hy⟩ with ⟨z, hz, rfl⟩ | ⟨d, hd, hmarked, z, hlast, hbelow, hmost⟩
    · exact absurd hy (hnone z hz hx)
    · have hzd : z ∈ d.1 := List.mem_of_getLast? hlast
      have hzin : z ∈ obtained s id := List.mem_flatMap.mpr ⟨d, hd, hzd⟩
      have hxin : x ∈ obtained s id := by
        rw [hsplit]
        exact List.mem_append_right _ List.mem_cons_self
      have hnumber : z.1 = x.1 := by
        have hle := hmost x hxin hx
        have hnot := hnone z hzin
        omega
      have heq : z = x := by
        have hz := (hsettled.ordered.published z hzin).1
        rw [hnumber, (hsettled.ordered.published x hxin).1, Option.some.injEq] at hz
        exact Prod.ext hnumber hz.symm
      rw [heq] at hzd
      exact ⟨d, hd, hzd, hmarked⟩

/-- A queue of one event: the second of three events is dropped, and the drain of the first
one says so. -/
theorem no_silent_loss_dev :
    let s := run (fun e : String => e) (Run.start 4 (by decide) 1 (by decide))
      [.subscribe "replay", .publish "replay", .publish "replay", .drain 1, .publish "replay", .drain 1]
    obtained s 1 = [(0, "replay"), (2, "replay")] ∧ ∃ d ∈ s.drains 1, (0, "replay") ∈ d.1 ∧ d.2 = true := by
  intro s
  have hobtained : obtained s 1 = [(0, "replay"), (2, "replay")] := by decide
  exact ⟨hobtained, ((no_silent_loss 4 (by decide) 1 (by decide) _).2 1 "replay" 0 (by decide)).2.2 [] _ _ [] hobtained
    1 "replay" (by decide) (by decide) (by decide) (by decide) rfl⟩

end Runs

end EventStreams
