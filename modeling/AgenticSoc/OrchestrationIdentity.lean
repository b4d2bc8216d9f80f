import AgenticSoc.OrchestrationCoordinator
import AgenticSoc.OrchestrationReplica

/-!
# One decision for a round identity

As long as no round is asked for again after the history has forgotten it, an identity
gets one decision at most, and a call that reuses an identity with other content is
rejected.
-/
namespace OrchestrationIdentity

open OrchestrationMessages OrchestrationRound OrchestrationReplica OrchestrationCoordinator

variable {F : Type} {R : Runtime F} (cfg : Config)

/-! ## What a step does to the rounds -/

/-- A step that touches neither the rounds nor the log, with the lock held as before. -/
structure Inner (s s' : Coordinator R) : Prop where
  rounds : s'.rounds = s.rounds
  deciding : s'.deciding = s.deciding
  log : s'.log = s.log
  calls : s'.nextCall = s.nextCall
  running : s'.running.map (fun a => (a.call, a.key)) = s.running.map fun a => (a.call, a.key)

/-- A step by which the call with the lock releases it and closes its round. -/
structure Released (s s' : Coordinator R) (a : Adjudication R) : Prop where
  rounds : s'.rounds = closeRound s.rounds a.key
  running : s'.running = none
  ended : (∃ round, s'.deciding = s.deciding ++ [(a.call, a.key, round)] ∧ s'.log = s.log) ∨
    (s'.deciding = s.deciding ∧ s'.log = s.log ++ [.raised a.call])

theorem submit_cases (s : Coordinator R) (id : String) :
    ((s.submit id).1 = s ∧ (s.submit id).2 ≠ .queued s.nextTask) ∨
    ((s.submit id).2 = .queued s.nextTask ∧ s.executorsDown = false ∧ s.runningTask id = none ∧
      (s.submit id).1 = { s with
        inflight := fun id' => if id' = id then some s.nextTask else s.inflight id'
        nextTask := s.nextTask + 1 }) := by
  unfold Coordinator.submit
  cases hrunning : s.runningTask id with
  | some t => exact .inl ⟨rfl, by simp⟩
  | none =>
    cases hdown : s.executorsDown with
    | true => exact .inl ⟨rfl, by simp⟩
    | false => exact .inr ⟨rfl, rfl, rfl, rfl⟩

/-- Whatever it answers, `_submit` leaves the rounds alone. -/
theorem submit_frame {s s' : Coordinator R} {id : String} {answer : Submitted} (h : s.submit id = (s', answer)) :
    s'.rounds = s.rounds ∧ s'.deciding = s.deciding ∧ s'.log = s.log ∧ s'.nextCall = s.nextCall := by
  rcases submit_cases s id with ⟨hs, -⟩ | ⟨-, -, -, hs⟩ <;>
    · rw [h] at hs
      subst hs
      exact ⟨rfl, rfl, rfl, rfl⟩

theorem Inner.withRunning {s s' : Coordinator R} {a a' : Adjudication R} (ha : s.running = some a)
    (hs : s'.rounds = s.rounds ∧ s'.deciding = s.deciding ∧ s'.log = s.log ∧ s'.nextCall = s.nextCall)
    (hcall : a'.call = a.call) (hkey : a'.key = a.key) : Inner s (s'.withRunning a') := by
  refine ⟨hs.1, hs.2.1, hs.2.2.1, hs.2.2.2, ?_⟩
  simp [Coordinator.withRunning, ha, hcall, hkey]

theorem Released.abandon {s s' : Coordinator R} {a a' : Adjudication R}
    (hs : s'.rounds = s.rounds ∧ s'.deciding = s.deciding ∧ s'.log = s.log ∧ s'.nextCall = s.nextCall)
    (hcall : a'.call = a.call) (hkey : a'.key = a.key) : Released s (s'.abandon a') a := by
  refine ⟨?_, rfl, .inr ⟨hs.2.1, ?_⟩⟩
  · simp only [Coordinator.abandon, hs.1, hkey]
  · simp only [Coordinator.abandon, hs.2.2.1, hcall]

/-- A move of the call with the lock stays inside its round or ends it. -/
theorem move_cases {s s' : Coordinator R} {a : Adjudication R} {c : Action R} (ha : s.running = some a)
    (h : move cfg s a c = some s') : Inner s s' ∨ Released s s' a := by
  have hself : s.rounds = s.rounds ∧ s.deciding = s.deciding ∧ s.log = s.log ∧ s.nextCall = s.nextCall :=
    ⟨rfl, rfl, rfl, rfl⟩
  cases c with
  | startReplica available =>
    simp only [move, startReplica] at h
    split at h
    · split at h
      · cases h
        exact .inl (.withRunning ha hself rfl rfl)
      · split at h <;> rename_i hsubmit <;> cases h
        · exact .inl (.withRunning ha (submit_frame hsubmit) rfl rfl)
        · exact .inl (.withRunning ha (submit_frame hsubmit) rfl rfl)
        · exact .inr (.abandon (submit_frame hsubmit) rfl rfl)
    · cases h
  | lookUp =>
    simp only [move, lookUp] at h
    split at h
    · split at h <;> cases h <;> exact .inl (.withRunning ha hself rfl rfl)
    · cases h
  | wait expired completed =>
    simp only [move, wait] at h
    split at h
    · split at h
      · cases h
        exact .inl (.withRunning ha hself rfl rfl)
      · split at h
        · cases h
          exact .inl (.withRunning ha hself rfl rfl)
        · cases h
    · cases h
  | consumeProposal answer =>
    simp only [move, consumeProposal] at h
    split at h
    · split at h
      · cases h
      · split at h
        · cases h
          exact .inl (.withRunning ha hself rfl rfl)
        · split at h <;> cases h <;> exact .inl (.withRunning ha ⟨rfl, rfl, rfl, rfl⟩ rfl rfl)
    · cases h
  | consumeVote answer =>
    simp only [move, consumeVote] at h
    split at h
    · split at h
      · cases h
      · split at h
        · cases h
          exact .inl (.withRunning ha hself rfl rfl)
        · split at h <;> cases h <;> exact .inl (.withRunning ha ⟨rfl, rfl, rfl, rfl⟩ rfl rfl)
    · cases h
  | submitVote =>
    simp only [move, submitVote] at h
    split at h
    · split at h <;> rename_i hsubmit <;> cases h <;>
        exact .inl (.withRunning ha (submit_frame hsubmit) rfl rfl)
    · cases h
  | restart =>
    simp only [move, restart] at h
    split at h
    · cases h
      exact .inl (.withRunning ha hself rfl rfl)
    · cases h
      exact .inl (.withRunning ha hself rfl rfl)
    · split at h
      · cases h
        exact .inl (.withRunning ha hself rfl rfl)
      · split at h <;> rename_i hsubmit <;> cases h
        · exact .inl (.withRunning ha (submit_frame hsubmit) rfl rfl)
        · exact .inl (.withRunning ha (submit_frame hsubmit) rfl rfl)
        · exact .inr (.abandon (submit_frame hsubmit) rfl rfl)
    · cases h
  | collect completed =>
    simp only [move, collect] at h
    split at h
    · split at h
      · cases h
        exact .inl (.withRunning ha hself rfl rfl)
      · cases h
    · cases h
      exact .inl (.withRunning ha hself rfl rfl)
    · cases h
  | conclude expired =>
    simp only [move, conclude] at h
    split at h
    · cases h
      exact .inr ⟨rfl, rfl, .inl ⟨_, rfl, rfl⟩⟩
    · cases h
  | adjudicate request => cases h
  | decide call => cases h
  | preflight request => cases h
  | complete task => cases h
  | clearInflight id task => cases h
  | shutdown => cases h
  | shutdownExecutors => cases h

/-- A step: a call opens a round or is refused, the call with the lock moves, a decision
is built, or nothing of the rounds changes. -/
theorem step_cases {s s' : Coordinator R} {c : Action R} (h : step cfg s c = some s') :
    (∃ request, c = .adjudicate request ∧ s.running = none ∧ s' = adjudicate cfg s request) ∨
    (∃ request, c = .preflight request ∧ s' = preflight cfg s request) ∨
    (∃ call, c = .decide call ∧ decide s call = some s') ∨
    Inner s s' ∨ ∃ a, s.running = some a ∧ Released s s' a := by
  have hmove : ∀ c' : Action R, (s.running.bind fun a => move cfg s a c') = some s' →
      Inner s s' ∨ ∃ a, s.running = some a ∧ Released s s' a := by
    intro c' h
    obtain ⟨a, ha, hm⟩ := Option.bind_eq_some_iff.mp h
    exact (move_cases cfg ha hm).imp id fun hr => ⟨a, ha, hr⟩
  cases c with
  | adjudicate request =>
    simp only [step] at h
    split at h
    · cases h
    · rename_i hidle
      cases h
      exact .inl ⟨request, rfl, by simpa using hidle, rfl⟩
  | preflight request =>
    cases h
    exact .inr (.inl ⟨request, rfl, rfl⟩)
  | decide call => exact .inr (.inr (.inl ⟨call, rfl, h⟩))
  | complete task =>
    simp only [step] at h
    split at h
    · cases h
      exact .inr (.inr (.inr (.inl ⟨rfl, rfl, rfl, rfl, rfl⟩)))
    · cases h
  | clearInflight id task =>
    simp only [step] at h
    split at h
    · cases h
      exact .inr (.inr (.inr (.inl ⟨rfl, rfl, rfl, rfl, rfl⟩)))
    · cases h
  | shutdown =>
    cases h
    exact .inr (.inr (.inr (.inl ⟨rfl, rfl, rfl, rfl, rfl⟩)))
  | shutdownExecutors =>
    simp only [step] at h
    split at h
    · cases h
      exact .inr (.inr (.inr (.inl ⟨rfl, rfl, rfl, rfl, rfl⟩)))
    · cases h
  | startReplica available => exact .inr (.inr (.inr (hmove _ h)))
  | lookUp => exact .inr (.inr (.inr (hmove _ h)))
  | wait expired completed => exact .inr (.inr (.inr (hmove _ h)))
  | consumeProposal answer => exact .inr (.inr (.inr (hmove _ h)))
  | consumeVote answer => exact .inr (.inr (.inr (hmove _ h)))
  | submitVote => exact .inr (.inr (.inr (hmove _ h)))
  | restart => exact .inr (.inr (.inr (hmove _ h)))
  | collect completed => exact .inr (.inr (.inr (hmove _ h)))
  | conclude expired => exact .inr (.inr (.inr (hmove _ h)))

/-! ## Who has an identity -/

/-- A call has opened a round for the request. -/
def Opened (s : Coordinator R) (request : Request R) : Prop :=
  .preflighted request ∈ s.log ∨ ∃ call, .began call request ∈ s.log

def returnedKey : Event R → Option RoundKey
  | .returned _ key _ => some key
  | _ => none

/-- The identities of the decisions that calls have returned. -/
def returnedKeys (s : Coordinator R) : List RoundKey := s.log.filterMap returnedKey

/-- The identities of the rounds that are closed and have or get a decision. -/
def settledKeys (s : Coordinator R) : List RoundKey := s.deciding.map (fun d => d.2.1) ++ returnedKeys s

def runningKey (s : Coordinator R) : List RoundKey := (s.running.map Adjudication.key).toList

/-- Rounds of one identity have one digest, and a decision is for a round of its own. -/
structure Identified (s : Coordinator R) : Prop where
  agreed : ∀ r r', Opened s r → Opened s r' → keyOf r = keyOf r' →
    requestDigest R r.toOrchestrationRequestV1 = requestDigest R r'.toOrchestrationRequestV1
  entries : ∀ e ∈ s.rounds, ∀ r, Opened s r → keyOf r = e.1 →
    requestDigest R r.toOrchestrationRequestV1 = e.2.digest
  owners : (runningKey s ++ settledKeys s).Nodup
  opened : ∀ key ∈ runningKey s ++ settledKeys s, ∃ r, Opened s r ∧ keyOf r = key
  terminal : ∀ e ∈ s.rounds, e.1 ∈ settledKeys s → e.2.terminal = true
  distinct : (s.rounds.map Prod.fst).Nodup

theorem identified_initial (cache : BoundedReplayCache) : Identified (initial R cache) := by
  have hnone : ∀ r, ¬ Opened (initial R cache) r := by
    rintro r (h | ⟨call, h⟩)
    · exact List.not_mem_nil h
    · exact List.not_mem_nil h
  refine ⟨fun r _ h => absurd h (hnone r), fun e he => absurd he List.not_mem_nil, List.nodup_nil,
    fun key hkey => absurd hkey List.not_mem_nil, fun e he => absurd he List.not_mem_nil, List.nodup_nil⟩

section Steps

variable {cfg} {s s' : Coordinator R}

theorem Identified.inner (h : Identified s) (hs : Inner s s') : Identified s' := by
  have hopened : ∀ r, Opened s' r ↔ Opened s r := by
    intro r
    unfold Opened
    rw [hs.log]
  have hrunning : runningKey s' = runningKey s := by
    have hkeys := congrArg (Option.map Prod.snd) hs.running
    simp only [Option.map_map] at hkeys
    exact congrArg Option.toList hkeys
  have hsettled : settledKeys s' = settledKeys s := by
    unfold settledKeys returnedKeys
    rw [hs.deciding, hs.log]
  refine ⟨fun r r' hr hr' => h.agreed r r' ((hopened r).mp hr) ((hopened r').mp hr'), ?_, ?_, ?_, ?_,
    by rw [hs.rounds]; exact h.distinct⟩
  · intro e he r hr
    rw [hs.rounds] at he
    exact h.entries e he r ((hopened r).mp hr)
  · rw [hrunning, hsettled]
    exact h.owners
  · intro key hkey
    rw [hrunning, hsettled] at hkey
    obtain ⟨r, hr, hk⟩ := h.opened key hkey
    exact ⟨r, (hopened r).mpr hr, hk⟩
  · intro e he
    rw [hs.rounds] at he
    rw [hsettled]
    exact h.terminal e he

/-- What a closed round's entry was before. -/
theorem mem_closeRound {rounds : List (RoundKey × Entry R)} {key : RoundKey} {e : RoundKey × Entry R}
    (he : e ∈ closeRound rounds key) : ∃ e' ∈ rounds, e.1 = e'.1 ∧ e.2.request = e'.2.request ∧
      (e.2.terminal = true ∨ (e = e' ∧ e.1 ≠ key)) := by
  obtain ⟨e', he', rfl⟩ := List.mem_map.mp he
  by_cases hkey : e'.1 = key
  · rw [if_pos hkey]
    exact ⟨e', he', rfl, rfl, .inl rfl⟩
  · rw [if_neg hkey]
    exact ⟨e', he', rfl, rfl, .inr ⟨rfl, hkey⟩⟩

theorem closeRound_keys (rounds : List (RoundKey × Entry R)) (key : RoundKey) :
    (closeRound rounds key).map Prod.fst = rounds.map Prod.fst := by
  unfold closeRound
  rw [List.map_map]
  refine List.map_congr_left fun e _ => ?_
  simp only [Function.comp_apply]
  split <;> rfl

theorem Identified.released (h : Identified s) {a : Adjudication R} (ha : s.running = some a)
    (hs : Released s s' a) : Identified s' := by
  have hrunning : runningKey s = [a.key] := by
    unfold runningKey
    rw [ha]
    rfl
  have hidle : runningKey s' = [] := by
    unfold runningKey
    rw [hs.running]
    rfl
  have hopened : ∀ r, Opened s' r ↔ Opened s r := by
    intro r
    unfold Opened
    rcases hs.ended with ⟨-, -, hlog⟩ | ⟨-, hlog⟩ <;> simp [hlog]
  have hsettled : settledKeys s' = settledKeys s ∨ (settledKeys s').Perm (a.key :: settledKeys s) := by
    unfold settledKeys returnedKeys
    rcases hs.ended with ⟨round, hdeciding, hlog⟩ | ⟨hdeciding, hlog⟩
    · right
      rw [hdeciding, hlog, List.map_append]
      exact (List.perm_append_comm.append_right _)
    · left
      rw [hdeciding, hlog]
      simp [returnedKey]
  have hsub : ∀ key ∈ settledKeys s', key ∈ a.key :: settledKeys s := by
    intro key hkey
    rcases hsettled with he | he
    · rw [he] at hkey
      exact List.mem_cons_of_mem _ hkey
    · exact he.mem_iff.mp hkey
  have howners := h.owners
  rw [hrunning, List.singleton_append] at howners
  refine ⟨fun r r' hr hr' => h.agreed r r' ((hopened r).mp hr) ((hopened r').mp hr'), ?_, ?_, ?_, ?_,
    by rw [hs.rounds, closeRound_keys]; exact h.distinct⟩
  · intro e he r hr hk
    rw [hs.rounds] at he
    obtain ⟨e', he', hkey, hrequest, -⟩ := mem_closeRound he
    have hdigest := h.entries e' he' r ((hopened r).mp hr) (hk.trans hkey)
    unfold Entry.digest at hdigest ⊢
    rw [hrequest]
    exact hdigest
  · rw [hidle, List.nil_append]
    rcases hsettled with he | he
    · rw [he]
      exact (List.nodup_cons.mp howners).2
    · exact he.nodup_iff.mpr howners
  · intro key hkey
    rw [hidle, List.nil_append] at hkey
    obtain ⟨r, hr, hk⟩ := h.opened key (by rw [hrunning]; exact hsub key hkey)
    exact ⟨r, (hopened r).mpr hr, hk⟩
  · intro e he hkey
    rw [hs.rounds] at he
    obtain ⟨e', he', hsame, -, hterminal | ⟨rfl, hne⟩⟩ := mem_closeRound he
    · exact hterminal
    · rcases List.mem_cons.mp (hsub _ hkey) with heq | hold
      · exact absurd heq hne
      · exact h.terminal e he' hold

theorem Identified.decide (h : Identified s) {call : Nat} (hs : OrchestrationCoordinator.decide s call = some s') :
    Identified s' := by
  unfold OrchestrationCoordinator.decide at hs
  split at hs
  · cases hs
  · rename_i first key round hfind
    obtain ⟨hcall, before, after, hsplit, -⟩ := List.find?_eq_some_iff_append.mp hfind
    have hfilter : (s.deciding.filter fun d => d.1 ≠ call).Sublist (before ++ after) := by
      rw [hsplit, List.filter_append, List.filter_cons_of_neg (by simpa using hcall)]
      exact List.filter_sublist.append List.filter_sublist
    have hkeys : settledKeys s = before.map (fun d => d.2.1) ++ key :: (after.map (fun d => d.2.1) ++ returnedKeys s) := by
      unfold settledKeys
      rw [hsplit]
      simp
    -- the settled identities afterwards are among those before, each as often
    have hrest : ∀ log : List (Event R), (log.filterMap returnedKey = returnedKeys s ∨
        log.filterMap returnedKey = returnedKeys s ++ [key]) →
        ((s.deciding.filter fun d => d.1 ≠ call).map (fun d => d.2.1) ++ log.filterMap returnedKey).Subperm
          (settledKeys s) := by
      intro log hlog
      have hmap := hfilter.map fun d => d.2.1
      rw [List.map_append] at hmap
      rw [hkeys]
      rcases hlog with hlog | hlog
      · rw [hlog]
        refine ((hmap.append_right _).trans ?_).subperm
        rw [List.append_assoc]
        exact (List.sublist_cons_self _ _).append_left _
      · rw [hlog]
        refine (hmap.append_right _).subperm.trans (List.Perm.subperm ?_)
        simp only [List.append_assoc]
        refine List.Perm.append_left _ ?_
        rw [← List.append_assoc]
        exact List.perm_append_singleton key _
    have hfinish : ∀ log : List (Event R), (∀ r, (.preflighted r ∈ log ↔ .preflighted r ∈ s.log) ∧
        ∀ call, .began call r ∈ log ↔ .began call r ∈ s.log) →
        (log.filterMap returnedKey = returnedKeys s ∨ log.filterMap returnedKey = returnedKeys s ++ [key]) →
        Identified { s with deciding := s.deciding.filter fun d => d.1 ≠ call, log := log } := by
      intro log hsame hlog
      have hopened : ∀ r, Opened { s with deciding := s.deciding.filter fun d => d.1 ≠ call, log := log } r ↔
          Opened s r := by
        intro r
        unfold Opened
        simp only [(hsame r).1, (hsame r).2]
      have hsub := hrest log hlog
      refine ⟨fun r r' hr hr' => h.agreed r r' ((hopened r).mp hr) ((hopened r').mp hr'),
        fun e he r hr => h.entries e he r ((hopened r).mp hr), ?_, ?_,
        fun e he hkey => h.terminal e he (hsub.subset hkey), h.distinct⟩
      · obtain ⟨l, hl, hls⟩ := hsub
        exact ((hl.append_left _).nodup_iff).mp (h.owners.sublist (hls.append_left _))
      · intro k hk
        have hin : k ∈ runningKey s ++ settledKeys s := by
          rcases List.mem_append.mp hk with hk | hk
          · exact List.mem_append_left _ hk
          · exact List.mem_append_right _ (hsub.subset hk)
        obtain ⟨r, hr, hkr⟩ := h.opened k hin
        exact ⟨r, (hopened r).mpr hr, hkr⟩
    split at hs <;> cases hs
    · refine hfinish _ (fun r => by simp) (.inr ?_)
      simp [returnedKeys, returnedKey]
    · refine hfinish _ (fun r => by simp) (.inl ?_)
      simp [returnedKeys, returnedKey]

/-- The history has not forgotten a round that was opened for this identity. -/
def Remembers (s : Coordinator R) (request : Request R) : Prop :=
  (∃ r, Opened s r ∧ keyOf r = keyOf request) → findRound s.rounds (keyOf request) ≠ none

theorem evict_sublist (limit : Nat) (active : List RoundKey) (rounds : List (RoundKey × Entry R)) :
    (evict limit active rounds).Sublist rounds := by
  induction rounds with
  | nil => exact .slnil
  | cons e rest ih =>
    unfold evict
    split
    · split
      · exact .refl _
      · exact ih.cons e
    · exact .refl _

/-- The round of an identity is the one of the history, with the same digest, or new. -/
theorem newRound_ok {request : Request R} {rounds : List (RoundKey × Entry R)} {e : Entry R}
    (h : newRound cfg s request = .ok (rounds, e)) :
    (rounds = s.rounds ∧ (keyOf request, e) ∈ s.rounds ∧
      e.digest = requestDigest R request.toOrchestrationRequestV1) ∨
    (findRound s.rounds (keyOf request) = none ∧ e = ⟨request, false⟩ ∧
      rounds.Sublist (s.rounds ++ [(keyOf request, e)])) := by
  unfold newRound at h
  split at h
  · rename_i e' hfind
    split at h
    · cases h
    · rename_i hdigest
      cases h
      obtain ⟨x, hx, rfl⟩ := Option.map_eq_some_iff.mp hfind
      have hkey : x.1 = keyOf request := by simpa using List.find?_some hx
      refine .inl ⟨rfl, ?_, not_not.mp hdigest⟩
      rw [← hkey]
      exact List.mem_of_find?_eq_some hx
  · rename_i hfind
    cases h
    exact .inr ⟨hfind, rfl, evict_sublist _ _ _⟩

/-- What a round that is found or made for the request leaves of the invariant. -/
structure Recorded (s : Coordinator R) (request : Request R) (rounds : List (RoundKey × Entry R)) (e : Entry R) :
    Prop where
  agreed : ∀ r, Opened s r → keyOf r = keyOf request →
    requestDigest R r.toOrchestrationRequestV1 = requestDigest R request.toOrchestrationRequestV1
  entries : ∀ x ∈ rounds, ∀ r, Opened s r ∨ r = request → keyOf r = x.1 →
    requestDigest R r.toOrchestrationRequestV1 = x.2.digest
  terminal : ∀ x ∈ rounds, x.1 ∈ settledKeys s → x.2.terminal = true
  fresh : e.terminal = false → keyOf request ∉ settledKeys s
  distinct : (rounds.map Prod.fst).Nodup

theorem Identified.recorded (h : Identified s) {request : Request R} (hrem : Remembers s request)
    {rounds : List (RoundKey × Entry R)} {e : Entry R} (hnew : newRound cfg s request = .ok (rounds, e)) :
    Recorded s request rounds e := by
  rcases newRound_ok hnew with ⟨rfl, he, hdigest⟩ | ⟨hnone, rfl, hsub⟩
  · have hagreed : ∀ r, Opened s r → keyOf r = keyOf request →
        requestDigest R r.toOrchestrationRequestV1 = requestDigest R request.toOrchestrationRequestV1 :=
      fun r hr hk => (h.entries _ he r hr hk).trans hdigest
    refine ⟨hagreed, ?_, h.terminal, ?_, h.distinct⟩
    · rintro x hx r (hr | rfl) hk
      · exact h.entries x hx r hr hk
      · have hsame := List.inj_on_of_nodup_map h.distinct hx he hk.symm
        rw [hsame]
        exact hdigest.symm
    · intro hopen hkey
      rw [h.terminal _ he hkey] at hopen
      cases hopen
  · have hunused : ∀ r, Opened s r → keyOf r ≠ keyOf request :=
      fun r hr hk => absurd hnone (hrem ⟨r, hr, hk⟩)
    have hunsettled : keyOf request ∉ settledKeys s := by
      intro hkey
      obtain ⟨r, hr, hk⟩ := h.opened _ (List.mem_append_right _ hkey)
      exact hunused r hr hk
    have hother : ∀ x ∈ s.rounds, x.1 ≠ keyOf request := by
      intro x hx
      simpa using List.find?_eq_none.mp (Option.map_eq_none_iff.mp hnone) x hx
    refine ⟨fun r hr hk => absurd hk (hunused r hr), ?_, ?_, fun _ => hunsettled, ?_⟩
    · intro x hx r hr hk
      rcases List.mem_append.mp (hsub.subset hx) with hx | hx
      · rcases hr with hr | rfl
        · exact h.entries x hx r hr hk
        · exact absurd hk.symm (hother x hx)
      · rw [List.mem_singleton.mp hx] at hk ⊢
        rcases hr with hr | rfl
        · exact absurd hk (hunused r hr)
        · rfl
    · intro x hx hkey
      rcases List.mem_append.mp (hsub.subset hx) with hx | hx
      · exact h.terminal x hx hkey
      · rw [List.mem_singleton.mp hx] at hkey
        exact absurd hkey hunsettled
    · refine List.Nodup.sublist (hsub.map Prod.fst) ?_
      rw [List.map_append, List.nodup_append]
      refine ⟨h.distinct, List.nodup_singleton _, ?_⟩
      intro a ha b hb
      obtain ⟨x, hx, rfl⟩ := List.mem_map.mp ha
      rw [List.mem_singleton.mp hb]
      exact hother x hx

/-- A call that is refused leaves its event and at most the new round of its request. -/
theorem Identified.refused (h : Identified s) {rounds : List (RoundKey × Entry R)} (calls : Nat) (call : Nat)
    (reason : String) (hrounds : rounds = s.rounds ∨ ∃ request e, Recorded s request rounds e) :
    Identified { s with rounds := rounds, nextCall := calls, log := s.log ++ [.rejected call reason] } := by
  have hopened : ∀ r, Opened { s with rounds := rounds, nextCall := calls, log := s.log ++ [.rejected call reason] } r ↔
      Opened s r := by
    intro r
    simp [Opened]
  have hsettled : settledKeys { s with rounds := rounds, nextCall := calls, log := s.log ++ [.rejected call reason] } =
      settledKeys s := by
    simp [settledKeys, returnedKeys, returnedKey]
  refine ⟨fun r r' hr hr' => h.agreed r r' ((hopened r).mp hr) ((hopened r').mp hr'), ?_, ?_, ?_, ?_, ?_⟩
  · intro e he r hr hk
    rcases hrounds with rfl | ⟨request, e', hrec⟩
    · exact h.entries e he r ((hopened r).mp hr) hk
    · exact hrec.entries e he r (.inl ((hopened r).mp hr)) hk
  · rw [hsettled]
    exact h.owners
  · rw [hsettled]
    intro key hkey
    obtain ⟨r, hr, hk⟩ := h.opened key hkey
    exact ⟨r, (hopened r).mpr hr, hk⟩
  · rw [hsettled]
    intro e he
    rcases hrounds with rfl | ⟨request, e', hrec⟩
    · exact h.terminal e he
    · exact hrec.terminal e he
  · rcases hrounds with rfl | ⟨request, e', hrec⟩
    · exact h.distinct
    · exact hrec.distinct

/-- A call that opens a round for its request. -/
theorem Identified.opens (h : Identified s) {request : Request R} {rounds : List (RoundKey × Entry R)} {e : Entry R}
    (hrec : Recorded s request rounds e) (hrounds : s'.rounds = rounds) (hdeciding : s'.deciding = s.deciding)
    {event : Event R} (hlog : s'.log = s.log ++ [event])
    (hevent : event = .preflighted request ∨ ∃ call, event = .began call request)
    (hrunning : runningKey s' = runningKey s ∨ (runningKey s = [] ∧ runningKey s' = [keyOf request] ∧ e.terminal = false)) :
    Identified s' := by
  have hopened : ∀ r, Opened s' r ↔ Opened s r ∨ r = request := by
    intro r
    unfold Opened
    rw [hlog]
    rcases hevent with rfl | ⟨call, rfl⟩
    · simp only [List.mem_append, List.mem_singleton, Event.preflighted.injEq, reduceCtorEq, or_false]
      tauto
    · simp only [List.mem_append, List.mem_singleton, Event.began.injEq, reduceCtorEq, or_false, exists_or]
      constructor
      · rintro (h | h | ⟨c, -, h⟩)
        · exact .inl (.inl h)
        · exact .inl (.inr h)
        · exact .inr h
      · rintro ((h | h) | h)
        · exact .inl h
        · exact .inr (.inl h)
        · exact .inr (.inr ⟨call, rfl, h⟩)
  have hsettled : settledKeys s' = settledKeys s := by
    unfold settledKeys returnedKeys
    rw [hdeciding, hlog]
    rcases hevent with rfl | ⟨call, rfl⟩ <;> simp [returnedKey]
  refine ⟨?_, ?_, ?_, ?_, ?_, ?_⟩
  · intro r r' hr hr' hk
    rcases (hopened r).mp hr with hr | rfl
    · rcases (hopened r').mp hr' with hr' | rfl
      · exact h.agreed r r' hr hr' hk
      · exact hrec.agreed r hr hk
    · rcases (hopened r').mp hr' with hr' | rfl
      · exact (hrec.agreed r' hr' hk.symm).symm
      · rfl
  · intro x hx r hr
    rw [hrounds] at hx
    exact hrec.entries x hx r ((hopened r).mp hr)
  · rw [hsettled]
    rcases hrunning with he | ⟨-, he, hopen⟩
    · rw [he]
      exact h.owners
    · rw [he, List.singleton_append, List.nodup_cons]
      exact ⟨hrec.fresh hopen, (List.nodup_append.mp h.owners).2.1⟩
  · intro key hkey
    have hin : key ∈ runningKey s ++ settledKeys s ∨ key = keyOf request := by
      rw [hsettled] at hkey
      rcases hrunning with he | ⟨-, he, -⟩
      · rw [he] at hkey
        exact .inl hkey
      · rw [he] at hkey
        rcases List.mem_cons.mp hkey with rfl | hkey
        · exact .inr rfl
        · exact .inl (List.mem_append_right _ hkey)
    rcases hin with hin | rfl
    · obtain ⟨r, hr, hk⟩ := h.opened key hin
      exact ⟨r, (hopened r).mpr (.inl hr), hk⟩
    · exact ⟨request, (hopened request).mpr (.inr rfl), rfl⟩
  · intro x hx hkey
    rw [hrounds] at hx
    rw [hsettled] at hkey
    exact hrec.terminal x hx hkey
  · rw [hrounds]
    exact hrec.distinct

theorem Identified.adjudicate (h : Identified s) {request : Request R} (hrem : Remembers s request)
    (hidle : s.running = none) : Identified (OrchestrationCoordinator.adjudicate cfg s request) := by
  unfold OrchestrationCoordinator.adjudicate
  simp only
  split
  · exact h.refused _ _ _ (.inl rfl)
  · split
    · exact h.refused _ _ _ (.inl rfl)
    · rename_i rounds e hnew
      have hrec := h.recorded hrem hnew
      split
      · exact h.refused _ _ _ (.inr ⟨request, e, hrec⟩)
      · rename_i hopen
        refine h.opens hrec rfl rfl rfl (.inr ⟨_, rfl⟩) (.inr ⟨?_, rfl, by simpa using hopen⟩)
        unfold runningKey
        rw [hidle]
        rfl

theorem Identified.preflight (h : Identified s) {request : Request R} (hrem : Remembers s request) :
    Identified (OrchestrationCoordinator.preflight cfg s request) := by
  unfold OrchestrationCoordinator.preflight
  simp only
  split
  · exact h.refused _ _ _ (.inl rfl)
  · rename_i rounds e hnew
    have hrec := h.recorded hrem hnew
    split
    · exact h.refused _ _ _ (.inr ⟨request, e, hrec⟩)
    · exact h.opens hrec rfl rfl rfl (.inl rfl) (.inl rfl)

end Steps

/-! ## Runs -/

/-- The round that a call asks for has not been forgotten. -/
def Remembered (s : Coordinator R) : Action R → Prop
  | .adjudicate request | .preflight request => Remembers s request
  | _ => True

theorem Identified.step {s s' : Coordinator R} {c : Action R} (h : Identified s) (hrem : Remembered s c)
    (hs : step cfg s c = some s') : Identified s' := by
  rcases step_cases cfg hs with ⟨request, rfl, hidle, rfl⟩ | ⟨request, rfl, rfl⟩ | ⟨call, rfl, hd⟩ | hinner |
    ⟨a, ha, hreleased⟩
  · exact h.adjudicate hrem hidle
  · exact h.preflight hrem
  · exact h.decide hd
  · exact h.inner hinner
  · exact h.released ha hreleased

/-- The text that the digest of a request covers. -/
def requestText (request : Request R) : String :=
  canonicalJson R (requestDump R request.toOrchestrationRequestV1
    (Sorting.sortBy (fun c => c.routeId.toList) request.candidateRoutes) (R.jsonMode request.provenance.value))

/-- When no step asks again for a round that the history has forgotten, an identity gets
one decision at most, and a call that reuses an identity with other content is rejected. -/
theorem one_decision {cache : BoundedReplayCache} {actions : List (Action R)} {s : Coordinator R}
    (hrun : run cfg (initial R cache) actions = some s)
    (hremembered : Along cfg Remembered (initial R cache) actions) :
    (returnedKeys s).Nodup ∧ ∀ request, Remembers s request →
      (∃ r, Opened s r ∧ keyOf r = keyOf request ∧ requestText r ≠ requestText request) →
      Set.InjOn R.sha256Hex {t | t = requestText request ∨ ∃ r, Opened s r ∧ t = requestText r} →
      ∃ reason, (adjudicate cfg s request).log = s.log ++ [.rejected s.nextCall reason] := by
  have h : Identified s := run_invariant cfg (fun s c s' h hrem hs => h.step cfg hrem hs)
    (identified_initial cache) hremembered hrun
  refine ⟨(List.nodup_append.mp (List.nodup_append.mp h.owners).2.1).2.1, ?_⟩
  rintro request hrem ⟨r, hr, hk, hne⟩ hseparate
  have hdigest : requestDigest R r.toOrchestrationRequestV1 ≠ requestDigest R request.toOrchestrationRequestV1 :=
    fun heq => hne (hseparate (.inr ⟨r, hr, rfl⟩) (.inl rfl) heq)
  unfold adjudicate
  simp only
  split
  · exact ⟨_, rfl⟩
  · split
    · exact ⟨_, rfl⟩
    · rename_i rounds e hnew
      exact absurd ((h.recorded hrem hnew).agreed r hr hk) hdigest

/-! ## Two identities -/

def openedKey : Event R → Option RoundKey
  | .preflighted request | .began _ request => some (keyOf request)
  | _ => none

/-- Enough for the condition, and decided on the log. -/
def rememberedCheck (s : Coordinator R) : Action R → Bool
  | .adjudicate request | .preflight request =>
    (findRound s.rounds (keyOf request)).isSome || s.log.all fun e => openedKey e ≠ some (keyOf request)
  | _ => true

theorem remembered_of_check (s : Coordinator R) (c : Action R) (h : rememberedCheck s c = true) : Remembered s c := by
  have hremembers : ∀ request : Request R, ((findRound s.rounds (keyOf request)).isSome ||
      s.log.all fun e => openedKey e ≠ some (keyOf request)) = true → Remembers s request := by
    rintro request h ⟨r, hr, hk⟩ hnone
    rw [hnone, Option.isSome_none, Bool.false_or, List.all_eq_true] at h
    rcases hr with hr | ⟨call, hr⟩
    · simpa [openedKey, hk] using h _ hr
    · simpa [openedKey, hk] using h _ hr
  cases c with
  | adjudicate request => exact hremembers request h
  | preflight request => exact hremembers request h
  | _ => trivial

def otherContent : OrchestrationRequestV1 devRuntime.floats := { devContent with requestId := "request-2" }

theorem otherContent_size :
    withinBytes devRuntime maxRequestCanonicalBytes (requestModelDump devRuntime otherContent) = true := by
  unfold withinBytes
  rw [JsonSize.dumps_any_size]
  decide +kernel

def otherRequest : Request devRuntime where
  toOrchestrationRequestV1 := otherContent
  valid := by
    unfold requestChecks
    rw [otherContent_size]
    decide

def devConfig (roundHistoryLimit : Nat) (history_pos : 1 ≤ roundHistoryLimit) : Config where
  replicas := orchestratorIds
  replicas_ids := .refl _
  roundHistoryLimit := roundHistoryLimit
  history_pos := history_pos
  keys := devKeys

/-- A call for the request while no replica is available. -/
def unavailableRound (request : Request R) (call : Nat) : List (Action R) :=
  [.adjudicate request, .startReplica false, .startReplica false, .startReplica false, .wait false [],
    .collect [], .collect [], .conclude false, .decide call]

theorem one_decision_dev : ∃ s, run (devConfig 2 (by decide)) (initial devRuntime ⟨1, by decide, []⟩)
    (unavailableRound devRequest 0 ++ unavailableRound otherRequest 1) = some s ∧
    (returnedKeys s).length = 2 ∧ (returnedKeys s).Nodup := by
  have hrun : ((run (devConfig 2 (by decide)) (initial devRuntime ⟨1, by decide, []⟩)
      (unavailableRound devRequest 0 ++ unavailableRound otherRequest 1)).map fun s => (returnedKeys s).length) =
      some 2 := by decide
  obtain ⟨s, hs, hlength⟩ := Option.map_eq_some_iff.mp hrun
  exact ⟨s, hs, hlength, (one_decision _ hs (along_of_check _ remembered_of_check (by decide))).1⟩

/-- The history holds one round: the identity that it has forgotten gets a second
decision. -/
theorem identity_decided_twice : ∃ s, run (devConfig 1 (by decide)) (initial devRuntime ⟨1, by decide, []⟩)
    (unavailableRound devRequest 0 ++ unavailableRound otherRequest 1 ++ unavailableRound devRequest 2) = some s ∧
    returnedKeys s = [keyOf devRequest, keyOf otherRequest, keyOf devRequest] ∧ ¬ (returnedKeys s).Nodup := by
  have hrun : ((run (devConfig 1 (by decide)) (initial devRuntime ⟨1, by decide, []⟩)
      (unavailableRound devRequest 0 ++ unavailableRound otherRequest 1 ++ unavailableRound devRequest 2)).map
        returnedKeys) = some [keyOf devRequest, keyOf otherRequest, keyOf devRequest] := by decide
  obtain ⟨s, hs, hkeys⟩ := Option.map_eq_some_iff.mp hrun
  refine ⟨s, hs, hkeys, ?_⟩
  rw [hkeys]
  simp

end OrchestrationIdentity
