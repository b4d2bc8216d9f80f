import AgenticSoc.Interaction

/-!
# Machines that interleave programs

A machine owns a shared state and runs the programs of its tasks. A step starts
a task, lets one task make its next call, takes the result of a task that has
returned, or applies an operator action; an operator action may kill tasks, as a
restart of their process does. Everything that happens is appended to a trace,
and a task is named by the position of its start event in it.

A contract says of each task what its history of calls and replies has to look
like at every call and at its return. A contract that the programs meet on their
own holds of the trace of every run.
-/
namespace Interleaving

open Interaction

section Machine

variable (I : Interface) (σ E τ α O : Type)

inductive Event where
  | started : τ → Event
  | called : Nat → (c : I.Call) → I.Reply c → Event
  | finished : Nat → τ → α → Event
  | operated : O → Event

structure Machine where
  exec : τ → (c : I.Call) → E → σ → σ × I.Reply c
  program : τ → Prog I α
  operate : O → σ → σ
  kills : O → τ → Bool
  excludes : τ → τ → Bool

/-- The shared state together with the trace of all that has happened. -/
structure Shared where
  state : σ
  trace : List (Event I τ α O)

structure Config extends Shared I σ τ α O where
  threads : Nat → Option (τ × Prog I α)

inductive Action where
  | start : τ → Action
  | advance : Nat → E → Action
  | finish : Nat → Action
  | operate : O → Action

/-- What each task owes: which replies it may count on, what its history must be
at a call, and what its history and result must be when it returns. -/
structure Contract where
  replies : (c : I.Call) → I.Reply c → Prop
  pre : τ → I.Call → History I → Prop
  post : τ → α → History I → Prop

end Machine

variable {I : Interface} {σ E τ α O : Type}

def Shared.log (sh : Shared I σ τ α O) (s : σ) (e : Event I τ α O) : Shared I σ τ α O :=
  ⟨s, sh.trace ++ [e]⟩

@[simp] theorem Shared.log_state (sh : Shared I σ τ α O) (s : σ) (e : Event I τ α O) :
    (sh.log s e).state = s := rfl
@[simp] theorem Shared.log_trace (sh : Shared I σ τ α O) (s : σ) (e : Event I τ α O) :
    (sh.log s e).trace = sh.trace ++ [e] := rfl

def setThread (threads : Nat → Option (τ × Prog I α)) (i : Nat)
    (v : Option (τ × Prog I α)) : Nat → Option (τ × Prog I α) :=
  fun j => if j = i then v else threads j

/-- A thread of the updated table is the new one or an old one of another task. -/
theorem setThread_some {f : Nat → Option (τ × Prog I α)} {i j : Nat}
    {v : Option (τ × Prog I α)} {t : τ × Prog I α} (h : setThread f i v j = some t) :
    (j = i ∧ v = some t) ∨ (j ≠ i ∧ f j = some t) := by
  unfold setThread at h
  by_cases hj : j = i
  · exact .inl ⟨hj, by simpa [hj] using h⟩
  · exact .inr ⟨hj, by simpa [hj] using h⟩

/-! ## The history of one task -/

def ownCall (i : Nat) : Event I τ α O → Option (Sigma I.Reply)
  | .called j c r => if j = i then some ⟨c, r⟩ else none
  | _ => none

/-- The calls of task `i` in the trace, in order. -/
def callsOf (i : Nat) (tr : List (Event I τ α O)) : History I := tr.filterMap (ownCall i)

theorem callsOf_concat (i : Nat) (tr : List (Event I τ α O)) (e : Event I τ α O) :
    callsOf i (tr ++ [e]) = callsOf i tr ++ (ownCall i e).toList := by
  simp only [callsOf, List.filterMap_append]
  cases h : ownCall i e <;> simp [h]

theorem callsOf_skip {i : Nat} {tr : List (Event I τ α O)} {e : Event I τ α O}
    (h : ownCall i e = none) : callsOf i (tr ++ [e]) = callsOf i tr := by
  rw [callsOf_concat, h]
  simp

theorem mem_callsOf {i : Nat} {tr : List (Event I τ α O)} {c : I.Call} {r : I.Reply c} :
    (⟨c, r⟩ : Sigma I.Reply) ∈ callsOf i tr ↔ Event.called i c r ∈ tr := by
  unfold callsOf
  rw [List.mem_filterMap]
  constructor
  · rintro ⟨e, he, ho⟩
    cases e with
    | called j q s =>
      unfold ownCall at ho
      by_cases hj : j = i
      · simp only [hj, if_true, Option.some.injEq] at ho
        cases ho
        rw [← hj]
        exact he
      · simp [hj] at ho
    | started t => cases ho
    | finished j t a => cases ho
    | operated o => cases ho
  · intro h
    exact ⟨_, h, by simp [ownCall]⟩

/-- A call in the history below an event is in the trace before that event. -/
theorem mem_callsOf_take {i n : Nat} {tr : List (Event I τ α O)} {c : I.Call}
    {r : I.Reply c} (h : (⟨c, r⟩ : Sigma I.Reply) ∈ callsOf i (tr.take n)) :
    ∃ m < n, tr[m]? = some (.called i c r) := by
  obtain ⟨m, hm, he⟩ := List.getElem_of_mem ((mem_callsOf).mp h)
  rw [List.length_take] at hm
  refine ⟨m, by omega, ?_⟩
  rw [List.getElem_take] at he
  rw [List.getElem?_eq_getElem (by omega), he]

/-- An entry of an extended trace is an old one or the new last one. -/
theorem getElem?_concat_cases {tr : List (Event I τ α O)} {e x : Event I τ α O} {n : Nat}
    (h : (tr ++ [e])[n]? = some x) :
    (n < tr.length ∧ tr[n]? = some x) ∨ (n = tr.length ∧ x = e) := by
  obtain ⟨hn, hx⟩ := List.getElem?_eq_some_iff.mp h
  rw [List.length_append, List.length_singleton] at hn
  by_cases hlt : n < tr.length
  · rw [List.getElem?_append_left hlt] at h
    exact .inl ⟨hlt, h⟩
  · have hn' : n = tr.length := by omega
    subst hn'
    exact .inr ⟨rfl, by simpa using hx.symm⟩

theorem getElem?_concat_of_some {tr : List (Event I τ α O)} {e x : Event I τ α O} {n : Nat}
    (h : tr[n]? = some x) : (tr ++ [e])[n]? = some x := by
  rw [List.getElem?_append_left (List.getElem?_eq_some_iff.mp h).1]
  exact h

namespace Machine

variable (M : Machine I σ E τ α O)

def init (s : σ) : Config I σ τ α O := ⟨⟨s, []⟩, fun _ => none⟩

/-- No live task holds a lock that `t` needs. -/
def free (c : Config I σ τ α O) (t : τ) : Bool :=
  (List.range c.trace.length).all fun i =>
    match c.threads i with
    | some (u, _) => !M.excludes u t
    | none => true

/-- What one call of task `i` does to the shared state. -/
def callEffect (i : Nat) (t : τ) (q : I.Call) (e : E) (sh : Shared I σ τ α O) :
    Shared I σ τ α O :=
  sh.log (M.exec t q e sh.state).1 (.called i q (M.exec t q e sh.state).2)

def step (c : Config I σ τ α O) : Action E τ O → Option (Config I σ τ α O)
  | .start t =>
    if M.free c t then
      some ⟨c.toShared.log c.state (.started t),
        setThread c.threads c.trace.length (some (t, M.program t))⟩
    else none
  | .advance i e =>
    match c.threads i with
    | some (t, .call q k) =>
      some ⟨M.callEffect i t q e c.toShared,
        setThread c.threads i (some (t, k (M.exec t q e c.state).2))⟩
    | _ => none
  | .finish i =>
    match c.threads i with
    | some (t, .ret a) =>
      some ⟨c.toShared.log c.state (.finished i t a), setThread c.threads i none⟩
    | _ => none
  | .operate o =>
    some ⟨c.toShared.log (M.operate o c.state) (.operated o), fun i =>
      match c.threads i with
      | some (t, p) => if M.kills o t then none else some (t, p)
      | none => none⟩

def run (c : Config I σ τ α O) : List (Action E τ O) → Option (Config I σ τ α O)
  | [] => some c
  | a :: as => (M.step c a).bind fun c' => run c' as

@[simp] theorem run_nil (c : Config I σ τ α O) : M.run c [] = some c := rfl
@[simp] theorem run_cons (c : Config I σ τ α O) (a : Action E τ O) (as : List (Action E τ O)) :
    M.run c (a :: as) = (M.step c a).bind fun c' => M.run c' as := rfl

theorem run_append (c : Config I σ τ α O) (as bs : List (Action E τ O)) :
    M.run c (as ++ bs) = (M.run c as).bind fun c' => M.run c' bs := by
  induction as generalizing c with
  | nil => rfl
  | cons a as ih =>
    simp only [List.cons_append, run_cons]
    cases M.step c a with
    | none => rfl
    | some c' => exact ih c'

theorem run_concat {c c' : Config I σ τ α O} {as : List (Action E τ O)} {a : Action E τ O}
    (h : M.run c (as ++ [a]) = some c') : ∃ d, M.run c as = some d ∧ M.step d a = some c' := by
  rw [run_append, Option.bind_eq_some_iff] at h
  obtain ⟨d, hd, hstep⟩ := h
  rw [run_cons, Option.bind_eq_some_iff] at hstep
  obtain ⟨d', hd', hnil⟩ := hstep
  cases hnil
  exact ⟨d, hd, hd'⟩

/-- Every step of the run satisfies `P` in the configuration it is taken from. -/
def Along (P : Config I σ τ α O → Action E τ O → Prop) (c : Config I σ τ α O)
    (as : List (Action E τ O)) : Prop :=
  ∀ before a later d, as = before ++ a :: later → M.run c before = some d → P d a

theorem along_of_forall {P : Config I σ τ α O → Action E τ O → Prop}
    {as : List (Action E τ O)} (h : ∀ a ∈ as, ∀ d, P d a) (c : Config I σ τ α O) :
    M.Along P c as := by
  rintro before a later d rfl -
  exact h a (by simp) d

/-- Evaluate a check at every step of the run. -/
def checkAlong (p : Config I σ τ α O → Action E τ O → Bool) (c : Config I σ τ α O) :
    List (Action E τ O) → Bool
  | [] => true
  | a :: as => p c a && match M.step c a with
    | some c' => checkAlong p c' as
    | none => true

theorem along_of_check {P : Config I σ τ α O → Action E τ O → Prop}
    {p : Config I σ τ α O → Action E τ O → Bool} (hp : ∀ d a, p d a = true → P d a)
    {c : Config I σ τ α O} {as : List (Action E τ O)} (h : M.checkAlong p c as = true) :
    M.Along P c as := by
  induction as generalizing c with
  | nil =>
    intro before a later d has
    simp at has
  | cons b as ih =>
    simp only [checkAlong, Bool.and_eq_true] at h
    intro before a later d has hd
    cases before with
    | nil =>
      cases has
      cases hd
      exact hp c b h.1
    | cons b' before =>
      cases has
      rw [run_cons, Option.bind_eq_some_iff] at hd
      obtain ⟨c', hc', hd⟩ := hd
      have hrest := h.2
      rw [hc'] at hrest
      exact ih hrest before a later d rfl hd

/-- A live thread after an operator action was there before it. -/
theorem operate_threads {c : Config I σ τ α O} {o : O} {i : Nat} {v : τ × Prog I α}
    (h : (match c.threads i with
      | some (t, p) => if M.kills o t then none else some (t, p)
      | none => none) = some v) : c.threads i = some v := by
  cases hc : c.threads i with
  | none => simp [hc] at h
  | some u =>
    obtain ⟨t, p⟩ := u
    simp only [hc] at h
    by_cases hk : M.kills o t = true
    · simp [hk] at h
    · simpa [hk] using h

/-- The four ways a step can go, each with what enabled it. -/
theorem step_cases {c c' : Config I σ τ α O} {a : Action E τ O} (h : M.step c a = some c') :
    (∃ t, a = .start t ∧ c' = ⟨c.toShared.log c.state (.started t),
        setThread c.threads c.trace.length (some (t, M.program t))⟩) ∨
    (∃ i e t q k, a = .advance i e ∧ c.threads i = some (t, .call q k) ∧
      c' = ⟨M.callEffect i t q e c.toShared,
        setThread c.threads i (some (t, k (M.exec t q e c.state).2))⟩) ∨
    (∃ i t r, a = .finish i ∧ c.threads i = some (t, .ret r) ∧
      c' = ⟨c.toShared.log c.state (.finished i t r), setThread c.threads i none⟩) ∨
    (∃ o, a = .operate o ∧ c'.toShared = c.toShared.log (M.operate o c.state) (.operated o) ∧
      ∀ i v, c'.threads i = some v → c.threads i = some v) := by
  cases a with
  | start t =>
    simp only [step] at h
    split at h
    · exact .inl ⟨t, rfl, (Option.some.inj h).symm⟩
    · cases h
  | advance i e =>
    simp only [step] at h
    split at h
    · rename_i t q k ht
      exact .inr (.inl ⟨i, e, t, q, k, rfl, ht, (Option.some.inj h).symm⟩)
    · cases h
  | finish i =>
    simp only [step] at h
    split at h
    · rename_i t r ht
      exact .inr (.inr (.inl ⟨i, t, r, rfl, ht, (Option.some.inj h).symm⟩))
    · cases h
  | operate o =>
    simp only [step, Option.some.injEq] at h
    subst h
    exact .inr (.inr (.inr ⟨o, rfl, rfl, fun i v hv => M.operate_threads hv⟩))

/-- A predicate kept by every step of the run holds at its end. -/
theorem run_invariant {J : Config I σ τ α O → Prop}
    {P : Config I σ τ α O → Action E τ O → Prop} {c c' : Config I σ τ α O}
    {as : List (Action E τ O)}
    (hstep : ∀ before d a d', M.run c before = some d → P d a → M.step d a = some d' → J d → J d')
    (hp : M.Along P c as) (h : M.run c as = some c') (hj : J c) : J c' := by
  induction as using List.reverseRecOn generalizing c' with
  | nil => cases h; exact hj
  | append_singleton as a ih =>
    obtain ⟨d, hd, hlast⟩ := M.run_concat h
    have hprefix : M.Along P c as := by
      rintro before b later e rfl he
      exact hp before b (later ++ [a]) e (by simp) he
    exact hstep as d a c' hd (hp as a [] d rfl hd) hlast (ih hprefix hd)

theorem step_trace {c c' : Config I σ τ α O} {a : Action E τ O} (h : M.step c a = some c') :
    ∃ e, c'.trace = c.trace ++ [e] := by
  rcases M.step_cases h with ⟨t, -, rfl⟩ | ⟨i, e, t, q, k, -, -, rfl⟩ | ⟨i, t, r, -, -, rfl⟩ |
    ⟨o, -, hsh, -⟩
  · exact ⟨_, rfl⟩
  · exact ⟨_, rfl⟩
  · exact ⟨_, rfl⟩
  · exact ⟨_, congrArg Shared.trace hsh⟩

/-- An event of the run is logged by one step, taken where the trace is the part
below that event. -/
theorem run_split {c c' : Config I σ τ α O} {as : List (Action E τ O)} {n : Nat}
    {e : Event I τ α O} (h : M.run c as = some c') (hn : c.trace.length ≤ n)
    (he : c'.trace[n]? = some e) :
    ∃ before a d d', M.run c before = some d ∧ M.step d a = some d' ∧
      d.trace = c'.trace.take n ∧ d'.trace = d.trace ++ [e] ∧ ∃ later, as = before ++ a :: later := by
  induction as using List.reverseRecOn generalizing c' with
  | nil =>
    cases h
    have := (List.getElem?_eq_some_iff.mp he).1
    omega
  | append_singleton as a ih =>
    obtain ⟨d, hd, hlast⟩ := M.run_concat h
    obtain ⟨x, hx⟩ := M.step_trace hlast
    rw [hx] at he ⊢
    rcases getElem?_concat_cases he with ⟨hlt, he⟩ | ⟨rfl, rfl⟩
    · obtain ⟨before, b, f, f', hf, hb, htake, hf', later, rfl⟩ := ih hd he
      refine ⟨before, b, f, f', hf, hb, ?_, hf', later ++ [a], by simp⟩
      rw [List.take_append_of_le_length (Nat.le_of_lt hlt)]
      exact htake
    · exact ⟨as, a, d, c', hd, hlast, by simp, hx, [], rfl⟩

/-! ## Contracts along runs -/

/-- The machine answers as the contract says, and each program meets it alone. -/
structure Meets (K : Contract I τ α) : Prop where
  replies : ∀ t q e s, K.replies q (M.exec t q e s).2
  program : ∀ t, Wp (recorded K.replies (K.pre t)) (K.post t) (M.program t) []

/-- The trace is made of histories that keep the contract. -/
structure Keeps (K : Contract I τ α) (c : Config I σ τ α O) : Prop where
  live : ∀ i t p, c.threads i = some (t, p) → c.trace[i]? = some (.started t) ∧
    (∀ (n : Nat) u a, c.trace[n]? ≠ some (.finished i u a)) ∧
    Wp (recorded K.replies (K.pre t)) (K.post t) p (callsOf i c.trace)
  called : ∀ n i q r, c.trace[n]? = some (.called i q r) → i < n ∧ K.replies q r ∧
    ∃ t, c.trace[i]? = some (.started t) ∧ K.pre t q (callsOf i (c.trace.take n))
  finished : ∀ n i t a, c.trace[n]? = some (.finished i t a) → i < n ∧
    c.trace[i]? = some (.started t) ∧ K.post t a (callsOf i (c.trace.take n)) ∧
    ∀ m q r, c.trace[m]? = some (.called i q r) → m < n

variable {M}
variable {K : Contract I τ α}

theorem Keeps.init (s : σ) : Keeps K (init s : Config I σ τ α O) := by
  refine ⟨?_, ?_, ?_⟩
  · intro i t p h; cases h
  · intro n i q r h; cases h
  · intro n i t a h; cases h

/-- Old entries keep what the contract says of them when the trace grows. -/
theorem Keeps.called_concat {c : Config I σ τ α O} (h : Keeps K c) (e : Event I τ α O)
    {n i : Nat} {q : I.Call} {r : I.Reply q} (hlt : n < c.trace.length)
    (hn : c.trace[n]? = some (.called i q r)) :
    i < n ∧ K.replies q r ∧ ∃ t, (c.trace ++ [e])[i]? = some (.started t) ∧
      K.pre t q (callsOf i ((c.trace ++ [e]).take n)) := by
  obtain ⟨hi, hr, t, ht, hpre⟩ := h.called n i q r hn
  refine ⟨hi, hr, t, getElem?_concat_of_some ht, ?_⟩
  rw [List.take_append_of_le_length (Nat.le_of_lt hlt)]
  exact hpre

theorem Keeps.finished_concat {c : Config I σ τ α O} (h : Keeps K c) (e : Event I τ α O)
    {n i : Nat} {t : τ} {a : α} (hlt : n < c.trace.length)
    (hn : c.trace[n]? = some (.finished i t a)) (he : ∀ q r, e ≠ .called i q r) :
    i < n ∧ (c.trace ++ [e])[i]? = some (.started t) ∧
      K.post t a (callsOf i ((c.trace ++ [e]).take n)) ∧
      ∀ m q r, (c.trace ++ [e])[m]? = some (.called i q r) → m < n := by
  obtain ⟨hi, ht, hpost, hlast⟩ := h.finished n i t a hn
  refine ⟨hi, getElem?_concat_of_some ht, ?_, ?_⟩
  · rw [List.take_append_of_le_length (Nat.le_of_lt hlt)]
    exact hpost
  · intro m q r hm
    rcases getElem?_concat_cases hm with ⟨-, hm⟩ | ⟨-, he'⟩
    · exact hlast m q r hm
    · exact absurd he'.symm (he q r)

/-- Logging an event that is neither a call nor a return keeps the contract of
every task that stays as it was. -/
theorem Keeps.live_concat {c : Config I σ τ α O} (h : Keeps K c) {e : Event I τ α O}
    {i : Nat} {t : τ} {p : Prog I α} (hp : c.threads i = some (t, p))
    (hown : ownCall i e = none) (hend : ∀ u a, e ≠ .finished i u a) :
    (c.trace ++ [e])[i]? = some (.started t) ∧
      (∀ (n : Nat) u a, (c.trace ++ [e])[n]? ≠ some (.finished i u a)) ∧
      Wp (recorded K.replies (K.pre t)) (K.post t) p (callsOf i (c.trace ++ [e])) := by
  obtain ⟨ht, hun, hwp⟩ := h.live i t p hp
  refine ⟨getElem?_concat_of_some ht, ?_, ?_⟩
  · intro n u a hn
    rcases getElem?_concat_cases hn with ⟨-, hn⟩ | ⟨-, he⟩
    · exact hun n u a hn
    · exact hend u a he.symm
  · rw [callsOf_skip hown]
    exact hwp

theorem Keeps.start (hm : M.Meets K) {c : Config I σ τ α O} (h : Keeps K c) (t : τ) :
    Keeps K (⟨c.toShared.log c.state (.started t),
      setThread c.threads c.trace.length (some (t, M.program t))⟩ : Config I σ τ α O) := by
  refine ⟨?_, ?_, ?_⟩
  · intro j u p hj
    rcases setThread_some hj with ⟨rfl, hv⟩ | ⟨-, hj⟩
    · cases hv
      have hnone : callsOf c.trace.length c.trace = [] := by
        rw [List.eq_nil_iff_forall_not_mem]
        rintro ⟨q, r⟩ hq
        obtain ⟨m, hm, he⟩ := List.getElem_of_mem ((mem_callsOf).mp hq)
        have := (h.called m _ q r (by rw [List.getElem?_eq_getElem hm, he])).1
        omega
      refine ⟨by simp, ?_, ?_⟩
      · intro n u a hn
        rcases getElem?_concat_cases hn with ⟨hlt, hn⟩ | ⟨-, he⟩
        · have := (h.finished n _ u a hn).1
          omega
        · cases he
      · change Wp _ _ _ (callsOf c.trace.length (c.trace ++ [.started t]))
        rw [callsOf_skip rfl, hnone]
        exact hm.program t
    · exact h.live_concat hj rfl (by intro _ _ he; cases he)
  · intro n i q r hn
    rcases getElem?_concat_cases hn with ⟨hlt, hn⟩ | ⟨-, he⟩
    · exact h.called_concat _ hlt hn
    · cases he
  · intro n i u a hn
    rcases getElem?_concat_cases hn with ⟨hlt, hn⟩ | ⟨-, he⟩
    · exact h.finished_concat _ hlt hn (by intro _ _ he; cases he)
    · cases he

theorem Keeps.advance (hm : M.Meets K) {c : Config I σ τ α O} (h : Keeps K c) {i : Nat} {t : τ}
    {q : I.Call} {k : I.Reply q → Prog I α} (hi : c.threads i = some (t, .call q k)) (e : E) :
    Keeps K (⟨M.callEffect i t q e c.toShared,
      setThread c.threads i (some (t, k (M.exec t q e c.state).2))⟩ : Config I σ τ α O) := by
  obtain ⟨hstart, hun, hpre, hk⟩ := h.live i t _ hi
  have hreply := hm.replies t q e c.state
  have hlt : i < c.trace.length := (List.getElem?_eq_some_iff.mp hstart).1
  refine ⟨?_, ?_, ?_⟩
  · intro j u p hj
    rcases setThread_some hj with ⟨rfl, hv⟩ | ⟨hne, hj⟩
    · cases hv
      refine ⟨getElem?_concat_of_some hstart, ?_, ?_⟩
      · intro n u a hn
        rcases getElem?_concat_cases hn with ⟨-, hn⟩ | ⟨-, he⟩
        · exact hun n u a hn
        · cases he
      · change Wp _ _ _ (callsOf j (c.trace ++ [_]))
        rw [callsOf_concat]
        apply hk
        exact ⟨hreply, by simp [ownCall]⟩
    · refine h.live_concat hj ?_ (by intro _ _ he; cases he)
      exact if_neg (fun he => hne he.symm)
  · intro n j q' r hn
    rcases getElem?_concat_cases hn with ⟨hn', hn⟩ | ⟨rfl, he⟩
    · exact h.called_concat _ hn' hn
    · cases he
      refine ⟨hlt, hreply, t, getElem?_concat_of_some hstart, ?_⟩
      change K.pre t q (callsOf i (List.take c.trace.length (c.trace ++ _)))
      rw [List.take_left' rfl]
      exact hpre
  · intro n j u a hn
    rcases getElem?_concat_cases hn with ⟨hn', hn⟩ | ⟨-, he⟩
    · refine h.finished_concat _ hn' hn ?_
      intro q' r he
      cases he
      exact hun n u a hn
    · cases he

theorem Keeps.finish {c : Config I σ τ α O} (h : Keeps K c) {i : Nat} {t : τ} {r : α}
    (hi : c.threads i = some (t, .ret r)) :
    Keeps K (⟨c.toShared.log c.state (.finished i t r), setThread c.threads i none⟩ :
      Config I σ τ α O) := by
  obtain ⟨hstart, hun, hpost⟩ := h.live i t _ hi
  have hlt : i < c.trace.length := (List.getElem?_eq_some_iff.mp hstart).1
  refine ⟨?_, ?_, ?_⟩
  · intro j u p hj
    rcases setThread_some hj with ⟨-, hv⟩ | ⟨hne, hj⟩
    · cases hv
    · exact h.live_concat hj rfl (by intro _ _ he; cases he; exact hne rfl)
  · intro n j q r' hn
    rcases getElem?_concat_cases hn with ⟨hn', hn⟩ | ⟨-, he⟩
    · exact h.called_concat _ hn' hn
    · cases he
  · intro n j u a hn
    rcases getElem?_concat_cases hn with ⟨hn', hn⟩ | ⟨rfl, he⟩
    · exact h.finished_concat _ hn' hn (by intro _ _ he; cases he)
    · cases he
      refine ⟨hlt, getElem?_concat_of_some hstart, ?_, ?_⟩
      · change K.post t r (callsOf i (List.take c.trace.length (c.trace ++ _)))
        rw [List.take_left' rfl]
        exact hpost
      · intro m q r' hm
        rcases getElem?_concat_cases hm with ⟨hlt', -⟩ | ⟨-, he⟩
        · exact hlt'
        · cases he

theorem Keeps.operate {c c' : Config I σ τ α O} (h : Keeps K c) {o : O}
    (hsh : c'.toShared = c.toShared.log (M.operate o c.state) (.operated o))
    (hthreads : ∀ i v, c'.threads i = some v → c.threads i = some v) : Keeps K c' := by
  have htrace : c'.trace = c.trace ++ [.operated o] := congrArg Shared.trace hsh
  refine ⟨?_, ?_, ?_⟩
  · intro j u p hj
    rw [htrace]
    exact h.live_concat (hthreads j _ hj) rfl (by intro _ _ he; cases he)
  · intro n j q r hn
    rw [htrace] at hn ⊢
    rcases getElem?_concat_cases hn with ⟨hn', hn⟩ | ⟨-, he⟩
    · exact h.called_concat _ hn' hn
    · cases he
  · intro n j u a hn
    rw [htrace] at hn ⊢
    rcases getElem?_concat_cases hn with ⟨hn', hn⟩ | ⟨-, he⟩
    · exact h.finished_concat _ hn' hn (by intro _ _ he; cases he)
    · cases he

theorem Keeps.step (hm : M.Meets K) {c c' : Config I σ τ α O} {a : Action E τ O}
    (hs : M.step c a = some c') (h : Keeps K c) : Keeps K c' := by
  rcases M.step_cases hs with ⟨t, -, rfl⟩ | ⟨i, e, t, q, k, -, hi, rfl⟩ |
    ⟨i, t, r, -, hi, rfl⟩ | ⟨o, -, hsh, hthreads⟩
  · exact h.start hm t
  · exact h.advance hm hi e
  · exact h.finish hi
  · exact h.operate hsh hthreads

/-- A contract that every program meets alone is kept by every run. -/
theorem run_keeps (hm : M.Meets K) {s : σ} {c : Config I σ τ α O} {as : List (Action E τ O)}
    (h : M.run (Machine.init s) as = some c) : Keeps K c :=
  M.run_invariant (P := fun _ _ => True) (fun _ _ _ _ _ _ hs hk => hk.step hm hs)
    (M.along_of_forall (fun _ _ _ => trivial) _) h (Keeps.init s)

/-- The induction rule for invariants of the state and the trace: a step of a task
may use its contract, and every earlier configuration is one a run leads to. -/
theorem run_shared (hm : M.Meets K) {J : Shared I σ τ α O → Prop}
    {P : Config I σ τ α O → Action E τ O → Prop} {s : σ} {c : Config I σ τ α O}
    {as : List (Action E τ O)}
    (hstart : ∀ d t, P d (.start t) → J d.toShared → J (d.toShared.log d.state (.started t)))
    (hcall : ∀ before d i e t q k, M.run (Machine.init s) before = some d → P d (.advance i e) →
      d.threads i = some (t, .call q k) → d.trace[i]? = some (.started t) →
      K.pre t q (callsOf i d.trace) → J d.toShared → J (M.callEffect i t q e d.toShared))
    (hfinish : ∀ d i t a, P d (.finish i) → J d.toShared →
      J (d.toShared.log d.state (.finished i t a)))
    (hoperate : ∀ d o, P d (.operate o) → J d.toShared →
      J (d.toShared.log (M.operate o d.state) (.operated o)))
    (hp : M.Along P (Machine.init s) as) (h : M.run (Machine.init s) as = some c)
    (hj : J ⟨s, []⟩) : J c.toShared := by
  refine M.run_invariant (J := fun c => J c.toShared) ?_ hp h hj
  intro before d a d' hd hpa hs hjd
  rcases M.step_cases hs with ⟨t, rfl, rfl⟩ | ⟨i, e, t, q, k, rfl, hi, rfl⟩ |
    ⟨i, t, r, rfl, hi, rfl⟩ | ⟨o, rfl, hsh, -⟩
  · exact hstart d t hpa hjd
  · obtain ⟨ht, -, hpre, -⟩ := (run_keeps hm hd).live i t _ hi
    exact hcall before d i e t q k hd hpa hi ht hpre hjd
  · exact hfinish d i t r hpa hjd
  · rw [hsh]
    exact hoperate d o hpa hjd

end Machine

end Interleaving
