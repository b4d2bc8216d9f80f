import Mathlib.Data.List.Induction
import Mathlib.Tactic.Common

/-!
# Programs of atomic calls

A program is a tree of calls: it names one atomic operation, receives the reply
and continues. What a program does is stated as a weakest precondition over a
setting, which says what each call may reply and how it moves the state. Two
settings are used: the state of a world, for a program that runs alone, and the
program's own history of calls and replies, which says what its result means
whatever the others do in between.
-/
namespace Interaction

/-- The atomic operations a program may call, with the type of each reply. -/
structure Interface where
  Call : Type
  Reply : Call → Type

inductive Prog (I : Interface) (α : Type) where
  | ret : α → Prog I α
  | call : (c : I.Call) → (I.Reply c → Prog I α) → Prog I α

variable {I : Interface} {α β γ : Type}

def Prog.bind : Prog I α → (α → Prog I β) → Prog I β
  | .ret a, f => f a
  | .call c k, f => .call c (fun r => (k r).bind f)

instance : Monad (Prog I) where
  pure := .ret
  bind := Prog.bind

/-- One call, returning its reply. -/
def perform (c : I.Call) : Prog I (I.Reply c) := .call c .ret

/-- The body for each element in turn, with the results in order. -/
def forEach (body : β → Prog I γ) : List β → Prog I (List γ)
  | [] => .ret []
  | x :: xs => body x >>= fun y => forEach body xs >>= fun ys => .ret (y :: ys)

/-- What a call may reply and lead to, and what it must find. -/
structure Setting (I : Interface) (σ : Type) where
  does : (c : I.Call) → σ → I.Reply c → σ → Prop
  pre : I.Call → σ → Prop

section Weakest

variable {σ : Type} (S : Setting I σ)

/-- Every call of the program meets its precondition and the result meets `Q`. -/
def Wp (Q : α → σ → Prop) : Prog I α → σ → Prop
  | .ret a, s => Q a s
  | .call c k, s => S.pre c s ∧ ∀ r s', S.does c s r s' → Wp Q (k r) s'

variable {S} {Q R : α → σ → Prop}

theorem wp_ret {a : α} {s : σ} (h : Q a s) : Wp S Q (.ret a) s := h

theorem wp_mono (hq : ∀ a s, Q a s → R a s) {p : Prog I α} {s : σ} (h : Wp S Q p s) :
    Wp S R p s := by
  induction p generalizing s with
  | ret a => exact hq a s h
  | call c k ih => exact ⟨h.1, fun r s' hr => ih r (h.2 r s' hr)⟩

/-- Sequencing: what the first program ends in is what the second starts from. -/
theorem wp_bind {p : Prog I β} {f : β → Prog I α} {s : σ}
    (h : Wp S (fun b s' => Wp S Q (f b) s') p s) : Wp S Q (p >>= f) s := by
  induction p generalizing s with
  | ret b => exact h
  | call c k ih => exact ⟨h.1, fun r s' hr => ih r (h.2 r s' hr)⟩

theorem wp_perform {c : I.Call} {Q : I.Reply c → σ → Prop} {s : σ} (hpre : S.pre c s)
    (h : ∀ r s', S.does c s r s' → Q r s') : Wp S Q (perform c) s :=
  ⟨hpre, h⟩

/-- The loop rule: an invariant of the elements done and the results so far. -/
theorem wp_forEach {body : β → Prog I γ} (J : List β → List γ → σ → Prop) {l : List β}
    (hstep : ∀ done x rest ys s, l = done ++ x :: rest → J done ys s →
      Wp S (fun y s' => J (done ++ [x]) (ys ++ [y]) s') (body x) s)
    {s : σ} (h : J [] [] s) : Wp S (fun ys s' => J l ys s') (forEach body l) s := by
  have hloop : ∀ rest done ys s, l = done ++ rest → J done ys s →
      Wp S (fun zs s' => J l (ys ++ zs) s') (forEach body rest) s := by
    intro rest
    induction rest with
    | nil =>
      intro done ys s hl hj
      have hdone : l = done := by simpa using hl
      change J l (ys ++ []) s
      rw [List.append_nil, hdone]
      exact hj
    | cons x rest ih =>
      intro done ys s hl hj
      apply wp_bind
      refine wp_mono ?_ (hstep done x rest ys s hl hj)
      intro y s' hj'
      apply wp_bind
      refine wp_mono ?_ (ih (done ++ [x]) (ys ++ [y]) s' (by simpa using hl) hj')
      intro zs s'' hz
      change J l (ys ++ y :: zs) s''
      simpa using hz
  have hall := hloop l [] [] s rfl h
  exact wp_mono (fun ys s' hj => by simpa using hj) hall

end Weakest

/-! ## A program on its own -/

section Solo

variable {σ E : Type} (exec : (c : I.Call) → E → σ → σ × I.Reply c)

/-- The program run with no one else: call number `n` meets environment `env n`. -/
def solo (env : Nat → E) : Prog I α → Nat → σ → α × σ
  | .ret a, _, s => (a, s)
  | .call c k, n, s =>
    solo env (k (exec c (env n) s).2) (n + 1) (exec c (env n) s).1

/-- The setting of a lone program whose calls meet environments from `admits`. -/
def alone (admits : E → Prop) : Setting I σ where
  does c s r s' := ∃ e, admits e ∧ exec c e s = (s', r)
  pre _ _ := True

/-- One call of a lone program. -/
theorem wp_alone {admits : E → Prop} {c : I.Call} {Q : I.Reply c → σ → Prop} {s : σ}
    (h : ∀ e, admits e → Q (exec c e s).2 (exec c e s).1) :
    Wp (alone exec admits) Q (perform c) s := by
  refine wp_perform trivial ?_
  rintro r s' ⟨e, he, hexec⟩
  have hq := h e he
  rw [hexec] at hq
  exact hq

/-- A lone program may make any call. -/
theorem wp_of_forall {admits : E → Prop} {Q : α → σ → Prop} (h : ∀ a s, Q a s) (p : Prog I α) (s : σ) :
    Wp (alone exec admits) Q p s := by
  induction p generalizing s with
  | ret a => exact h a s
  | call c k ih => exact ⟨trivial, fun r s' _ => ih r s'⟩

theorem solo_of_wp {admits : E → Prop} {env : Nat → E} (henv : ∀ n, admits (env n))
    {Q : α → σ → Prop} {p : Prog I α} {s : σ} (n : Nat) (h : Wp (alone exec admits) Q p s) :
    Q (solo exec env p n s).1 (solo exec env p n s).2 := by
  induction p generalizing s n with
  | ret a => exact h
  | call c k ih => exact ih _ (n + 1) (h.2 _ _ ⟨env n, henv n, rfl⟩)

end Solo

/-! ## A program and its history -/

/-- The calls a program has made, with the replies it got. -/
abbrev History (I : Interface) := List (Sigma I.Reply)

/-- The setting of a program that sees its own calls only; replies are any that
`replies` allows. -/
def recorded (replies : (c : I.Call) → I.Reply c → Prop) (pre : I.Call → History I → Prop) :
    Setting I (History I) where
  does c h r h' := replies c r ∧ h' = h ++ [⟨c, r⟩]
  pre := pre

end Interaction
