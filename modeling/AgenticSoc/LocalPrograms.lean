import AgenticSoc.Interaction

/-!
# Programs that stay in one part of the state

A program that runs alone, where each call has one outcome. A program that reads and writes
one part of the state does there what a function says; a loop whose rounds stay in parts of
their own does every round on the part as it was before the loop.
-/
namespace LocalPrograms

open Interaction

variable {I : Interface} {α β γ ι σ P τ : Type}

/-- The result of the program and the state it ends in. -/
def run (exec : (c : I.Call) → σ → σ × I.Reply c) : Prog I α → σ → α × σ
  | .ret a, s => (a, s)
  | .call c k, s => run exec (k (exec c s).2) (exec c s).1

section Runs

variable (exec : (c : I.Call) → σ → σ × I.Reply c)

@[simp] theorem run_ret (a : α) (s : σ) : run exec (.ret a) s = (a, s) := rfl

@[simp] theorem run_perform (c : I.Call) (s : σ) :
    run exec (perform c) s = ((exec c s).2, (exec c s).1) := rfl

@[simp] theorem run_bind (p : Prog I β) (f : β → Prog I α) (s : σ) :
    run exec (p >>= f) s = run exec (f (run exec p s).1) (run exec p s).2 := by
  induction p generalizing s with
  | ret b => rfl
  | call c k ih => exact ih (exec c s).2 (exec c s).1

end Runs

/-- The program works on the part at `x` alone and does this to it. -/
def Acts (exec : (c : I.Call) → σ → σ × I.Reply c) (part : P → σ → τ) (x : P) (p : Prog I α)
    (f : τ → α × τ) : Prop :=
  ∀ s, (run exec p s).1 = (f (part x s)).1 ∧ part x (run exec p s).2 = (f (part x s)).2 ∧
    ∀ y, y ≠ x → part y (run exec p s).2 = part y s

section Local

variable {exec : (c : I.Call) → σ → σ × I.Reply c} {part : P → σ → τ} {x : P}

theorem acts_ret (a : α) : Acts exec part x (.ret a) fun t => (a, t) := fun _ => ⟨rfl, rfl, fun _ _ => rfl⟩

theorem acts_bind {p : Prog I β} {f : β → Prog I α} {g : τ → β × τ} {h : β → τ → α × τ}
    (hp : Acts exec part x p g) (hf : ∀ b, Acts exec part x (f b) (h b)) :
    Acts exec part x (p >>= f) fun t => h (g t).1 (g t).2 := by
  intro s
  obtain ⟨hresult, hpart, hrest⟩ := hp s
  obtain ⟨hresult', hpart', hrest'⟩ := hf (run exec p s).1 (run exec p s).2
  rw [run_bind]
  rw [hresult, hpart] at hresult' hpart'
  refine ⟨hresult.symm ▸ hresult', hresult.symm ▸ hpart', fun y hy => ?_⟩
  rw [hrest' y hy, hrest y hy]

/-- A loop over different parts does each round on its part as the loop found it. -/
theorem run_forEach {body : ι → Prog I γ} {place : ι → P} {f : ι → τ → γ × τ} {l : List ι}
    (h : ∀ i ∈ l, Acts exec part (place i) (body i) (f i)) (hplaces : (l.map place).Nodup) (s : σ) :
    (run exec (forEach body l) s).1 = l.map (fun i => (f i (part (place i) s)).1) ∧
      (∀ i ∈ l, part (place i) (run exec (forEach body l) s).2 = (f i (part (place i) s)).2) ∧
      ∀ y, y ∉ l.map place → part y (run exec (forEach body l) s).2 = part y s := by
  induction l generalizing s with
  | nil => exact ⟨rfl, fun _ hi => absurd hi List.not_mem_nil, fun _ _ => rfl⟩
  | cons i l ih =>
    rw [List.map_cons, List.nodup_cons] at hplaces
    obtain ⟨hresult, hpart, hrest⟩ := h i List.mem_cons_self s
    obtain ⟨hresults, hparts, hrests⟩ := ih (fun j hj => h j (List.mem_cons_of_mem i hj)) hplaces.2
      (run exec (body i) s).2
    have hother : ∀ j ∈ l, part (place j) (run exec (body i) s).2 = part (place j) s := by
      intro j hj
      exact hrest (place j) fun he => hplaces.1 (he ▸ List.mem_map_of_mem hj)
    simp only [forEach, run_bind, run_ret]
    refine ⟨?_, ?_, ?_⟩
    · rw [hresult, hresults, List.map_cons, List.cons.injEq]
      refine ⟨rfl, List.map_congr_left fun j hj => ?_⟩
      rw [hother j hj]
    · intro j hj
      rcases List.mem_cons.mp hj with rfl | hj
      · rw [hrests _ hplaces.1, hpart]
      · rw [hparts j hj, hother j hj]
    · intro y hy
      rw [List.map_cons, List.mem_cons, not_or] at hy
      rw [hrests y hy.2, hrest y hy.1]

end Local

end LocalPrograms
