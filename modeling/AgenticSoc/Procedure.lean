import Mathlib.Logic.Function.Basic

/-!
# Procedures

Computations over a state that return or raise. What a procedure did to the state before
it raised stays. A procedure keeps a view of the state when the view is the same after
it, whatever it ends in; its end is described by what it may return with which state.
-/
namespace Procedure

/-- What a procedure ends in, with the state after it. -/
def Proc (ε σ α : Type) : Type := σ → Except ε α × σ

variable {ε σ α β γ : Type}

instance : Monad (Proc ε σ) where
  pure a := fun s => (.ok a, s)
  bind p f := fun s =>
    match p s with
    | (.ok a, s') => f a s'
    | (.error e, s') => (.error e, s')

def raise (e : ε) : Proc ε σ α := fun s => (.error e, s)

def read (view : σ → α) : Proc ε σ α := fun s => (.ok (view s), s)

def update (f : σ → σ) : Proc ε σ Unit := fun s => (.ok (), f s)

/-- The handler runs in the state in which the procedure raised. -/
def attempt (p : Proc ε σ α) (handler : ε → Proc ε σ α) : Proc ε σ α := fun s =>
  match p s with
  | (.ok a, s') => (.ok a, s')
  | (.error e, s') => handler e s'

/-- The body for each element in turn. -/
def each (body : β → Proc ε σ Unit) : List β → Proc ε σ Unit
  | [] => pure ()
  | x :: xs => body x >>= fun _ => each body xs

def returns (p : Proc ε σ α) (s : σ) : Prop := ∃ a, (p s).1 = .ok a

/-- A step that returns is followed by the rest. -/
theorem run_bind {p : Proc ε σ α} {f : α → Proc ε σ β} {s s' : σ} {a : α} (h : p s = (.ok a, s')) :
    (p >>= f) s = f a s' := by
  change (match p s with | (.ok a, s') => f a s' | (.error e, s') => (.error e, s')) = _
  rw [h]

/-- Nothing follows a step that raises. -/
theorem run_bind_error {p : Proc ε σ α} {f : α → Proc ε σ β} {s s' : σ} {e : ε} (h : p s = (.error e, s')) :
    (p >>= f) s = (.error e, s') := by
  change (match p s with | (.ok a, s') => f a s' | (.error e, s') => (.error e, s')) = _
  rw [h]

theorem run_read {view : σ → β} {f : β → Proc ε σ α} {s : σ} : (read view >>= f) s = f (view s) s := rfl

/-! ## Kept views -/

def Keeps (view : σ → γ) (p : Proc ε σ α) : Prop := ∀ s, view (p s).2 = view s

section Kept

variable {view : σ → γ}

theorem keeps_pure (a : α) : Keeps view (pure a : Proc ε σ α) := fun _ => rfl

theorem keeps_raise (e : ε) : Keeps view (raise e : Proc ε σ α) := fun _ => rfl

theorem keeps_read (f : σ → α) : Keeps view (read f : Proc ε σ α) := fun _ => rfl

theorem keeps_update {f : σ → σ} (h : ∀ s, view (f s) = view s) : Keeps view (update f : Proc ε σ Unit) := h

theorem Keeps.bind {p : Proc ε σ α} {f : α → Proc ε σ β} (hp : Keeps view p) (hf : ∀ a, Keeps view (f a)) :
    Keeps view (p >>= f) := by
  intro s
  have h := hp s
  change view (match p s with | (.ok a, s') => f a s' | (.error e, s') => (.error e, s')).2 = view s
  rcases hps : p s with ⟨_ | a, s'⟩
  · rw [hps] at h
    exact h
  · rw [hps] at h
    exact (hf a s').trans h

theorem Keeps.attempt {p : Proc ε σ α} {handler : ε → Proc ε σ α} (hp : Keeps view p)
    (hh : ∀ e, Keeps view (handler e)) : Keeps view (attempt p handler) := by
  intro s
  have h := hp s
  unfold Procedure.attempt
  rcases hps : p s with ⟨e | a, s'⟩
  · rw [hps] at h
    exact (hh e s').trans h
  · rw [hps] at h
    exact h

theorem keeps_each {body : β → Proc ε σ Unit} {l : List β} (h : ∀ x ∈ l, Keeps view (body x)) :
    Keeps view (each body l) := by
  induction l with
  | nil => exact keeps_pure ()
  | cons x xs ih =>
    exact (h x List.mem_cons_self).bind fun _ => ih fun y hy => h y (List.mem_cons_of_mem x hy)

/-- A view of what is kept is kept. -/
theorem Keeps.map {δ : Type} {p : Proc ε σ α} (h : Keeps view p) (f : γ → δ) : Keeps (fun s => f (view s)) p :=
  fun s => congrArg f (h s)

end Kept

/-! ## Ends -/

/-- The procedure ends as described, whether it returns or raises. -/
def Ends (p : Proc ε σ α) (s : σ) (Q : Except ε α → σ → Prop) : Prop := Q (p s).1 (p s).2

section Described

variable {s : σ} {Q Q' : Except ε α → σ → Prop}

theorem Ends.mono {p : Proc ε σ α} (h : Ends p s Q) (hq : ∀ r s', Q r s' → Q' r s') : Ends p s Q' := hq _ _ h

theorem ends_pure {a : α} (h : Q (.ok a) s) : Ends (pure a) s Q := h

theorem ends_raise {e : ε} (h : Q (.error e) s) : Ends (raise e) s Q := h

theorem ends_read {view : σ → α} (h : Q (.ok (view s)) s) : Ends (read view) s Q := h

theorem ends_update {f : σ → σ} {Q : Except ε Unit → σ → Prop} (h : Q (.ok ()) (f s)) : Ends (update f) s Q := h

theorem ends_bind {p : Proc ε σ β} {f : β → Proc ε σ α} {M : Except ε β → σ → Prop} (hp : Ends p s M)
    (hok : ∀ b s', M (.ok b) s' → Ends (f b) s' Q) (herror : ∀ e s', M (.error e) s' → Q (.error e) s') :
    Ends (p >>= f) s Q := by
  unfold Ends at hp ⊢
  change Q (match p s with | (.ok a, s') => f a s' | (.error e, s') => (.error e, s')).1
    (match p s with | (.ok a, s') => f a s' | (.error e, s') => (.error e, s')).2
  rcases hps : p s with ⟨e | b, s'⟩
  · rw [hps] at hp
    exact herror e s' hp
  · rw [hps] at hp
    exact hok b s' hp

theorem ends_attempt {p : Proc ε σ α} {handler : ε → Proc ε σ α} {M : Except ε α → σ → Prop} (hp : Ends p s M)
    (hok : ∀ a s', M (.ok a) s' → Q (.ok a) s') (herror : ∀ e s', M (.error e) s' → Ends (handler e) s' Q) :
    Ends (attempt p handler) s Q := by
  unfold Ends attempt at *
  rcases hps : p s with ⟨e | a, s'⟩
  · rw [hps] at hp
    exact herror e s' hp
  · rw [hps] at hp
    exact hok a s' hp

/-- The loop rule: an invariant of the elements done. -/
theorem ends_each {body : β → Proc ε σ Unit} {Q : Except ε Unit → σ → Prop} (J : List β → σ → Prop) {l : List β}
    (hstep : ∀ done x rest s, l = done ++ x :: rest → J done s →
      Ends (body x) s fun r s' => match r with | .ok () => J (done ++ [x]) s' | .error e => Q (.error e) s')
    (hend : ∀ s, J l s → Q (.ok ()) s) (h : J [] s) : Ends (each body l) s Q := by
  suffices hall : ∀ done rest s, l = done ++ rest → J done s → Ends (each body rest) s Q from hall [] l s rfl h
  intro done rest
  induction rest generalizing done with
  | nil =>
    intro s hl hj
    rw [List.append_nil] at hl
    subst hl
    exact ends_pure (hend s hj)
  | cons x rest ih =>
    intro s hl hj
    refine ends_bind (hstep done x rest s hl hj) (fun b s' hm => ?_) (fun e s' hm => hm)
    exact ih (done ++ [x]) s' (by rw [hl, List.append_assoc, List.singleton_append]) hm

/-- What is kept is known at the end. -/
theorem ends_keeps {γ : Type} {view : σ → γ} {p : Proc ε σ α} (h : Keeps view p) :
    Ends p s fun _ s' => view s' = view s := h s

end Described

/-! ## Preserved properties -/

/-- A property of the state that holds after the procedure when it held before. -/
def Preserves (I : σ → Prop) (p : Proc ε σ α) : Prop := ∀ s, I s → I (p s).2

section Invariants

variable {I : σ → Prop}

theorem preserves_pure (a : α) : Preserves I (pure a : Proc ε σ α) := fun _ h => h

theorem preserves_raise (e : ε) : Preserves I (raise e : Proc ε σ α) := fun _ h => h

theorem preserves_read (f : σ → α) : Preserves I (read f : Proc ε σ α) := fun _ h => h

theorem preserves_update {f : σ → σ} (h : ∀ s, I s → I (f s)) : Preserves I (update f : Proc ε σ Unit) := h

theorem Preserves.bind {p : Proc ε σ α} {f : α → Proc ε σ β} (hp : Preserves I p) (hf : ∀ a, Preserves I (f a)) :
    Preserves I (p >>= f) := fun s h =>
  ends_bind (M := fun _ s' => I s') (Q := fun _ s' => I s') (hp s h) (fun a s' h' => hf a s' h') fun _ _ h' => h'

theorem Preserves.attempt {p : Proc ε σ α} {handler : ε → Proc ε σ α} (hp : Preserves I p)
    (hh : ∀ e, Preserves I (handler e)) : Preserves I (attempt p handler) := fun s h =>
  ends_attempt (M := fun _ s' => I s') (Q := fun _ s' => I s') (hp s h) (fun _ _ h' => h') fun e s' h' => hh e s' h'

theorem preserves_each {body : β → Proc ε σ Unit} {l : List β} (h : ∀ x ∈ l, Preserves I (body x)) :
    Preserves I (each body l) := by
  induction l with
  | nil => exact preserves_pure ()
  | cons x xs ih =>
    exact (h x List.mem_cons_self).bind fun _ => ih fun y hy => h y (List.mem_cons_of_mem x hy)

/-- A property of a kept view is preserved. -/
theorem Keeps.preserves {view : σ → γ} {p : Proc ε σ α} (h : Keeps view p) (J : γ → Prop) :
    Preserves (fun s => J (view s)) p := by
  intro s hs
  rw [h s]
  exact hs

/-- What is known of a view before the procedure, and what of it afterwards. -/
def Leads (view : σ → γ) (J K : γ → Prop) (p : Proc ε σ α) : Prop := ∀ s, J (view s) → K (view (p s).2)

theorem Keeps.leads {view : σ → γ} {p : Proc ε σ α} (h : Keeps view p) {J K : γ → Prop} (hjk : ∀ v, J v → K v) :
    Leads view J K p := by
  intro s hs
  rw [h s]
  exact hjk _ hs

/-- After a step that keeps the view the rest starts from what was known. -/
theorem Keeps.then_leads {view : σ → γ} {p : Proc ε σ β} {f : β → Proc ε σ α} {J K : γ → Prop} (hp : Keeps view p)
    (hjk : ∀ v, J v → K v) (hf : ∀ b, Leads view J K (f b)) : Leads view J K (p >>= f) := fun s h =>
  ends_bind (M := fun _ s' => J (view s')) (Q := fun _ s' => K (view s')) (hp.leads (fun _ hv => hv) s h) (fun b => hf b)
    fun _ _ h' => hjk _ h'

/-- What holds before each body of a loop, given that the bodies before it have run. -/
def Along (body : β → Proc ε σ Unit) (Q : β → σ → Prop) : List β → σ → Prop
  | [], _ => True
  | x :: xs, s => Q x s ∧ Along body Q xs (body x s).2

/-- A loop whose bodies return under the condition returns when the condition holds along it. -/
theorem along_each {body : β → Proc ε σ Unit} {Q K : β → σ → Prop}
    (hstep : ∀ x s, Q x s → (body x s).1 = .ok () ∧ K x s) {l : List β} {s : σ} (h : Along body Q l s) :
    (each body l s).1 = .ok () ∧ Along body K l s := by
  induction l generalizing s with
  | nil => exact ⟨rfl, trivial⟩
  | cons x xs ih =>
    obtain ⟨hreturned, hk⟩ := hstep x s h.1
    obtain ⟨hrest, halong⟩ := ih h.2
    refine ⟨?_, hk, halong⟩
    change ((body x >>= fun _ => each body xs) s).1 = _
    rw [run_bind (Prod.ext hreturned rfl : body x s = (.ok (), (body x s).2))]
    exact hrest

end Invariants

end Procedure
