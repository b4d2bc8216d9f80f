import Mathlib.Data.List.Induction

/-!
# Collecting the output of a sequence of inputs

A machine takes inputs one by one; each gives some output and the next state, or stops
the machine with an error.
-/
namespace Collecting

variable {ε M E R : Type} (add : M → E → Except ε (List R × M))

/-- All the inputs in turn, with everything that came out. -/
def collect (m : M) : List E → Except ε (List R × M)
  | [] => .ok ([], m)
  | e :: es => do
    let (rows, m) ← add m e
    let (more, m) ← collect m es
    pure (rows ++ more, m)

variable {add}

theorem collect_cons_ok {m m' : M} {e : E} {es : List E} {rows : List R} :
    collect add m (e :: es) = .ok (rows, m') ↔
      ∃ first m₁ rest, add m e = .ok (first, m₁) ∧ collect add m₁ es = .ok (rest, m') ∧ rows = first ++ rest := by
  simp only [collect]
  constructor
  · intro h
    cases hadd : add m e with
    | error err =>
      rw [hadd] at h
      cases h
    | ok first =>
      obtain ⟨first, m₁⟩ := first
      rw [hadd] at h
      change (collect add m₁ es >>= fun r => pure (first ++ r.1, r.2)) = _ at h
      cases hrest : collect add m₁ es with
      | error err =>
        rw [hrest] at h
        cases h
      | ok rest =>
        obtain ⟨rest, m₂⟩ := rest
        rw [hrest] at h
        cases h
        exact ⟨first, m₁, rest, rfl, hrest, rfl⟩
  · rintro ⟨first, m₁, rest, hadd, hrest, rfl⟩
    rw [hadd]
    change (collect add m₁ es >>= fun r => pure (first ++ r.1, r.2)) = _
    rw [hrest]
    rfl

/-- A run over two sequences is a run over the first and then over the second. -/
theorem collect_append_ok {m m' : M} {es fs : List E} {rows : List R} :
    collect add m (es ++ fs) = .ok (rows, m') ↔
      ∃ first m₁ rest, collect add m es = .ok (first, m₁) ∧ collect add m₁ fs = .ok (rest, m') ∧ rows = first ++ rest := by
  induction es generalizing m rows with
  | nil =>
    simp only [List.nil_append, collect]
    constructor
    · intro h
      exact ⟨[], m, rows, rfl, h, rfl⟩
    · rintro ⟨first, m₁, rest, h, hrest, rfl⟩
      cases h
      exact hrest
  | cons e es ih =>
    rw [List.cons_append, collect_cons_ok]
    constructor
    · rintro ⟨first, m₁, rest, hadd, hrest, rfl⟩
      obtain ⟨second, m₂, third, hsecond, hthird, rfl⟩ := ih.mp hrest
      exact ⟨first ++ second, m₂, third, (collect_cons_ok).mpr ⟨first, m₁, second, hadd, hsecond, rfl⟩, hthird, by simp⟩
    · rintro ⟨first, m₂, third, hfirst, hthird, rfl⟩
      obtain ⟨start, m₁, second, hadd, hsecond, rfl⟩ := (collect_cons_ok).mp hfirst
      exact ⟨start, m₁, second ++ third, hadd, ih.mpr ⟨second, m₂, third, hsecond, hthird, rfl⟩, by simp⟩

/-- What each accepted input preserves holds after all of them. -/
theorem collect_induct {I : List E → List R → M → Prop}
    (hstep : ∀ done rows m e new m', I done rows m → add m e = .ok (new, m') → I (done ++ [e]) (rows ++ new) m')
    {m m' : M} {es : List E} {rows : List R} (h : collect add m es = .ok (rows, m')) (hi : I [] [] m) : I es rows m' := by
  suffices hall : ∀ done seen m, I done seen m → ∀ es rows, collect add m es = .ok (rows, m') →
      I (done ++ es) (seen ++ rows) m' from hall [] [] m hi es rows h
  intro done seen m hi es
  induction es generalizing done seen m with
  | nil =>
    intro rows h
    cases h
    simpa using hi
  | cons e es ih =>
    intro rows h
    obtain ⟨first, m₁, rest, hadd, hrest, rfl⟩ := (collect_cons_ok).mp h
    have := ih (done ++ [e]) (seen ++ first) m₁ (hstep done seen m e first m₁ hi hadd) rest hrest
    simpa using this

/-- The input that stopped the machine, and the inputs accepted before it. -/
theorem collect_error {m : M} {es : List E} {err : ε} (h : collect add m es = .error err) :
    ∃ done e rest rows m₁, es = done ++ e :: rest ∧ collect add m done = .ok (rows, m₁) ∧ add m₁ e = .error err := by
  induction es generalizing m with
  | nil => cases h
  | cons e es ih =>
    cases hadd : add m e with
    | error err' =>
      simp only [collect, hadd] at h
      cases h
      exact ⟨[], e, es, [], m, rfl, rfl, hadd⟩
    | ok first =>
      obtain ⟨first, m₁⟩ := first
      cases hrest : collect add m₁ es with
      | ok rest =>
        rw [(collect_cons_ok).mpr ⟨first, m₁, rest.1, hadd, hrest, rfl⟩] at h
        cases h
      | error err' =>
        have herr : err' = err := by
          simp only [collect, hadd] at h
          change (collect add m₁ es >>= fun r => pure (first ++ r.1, r.2)) = _ at h
          rw [hrest] at h
          cases h
          rfl
        obtain ⟨done, e', rest, rows, m₂, rfl, hdone, hstop⟩ := ih (herr ▸ hrest)
        exact ⟨e :: done, e', rest, first ++ rows, m₂, rfl, (collect_cons_ok).mpr ⟨first, m₁, rows, hadd, hdone, rfl⟩, hstop⟩

/-- An input that is refused stops the run, whatever follows it. -/
theorem collect_stops {m m₁ : M} {done rest : List E} {e : E} {rows : List R} {err : ε}
    (hdone : collect add m done = .ok (rows, m₁)) (hstop : add m₁ e = .error err) :
    collect add m (done ++ e :: rest) = .error err := by
  induction done generalizing m rows with
  | nil =>
    cases hdone
    simp only [List.nil_append, collect, hstop]
    rfl
  | cons x done ih =>
    obtain ⟨first, m₂, more, hadd, hmore, rfl⟩ := (collect_cons_ok).mp hdone
    simp only [List.cons_append, collect, hadd]
    change (collect add m₂ (done ++ e :: rest) >>= fun r => pure (first ++ r.1, r.2)) = _
    rw [ih hmore]
    rfl

end Collecting
