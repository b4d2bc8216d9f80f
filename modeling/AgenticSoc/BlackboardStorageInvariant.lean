import AgenticSoc.BlackboardStorage

/-!
# The replica store invariant

Every transaction edits the tables in one of four ways: it stages one row at the
head plus one, rebinds staged rows to another operation, removes staged rows, or
appends one committed row at the head plus one and moves the head there. Each
edit keeps the committed versions of every key contiguous up to the stored head,
at most one staged row per key just above it, and all committed rows as they are.
-/
namespace BlackboardStorage

structure Valid (t : Tables) : Prop where
  slots : (t.committedRecords.map fun r => (r.recordKey, r.recordVersion)).Nodup
  contiguous : ∀ k v, (∃ r ∈ t.committedRecords, r.recordKey = k ∧ r.recordVersion = v) ↔
    1 ≤ v ∧ v ≤ head t k
  headsUnique : (t.keyHeads.map Prod.fst).Nodup
  headsPositive : ∀ h ∈ t.keyHeads, 1 ≤ h.2
  staging : (t.pendingPrepares.map PendingRow.recordKey).Nodup
  staged : ∀ p ∈ t.pendingPrepares, p.recordVersion = head t p.recordKey + 1
  json : ∀ p ∈ t.pendingPrepares, p.recordJson.recordKey = p.recordKey ∧
    p.recordJson.recordVersion = p.recordVersion ∧ p.recordJson.recordId = p.recordId

theorem valid_empty : Valid emptyTables := by
  constructor
  · exact List.nodup_nil
  · intro k v
    simp only [emptyTables, List.not_mem_nil, false_and, exists_false, head, getHeadVersion,
      List.find?_nil, Option.map_none, Option.getD_none, false_iff]
    omega
  · exact List.nodup_nil
  · intro h hm; cases hm
  · exact List.nodup_nil
  · intro p hm; cases hm
  · intro p hm; cases hm

/-! ## Slots and heads -/

theorem inSlot_iff (k : String) (v : Nat) (p : PendingRow) :
    inSlot k v p = true ↔ p.recordKey = k ∧ p.recordVersion = v := by
  simp [inSlot]

theorem getCommittedRow_some {t : Tables} {k : String} {v : Nat} {row : CommittedRow}
    (h : getCommittedRow t k v = some row) :
    row ∈ t.committedRecords ∧ row.recordKey = k ∧ row.recordVersion = v := by
  refine ⟨List.mem_of_find?_eq_some h, ?_⟩
  simpa using List.find?_some h

theorem getCommittedRow_eq_none {t : Tables} {k : String} {v : Nat} :
    getCommittedRow t k v = none ↔
      ∀ r ∈ t.committedRecords, ¬ (r.recordKey = k ∧ r.recordVersion = v) := by
  simp [getCommittedRow, List.find?_eq_none]

theorem getPendingRow_some {t : Tables} {k : String} {v : Nat} {p : PendingRow}
    (h : getPendingRow t k v = some p) :
    p ∈ t.pendingPrepares ∧ p.recordKey = k ∧ p.recordVersion = v := by
  refine ⟨List.mem_of_find?_eq_some h, ?_⟩
  simpa using List.find?_some h

theorem getPendingRow_eq_none {t : Tables} {k : String} {v : Nat} :
    getPendingRow t k v = none ↔ ∀ p ∈ t.pendingPrepares, inSlot k v p = false := by
  simp [getPendingRow, List.find?_eq_none, inSlot]

theorem getHeadVersion_eq_none {t : Tables} {k : String} (h : Valid t) :
    getHeadVersion t k = none ↔ head t k = 0 := by
  unfold head
  cases hv : getHeadVersion t k with
  | none => simp
  | some n =>
    have hm : ∃ e ∈ t.keyHeads, e.2 = n := by
      unfold getHeadVersion at hv
      obtain ⟨e, he, rfl⟩ := Option.map_eq_some_iff.mp hv
      exact ⟨e, List.mem_of_find?_eq_some he, rfl⟩
    obtain ⟨e, he, rfl⟩ := hm
    have := h.headsPositive e he
    simp only [reduceCtorEq, Option.getD_some, false_iff]
    omega

/-- Two committed rows of one slot are one row. -/
theorem Valid.row_unique {t : Tables} (h : Valid t) {a b : CommittedRow}
    (ha : a ∈ t.committedRecords) (hb : b ∈ t.committedRecords)
    (hk : a.recordKey = b.recordKey) (hv : a.recordVersion = b.recordVersion) : a = b :=
  List.inj_on_of_nodup_map h.slots ha hb (Prod.ext hk hv)

/-- Two staged rows of one key are one row. -/
theorem Valid.pending_unique {t : Tables} (h : Valid t) {p q : PendingRow}
    (hp : p ∈ t.pendingPrepares) (hq : q ∈ t.pendingPrepares)
    (hk : p.recordKey = q.recordKey) : p = q :=
  List.inj_on_of_nodup_map h.staging hp hq hk

theorem Valid.getCommittedRow_of_mem {t : Tables} (h : Valid t) {row : CommittedRow}
    (hm : row ∈ t.committedRecords) :
    getCommittedRow t row.recordKey row.recordVersion = some row := by
  cases hg : getCommittedRow t row.recordKey row.recordVersion with
  | none => exact absurd ⟨rfl, rfl⟩ ((getCommittedRow_eq_none).mp hg row hm)
  | some r =>
    obtain ⟨hr, hk, hv⟩ := getCommittedRow_some hg
    rw [h.row_unique hr hm hk hv]

theorem Valid.getCommittedRow_isSome {t : Tables} (h : Valid t) (k : String) (v : Nat) :
    (getCommittedRow t k v).isSome ↔ 1 ≤ v ∧ v ≤ head t k := by
  rw [← h.contiguous k v]
  constructor
  · intro hs
    obtain ⟨r, hr⟩ := Option.isSome_iff_exists.mp hs
    exact ⟨r, getCommittedRow_some hr⟩
  · rintro ⟨r, hr, rfl, rfl⟩
    rw [h.getCommittedRow_of_mem hr]
    rfl

/-! ## The newest row -/

theorem foldl_newest (rows : List CommittedRow) (best : Option CommittedRow) :
    (rows.foldl newest best = none ↔ best = none ∧ rows = []) ∧
    ∀ r, rows.foldl newest best = some r → (best = some r ∨ r ∈ rows) ∧
      (∀ b, best = some b → b.recordVersion ≤ r.recordVersion) ∧
      ∀ x ∈ rows, x.recordVersion ≤ r.recordVersion := by
  induction rows generalizing best with
  | nil =>
    refine ⟨by simp, ?_⟩
    intro r hr
    refine ⟨.inl hr, ?_, by simp⟩
    intro b hb
    simp only [List.foldl_nil] at hr
    rw [hb, Option.some.injEq] at hr
    rw [hr]
  | cons x rows ih =>
    obtain ⟨hnone, hsome⟩ := ih (newest best x)
    have hne : newest best x ≠ none := by
      unfold newest
      cases best with
      | none => simp
      | some b => by_cases hlt : b.recordVersion < x.recordVersion <;> simp [hlt]
    refine ⟨?_, ?_⟩
    · simp only [List.foldl_cons, hnone]
      simp [hne]
    · intro r hr
      obtain ⟨hmem, hbest, hall⟩ := hsome r hr
      have hstep : ∃ b', newest best x = some b' ∧ (best = some b' ∨ b' = x) ∧
          x.recordVersion ≤ b'.recordVersion ∧
          ∀ b, best = some b → b.recordVersion ≤ b'.recordVersion := by
        unfold newest
        cases best with
        | none => exact ⟨x, rfl, .inr rfl, Nat.le_refl _, by intro b hb; cases hb⟩
        | some b =>
          by_cases hlt : b.recordVersion < x.recordVersion
          · refine ⟨x, if_pos hlt, .inr rfl, Nat.le_refl _, ?_⟩
            intro c hc; cases hc; omega
          · refine ⟨b, if_neg hlt, .inl rfl, by omega, ?_⟩
            intro c hc; cases hc; exact Nat.le_refl _
      obtain ⟨b', hb', hfrom, hx, hold⟩ := hstep
      have hle := hbest b' hb'
      refine ⟨?_, ?_, ?_⟩
      · rcases hmem with hm | hm
        · rw [hb', Option.some.injEq] at hm
          subst hm
          rcases hfrom with hf | hf
          · exact .inl hf
          · exact .inr (by simp [hf])
        · exact .inr (List.mem_cons_of_mem _ hm)
      · intro b hb
        exact (hold b hb).trans hle
      · intro y hy
        rcases List.mem_cons.mp hy with rfl | hy
        · exact hx.trans hle
        · exact hall y hy

/-- In a valid store the newest row of a key is the row at the stored head. -/
theorem Valid.getHeadRow_eq {t : Tables} (h : Valid t) (k : String) :
    getHeadRow t k = if head t k = 0 then none else getCommittedRow t k (head t k) := by
  obtain ⟨hnone, hsome⟩ := foldl_newest (t.committedRecords.filter fun r => r.recordKey = k) none
  cases hg : getHeadRow t k with
  | none =>
    have hempty := (hnone.mp hg).2
    have hz : head t k = 0 := by
      by_contra hpos
      obtain ⟨r, hr, hk, -⟩ := (h.contiguous k (head t k)).mpr ⟨by omega, Nat.le_refl _⟩
      have : r ∈ t.committedRecords.filter fun r => r.recordKey = k :=
        List.mem_filter.mpr ⟨hr, by simpa using hk⟩
      rw [hempty] at this
      cases this
    rw [if_pos hz]
  | some r =>
    obtain ⟨hmem, -, hmax⟩ := hsome r hg
    have hr : r ∈ t.committedRecords ∧ r.recordKey = k := by
      rcases hmem with hm | hm
      · cases hm
      · simpa using List.mem_filter.mp hm
    have hle := (h.contiguous k r.recordVersion).mp ⟨r, hr.1, hr.2, rfl⟩
    have hge : head t k ≤ r.recordVersion := by
      obtain ⟨x, hx, hxk, hxv⟩ := (h.contiguous k (head t k)).mpr ⟨by omega, Nat.le_refl _⟩
      rw [← hxv]
      exact hmax x (List.mem_filter.mpr ⟨hx, by simpa using hxk⟩)
    have hv : r.recordVersion = head t k := by omega
    rw [if_neg (by omega), ← hv, ← hr.2, h.getCommittedRow_of_mem hr.1]

/-! ## The four edits -/

/-- Append a committed row at its slot, move the head there and clear the slot's
staging. -/
def promoteRow (t : Tables) (k : String) (v : Nat) (row : CommittedRow) : Tables :=
  setHead { deletePending t k v with committedRecords := t.committedRecords ++ [row] } k v

/-- What a transaction may do to the tables; `P` holds of the records it brings in. -/
inductive Edit (P : StagedRecord → Prop) (t : Tables) : Tables → Prop where
  | same : Edit P t t
  | stage (p : PendingRow) : p.recordVersion = head t p.recordKey + 1 →
      p.recordJson.recordKey = p.recordKey ∧ p.recordJson.recordVersion = p.recordVersion ∧
        p.recordJson.recordId = p.recordId →
      P p.recordJson →
      Edit P t (insertPending (deletePending t p.recordKey p.recordVersion) p)
  | rebind (k : String) (v : Nat) (op utc : String) (now : Rat) :
      Edit P t (updatePending t k v op utc now)
  | unstage (keep : PendingRow → Bool) :
      Edit P t { t with pendingPrepares := t.pendingPrepares.filter keep }
  | promote (row : CommittedRow) : row.recordVersion = head t row.recordKey + 1 →
      P row.toStagedRecord ∨ (∃ p ∈ t.pendingPrepares, p.recordJson = row.toStagedRecord) →
      Edit P t (promoteRow t row.recordKey row.recordVersion row)

theorem getHeadVersion_setHead (t : Tables) (k k' : String) (v : Nat) :
    getHeadVersion (setHead t k v) k' = if k' = k then some v else getHeadVersion t k' := by
  unfold getHeadVersion setHead
  by_cases hany : t.keyHeads.any (fun h => h.1 = k) = true
  · simp only [hany, if_true, List.find?_map]
    have hpred : ((fun h : String × Nat => decide (h.1 = k')) ∘
        fun h : String × Nat => if h.1 = k then (h.1, v) else h) =
        fun h => decide (h.1 = k') := by
      funext h
      by_cases hk : h.1 = k <;> simp [hk]
    rw [hpred]
    cases hf : t.keyHeads.find? (fun h => decide (h.1 = k')) with
    | none =>
      by_cases hk : k' = k
      · subst hk
        rw [List.find?_eq_none] at hf
        obtain ⟨h, hm, he⟩ := List.any_eq_true.mp hany
        exact absurd he (hf h hm)
      · simp [hk]
    | some h =>
      have hk' : h.1 = k' := by simpa using List.find?_some hf
      by_cases hk : k' = k
      · simp [hk, hk'.trans hk]
      · have : h.1 ≠ k := fun he => hk (hk'.symm.trans he)
        simp [hk, this]
  · simp only [hany, Bool.false_eq_true, if_false, List.find?_append]
    by_cases hk : k' = k
    · subst hk
      have hnone : t.keyHeads.find? (fun h => decide (h.1 = k')) = none := by
        rw [List.find?_eq_none]
        intro h hm he
        exact hany (List.any_eq_true.mpr ⟨h, hm, he⟩)
      simp [hnone]
    · have hkk : ¬ k = k' := fun he => hk he.symm
      simp [hk, hkk]

theorem head_setHead (t : Tables) (k k' : String) (v : Nat) :
    head (setHead t k v) k' = if k' = k then v else head t k' := by
  unfold head
  rw [getHeadVersion_setHead]
  by_cases hk : k' = k <;> simp [hk]

theorem keys_setHead (t : Tables) (k : String) (v : Nat)
    (h : (t.keyHeads.map Prod.fst).Nodup) :
    ((setHead t k v).keyHeads.map Prod.fst).Nodup := by
  unfold setHead
  by_cases hany : t.keyHeads.any (fun h => h.1 = k) = true
  · have hfst : (Prod.fst ∘ fun h : String × Nat => if h.1 = k then (h.1, v) else h) =
        Prod.fst := by
      funext h
      by_cases hk : h.1 = k <;> simp [hk]
    simpa [hany, List.map_map, hfst] using h
  · have hnot : k ∉ t.keyHeads.map Prod.fst := by
      intro hm
      obtain ⟨h, hh, he⟩ := List.mem_map.mp hm
      exact hany (List.any_eq_true.mpr ⟨h, hh, by simpa using he⟩)
    simp only [hany, Bool.false_eq_true, if_false, List.map_append, List.map_cons, List.map_nil]
    rw [List.nodup_append]
    refine ⟨h, by simp, ?_⟩
    intro a ha b hb
    rw [List.mem_singleton.mp hb]
    intro he
    exact hnot (he ▸ ha)

theorem positive_setHead (t : Tables) (k : String) (v : Nat) (hv : 1 ≤ v)
    (h : ∀ e ∈ t.keyHeads, 1 ≤ e.2) : ∀ e ∈ (setHead t k v).keyHeads, 1 ≤ e.2 := by
  intro e he
  unfold setHead at he
  by_cases hany : t.keyHeads.any (fun h => h.1 = k) = true
  · simp only [hany, if_true, List.mem_map] at he
    obtain ⟨e', he', rfl⟩ := he
    by_cases hk : e'.1 = k
    · simpa [hk] using hv
    · simpa [hk] using h e' he'
  · simp only [hany, Bool.false_eq_true, if_false, List.mem_append, List.mem_singleton] at he
    rcases he with he | rfl
    · exact h e he
    · exact hv

/-- Each edit keeps the store valid. -/
theorem Edit.valid {P : StagedRecord → Prop} {t t' : Tables} (he : Edit P t t') (h : Valid t) : Valid t' := by
  cases he with
  | same => exact h
  | stage p hver hjson _ =>
    have hother : ∀ q ∈ (deletePending t p.recordKey p.recordVersion).pendingPrepares,
        q ∈ t.pendingPrepares ∧ q.recordKey ≠ p.recordKey := by
      intro q hq
      obtain ⟨hq, hslot⟩ := List.mem_filter.mp hq
      refine ⟨hq, fun hk => ?_⟩
      have hv := h.staged q hq
      rw [hk, ← hver] at hv
      simp [inSlot, hk, hv] at hslot
    refine ⟨h.slots, h.contiguous, h.headsUnique, h.headsPositive, ?_, ?_, ?_⟩
    · simp only [insertPending, List.map_append, List.map_cons, List.map_nil]
      rw [List.nodup_append]
      refine ⟨(List.filter_sublist.map _).nodup h.staging, by simp, ?_⟩
      intro a ha b hb
      obtain ⟨q, hq, rfl⟩ := List.mem_map.mp ha
      rw [List.mem_singleton.mp hb]
      exact (hother q hq).2
    · intro q hq
      rcases List.mem_append.mp hq with hq | hq
      · exact h.staged q (hother q hq).1
      · rw [List.mem_singleton.mp hq]; exact hver
    · intro q hq
      rcases List.mem_append.mp hq with hq | hq
      · exact h.json q (hother q hq).1
      · rw [List.mem_singleton.mp hq]; exact hjson
  | rebind k v op utc now =>
    have hkeys : (updatePending t k v op utc now).pendingPrepares.map PendingRow.recordKey =
        t.pendingPrepares.map PendingRow.recordKey := by
      simp only [updatePending, List.map_map]
      apply List.map_congr_left
      intro q _
      by_cases hq : inSlot k v q = true <;> simp [hq]
    have hrow : ∀ q ∈ (updatePending t k v op utc now).pendingPrepares,
        ∃ q' ∈ t.pendingPrepares, q.recordKey = q'.recordKey ∧
          q.recordVersion = q'.recordVersion ∧ q.recordId = q'.recordId ∧
          q.recordJson = q'.recordJson := by
      intro q hq
      obtain ⟨q', hq', rfl⟩ := List.mem_map.mp hq
      refine ⟨q', hq', ?_⟩
      by_cases hs : inSlot k v q' = true <;> simp [hs]
    refine ⟨h.slots, h.contiguous, h.headsUnique, h.headsPositive, ?_, ?_, ?_⟩
    · rw [hkeys]; exact h.staging
    · intro q hq
      obtain ⟨q', hq', hk, hv, -, -⟩ := hrow q hq
      rw [hv, hk]
      exact h.staged q' hq'
    · intro q hq
      obtain ⟨q', hq', hk, hv, hid, hj⟩ := hrow q hq
      rw [hv, hk, hid, hj]
      exact h.json q' hq'
  | unstage keep =>
    refine ⟨h.slots, h.contiguous, h.headsUnique, h.headsPositive, ?_, ?_, ?_⟩
    · exact (List.filter_sublist.map _).nodup h.staging
    · intro q hq; exact h.staged q (List.mem_filter.mp hq).1
    · intro q hq; exact h.json q (List.mem_filter.mp hq).1
  | promote row hver _ =>
    have hnew : ∀ r ∈ t.committedRecords,
        ¬ (r.recordKey = row.recordKey ∧ r.recordVersion = row.recordVersion) := by
      rintro r hr ⟨hk, hv⟩
      have hle := (h.contiguous r.recordKey r.recordVersion).mp ⟨r, hr, rfl, rfl⟩
      rw [hk] at hle
      omega
    have hhead : ∀ k, head (promoteRow t row.recordKey row.recordVersion row) k =
        if k = row.recordKey then row.recordVersion else head t k := fun k => head_setHead _ _ k _
    have hpend : ∀ q ∈ (promoteRow t row.recordKey row.recordVersion row).pendingPrepares,
        q ∈ t.pendingPrepares ∧ q.recordKey ≠ row.recordKey := by
      intro q hq
      obtain ⟨hq, hslot⟩ := List.mem_filter.mp (show q ∈ (deletePending t _ _).pendingPrepares from hq)
      refine ⟨hq, fun hk => ?_⟩
      have hv := h.staged q hq
      rw [hk, ← hver] at hv
      simp [inSlot, hk, hv] at hslot
    refine ⟨?_, ?_, keys_setHead _ _ _ h.headsUnique,
      positive_setHead _ _ _ (by omega) h.headsPositive, ?_, ?_, ?_⟩
    · change ((t.committedRecords ++ [row]).map _).Nodup
      rw [List.map_append, List.nodup_append]
      refine ⟨h.slots, by simp, ?_⟩
      intro a ha b hb
      obtain ⟨r, hr, rfl⟩ := List.mem_map.mp ha
      rw [List.map_cons, List.map_nil] at hb
      rw [List.mem_singleton.mp hb]
      intro heq
      exact hnew r hr ⟨congrArg Prod.fst heq, congrArg Prod.snd heq⟩
    · intro k v
      rw [hhead]
      have hmem : (∃ r ∈ (promoteRow t row.recordKey row.recordVersion row).committedRecords,
          r.recordKey = k ∧ r.recordVersion = v) ↔
          (∃ r ∈ t.committedRecords, r.recordKey = k ∧ r.recordVersion = v) ∨
            (row.recordKey = k ∧ row.recordVersion = v) := by
        change (∃ r ∈ t.committedRecords ++ [row], _) ↔ _
        simp [List.mem_append, or_and_right, exists_or]
      rw [hmem, h.contiguous]
      by_cases hk : k = row.recordKey
      · subst hk
        simp only [true_and, if_true]
        omega
      · have hk' : ¬ row.recordKey = k := fun he => hk he.symm
        simp [hk, hk']
    · exact (List.filter_sublist.map _).nodup h.staging
    · intro q hq
      obtain ⟨hq, hne⟩ := hpend q hq
      rw [hhead, if_neg hne]
      exact h.staged q hq
    · intro q hq
      exact h.json q (hpend q hq).1

/-- No edit changes or removes a committed row. -/
theorem Edit.committed {P : StagedRecord → Prop} {t t' : Tables} (he : Edit P t t')
    {k : String} {v : Nat} {row : CommittedRow} (h : getCommittedRow t k v = some row) :
    getCommittedRow t' k v = some row := by
  cases he with
  | same => exact h
  | stage p _ _ _ => exact h
  | rebind k' v' op utc now => exact h
  | unstage keep => exact h
  | promote r _ _ =>
    change (t.committedRecords ++ [r]).find? _ = some row
    rw [List.find?_append]
    change t.committedRecords.find? _ = some row at h
    rw [h]
    rfl

/-- After a promotion the new slot holds the new row and every other slot is as it was. -/
theorem Valid.getCommittedRow_promoteRow {t : Tables} (h : Valid t) (row : CommittedRow)
    (hnext : row.recordVersion = head t row.recordKey + 1) (k : String) (v : Nat) :
    getCommittedRow (promoteRow t row.recordKey row.recordVersion row) k v =
      if row.recordKey = k ∧ row.recordVersion = v then some row else getCommittedRow t k v := by
  change (t.committedRecords ++ [row]).find? _ = _
  rw [List.find?_append]
  change (getCommittedRow t k v).or _ = _
  by_cases hslot : row.recordKey = k ∧ row.recordVersion = v
  · obtain ⟨rfl, rfl⟩ := hslot
    have hfree : getCommittedRow t row.recordKey row.recordVersion = none := by
      rw [getCommittedRow_eq_none]
      rintro r hr ⟨hk, hv⟩
      have hle := (h.contiguous r.recordKey r.recordVersion).mp ⟨r, hr, rfl, rfl⟩
      rw [hk] at hle
      omega
    simp [hfree]
  · simp [hslot]

/-- Every record kept in the tables, committed or staged, satisfies `P`. -/
structure Sourced (P : StagedRecord → Prop) (t : Tables) : Prop where
  committed : ∀ r ∈ t.committedRecords, P r.toStagedRecord
  pending : ∀ p ∈ t.pendingPrepares, P p.recordJson

/-- An edit brings in no records but its own. -/
theorem Edit.sourced {P : StagedRecord → Prop} {t t' : Tables} (he : Edit P t t')
    (h : Sourced P t) : Sourced P t' := by
  cases he with
  | same => exact h
  | stage p _ _ hp =>
    refine ⟨h.committed, ?_⟩
    intro q hq
    rcases List.mem_append.mp hq with hq | hq
    · exact h.pending q (List.mem_filter.mp hq).1
    · rw [List.mem_singleton.mp hq]; exact hp
  | rebind k v op utc now =>
    refine ⟨h.committed, ?_⟩
    intro q hq
    obtain ⟨q', hq', rfl⟩ := List.mem_map.mp hq
    have hj := h.pending q' hq'
    by_cases hs : inSlot k v q' = true
    · simpa [hs] using hj
    · simpa [hs] using hj
  | unstage keep =>
    refine ⟨h.committed, ?_⟩
    intro q hq
    exact h.pending q (List.mem_filter.mp hq).1
  | promote row _ hrow =>
    have hform : P row.toStagedRecord := by
      rcases hrow with hrow | ⟨p, hp, he⟩
      · exact hrow
      · rw [← he]; exact h.pending p hp
    refine ⟨?_, ?_⟩
    · intro r hr
      rcases List.mem_append.mp hr with hr | hr
      · exact h.committed r hr
      · rw [List.mem_singleton.mp hr]; exact hform
    · intro q hq
      exact h.pending q (List.mem_filter.mp hq).1

theorem Edit.mono {P Q : StagedRecord → Prop} (hpq : ∀ s, P s → Q s) {t t' : Tables}
    (he : Edit P t t') : Edit Q t t' := by
  cases he with
  | same => exact .same
  | stage p hver hjson hp => exact .stage p hver hjson (hpq _ hp)
  | rebind k v op utc now => exact .rebind k v op utc now
  | unstage keep => exact .unstage keep
  | promote row hver hrow => exact .promote row hver (hrow.imp_left (hpq _))

/-! ## What each transaction does -/

/-- The six ways a prepare of `row` goes. -/
inductive PrepareEffect (t : Tables) (row : PendingRow) (lease : Rat) :
    Tables → PrepareResult → Prop where
  | stale : row.recordVersion ≤ head t row.recordKey →
      PrepareEffect t row lease t ⟨.rejectStale, some (head t row.recordKey), none⟩
  | ahead : head t row.recordKey + 1 < row.recordVersion →
      PrepareEffect t row lease t ⟨.rejectAhead, some (head t row.recordKey), none⟩
  | conflict (p : PendingRow) : row.recordVersion = head t row.recordKey + 1 →
      getPendingRow t row.recordKey row.recordVersion = some p →
      p.recordId ≠ row.recordId → ¬ lease < row.createdEpoch - p.createdEpoch →
      PrepareEffect t row lease t
        ⟨.rejectConflict, some (head t row.recordKey), some p.operationId⟩
  | fresh : row.recordVersion = head t row.recordKey + 1 →
      getPendingRow t row.recordKey row.recordVersion = none →
      PrepareEffect t row lease (insertPending t row) ⟨.prepared, some (head t row.recordKey), none⟩
  | restaged (p : PendingRow) : row.recordVersion = head t row.recordKey + 1 →
      getPendingRow t row.recordKey row.recordVersion = some p → p.recordId = row.recordId →
      PrepareEffect t row lease
        (updatePending t row.recordKey row.recordVersion row.operationId row.createdAtUtc
          row.createdEpoch) ⟨.prepared, some (head t row.recordKey), none⟩
  | takeover (p : PendingRow) : row.recordVersion = head t row.recordKey + 1 →
      getPendingRow t row.recordKey row.recordVersion = some p →
      p.recordId ≠ row.recordId → lease < row.createdEpoch - p.createdEpoch →
      PrepareEffect t row lease
        (insertPending (deletePending t row.recordKey row.recordVersion) row)
        ⟨.preparedLeaseTakeover, some (head t row.recordKey), none⟩

theorem prepareInsert_effect {t t' : Tables} {row : PendingRow} {lease : Rat}
    {res : PrepareResult}
    (h : prepareInsert t row.recordKey row.recordVersion row.recordId row.contentHash
      row.operationId row.recordJson row.createdAtUtc row.createdEpoch lease = .ok (t', res)) :
    PrepareEffect t row lease t' res := by
  unfold prepareInsert at h
  by_cases hstale : row.recordVersion ≤ head t row.recordKey
  · simp only [hstale, if_true, Except.ok.injEq, Prod.mk.injEq] at h
    obtain ⟨rfl, rfl⟩ := h
    exact .stale hstale
  by_cases hnext : row.recordVersion = head t row.recordKey + 1
  · have hat : ¬ row.recordVersion ≠ head t row.recordKey + 1 := not_not.mpr hnext
    simp only [hstale, if_false, hat] at h
    by_cases hfit : fitsInteger row.recordVersion = true
    · simp only [hfit, Bool.not_true, Bool.false_eq_true, if_false] at h
      cases hp : getPendingRow t row.recordKey row.recordVersion with
      | none =>
        simp only [hp, Except.ok.injEq, Prod.mk.injEq] at h
        obtain ⟨rfl, rfl⟩ := h
        exact .fresh hnext hp
      | some p =>
        simp only [hp] at h
        by_cases hid : p.recordId = row.recordId
        · simp only [hid, if_true, Except.ok.injEq, Prod.mk.injEq] at h
          obtain ⟨rfl, rfl⟩ := h
          exact .restaged p hnext hp hid
        · simp only [hid, if_false] at h
          by_cases hl : lease < row.createdEpoch - p.createdEpoch
          · simp only [hl, if_true, Except.ok.injEq, Prod.mk.injEq] at h
            obtain ⟨rfl, rfl⟩ := h
            exact .takeover p hnext hp hid hl
          · simp only [hl, if_false, Except.ok.injEq, Prod.mk.injEq] at h
            obtain ⟨rfl, rfl⟩ := h
            exact .conflict p hnext hp hid hl
    · simp [hfit] at h
  · simp only [hstale, if_false, ne_eq, hnext, not_false_eq_true, if_true, Except.ok.injEq,
      Prod.mk.injEq] at h
    obtain ⟨rfl, rfl⟩ := h
    exact .ahead (by omega)

theorem deletePending_of_none {t : Tables} {k : String} {v : Nat}
    (h : getPendingRow t k v = none) : deletePending t k v = t := by
  have hkeep : t.pendingPrepares.filter (fun p => !inSlot k v p) = t.pendingPrepares := by
    rw [List.filter_eq_self]
    intro p hp
    simp [(getPendingRow_eq_none).mp h p hp]
  unfold deletePending
  rw [hkeep]

theorem PrepareEffect.edit {P : StagedRecord → Prop} {t t' : Tables} {row : PendingRow}
    {lease : Rat} {res : PrepareResult} (h : PrepareEffect t row lease t' res)
    (hjson : row.recordJson.recordKey = row.recordKey ∧
      row.recordJson.recordVersion = row.recordVersion ∧ row.recordJson.recordId = row.recordId)
    (hp : P row.recordJson) : Edit P t t' := by
  cases h with
  | stale _ => exact .same
  | ahead _ => exact .same
  | conflict p _ _ _ _ => exact .same
  | fresh hver hnone =>
    have he := Edit.stage (P := P) (t := t) row hver hjson hp
    rwa [deletePending_of_none hnone] at he
  | restaged p _ _ _ => exact .rebind _ _ _ _ _
  | takeover p hver _ _ _ => exact .stage row hver hjson hp

/-- A prepare leaves the committed rows and the heads alone. -/
theorem PrepareEffect.frame {t t' : Tables} {row : PendingRow} {lease : Rat}
    {res : PrepareResult} (h : PrepareEffect t row lease t' res) :
    t'.committedRecords = t.committedRecords ∧ t'.keyHeads = t.keyHeads := by
  cases h <;> exact ⟨rfl, rfl⟩

theorem insertCommitted_ok {t t' : Tables} {row : CommittedRow}
    (h : insertCommitted t row = .ok t') :
    t' = { t with committedRecords := t.committedRecords ++ [row] } := by
  unfold insertCommitted at h
  split at h
  · cases h
  · split at h
    · cases h
    · split at h
      · cases h
      · cases h; rfl

/-- A commit promotes the staged row of its own operation and record, or changes
nothing. -/
theorem commitPromote_effect {t t' : Tables} {k id op utc : String} {v : Nat}
    {res : CommitOutcome} (h : commitPromote t k v id op utc = .ok (t', res)) :
    (res ≠ .committed ∧ t' = t) ∨
    (res = .committed ∧ ∃ p, getPendingRow t k v = some p ∧ p.operationId = op ∧
      p.recordId = id ∧ v = head t k + 1 ∧
      t' = promoteRow t k v { p.recordJson with operationId := op, committedAtUtc := utc }) := by
  unfold commitPromote at h
  by_cases hfit : fitsInteger v = true
  · simp only [hfit, Bool.not_true, Bool.false_eq_true, if_false] at h
    cases hp : getPendingRow t k v with
    | none =>
      simp only [hp, Except.ok.injEq, Prod.mk.injEq] at h
      obtain ⟨rfl, rfl⟩ := h
      exact .inl ⟨by decide, rfl⟩
    | some p =>
      simp only [hp] at h
      by_cases hmine : p.operationId ≠ op ∨ p.recordId ≠ id
      · simp only [hmine, if_true, Except.ok.injEq, Prod.mk.injEq] at h
        obtain ⟨rfl, rfl⟩ := h
        exact .inl ⟨by decide, rfl⟩
      · simp only [hmine, if_false] at h
        by_cases hnext : v = head t k + 1
        · simp only [← hnext, ne_eq, not_true_eq_false, if_false] at h
          split at h
          · cases h
          · rename_i t₁ hins
            simp only [Except.ok.injEq, Prod.mk.injEq] at h
            obtain ⟨rfl, rfl⟩ := h
            push Not at hmine
            refine .inr ⟨rfl, p, rfl, hmine.1, hmine.2, hnext, ?_⟩
            rw [insertCommitted_ok hins]
            rfl
        · simp only [ne_eq, hnext, not_false_eq_true, if_true, Except.ok.injEq,
            Prod.mk.injEq] at h
          obtain ⟨rfl, rfl⟩ := h
          exact .inl ⟨by decide, rfl⟩
  · simp [hfit] at h

theorem commitPromote_edit {P : StagedRecord → Prop} {t t' : Tables} {k id op utc : String}
    {v : Nat} {res : CommitOutcome} (hv : Valid t)
    (h : commitPromote t k v id op utc = .ok (t', res)) : Edit P t t' := by
  rcases commitPromote_effect h with ⟨-, rfl⟩ | ⟨-, p, hp, -, -, hnext, rfl⟩
  · exact .same
  · obtain ⟨hm, hk, hver⟩ := getPendingRow_some hp
    obtain ⟨hjk, hjv, -⟩ := hv.json p hm
    have hkey : p.recordJson.recordKey = k := hjk.trans hk
    have hversion : p.recordJson.recordVersion = v := hjv.trans hver
    subst hkey hversion
    exact .promote { p.recordJson with operationId := op, committedAtUtc := utc } hnext
      (.inr ⟨p, hm, rfl⟩)

/-- A repair inserts its row at the head plus one, or finds the slot's record in
place, or refuses; only the first changes the tables. -/
theorem upsertCommittedExternal_effect {t t' : Tables} {row : CommittedRow}
    {res : UpsertExternalResult} (h : upsertCommittedExternal t row = .ok (t', res)) :
    (res.status = .refused ∧ t' = t) ∨
    (res.status = .identical ∧ t' = t ∧ ∃ old,
      getCommittedRow t row.recordKey row.recordVersion = some old ∧
      old.recordId = row.recordId) ∨
    (res.status = .inserted ∧ row.recordVersion = head t row.recordKey + 1 ∧
      t' = promoteRow t row.recordKey row.recordVersion row) := by
  unfold upsertCommittedExternal at h
  by_cases hfit : fitsInteger row.recordVersion = true
  · simp only [hfit, Bool.not_true, Bool.false_eq_true, if_false] at h
    cases hg : getCommittedRow t row.recordKey row.recordVersion with
    | some old =>
      simp only [hg] at h
      by_cases hid : old.recordId = row.recordId
      · simp only [hid, if_true, Except.ok.injEq, Prod.mk.injEq] at h
        obtain ⟨rfl, rfl⟩ := h
        exact .inr (.inl ⟨rfl, rfl, old, rfl, hid⟩)
      · simp only [hid, if_false, Except.ok.injEq, Prod.mk.injEq] at h
        obtain ⟨rfl, rfl⟩ := h
        exact .inl ⟨rfl, rfl⟩
    | none =>
      simp only [hg] at h
      by_cases hnext : row.recordVersion = head t row.recordKey + 1
      · simp only [← hnext, ne_eq, not_true_eq_false, if_false] at h
        split at h
        · cases h
        · rename_i t₁ hins
          simp only [Except.ok.injEq, Prod.mk.injEq] at h
          obtain ⟨rfl, rfl⟩ := h
          refine .inr (.inr ⟨rfl, hnext, ?_⟩)
          rw [insertCommitted_ok hins]
          rfl
      · simp only [ne_eq, hnext, not_false_eq_true, if_true, Except.ok.injEq,
          Prod.mk.injEq] at h
        obtain ⟨rfl, rfl⟩ := h
        exact .inl ⟨rfl, rfl⟩
  · simp [hfit] at h

theorem upsertCommittedExternal_edit {P : StagedRecord → Prop} {t t' : Tables}
    {row : CommittedRow} {res : UpsertExternalResult} (hp : P row.toStagedRecord)
    (h : upsertCommittedExternal t row = .ok (t', res)) : Edit P t t' := by
  rcases upsertCommittedExternal_effect h with ⟨-, rfl⟩ | ⟨-, rfl, -⟩ | ⟨-, hnext, rfl⟩
  · exact .same
  · exact .same
  · exact .promote row hnext (.inl hp)

theorem abortPending_edit {P : StagedRecord → Prop} {t t' : Tables} {k : String} {v : Nat}
    {op : Option String} {removed : Bool} (h : abortPending t k v op = .ok (t', removed)) :
    Edit P t t' := by
  unfold abortPending at h
  by_cases hfit : fitsInteger v = true
  · simp only [hfit, Bool.not_true, Bool.false_eq_true, if_false, Except.ok.injEq,
      Prod.mk.injEq] at h
    obtain ⟨rfl, -⟩ := h
    exact .unstage _
  · simp [hfit] at h

end BlackboardStorage
