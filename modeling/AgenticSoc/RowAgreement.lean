import AgenticSoc.BehaviorCounts
import Mathlib.Tactic.FieldSimp
import Mathlib.Tactic.Ring

/-!
# Rows of the same events in different orders

Two accumulators agree when they hold the same counts, sets and statistics. Accumulators of
the same events agree in whatever order the events came, and their sorted sequences are the
same; their rows differ at most in what the last event said about its source.
-/
namespace RowAgreement

open EventWindows FeatureStatistics BehaviorFeatures EventSequences BehaviorCounts

/-! ## Counters and statistics -/

section Counters

variable {κ : Type} [DecidableEq κ]

theorem get_congr {c c' : Counter κ} (h : c.entries.Perm c'.entries) (k : κ) : c.get k = c'.get k := by
  rw [Counter.get, Counter.get, AList.perm_lookup h]

theorem bump_congr {c c' : Counter κ} (h : c.entries.Perm c'.entries) (k : κ) :
    (c.bump k).entries.Perm (c'.bump k).entries := by
  rw [Counter.bump, Counter.bump, get_congr h]
  exact AList.perm_insert h

theorem bump_comm (c : Counter κ) (k l : κ) : ((c.bump k).bump l).entries.Perm ((c.bump l).bump k).entries := by
  by_cases h : k = l
  · rw [h]
  · have hl : (c.bump k).get l = c.get l := by
      rw [Counter.bump, Counter.get, AList.lookup_insert_ne (Ne.symm h), ← Counter.get]
    have hk : (c.bump l).get k = c.get k := by
      rw [Counter.bump, Counter.get, AList.lookup_insert_ne h, ← Counter.get]
    change ((c.bump k).insert l ((c.bump k).get l + 1)).entries.Perm ((c.bump l).insert k ((c.bump l).get k + 1)).entries
    rw [hl, hk]
    exact AList.insert_insert_of_ne c h

omit [DecidableEq κ] in
theorem values_congr {c c' : Counter κ} (h : c.entries.Perm c'.entries) : c.values.Perm c'.values := h.map _

omit [DecidableEq κ] in
theorem keys_length_congr {c c' : Counter κ} (h : c.entries.Perm c'.entries) : c.keys.length = c'.keys.length :=
  (h.map Sigma.fst).length_eq

end Counters

theorem bumpSome_congr {c c' : Counter String} (h : c.entries.Perm c'.entries) (topic : Option String) :
    (bumpSome topic c).entries.Perm (bumpSome topic c').entries := by
  cases topic with
  | none => exact h
  | some topic => exact bump_congr h topic

theorem bumpSome_comm (c : Counter String) (topic topic' : Option String) :
    (bumpSome topic' (bumpSome topic c)).entries.Perm (bumpSome topic (bumpSome topic' c)).entries := by
  cases topic with
  | none => exact .rfl
  | some topic =>
    cases topic' with
    | none => exact .rfl
    | some topic' => exact bump_comm c topic topic'

theorem insertSome_comm {α : Type} [DecidableEq α] (x y : Option α) (s : Finset α) :
    insertSome y (insertSome x s) = insertSome x (insertSome y s) := by
  cases x with
  | none => rfl
  | some x =>
    cases y with
    | none => rfl
    | some y => exact Finset.insert_comm y x s

/-- In exact arithmetic the order of two values does not matter. -/
theorem add_comm_stats (s : OnlineStats) (u v : ℚ) : (s.add u).add v = (s.add v).add u := by
  obtain ⟨n, mean, m2, mn, mx⟩ := s
  have h1 : ((n + 1 : Nat) : ℚ) ≠ 0 := by exact_mod_cast Nat.succ_ne_zero n
  have h2 : ((n + 1 + 1 : Nat) : ℚ) ≠ 0 := by exact_mod_cast Nat.succ_ne_zero (n + 1)
  simp only [OnlineStats.add, OnlineStats.mk.injEq, true_and]
  push_cast at h1 h2 ⊢
  refine ⟨?_, ?_, ?_, ?_⟩
  · field_simp
    ring
  · field_simp
    ring
  · cases mn <;> simp only [] <;> split_ifs <;> simp only [Option.some.injEq] <;> grind
  · cases mx <;> simp only [] <;> split_ifs <;> simp only [Option.some.injEq] <;> grind

/-! ## Accumulators -/

/-- Accumulators that hold the same, apart from their sorted sequences and their last source. -/
structure Agrees (a b : BehaviorWindowAccumulator) : Prop where
  deviceName : a.deviceName = b.deviceName
  windowId : a.windowId = b.windowId
  messages : a.messages = b.messages
  topicCounts : a.topicCounts.entries.Perm b.topicCounts.entries
  typeCounts : a.typeCounts.entries.Perm b.typeCounts.entries
  qosLevels : a.qosLevels = b.qosLevels
  retainedCount : a.retainedCount = b.retainedCount
  duplicateCount : a.duplicateCount = b.duplicateCount
  messageIds : a.messageIds = b.messageIds
  arrayLenStats : a.arrayLenStats = b.arrayLenStats
  stringValues : a.stringValues = b.stringValues
  distinctNumericValues : a.distinctNumericValues = b.distinctNumericValues
  secondBins : a.secondBins.entries.Perm b.secondBins.entries
  topicsMeta : a.topicsMeta = b.topicsMeta
  appsMeta : a.appsMeta = b.appsMeta

theorem Agrees.refl (a : BehaviorWindowAccumulator) : Agrees a a :=
  ⟨rfl, rfl, rfl, .rfl, .rfl, rfl, rfl, rfl, rfl, rfl, rfl, rfl, .rfl, rfl, rfl⟩

theorem Agrees.trans {a b c : BehaviorWindowAccumulator} (h : Agrees a b) (h' : Agrees b c) : Agrees a c :=
  ⟨h.deviceName.trans h'.deviceName, h.windowId.trans h'.windowId, h.messages.trans h'.messages,
    h.topicCounts.trans h'.topicCounts, h.typeCounts.trans h'.typeCounts, h.qosLevels.trans h'.qosLevels,
    h.retainedCount.trans h'.retainedCount, h.duplicateCount.trans h'.duplicateCount, h.messageIds.trans h'.messageIds,
    h.arrayLenStats.trans h'.arrayLenStats, h.stringValues.trans h'.stringValues,
    h.distinctNumericValues.trans h'.distinctNumericValues, h.secondBins.trans h'.secondBins,
    h.topicsMeta.trans h'.topicsMeta, h.appsMeta.trans h'.appsMeta⟩

section Notes

variable (L : Library) (grid : WindowGrid)

theorem Agrees.note {a b : BehaviorWindowAccumulator} (h : Agrees a b) (e : MqttEvent) :
    Agrees (noteEvent L grid a e) (noteEvent L grid b e) := by
  refine ⟨h.deviceName, h.windowId, ?_, bumpSome_congr h.topicCounts _, bump_congr h.typeCounts _, ?_, ?_, ?_, ?_, ?_, ?_,
    ?_, ?_, ?_, ?_⟩
  · exact congrArg (· + 1) h.messages
  · exact congrArg (insertSome e.qos) h.qosLevels
  · exact congrArg (· + _) h.retainedCount
  · exact congrArg (· + _) h.duplicateCount
  · exact congrArg (insertSome e.messageId) h.messageIds
  · simp only [noteEvent, h.arrayLenStats]
  · simp only [noteEvent, h.stringValues]
  · simp only [noteEvent, h.distinctNumericValues]
  · simp only [noteEvent, h.windowId]
    exact bump_congr h.secondBins _
  · exact congrArg (insertSome _) h.topicsMeta
  · exact congrArg (insertSome _) h.appsMeta

theorem note_comm (a : BehaviorWindowAccumulator) (e f : MqttEvent) :
    Agrees (noteEvent L grid (noteEvent L grid a e) f) (noteEvent L grid (noteEvent L grid a f) e) := by
  refine ⟨rfl, rfl, rfl, bumpSome_comm _ _ _, bump_comm _ _ _, insertSome_comm _ _ _, ?_, ?_, insertSome_comm _ _ _, ?_, ?_,
    ?_, bump_comm _ _ _, insertSome_comm _ _ _, insertSome_comm _ _ _⟩
  · exact Nat.add_right_comm _ _ _
  · exact Nat.add_right_comm _ _ _
  · simp only [noteEvent]
    cases e.messageValue <;> cases f.messageValue <;> first | rfl | exact add_comm_stats _ _ _
  · simp only [noteEvent]
    split <;> split <;> first | rfl | exact Finset.insert_comm _ _ _
  · simp only [noteEvent]
    split <;> split <;> first | rfl | exact Finset.insert_comm _ _ _

end Notes

section Folds

variable (L : Library) (S : BehaviorSetup)

/-- What an event adds does not depend on whether its value is kept. -/
theorem agrees_count (a : BehaviorWindowAccumulator) (e : MqttEvent) :
    Agrees (count L S a e) (noteEvent L S.grid a e) := by
  have h := count_noted L S a e
  rw [Noted] at h
  rw [h]
  exact ⟨rfl, rfl, rfl, .rfl, .rfl, rfl, rfl, rfl, rfl, rfl, rfl, rfl, .rfl, rfl, rfl⟩

theorem agrees_notes (fed : List MqttEvent) {a b : BehaviorWindowAccumulator} (h : Agrees a b) :
    Agrees (fed.foldl (count L S) a) (fed.foldl (noteEvent L S.grid) b) := by
  induction fed generalizing a b with
  | nil => exact h
  | cons e fed ih => exact ih ((agrees_count L S a e).trans (h.note L S.grid e))

theorem notes_perm {fed fed' : List MqttEvent} (hp : fed.Perm fed') {a b : BehaviorWindowAccumulator} (h : Agrees a b) :
    Agrees (fed.foldl (noteEvent L S.grid) a) (fed'.foldl (noteEvent L S.grid) b) := by
  induction hp generalizing a b with
  | nil => exact h
  | cons e _ ih => exact ih (h.note L S.grid e)
  | swap e f fed =>
    suffices hall : ∀ {a b : BehaviorWindowAccumulator}, Agrees a b →
        Agrees (fed.foldl (noteEvent L S.grid) a) (fed.foldl (noteEvent L S.grid) b) from
      hall ((note_comm L S.grid a f e).trans ((h.note L S.grid e).note L S.grid f))
    intro a b h
    induction fed generalizing a b with
    | nil => exact h
    | cons g fed ih => exact ih (h.note L S.grid g)
  | trans _ _ ih ih' => exact (ih (Agrees.refl a)).trans (ih' h)

theorem Agrees.symm {a b : BehaviorWindowAccumulator} (h : Agrees a b) : Agrees b a :=
  ⟨h.deviceName.symm, h.windowId.symm, h.messages.symm, h.topicCounts.symm, h.typeCounts.symm, h.qosLevels.symm,
    h.retainedCount.symm, h.duplicateCount.symm, h.messageIds.symm, h.arrayLenStats.symm, h.stringValues.symm,
    h.distinctNumericValues.symm, h.secondBins.symm, h.topicsMeta.symm, h.appsMeta.symm⟩

/-- Accumulators of the same events agree. -/
theorem agrees_of_perm {fed fed' : List MqttEvent} (hp : fed.Perm fed') (a : BehaviorWindowAccumulator) :
    Agrees (fed.foldl (count L S) a) (fed'.foldl (count L S) a) :=
  (agrees_notes L S fed (Agrees.refl a)).trans
    ((notes_perm L S hp (Agrees.refl a)).trans (agrees_notes L S fed' (Agrees.refl a)).symm)

/-- The timestamps of a window are kept in order as long as there is room. -/
theorem tsList_fold (fed : List MqttEvent) {a : BehaviorWindowAccumulator} (hroom : a.tsList.length + fed.length ≤ tsListCap)
    (hsorted : a.tsList.Pairwise (· ≤ ·)) :
    (fed.foldl (count L S) a).tsList.Perm (a.tsList ++ fed.map MqttEvent.tsNs) ∧
      (fed.foldl (count L S) a).tsList.Pairwise (· ≤ ·) := by
  induction fed generalizing a with
  | nil => simpa using hsorted
  | cons e fed ih =>
    have hnoted : (count L S a e).tsList = a.tsList.orderedInsert (· ≤ ·) e.tsNs := by
      have h := count_noted L S a e
      rw [Noted] at h
      rw [h]
      simp only [noteEvent]
      rw [if_pos (decide_eq_true (by rw [List.length_cons] at hroom; omega))]
    have hlen : (count L S a e).tsList.length = a.tsList.length + 1 := by rw [hnoted, List.orderedInsert_length]
    obtain ⟨hperm, hsorted'⟩ := ih (a := count L S a e) (by rw [hlen]; rw [List.length_cons] at hroom; omega)
      (by rw [hnoted]; exact List.Pairwise.orderedInsert _ _ hsorted)
    refine ⟨?_, hsorted'⟩
    rw [List.foldl_cons, List.map_cons]
    refine hperm.trans ?_
    rw [hnoted]
    exact ((List.perm_orderedInsert _ _ _).append_right _).trans List.perm_middle.symm

end Folds

/-- An entry is known by its key, as far as it can be compared. -/
theorem entry_of_key {x y : SeqEntry} (hkey : entryKey x = entryKey y) (hclear : ¬ Clash x y) : x = y := by
  obtain ⟨tsNs, item⟩ := x
  obtain ⟨tsNs', item'⟩ := y
  simp only [entryKey, EmbeddingLike.apply_eq_iff_eq, Prod.mk.injEq] at hkey
  obtain ⟨⟨rfl, hkind⟩, hvalue⟩ := hkey
  have hsome : item.value.isSome = item'.value.isSome := by
    by_contra hne
    exact hclear ⟨rfl, hkind, hne⟩
  rw [SeqEntry.mk.injEq]
  refine ⟨rfl, ?_⟩
  rcases item with (_ | v) | v | (_ | v) | _ <;> rcases item' with (_ | v') | v' | (_ | v') | _ <;>
    simp_all [SeqItem.kindRank, SeqItem.value, valueKey]

/-- Sorted sequences of the same entries are the same. -/
theorem entries_eq {fed fed' : List MqttEvent} (hp : fed.Perm fed') (hroom : fed.length ≤ tsListCap)
    {a b : BehaviorWindowAccumulator} (ha : Sound fed a) (hb : Sound fed' b) : a.eventSeq = b.eventSeq := by
  have hperm : a.eventSeq.Perm b.eventSeq := by
    have ha' := ha.entries
    have hb' := hb.entries
    rw [List.take_of_length_le hroom] at ha'
    rw [List.take_of_length_le (hp.length_eq ▸ hroom)] at hb'
    exact ha'.trans ((hp.map entryOf).trans hb'.symm)
  refine hperm.eq_of_pairwise (fun x y hx hy hxy hyx => ?_) ha.inOrder.sorted hb.inOrder.sorted
  by_contra hne
  have : Std.Symm fun x y : SeqEntry => ¬ Clash x y := ⟨fun _ _ h h' => h h'.symm⟩
  have hclear : ¬ Clash x y := ha.inOrder.clear.forall hx (hperm.symm.subset hy) hne
  exact hne (entry_of_key (le_antisymm hxy hyx) hclear)

end RowAgreement
