import AgenticSoc.BehaviorFeatures

/-!
# Event sequences

The sequence of a window holds its first values, sorted by timestamp, kind and value.
Inserting a value fails when an entry with the same timestamp and kind has a value and the
new one has none, or the other way round.
-/
namespace EventSequences

open EventWindows FeatureStatistics BehaviorFeatures Bisection

abbrev EntryKey := (Int ×ₗ Nat) ×ₗ (ℚ ×ₗ String)

/-- A value as numbers and texts are ordered. -/
def valueKey : Option SeqValue → ℚ ×ₗ String
  | none => toLex (0, "")
  | some (.number v) => toLex (v, "")
  | some (.text s) => toLex (0, s)

def entryKey (e : SeqEntry) : EntryKey := toLex (toLex (e.tsNs, e.item.kindRank), valueKey e.item.value)

/-- Two entries that cannot be compared. -/
def Clash (a b : SeqEntry) : Prop :=
  a.tsNs = b.tsNs ∧ a.item.kindRank = b.item.kindRank ∧ a.item.value.isSome ≠ b.item.value.isSome

instance (a b : SeqEntry) : Decidable (Clash a b) :=
  inferInstanceAs (Decidable (_ ∧ _ ∧ _))

theorem Clash.symm {a b : SeqEntry} (h : Clash a b) : Clash b a := ⟨h.1.symm, h.2.1.symm, h.2.2.symm⟩

theorem value_lt {a b : ℚ} : (toLex (a, "") : ℚ ×ₗ String) < toLex (b, "") ↔ a < b := by
  rw [Prod.Lex.toLex_lt_toLex]
  simp

theorem text_lt {a b : String} : (toLex ((0 : ℚ), a) : ℚ ×ₗ String) < toLex (0, b) ↔ a < b := by
  rw [Prod.Lex.toLex_lt_toLex]
  simp

theorem entryKey_lt {a b : SeqEntry} : entryKey a < entryKey b ↔
    a.tsNs < b.tsNs ∨ a.tsNs = b.tsNs ∧ (a.item.kindRank < b.item.kindRank ∨
      a.item.kindRank = b.item.kindRank ∧ valueKey a.item.value < valueKey b.item.value) := by
  unfold entryKey
  rw [Prod.Lex.toLex_lt_toLex, Prod.Lex.toLex_lt_toLex]
  simp only [EmbeddingLike.apply_eq_iff_eq, Prod.mk.injEq]
  tauto

theorem entryKey_le {a b : SeqEntry} (h : entryKey a ≤ entryKey b) :
    a.tsNs < b.tsNs ∨ a.tsNs = b.tsNs ∧ a.item.kindRank ≤ b.item.kindRank := by
  rcases h.lt_or_eq with hlt | heq
  · rw [entryKey_lt] at hlt
    rcases hlt with hlt | ⟨heq, hlt | ⟨heq', -⟩⟩
    · exact .inl hlt
    · exact .inr ⟨heq, hlt.le⟩
    · exact .inr ⟨heq, heq'.le⟩
  · simp only [entryKey, EmbeddingLike.apply_eq_iff_eq, Prod.mk.injEq] at heq
    exact .inr ⟨heq.1.1, heq.1.2.le⟩

theorem comparison : Comparison SeqEntry.lessThan entryKey Clash ExtractionError.typeError where
  compares a b h := by
    unfold SeqEntry.lessThan
    by_cases hts : a.tsNs = b.tsNs
    · by_cases hkind : a.item.kindRank = b.item.kindRank
      · have hsome : a.item.value.isSome = b.item.value.isSome := by
          by_contra hne
          exact h ⟨hts, hkind, hne⟩
        rw [if_neg (not_not.mpr hts), if_neg (not_not.mpr hkind)]
        simp only [entryKey_lt, hts, hkind, lt_self_iff_false, true_and, false_or]
        rcases ha : a.item with (_ | x) | x | (_ | x) | _ <;> rcases hb : b.item with (_ | y) | y | (_ | y) | _ <;>
          simp [ha, hb, SeqItem.kindRank, SeqItem.value, valueKey, value_lt, text_lt] at hkind hsome ⊢
      · rw [if_neg (not_not.mpr hts), if_pos hkind]
        simp [entryKey_lt, hts, hkind]
    · rw [if_pos hts]
      simp [entryKey_lt, hts]
  fails a b h := by
    obtain ⟨hts, hkind, hsome⟩ := h
    unfold SeqEntry.lessThan
    rw [if_neg (not_not.mpr hts), if_neg (not_not.mpr hkind)]
    rcases ha : a.item with (_ | x) | x | (_ | x) | _ <;> rcases hb : b.item with (_ | y) | y | (_ | y) | _ <;>
      simp [ha, hb, SeqItem.kindRank, SeqItem.value] at hkind hsome ⊢
  below x y z hxy hxz hyz hzx := by
    obtain ⟨hts, hkind, hsome⟩ := hxy
    have h1 := entryKey_le hyz
    have h2 := entryKey_le hzx
    have hts' : y.tsNs = z.tsNs := by omega
    have hkind' : y.item.kindRank = z.item.kindRank := by omega
    refine ⟨hts', hkind', fun he => hxz ⟨hts.trans hts', hkind.trans hkind', fun he' => hsome (he'.trans he.symm)⟩⟩
  above x y z hxy hxz hxz' hzy := by
    obtain ⟨hts, hkind, hsome⟩ := hxy
    have h1 := entryKey_le hxz'
    have h2 := entryKey_le hzy
    have hts' : x.tsNs = z.tsNs := by omega
    have hkind' : x.item.kindRank = z.item.kindRank := by omega
    refine ⟨by omega, by omega, fun he => hxz ⟨hts', hkind', fun he' => hsome (he'.trans he)⟩⟩

/-- Sorted, and without two entries that cannot be compared. -/
structure InOrder (l : List SeqEntry) : Prop where
  sorted : l.Pairwise fun a b => entryKey a ≤ entryKey b
  clear : l.Pairwise fun a b => ¬ Clash a b

def entryOf (event : MqttEvent) : SeqEntry := ⟨event.tsNs, .ofMessage event.messageValue⟩

theorem inOrder_nil : InOrder [] := ⟨.nil, .nil⟩

/-- What an accumulator holds of the events fed to it. -/
structure Sound (fed : List MqttEvent) (acc : BehaviorWindowAccumulator) : Prop where
  entries : acc.eventSeq.Perm ((fed.take tsListCap).map entryOf)
  inOrder : InOrder acc.eventSeq

theorem Sound.length {fed : List MqttEvent} {acc : BehaviorWindowAccumulator} (h : Sound fed acc) :
    acc.eventSeq.length = min tsListCap fed.length := by
  rw [h.entries.length_eq, List.length_map, List.length_take]

theorem Sound.mem {fed : List MqttEvent} {acc : BehaviorWindowAccumulator} (h : Sound fed acc) {y : SeqEntry} :
    y ∈ acc.eventSeq ↔ ∃ e ∈ fed.take tsListCap, entryOf e = y := by
  rw [h.entries.mem_iff, List.mem_map]

section Updates

variable (L : Library) (grid : WindowGrid) {acc : BehaviorWindowAccumulator}

/-- An accumulator after an event, but for the sequence of its values. -/
def Noted (acc : BehaviorWindowAccumulator) (event : MqttEvent) (acc' : BehaviorWindowAccumulator) : Prop :=
  acc' = { noteEvent L grid acc event with eventSeq := acc'.eventSeq, seqOverflow := acc'.seqOverflow }

/-- An event is taken unless its value cannot be compared with one that the sequence holds. -/
theorem update_cases {fed : List MqttEvent} (h : Sound fed acc) (event : MqttEvent) :
    (fed.length < tsListCap ∧ (∃ e ∈ fed, Clash (entryOf event) (entryOf e)) ∧ update L grid acc event = .error .typeError) ∨
      ((fed.length < tsListCap → ∀ e ∈ fed, ¬ Clash (entryOf event) (entryOf e)) ∧
        ∃ acc', update L grid acc event = .ok acc' ∧ Noted L grid acc event acc' ∧ Sound (fed ++ [event]) acc') := by
  unfold update
  by_cases hroom : fed.length < tsListCap
  · have htake : fed.take tsListCap = fed := List.take_of_length_le hroom.le
    rw [if_pos (by rw [h.length]; omega)]
    rcases insort_spec comparison h.inOrder.sorted h.inOrder.clear (entryOf event) with
      ⟨⟨y, hy, hclash⟩, hfail⟩ | ⟨hnone, l, hinsort, hperm, hsorted⟩
    · obtain ⟨e, he, rfl⟩ := h.mem.mp hy
      rw [htake] at he
      refine .inl ⟨hroom, ⟨e, he, hclash⟩, ?_⟩
      change (insort SeqEntry.lessThan acc.eventSeq (entryOf event) >>= _) = _
      rw [hfail]
      rfl
    · refine .inr ⟨fun _ e he => hnone _ (h.mem.mpr ⟨e, by rwa [htake], rfl⟩),
        { noteEvent L grid acc event with eventSeq := l }, ?_, rfl, ?_, hsorted, ?_⟩
      · change (insort SeqEntry.lessThan acc.eventSeq (entryOf event) >>= _) = _
        rw [hinsort]
        rfl
      · have htake' : (fed ++ [event]).take tsListCap = fed ++ [event] :=
          List.take_of_length_le (by rw [List.length_append]; exact hroom)
        have hentries := h.entries
        rw [htake] at hentries
        rw [htake', List.map_append]
        exact hperm.trans ((hentries.cons (entryOf event)).trans (List.perm_append_singleton _ _).symm)
      · refine (hperm.pairwise_iff fun hab hba => hab hba.symm).mpr (List.pairwise_cons.mpr ⟨?_, h.inOrder.clear⟩)
        exact fun y hy => hnone y hy
  · rw [if_neg (by rw [h.length]; omega)]
    refine .inr ⟨fun hlt => absurd hlt hroom, { noteEvent L grid acc event with seqOverflow := true }, rfl, rfl, ?_,
      h.inOrder⟩
    rw [List.take_append_of_le_length (by omega)]
    exact h.entries

end Updates

end EventSequences
