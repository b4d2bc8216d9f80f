import AgenticSoc.ExactlyOnce
import AgenticSoc.RowAgreement
import Mathlib.Data.List.Perm.Basic

/-!
# Network rows and the order of arrival

The packets of a cell are fed to its accumulator as they arrive. All of its features but
the time deltas forget the order; these are taken against the packet that came before.
-/
namespace NetworkArrival

open EventWindows LiveTables WatermarkedTables FeatureStatistics NetworkFeatures NetworkCounts Collecting

/-! ## Gaps between timestamps -/

/-- The seconds from each timestamp to the next. -/
def gaps : List Int → List ℚ
  | a :: b :: rest => ((b - a : Int) : ℚ) / 1000000000 :: gaps (b :: rest)
  | _ => []

theorem gaps_nonneg (times : List Int) : (∀ v ∈ gaps times, 0 ≤ v) ↔ times.Pairwise (· ≤ ·) := by
  rw [← List.isChain_iff_pairwise]
  induction times with
  | nil => simp [gaps]
  | cons a times ih =>
    cases times with
    | nil => simp [gaps]
    | cons b rest =>
      rw [gaps, List.forall_mem_cons, ih, List.isChain_cons_cons]
      have hgap : (0 : ℚ) ≤ ((b - a : Int) : ℚ) / 1000000000 ↔ a ≤ b := by
        rw [le_div_iff₀ (by norm_num), zero_mul, Int.cast_nonneg_iff]
        omega
      rw [hgap]

def NonNegative (least : Option ℚ) : Prop := ∀ v ∈ least, 0 ≤ v

theorem add_mn (s : OnlineStats) (v : ℚ) : NonNegative (s.add v).mn ↔ NonNegative s.mn ∧ 0 ≤ v := by
  simp only [NonNegative, OnlineStats.add, Option.mem_def]
  cases hmn : s.mn with
  | none => simp
  | some mn =>
    simp only [Option.some.injEq, forall_eq']
    split_ifs with hlt
    · simp only [Option.some.injEq, forall_eq']
      exact ⟨fun hv => ⟨hv.trans hlt.le, hv⟩, fun h => h.2⟩
    · simp only [Option.some.injEq, forall_eq']
      exact ⟨fun hmn => ⟨hmn, hmn.trans (not_lt.mp hlt)⟩, fun h => h.1⟩

theorem foldl_mn (values : List ℚ) (s : OnlineStats) :
    NonNegative (values.foldl OnlineStats.add s).mn ↔ NonNegative s.mn ∧ ∀ v ∈ values, 0 ≤ v := by
  induction values generalizing s with
  | nil => simp
  | cons v values ih =>
    rw [List.foldl_cons, ih, add_mn, List.forall_mem_cons, and_assoc]

theorem foldl_n (values : List ℚ) (s : OnlineStats) : (values.foldl OnlineStats.add s).n = s.n + values.length := by
  induction values generalizing s with
  | nil => rfl
  | cons v values ih =>
    rw [List.foldl_cons, ih, List.length_cons]
    simp only [OnlineStats.add]
    omega

/-- The minimum of a row is that of its values. -/
theorem asTuple_min (L : Library) (values : List ℚ) : NonNegative ((statsOf values).asTuple L).min ↔ ∀ v ∈ values, 0 ≤ v := by
  have hmn := foldl_mn values .empty
  rw [← statsOf] at hmn
  have hempty : NonNegative OnlineStats.empty.mn := fun v hv => nomatch hv
  unfold OnlineStats.asTuple
  by_cases hn : (statsOf values).n = 0
  · rw [if_pos hn]
    rw [statsOf, foldl_n] at hn
    have hnil : values = [] := List.length_eq_zero_iff.mp (by simpa [OnlineStats.empty] using hn)
    subst hnil
    simp [NonNegative]
  · rw [if_neg hn]
    simpa [hempty] using hmn

/-! ## The packets of a cell -/

variable (L : Library) (S : NetworkSetup)

/-- What is fed to a cell. -/
def fedTo (k : Int × String) (packets : List Packet) : List (Participant × Packet) :=
  feedsAt k (feedsOf (windowOf S) (S.feeds L) packets)

/-- Packets of one window with a device in common. -/
def ShareCell (p q : Packet) : Prop := windowOf S p = windowOf S q ∧ ∃ device ∈ devicesOf L S p, device ∈ devicesOf L S q

instance (p q : Packet) : Decidable (ShareCell L S p q) := inferInstanceAs (Decidable (_ ∧ _))

/-- Packets that share a cell arrive in the order of their timestamps. -/
def InTimeOrder (packets : List Packet) : Prop := packets.Pairwise fun p q => ShareCell L S p q → p.tsNs ≤ q.tsNs

instance (packets : List Packet) : Decidable (InTimeOrder L S packets) := inferInstanceAs (Decidable (List.Pairwise _ _))

theorem mem_fedTo {k : Int × String} {packets : List Packet} {f : Participant × Packet} :
    f ∈ fedTo L S k packets ↔ f.2 ∈ packets ∧ windowOf S f.2 = k.1 ∧ (k.2, f) ∈ S.feeds L f.2 := by
  have hpacket : ∀ packet g, g ∈ S.feeds L packet → g.2.2 = packet := by
    intro packet g hg
    obtain ⟨p, -, rfl⟩ := List.mem_map.mp hg
    rfl
  simp only [fedTo, feedsAt, List.mem_map, List.mem_filter, mem_feedsOf, decide_eq_true_eq]
  constructor
  · rintro ⟨_, ⟨⟨packet, hmem, g, hg, rfl⟩, rfl⟩, rfl⟩
    obtain rfl := hpacket packet g hg
    exact ⟨hmem, rfl, hg⟩
  · rintro ⟨hmem, hw, hg⟩
    exact ⟨_, ⟨⟨f.2, hmem, _, hg, rfl⟩, Prod.ext hw rfl⟩, rfl⟩

theorem fedTo_snd (k : Int × String) (packets : List Packet) :
    (fedTo L S k packets).map Prod.snd = packets.filter fun p => windowOf S p = k.1 ∧ k.2 ∈ devicesOf L S p := by
  induction packets with
  | nil => rfl
  | cons packet packets ih =>
    have hone : (fedTo L S k [packet]).map Prod.snd = [packet].filter fun p => windowOf S p = k.1 ∧ k.2 ∈ devicesOf L S p := by
      have hlen : (fedTo L S k [packet]).length = _ := feedsAt_length (devicesOf_nodup L S) [packet] k
      rw [List.countP_eq_length_filter] at hlen
      refine List.ext_getElem ?_ fun i hi hi' => ?_
      · rw [List.length_map]
        exact hlen
      · have hf := List.mem_map.mp (List.getElem_mem hi)
        obtain ⟨f, hf, he⟩ := hf
        rw [mem_fedTo] at hf
        rw [← he, List.mem_singleton.mp hf.1, List.mem_singleton.mp (List.mem_of_mem_filter (List.getElem_mem hi'))]
    rw [← List.singleton_append, List.filter_append, ← hone, ← ih, ← List.map_append, fedTo, feedsOf_append, feedsAt_append]
    rfl

theorem inTimeOrder_iff (packets : List Packet) :
    InTimeOrder L S packets ↔ ∀ k, ((fedTo L S k packets).map fun f => f.2.tsNs).Pairwise (· ≤ ·) := by
  have hcell : ∀ k, ((fedTo L S k packets).map fun f => f.2.tsNs).Pairwise (· ≤ ·) ↔
      packets.Pairwise fun p q => (windowOf S p = k.1 ∧ k.2 ∈ devicesOf L S p) → (windowOf S q = k.1 ∧ k.2 ∈ devicesOf L S q) →
        p.tsNs ≤ q.tsNs := by
    intro k
    have hmap : ((fedTo L S k packets).map fun f => f.2.tsNs) = ((fedTo L S k packets).map Prod.snd).map Packet.tsNs := by
      rw [List.map_map]
      rfl
    rw [hmap, fedTo_snd, List.pairwise_map, List.pairwise_filter]
    simp only [decide_eq_true_eq]
  simp only [hcell, InTimeOrder, List.pairwise_iff_forall_sublist]
  constructor
  · intro h k p q hsub hp hq
    exact h hsub ⟨hp.1.trans hq.1.symm, k.2, hp.2, hq.2⟩
  · rintro h p q hsub ⟨hw, device, hp, hq⟩
    exact h (windowOf S q, device) hsub ⟨hw, hp⟩ ⟨rfl, hq⟩

/-- The time deltas of a cell are the gaps between its packets as they arrived. -/
theorem timeDeltas_fold (fed : List (Participant × Packet)) {acc : DeviceWindowAccumulator} {last : Int}
    (hlast : acc.lastTsNs = some last) :
    (fed.foldl S.count acc).timeDeltas = (gaps (last :: fed.map fun f => f.2.tsNs)).foldl OnlineStats.add acc.timeDeltas := by
  induction fed generalizing acc last with
  | nil => rfl
  | cons f fed ih =>
    have hdelta : (S.count acc f).timeDeltas = acc.timeDeltas.add (((f.2.tsNs - last : Int) : ℚ) / 1000000000) := by
      simp only [NetworkSetup.count, update, hlast]
      rfl
    rw [List.foldl_cons, @ih (S.count acc f) f.2.tsNs rfl, hdelta]
    rfl

theorem timeDeltas_filled {k : Int × String} {f : Participant × Packet} {fs : List (Participant × Packet)} :
    ((f :: fs).foldl S.count (newAccumulator k f)).timeDeltas = statsOf (gaps ((f :: fs).map fun f => f.2.tsNs)) :=
  @timeDeltas_fold S fs (S.count (newAccumulator k f) f) _ rfl

/-! ## Rows of a run -/

/-- The least time delta of a row, if it has any, is not negative. -/
def NeverBack (row : NetworkRow) : Prop := ∀ features ∈ row.features, NonNegative features.timeDelta.min

theorem finalize_neverBack {k : Int × String} {f : Participant × Packet} {fs : List (Participant × Packet)} :
    NeverBack (S.finalize L ((f :: fs).foldl S.count (newAccumulator k f))) ↔
      ((f :: fs).map fun f => f.2.tsNs).Pairwise (· ≤ ·) := by
  rw [← gaps_nonneg, ← asTuple_min L, ← timeDeltas_filled S (k := k)]
  simp [NeverBack, NetworkSetup.finalize]

variable {L S}

/-- The rows of a run are made of the cells that its packets were fed to. -/
theorem rows_of_packets {lateness : Nat} {packets : List Packet} {rows : List NetworkRow}
    (h : networkRows L S lateness packets = .ok rows) :
    ∃ cells : List ((Int × String) × DeviceWindowAccumulator), (cells.map Prod.fst).Nodup ∧
      (∀ k a, (k, a) ∈ cells ↔ filled newAccumulator S.count k (fedTo L S k packets) = some a) ∧
      rows = cells.map fun cell => S.finalize L cell.2 := by
  unfold networkRows at h
  cases hrun : collect (NetworkWindowManager.add L) (.new S lateness) packets with
  | error err =>
    rw [hrun] at h
    cases h
  | ok r =>
    obtain ⟨first, m⟩ := r
    rw [hrun] at h
    cases h
    obtain ⟨cells, hnodup, hcells, hrel⟩ := (managed L S).rows_of_run ⟨rfl, counting_new _ _⟩ hrun
    refine ⟨cells, hnodup, fun k a => ?_, ?_⟩
    · rw [hcells, bookOf_apply]
      rfl
    · have hmade := map_related (R := RowOf L S) (f := id) (g := fun cell => S.finalize L cell.2) (fun row cell h => h.1) hrel
      rwa [List.map_id] at hmade

/-- The rows never go back in time exactly when the packets of each cell arrived in order. -/
theorem neverBack_iff {lateness : Nat} {packets : List Packet} {rows : List NetworkRow}
    (h : networkRows L S lateness packets = .ok rows) : (∀ row ∈ rows, NeverBack row) ↔ InTimeOrder L S packets := by
  obtain ⟨cells, -, hcells, rfl⟩ := rows_of_packets h
  rw [inTimeOrder_iff, List.forall_mem_map]
  constructor
  · intro hback k
    cases hfed : fedTo L S k packets with
    | nil => exact .nil
    | cons f fs =>
      rw [← finalize_neverBack (k := k) L S]
      exact hback (k, _) ((hcells k _).mpr (by rw [hfed]; rfl))
  · rintro horder ⟨k, a⟩ hc
    have ha := (hcells k a).mp hc
    cases hfed : fedTo L S k packets with
    | nil =>
      rw [hfed] at ha
      cases ha
    | cons f fs =>
      rw [hfed] at ha
      obtain rfl := Option.some.inj ha
      rw [finalize_neverBack, ← hfed]
      exact horder k

/-- Packets with different timestamps that arrive in order are fed to each cell in one order only. -/
theorem fedTo_eq {xs ys : List Packet} (hp : xs.Perm ys) (hdistinct : (xs.map Packet.tsNs).Nodup)
    (hx : InTimeOrder L S xs) (hy : InTimeOrder L S ys) (k : Int × String) : fedTo L S k xs = fedTo L S k ys := by
  have hperm : (fedTo L S k xs).Perm (fedTo L S k ys) := ((hp.flatMap_right _).filter _).map _
  have hxk := (inTimeOrder_iff L S xs).mp hx k
  have hyk := (inTimeOrder_iff L S ys).mp hy k
  rw [List.pairwise_map] at hxk hyk
  refine hperm.eq_of_pairwise (fun f g hf hg hfg hgf => ?_) hxk hyk
  rw [mem_fedTo] at hf hg
  have hpacket : f.2 = g.2 :=
    List.inj_on_of_nodup_map hdistinct hf.1 (hp.mem_iff.mpr hg.1) (le_antisymm hfg hgf)
  have hfeed := hg.2.2
  rw [← hpacket] at hfeed
  have hsame := List.inj_on_of_nodup_map (devicesOf_nodup L S f.2) hf.2.2 hfeed rfl
  exact (Prod.mk.inj hsame).2

theorem rows_perm {lateness : Nat} {xs ys : List Packet} (hp : xs.Perm ys) (hdistinct : (xs.map Packet.tsNs).Nodup)
    {rows rows' : List NetworkRow} (hx : networkRows L S lateness xs = .ok rows) (hy : networkRows L S lateness ys = .ok rows')
    (horder : InTimeOrder L S xs) (horder' : InTimeOrder L S ys) : rows.Perm rows' := by
  obtain ⟨cells, hnodup, hcells, rfl⟩ := rows_of_packets hx
  obtain ⟨cells', hnodup', hcells', rfl⟩ := rows_of_packets hy
  refine List.Perm.map _ ((List.perm_ext_iff_of_nodup (.of_map _ hnodup) (.of_map _ hnodup')).mpr ?_)
  rintro ⟨k, a⟩
  rw [hcells, hcells', fedTo_eq hp hdistinct horder horder']

/-- Two arrival orders give the same rows, with no negative time delta, if and only if the
packets of each cell arrive in the order of their timestamps both times. -/
theorem rows_independent_iff {lateness : Nat} {xs ys : List Packet} (hp : xs.Perm ys) (hdistinct : (xs.map Packet.tsNs).Nodup)
    {rows rows' : List NetworkRow} (hx : networkRows L S lateness xs = .ok rows) (hy : networkRows L S lateness ys = .ok rows') :
    (rows.Perm rows' ∧ ∀ row ∈ rows ++ rows', NeverBack row) ↔ InTimeOrder L S xs ∧ InTimeOrder L S ys := by
  rw [List.forall_mem_append, neverBack_iff hx, neverBack_iff hy]
  constructor
  · rintro ⟨-, horder⟩
    exact horder
  · rintro ⟨horder, horder'⟩
    exact ⟨rows_perm hp hdistinct hx hy horder horder', horder, horder'⟩

/-! ## A sensor that sends twice -/

def networkSetup : NetworkSetup := ⟨ExactlyOnce.fiveSeconds, "s", [ExactlyOnce.rfidSensor], [], 0⟩

/-- A frame of the sensor to an unknown host. -/
def sensorPacket (tsNs : Int) : Packet :=
  ⟨tsNs, ⟨"aa:bb", "cc:dd", 14, .other, none, none, none, none, none, false, 0, none, none, none, none, none, none, none⟩, 60, 60⟩

theorem networkRows_ok (L : Library) (S : NetworkSetup) (lateness : Nat) (packets : List Packet)
    (h : (networkRows L S lateness packets).toOption.isSome) : ∃ rows, networkRows L S lateness packets = .ok rows := by
  cases hrows : networkRows L S lateness packets with
  | error err =>
    rw [hrows] at h
    cases h
  | ok rows => exact ⟨rows, rfl⟩

/-- Two packets of different windows may arrive in either order. -/
theorem rows_independent_windows : ∃ rows rows',
    networkRows ExactlyOnce.plainLibrary networkSetup 60000000000 [sensorPacket 0, sensorPacket 6000000000] = .ok rows ∧
      networkRows ExactlyOnce.plainLibrary networkSetup 60000000000 [sensorPacket 6000000000, sensorPacket 0] = .ok rows' ∧
      rows.Perm rows' ∧ ∀ row ∈ rows ++ rows', NeverBack row := by
  obtain ⟨rows, hx⟩ := networkRows_ok ExactlyOnce.plainLibrary networkSetup 60000000000
    [sensorPacket 0, sensorPacket 6000000000] (by decide +kernel)
  obtain ⟨rows', hy⟩ := networkRows_ok ExactlyOnce.plainLibrary networkSetup 60000000000
    [sensorPacket 6000000000, sensorPacket 0] (by decide +kernel)
  exact ⟨rows, rows', hx, hy, (rows_independent_iff (.swap _ _ _) (by decide) hx hy).mpr ⟨by decide +kernel, by decide +kernel⟩⟩

/-- Two packets of one window, the later one first: the rows differ and a time delta is negative. -/
theorem later_packet_first : ∃ rows rows',
    networkRows ExactlyOnce.plainLibrary networkSetup 60000000000 [sensorPacket 0, sensorPacket 1000000000] = .ok rows ∧
      networkRows ExactlyOnce.plainLibrary networkSetup 60000000000 [sensorPacket 1000000000, sensorPacket 0] = .ok rows' ∧
      ¬ rows.Perm rows' ∧ ∃ row ∈ rows', ¬ NeverBack row := by
  obtain ⟨rows, hx⟩ := networkRows_ok ExactlyOnce.plainLibrary networkSetup 60000000000
    [sensorPacket 0, sensorPacket 1000000000] (by decide +kernel)
  obtain ⟨rows', hy⟩ := networkRows_ok ExactlyOnce.plainLibrary networkSetup 60000000000
    [sensorPacket 1000000000, sensorPacket 0] (by decide +kernel)
  have hforward : ∀ row ∈ rows, NeverBack row := (neverBack_iff hx).mpr (by decide +kernel)
  have hback : ¬ ∀ row ∈ rows', NeverBack row := fun h => absurd ((neverBack_iff hy).mp h) (by decide +kernel)
  refine ⟨rows, rows', hx, hy, fun hp => hback fun row hrow => hforward row (hp.mem_iff.mpr hrow), ?_⟩
  by_contra hnone
  exact hback fun row hrow => by_contra fun hnot => hnone ⟨row, hrow, hnot⟩

end NetworkArrival
