import AgenticSoc.EventWindows
import AgenticSoc.Grouping
import AgenticSoc.Sorting
import Mathlib.Data.List.AList
import Mathlib.Data.String.Basic
import Mathlib.Tactic.Linarith

/-!
# Splits of sessions

Attack sessions are assigned to the training, validation and test sets category by
category, by their positions in a shuffled list. Benign sessions are not assigned.
-/
namespace SessionSplits

open EventWindows Grouping Sorting

structure SessionRecord where
  scenarioId : String
  isAttack : Bool
  attackCategory : Option String
  deriving DecidableEq

def SessionRecord.category (rec : SessionRecord) : String :=
  match rec.attackCategory with
  | none => "unknown"
  | some category => if category = "" then "unknown" else category

inductive Split where
  | train | validation | test
  deriving DecidableEq, Repr

structure Ratios where
  train : ℚ
  validation : ℚ
  test : ℚ

def defaultRatios : Ratios := ⟨3 / 5, 1 / 5, 1 / 5⟩

/-- A random generator that shuffles lists. -/
structure Random where
  State : Type
  seeded : Int → State
  shuffle : State → List SessionRecord → List SessionRecord × State
  perm : ∀ s l, (shuffle s l).1.Perm l

section Counts

variable (ratios : Ratios)

/-- The sizes of the training and the validation part of a group, from the rounded shares. -/
def clampParts (n : Nat) (trainShare valShare : Int) : Int × Int :=
  let nTrain := if 1 < n then max 1 trainShare else 1
  let remaining := n - nTrain
  let nVal := if 0 < remaining then min remaining (max 1 valShare) else 0
  let nTest := if 0 < remaining then remaining - nVal else 0
  -- only the size of the validation part is read further on
  let nVal := if 3 ≤ n ∧ nTest = 0 then (if 1 < nVal then nVal - 1 else 0) else nVal
  (nTrain, nVal)

def partSizes (n : Nat) : Int × Int := clampParts n (pyRound (n * ratios.train)) (pyRound (n * ratios.validation))

def splitOf (n i : Nat) : Split :=
  let (nTrain, nVal) := partSizes ratios n
  if i < nTrain then .train else if i < nTrain + nVal then .validation else .test

abbrev Assignment := AList fun _ : String => Split

def assignGroup (group : List SessionRecord) (assignment : Assignment) : Assignment :=
  group.zipIdx.foldl (fun a r => a.insert r.1.scenarioId (splitOf ratios group.length r.2)) assignment

variable (rng : Random)

/-- The groups in turn, each shuffled. -/
def assignGroups : List (String × List SessionRecord) → rng.State → Assignment → Assignment
  | [], _, assignment => assignment
  | g :: groups, s, assignment =>
    let (group, s) := rng.shuffle s (sortBy SessionRecord.scenarioId g.2)
    assignGroups groups s (assignGroup ratios group assignment)

structure Splits where
  attacks : Assignment
  benignSessions : List String

def assignSessionSplits (catalogRecords : List SessionRecord) (seed : Int) : Splits :=
  let attacks := catalogRecords.filter SessionRecord.isAttack
  let benign := (catalogRecords.filter fun r => !r.isAttack).map SessionRecord.scenarioId
  let byCategory := groupOn SessionRecord.category (sortBy SessionRecord.scenarioId attacks)
  ⟨assignGroups ratios rng (sortBy Prod.fst byCategory) (rng.seeded seed) ∅, benign⟩

end Counts

/-! ## The sizes of the parts -/

theorem pyRound_bounds (q : ℚ) : q - 1 / 2 ≤ pyRound q ∧ (pyRound q : ℚ) ≤ q + 1 / 2 := by
  have hle := Int.floor_le q
  have hlt := Int.lt_floor_add_one q
  unfold pyRound
  simp only []
  split_ifs <;> push_cast <;> constructor <;> linarith

theorem clampParts_bounds (n : Nat) (t v : Int) : 1 ≤ (clampParts n t v).1 ∧ 0 ≤ (clampParts n t v).2 ∧
    (3 ≤ n → t < n → (clampParts n t v).1 + (clampParts n t v).2 < n) := by
  simp only [clampParts]
  refine ⟨?_, ?_, fun hn ht => ?_⟩
  · split <;> omega
  · split_ifs <;> omega
  · split_ifs <;> omega

/-- The share of the training part leaves something of three sessions. -/
theorem trainShare_lt {n : Nat} (hn : 3 ≤ n) : pyRound (n * defaultRatios.train) < n := by
  have hbound := (pyRound_bounds ((n : ℚ) * defaultRatios.train)).2
  rw [show defaultRatios.train = 3 / 5 from rfl] at hbound ⊢
  have hcast : (3 : ℚ) ≤ n := by exact_mod_cast hn
  have hlt : (pyRound ((n : ℚ) * (3 / 5)) : ℚ) < (n : Int) := by
    push_cast
    linarith
  exact_mod_cast hlt

theorem partSizes_bounds (n : Nat) : 1 ≤ (partSizes defaultRatios n).1 ∧ 0 ≤ (partSizes defaultRatios n).2 ∧
    (3 ≤ n → (partSizes defaultRatios n).1 + (partSizes defaultRatios n).2 < n) := by
  obtain ⟨htrain, hval, hall⟩ := clampParts_bounds n (pyRound (n * defaultRatios.train)) (pyRound (n * defaultRatios.validation))
  exact ⟨htrain, hval, fun hn => hall hn (trainShare_lt hn)⟩

theorem splitOf_first (n : Nat) : splitOf defaultRatios n 0 = .train := by
  obtain ⟨htrain, -⟩ := partSizes_bounds n
  simp only [splitOf]
  rw [if_pos (by omega)]

theorem splitOf_last {n : Nat} (hn : 3 ≤ n) : splitOf defaultRatios n (n - 1) = .test := by
  obtain ⟨-, hval, hall⟩ := partSizes_bounds n
  have hlt := hall hn
  simp only [splitOf]
  rw [if_neg (by omega), if_neg (by omega)]

/-! ## One group after the other -/

section Groups

variable (ratios : Ratios)

theorem lookup_unassigned {n : Nat} {rows : List (SessionRecord × Nat)} {id : String}
    (h : ∀ r ∈ rows, r.1.scenarioId ≠ id) (assignment : Assignment) :
    (rows.foldl (fun a r => a.insert r.1.scenarioId (splitOf ratios n r.2)) assignment).lookup id = assignment.lookup id := by
  induction rows generalizing assignment with
  | nil => rfl
  | cons r rows ih =>
    obtain ⟨hr, hrows⟩ := List.forall_mem_cons.mp h
    rw [List.foldl_cons, ih hrows, AList.lookup_insert_ne (Ne.symm hr)]

theorem lookup_assigned {n : Nat} {rows : List (SessionRecord × Nat)} (hdistinct : (rows.map fun r => r.1.scenarioId).Nodup)
    {r : SessionRecord × Nat} (hr : r ∈ rows) (assignment : Assignment) :
    (rows.foldl (fun a r => a.insert r.1.scenarioId (splitOf ratios n r.2)) assignment).lookup r.1.scenarioId =
      some (splitOf ratios n r.2) := by
  induction rows generalizing assignment with
  | nil => cases hr
  | cons r' rows ih =>
    obtain ⟨hnot, hrows⟩ := List.nodup_cons.mp hdistinct
    rw [List.foldl_cons]
    rcases List.mem_cons.mp hr with rfl | hr
    · have hother : ∀ r' ∈ rows, r'.1.scenarioId ≠ r.1.scenarioId :=
        fun r' hr' he => hnot (List.mem_map.mpr ⟨r', hr', he⟩)
      rw [lookup_unassigned ratios hother, AList.lookup_insert]
    · exact ih hrows hr _

/-- A group is assigned by position. -/
theorem lookup_assignGroup {group : List SessionRecord} (hdistinct : (group.map SessionRecord.scenarioId).Nodup)
    (assignment : Assignment) {i : Nat} (hi : i < group.length) :
    (assignGroup ratios group assignment).lookup group[i].scenarioId = some (splitOf ratios group.length i) := by
  have hids : (group.zipIdx.map fun r => r.1.scenarioId) = group.map SessionRecord.scenarioId := by
    conv_rhs => rw [← List.zipIdx_map_fst 0 group, List.map_map]
    rfl
  have hmem : (group[i], i) ∈ group.zipIdx := by
    rw [List.mem_zipIdx_iff_getElem?]
    exact List.getElem?_eq_getElem hi
  exact lookup_assigned ratios (hids ▸ hdistinct) hmem assignment

theorem lookup_assignGroup_other {group : List SessionRecord} {id : String} (h : id ∉ group.map SessionRecord.scenarioId)
    (assignment : Assignment) : (assignGroup ratios group assignment).lookup id = assignment.lookup id := by
  refine lookup_unassigned ratios (fun r hr he => h ?_) assignment
  exact List.mem_map.mpr ⟨r.1, List.fst_mem_of_mem_zipIdx hr, he⟩

variable (rng : Random)

/-- The records of a group in a shuffled order, assigned by position. -/
def Placed (group : List SessionRecord) (assignment : Assignment) : Prop :=
  ∃ l : List SessionRecord, l.Perm group ∧ ∀ i (hi : i < l.length), assignment.lookup l[i].scenarioId = some (splitOf ratios l.length i)

def idsOf (groups : List (String × List SessionRecord)) : List String :=
  groups.flatMap fun g => g.2.map SessionRecord.scenarioId

/-- Groups without a common session are all placed, and no other session is assigned. -/
theorem assignGroups_spec {groups : List (String × List SessionRecord)} (hdistinct : (idsOf groups).Nodup) (s : rng.State)
    (assignment : Assignment) :
    (∀ g ∈ groups, Placed ratios g.2 (assignGroups ratios rng groups s assignment)) ∧
      ∀ id, id ∉ idsOf groups → (assignGroups ratios rng groups s assignment).lookup id = assignment.lookup id := by
  induction groups generalizing s assignment with
  | nil => exact ⟨fun g hg => (nomatch hg), fun id _ => rfl⟩
  | cons g groups ih =>
    rw [idsOf, List.flatMap_cons] at hdistinct
    obtain ⟨hhead, htail, hapart⟩ := List.nodup_append.mp hdistinct
    have hperm := (rng.perm s (sortBy SessionRecord.scenarioId g.2)).trans (sortBy_perm SessionRecord.scenarioId g.2)
    generalize hshuffled : rng.shuffle s (sortBy SessionRecord.scenarioId g.2) = shuffled at hperm
    obtain ⟨hplaced, hother⟩ := ih htail shuffled.2 (assignGroup ratios shuffled.1 assignment)
    have hstep : assignGroups ratios rng (g :: groups) s assignment =
        assignGroups ratios rng groups shuffled.2 (assignGroup ratios shuffled.1 assignment) := by
      rw [assignGroups, hshuffled]
    have hids := hperm.map SessionRecord.scenarioId
    rw [hstep]
    refine ⟨List.forall_mem_cons.mpr ⟨⟨shuffled.1, hperm, fun i hi => ?_⟩, hplaced⟩, fun id hid => ?_⟩
    · rw [hother, lookup_assignGroup ratios (hids.nodup_iff.mpr hhead) assignment hi]
      intro hlater
      exact hapart _ (hids.mem_iff.mp (List.mem_map_of_mem (List.getElem_mem hi))) _ hlater rfl
    · obtain ⟨hnot, hnot'⟩ := not_or.mp fun h => hid (List.mem_append.mpr h)
      rw [hother id hnot', lookup_assignGroup_other ratios fun h => hnot (hids.mem_iff.mp h)]

end Groups

/-! ## The splits of a catalog -/

/-- The attack sessions of a category. -/
def inCategory (catalogRecords : List SessionRecord) (category : String) : List SessionRecord :=
  catalogRecords.filter fun r => r.isAttack ∧ r.category = category

/-- Attack sessions and no others have a split, every category has a training session, and a
category of three sessions has a test session. -/
structure Stratified (catalogRecords : List SessionRecord) (attacks : Assignment) : Prop where
  assigned : ∀ id, id ∈ attacks ↔ ∃ r ∈ catalogRecords, r.isAttack = true ∧ r.scenarioId = id
  train : ∀ category, inCategory catalogRecords category ≠ [] →
    ∃ r ∈ inCategory catalogRecords category, attacks.lookup r.scenarioId = some .train
  test : ∀ category, 3 ≤ (inCategory catalogRecords category).length →
    ∃ r ∈ inCategory catalogRecords category, attacks.lookup r.scenarioId = some .test

/-- The groups of a catalog in the order in which they are assigned. -/
def groupsOf (catalogRecords : List SessionRecord) : List (String × List SessionRecord) :=
  sortBy Prod.fst (groupOn SessionRecord.category (sortBy SessionRecord.scenarioId (catalogRecords.filter SessionRecord.isAttack)))

theorem mem_groupsOf {catalogRecords : List SessionRecord} {g : String × List SessionRecord} (hg : g ∈ groupsOf catalogRecords) :
    g.2.Perm (inCategory catalogRecords g.1) := by
  have hcovers := covers_groupOn SessionRecord.category
    (sortBy SessionRecord.scenarioId (catalogRecords.filter SessionRecord.isAttack))
  have hperm := sortBy_perm SessionRecord.scenarioId (catalogRecords.filter SessionRecord.isAttack)
  rw [hcovers.members g ((mem_sortBy).mp hg)]
  refine (hperm.filter _).trans (.of_eq ?_)
  rw [inCategory, List.filter_filter]
  refine List.filter_congr fun r _ => ?_
  rw [Bool.and_comm]
  simp

theorem groupsOf_category {catalogRecords : List SessionRecord} {r : SessionRecord} (hr : r ∈ catalogRecords)
    (hattack : r.isAttack = true) : ∃ g ∈ groupsOf catalogRecords, g.1 = r.category := by
  have hcovers := covers_groupOn SessionRecord.category
    (sortBy SessionRecord.scenarioId (catalogRecords.filter SessionRecord.isAttack))
  obtain ⟨g, hg, hk⟩ := hcovers.keyed r ((mem_sortBy).mpr (List.mem_filter.mpr ⟨hr, hattack⟩))
  exact ⟨g, (mem_sortBy).mpr hg, hk⟩

theorem groupsOf_keys_nodup (catalogRecords : List SessionRecord) : ((groupsOf catalogRecords).map Prod.fst).Nodup :=
  sortBy_nodup (groupOn_keys_nodup _ _)

/-- No session is in two groups. -/
theorem idsOf_nodup {catalogRecords : List SessionRecord} (hdistinct : (catalogRecords.map SessionRecord.scenarioId).Nodup) :
    (idsOf (groupsOf catalogRecords)).Nodup := by
  rw [idsOf, List.nodup_flatMap]
  refine ⟨fun g hg => ?_, (List.pairwise_map.mp (groupsOf_keys_nodup catalogRecords)).imp_of_mem fun hg hg' hne id hid hid' => ?_⟩
  · have hperm := (mem_groupsOf hg).map SessionRecord.scenarioId
    exact hperm.nodup_iff.mpr (hdistinct.sublist (List.filter_sublist.map _))
  · obtain ⟨r, hr, rfl⟩ := List.mem_map.mp hid
    obtain ⟨r', hr', he⟩ := List.mem_map.mp hid'
    have hmem := List.mem_filter.mp ((mem_groupsOf hg).mem_iff.mp hr)
    have hmem' := List.mem_filter.mp ((mem_groupsOf hg').mem_iff.mp hr')
    obtain rfl := List.inj_on_of_nodup_map hdistinct hmem'.1 hmem.1 he
    have hcategory := of_decide_eq_true hmem.2
    have hcategory' := of_decide_eq_true hmem'.2
    exact hne (hcategory.2.symm.trans hcategory'.2)

theorem mem_idsOf {catalogRecords : List SessionRecord} {id : String} :
    id ∈ idsOf (groupsOf catalogRecords) ↔ ∃ r ∈ catalogRecords, r.isAttack = true ∧ r.scenarioId = id := by
  simp only [idsOf, List.mem_flatMap, List.mem_map]
  constructor
  · rintro ⟨g, hg, r, hr, rfl⟩
    have hmem := List.mem_filter.mp ((mem_groupsOf hg).mem_iff.mp hr)
    exact ⟨r, hmem.1, (of_decide_eq_true hmem.2).1, rfl⟩
  · rintro ⟨r, hr, hattack, rfl⟩
    obtain ⟨g, hg, hk⟩ := groupsOf_category hr hattack
    exact ⟨g, hg, r, (mem_groupsOf hg).mem_iff.mpr (List.mem_filter.mpr ⟨hr, decide_eq_true ⟨hattack, hk.symm⟩⟩), rfl⟩

/-- A position of a placed group gives a session of its category with that split. -/
theorem Placed.session {catalogRecords : List SessionRecord} {g : String × List SessionRecord} (hg : g ∈ groupsOf catalogRecords)
    {assignment : Assignment} (h : Placed defaultRatios g.2 assignment) {i : Nat}
    (hi : i < (inCategory catalogRecords g.1).length) :
    ∃ r ∈ inCategory catalogRecords g.1,
      assignment.lookup r.scenarioId = some (splitOf defaultRatios (inCategory catalogRecords g.1).length i) := by
  obtain ⟨l, hperm, hplaced⟩ := h
  have hall := hperm.trans (mem_groupsOf hg)
  have hlen := hall.length_eq
  refine ⟨l[i], hall.mem_iff.mp (List.getElem_mem (hlen ▸ hi)), ?_⟩
  rw [← hlen]
  exact hplaced i (hlen ▸ hi)

/-- With distinct scenario ids and any shuffle, the splits are a stratified partition of the
attack sessions. -/
theorem splits_stratified (rng : Random) (seed : Int) {catalogRecords : List SessionRecord}
    (hdistinct : (catalogRecords.map SessionRecord.scenarioId).Nodup) :
    Stratified catalogRecords (assignSessionSplits defaultRatios rng catalogRecords seed).attacks := by
  have hattacks : (assignSessionSplits defaultRatios rng catalogRecords seed).attacks =
      assignGroups defaultRatios rng (groupsOf catalogRecords) (rng.seeded seed) ∅ := rfl
  obtain ⟨hplaced, hother⟩ := assignGroups_spec defaultRatios rng (idsOf_nodup hdistinct) (rng.seeded seed) ∅
  rw [← hattacks] at hplaced hother
  have hgroup : ∀ category, inCategory catalogRecords category ≠ [] → ∃ g ∈ groupsOf catalogRecords, g.1 = category := by
    intro category hne
    obtain ⟨r, hr⟩ := List.exists_mem_of_ne_nil _ hne
    obtain ⟨hmem, hcategory⟩ := List.mem_filter.mp hr
    obtain ⟨hattack, rfl⟩ := of_decide_eq_true hcategory
    exact groupsOf_category hmem hattack
  refine ⟨fun id => ?_, fun category hne => ?_, fun category hthree => ?_⟩
  · rw [← mem_idsOf]
    constructor
    · intro hid
      by_contra hnot
      have hnone := hother id hnot
      rw [AList.lookup_empty, AList.lookup_eq_none] at hnone
      exact hnone hid
    · intro hid
      obtain ⟨g, hg, hid⟩ := List.mem_flatMap.mp hid
      obtain ⟨r, hr, rfl⟩ := List.mem_map.mp hid
      obtain ⟨l, hperm, hpos⟩ := hplaced g hg
      obtain ⟨i, hi, rfl⟩ := List.getElem_of_mem (hperm.mem_iff.mpr hr)
      exact AList.lookup_isSome.mp (by rw [hpos i hi]; rfl)
  · obtain ⟨g, hg, rfl⟩ := hgroup category hne
    obtain ⟨r, hr, hsplit⟩ := (hplaced g hg).session hg (List.length_pos_iff.mpr hne)
    exact ⟨r, hr, hsplit.trans (congrArg some (splitOf_first _))⟩
  · obtain ⟨g, hg, rfl⟩ := hgroup category (List.length_pos_iff.mp (by omega))
    obtain ⟨r, hr, hsplit⟩ := (hplaced g hg).session hg (Nat.sub_one_lt (by omega))
    exact ⟨r, hr, hsplit.trans (congrArg some (splitOf_last hthree))⟩

/-- A generator that leaves lists as they are. -/
def unshuffled : Random := ⟨Unit, fun _ => (), fun s l => (l, s), fun _ _ => .refl _⟩

def smallCatalog : List SessionRecord :=
  [⟨"c", true, some "recon"⟩, ⟨"benign", false, none⟩, ⟨"a", true, some "recon"⟩, ⟨"b", true, some "recon"⟩, ⟨"d", true, none⟩]

theorem splits_stratified_small :
    Stratified smallCatalog (assignSessionSplits defaultRatios unshuffled smallCatalog 42).attacks ∧
      (assignSessionSplits defaultRatios unshuffled smallCatalog 42).attacks.lookup "c" = some .test :=
  ⟨splits_stratified unshuffled 42 (by decide), by decide +kernel⟩

end SessionSplits
