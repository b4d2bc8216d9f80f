import AgenticSoc.FeatureRoundTrip
import Mathlib.Data.List.Induction
import Mathlib.Algebra.Order.Ring.Rat
import Mathlib.Algebra.Order.Group.Unbundled.Abs

/-!
# Sessions that are cut off

An extraction changes the disk file by file: it may clean up, it saves that it is in
progress, puts its directories in place and saves how it ended. A crash may come between
any two changes, and the next session finds what is there.
-/
namespace StoreRecovery

open FeatureStore JsonText

variable {F V : Type}

inductive Status where
  | inProgress
  | failed
  | completed
  deriving DecidableEq, Repr

structure SavedState (V : Type) where
  status : Status
  versions : V
  windowSeconds : ℚ
  clockAlignmentToleranceNs : Int
  maxEventLatenessNs : Int
  recordCounts : Option (Modality → Nat)

structure Disk (V : Type) where
  states : String → Option (SavedState V)
  store : Store

def Disk.empty : Disk V := ⟨fun _ => none, fun _ _ => none⟩

structure Engine (V : Type) where
  requiredVersions : V
  windowSeconds : ℚ
  clockToleranceNs : Int
  maxEventLatenessNs : Int
  forceRegenerate : Bool
  outputBufferRows : Int

/-! ## What to do with a session -/

def modalities : List Modality := [.network, .behavior, .communication]

inductive Action where
  | skip
  | run
  | regenerate
  deriving DecidableEq, Repr

inductive Reason where
  | outputWithoutState
  | noPriorState
  | completeAndCompatible
  | forcedDespiteMismatch
  | priorStatus (status : Status)
  deriving DecidableEq, Repr

inductive Problem where
  | versions
  | windowSeconds
  | clockAlignmentToleranceNs
  | maxEventLatenessNs
  | outputMissing
  deriving DecidableEq, Repr

section Deciding

variable [DecidableEq V] (required : V) (disk : Disk V) (scenarioId : String) (windowSeconds : ℚ)
  (tolerance lateness : Option Int)

def problems (st : SavedState V) : List Problem :=
  (if st.versions = required then [] else [.versions]) ++
    (if |st.windowSeconds - windowSeconds| < 1 / 10 ^ 9 then [] else [.windowSeconds]) ++
    (if tolerance.all fun t => st.clockAlignmentToleranceNs = t then [] else [.clockAlignmentToleranceNs]) ++
    (if lateness.all fun t => st.maxEventLatenessNs = t then [] else [.maxEventLatenessNs]) ++
    (if modalities.all fun m => (disk.store m scenarioId).isSome then [] else [.outputMissing])

def decideResume (forceRegenerate : Bool) : Except (List Problem) (Action × Reason) :=
  match disk.states scenarioId with
  | none =>
    if modalities.any fun m => (disk.store m scenarioId).isSome then .ok (.regenerate, .outputWithoutState)
    else .ok (.run, .noPriorState)
  | some st =>
    if st.status = .completed then
      let found := problems required disk scenarioId windowSeconds tolerance lateness st
      if found = [] then .ok (.skip, .completeAndCompatible)
      else if forceRegenerate then .ok (.regenerate, .forcedDespiteMismatch)
      else .error found
    else .ok (.run, .priorStatus st.status)

end Deciding

/-! ## Changes of the disk -/

/-- What is changed in one go. -/
inductive Write (V : Type) where
  | unlink (modality : Modality) (name : String)
  | rmdir (modality : Modality)
  | rename (modality : Modality) (dir : Directory)
  | replaceState (st : SavedState V)

def setDirectory (store : Store) (modality : Modality) (scenarioId : String) (dir : Option Directory) : Store :=
  fun m s => if m = modality ∧ s = scenarioId then dir else store m s

def write (scenarioId : String) (disk : Disk V) : Write V → Disk V
  | .unlink m name =>
    { disk with
      store := setDirectory disk.store m scenarioId ((disk.store m scenarioId).map (·.filter fun f => f.1 ≠ name)) }
  | .rmdir m => { disk with store := setDirectory disk.store m scenarioId none }
  | .rename m dir => { disk with store := setDirectory disk.store m scenarioId (some dir) }
  | .replaceState st => { disk with states := fun s => if s = scenarioId then some st else disk.states s }

def writeAllTo (scenarioId : String) (disk : Disk V) (ws : List (Write V)) : Disk V := ws.foldl (write scenarioId) disk

/-- The files of a directory go one by one, in the order of the scan, then the directory. -/
def removeTree (fs : FileSystem) (disk : Disk V) (scenarioId : String) (m : Modality) : List (Write V) :=
  match disk.store m scenarioId with
  | none => []
  | some dir => ((fs.scan dir).map fun f => .unlink m f.1) ++ [.rmdir m]

def cleanupPartialOutput (fs : FileSystem) (disk : Disk V) (scenarioId : String) : List (Write V) :=
  modalities.flatMap (removeTree fs disk scenarioId)

/-! ## A session -/

/-- The rows that an extraction gives, and whether finalising them raises after some changes. -/
structure Extraction (F : Type) where
  rows : Modality → List (Row F)
  raisesAfter : Option Nat

/-- A session is cut off after some changes, or not. -/
structure Session (F V : Type) where
  engine : Engine V
  scenarioId : String
  extraction : Extraction F
  crashAfter : Option Nat

/-- Rows are handed to the writer in batches; the last one may be empty. -/
def batches (limit : Int) (buffer : List (Row F)) : List (Row F) → List (List (Row F))
  | [] => [buffer]
  | row :: rows =>
    if limit ≤ (buffer ++ [row]).length then (buffer ++ [row]) :: batches limit [] rows
    else batches limit (buffer ++ [row]) rows

section Running

variable (fmt : FloatFormat F) (fs : FileSystem)

/-- The directory that a writer puts in place. -/
def outputDirectory (w : Writer F) : Directory :=
  (appendFile (flush fmt w).tmpDir "_FINALIZING" []).filter fun f => f.1 ≠ "_FINALIZING"

def outputOf (x : Session F V) (m : Modality) : Except RowError Directory :=
  (writeAll fmt (.create x.scenarioId m x.engine.outputBufferRows)
    (batches x.engine.outputBufferRows [] (x.extraction.rows m))).map (outputDirectory fmt)

def outputs (x : Session F V) : Except RowError (Modality → Directory) := do
  let network ← outputOf fmt x .network
  let behavior ← outputOf fmt x .behavior
  let communication ← outputOf fmt x .communication
  return fun
    | .network => network
    | .behavior => behavior
    | .communication => communication

/-- The writers finalise in the reverse order of their opening; a directory in the way is removed. -/
def installs (disk : Disk V) (scenarioId : String) (out : Modality → Directory) : List (Write V) :=
  modalities.reverse.flatMap fun m => removeTree fs disk scenarioId m ++ [.rename m (out m)]

/-- The changes of the extraction, and whether it succeeds. -/
def extractIntoStore (x : Session F V) (disk : Disk V) : List (Write V) × Bool :=
  match outputs fmt x with
  | .error _ => ([], false)
  | .ok out =>
    match x.extraction.raisesAfter with
    | none => (installs fs disk x.scenarioId out, true)
    | some k => ((installs fs disk x.scenarioId out).take k, false)

def startedState (engine : Engine V) (prior : Option (SavedState V)) : SavedState V where
  status := .inProgress
  versions := engine.requiredVersions
  windowSeconds := engine.windowSeconds
  clockAlignmentToleranceNs := engine.clockToleranceNs
  maxEventLatenessNs := engine.maxEventLatenessNs
  recordCounts := prior.bind SavedState.recordCounts

def endedState (x : Session F V) (started : SavedState V) (succeeds : Bool) : SavedState V :=
  if succeeds then
    { started with status := .completed, recordCounts := some fun m => (x.extraction.rows m).length }
  else { started with status := .failed }

variable [DecidableEq V]

def decision (x : Session F V) (disk : Disk V) : Except (List Problem) (Action × Reason) :=
  decideResume x.engine.requiredVersions disk x.scenarioId x.engine.windowSeconds (some x.engine.clockToleranceNs)
    (some x.engine.maxEventLatenessNs) x.engine.forceRegenerate

/-- The changes of a session that nothing cuts off. -/
def runSession (x : Session F V) (disk : Disk V) : Except (List Problem) (List (Write V)) :=
  match decision x disk with
  | .error found => .error found
  | .ok (action, reason) =>
    if action = .skip then .ok []
    else
      let cleanup := if action = .regenerate ∨ reason ≠ .noPriorState then cleanupPartialOutput fs disk x.scenarioId else []
      let started := startedState x.engine (disk.states x.scenarioId)
      let after := writeAllTo x.scenarioId disk (cleanup ++ [.replaceState started])
      let extracted := extractIntoStore fmt fs x after
      .ok (cleanup ++ .replaceState started :: (extracted.1 ++ [.replaceState (endedState x started extracted.2)]))

/-- The changes that are made of it. -/
def made (x : Session F V) (disk : Disk V) : List (Write V) :=
  match runSession fmt fs x disk with
  | .error _ => []
  | .ok ws =>
    match x.crashAfter with
    | none => ws
    | some k => ws.take k

def session (disk : Disk V) (x : Session F V) : Disk V := writeAllTo x.scenarioId disk (made fmt fs x disk)

def history (sessions : List (Session F V)) : Disk V := sessions.foldl (session fmt fs) .empty

end Running

/-! ## The reader -/

inductive Incompatible where
  | noState
  | notComplete (status : Status)
  | versionMismatch
  deriving DecidableEq, Repr

def checkCompatible [DecidableEq V] (required : V) (disk : Disk V) (scenarioId : String) :
    Except Incompatible (SavedState V) :=
  match disk.states scenarioId with
  | none => .error .noState
  | some st =>
    if st.status ≠ .completed then .error (.notComplete st.status)
    else if st.versions ≠ required then .error .versionMismatch
    else .ok st

inductive RecordError where
  | incompatible (reason : Incompatible)
  | reading (error : ReadError)

def iterRecords [DecidableEq V] (fmt : FloatFormat F) (fs : FileSystem) (required : V) (disk : Disk V) (scenarioId : String)
    (m : Modality) (validate : Bool) : Except RecordError (List (Json F)) :=
  let parts := (iterParts fmt fs disk.store scenarioId m).mapError .reading
  if validate then
    match checkCompatible required disk scenarioId with
    | .error reason => .error (.incompatible reason)
    | .ok _ => parts
  else parts

/-! ## Changes and what they leave alone -/

def Write.Removes : Write V → Prop
  | .unlink .. | .rmdir _ => True
  | .rename .. | .replaceState _ => False

def Write.OfFiles : Write V → Prop
  | .replaceState _ => False
  | _ => True

def Write.Concerns (m : Modality) : Write V → Prop
  | .unlink m' _ | .rmdir m' | .rename m' _ => m' = m
  | .replaceState _ => False

theorem Write.Removes.ofFiles {w : Write V} (h : w.Removes) : w.OfFiles := by
  cases w with
  | replaceState st => exact h
  | _ => trivial

section Writing

variable (s : String) (disk : Disk V)

theorem write_other {t : String} (h : t ≠ s) (w : Write V) :
    (write s disk w).states t = disk.states t ∧ ∀ m, (write s disk w).store m t = disk.store m t := by
  cases w <;> simp [write, setDirectory, h]

theorem writeAllTo_other {t : String} (h : t ≠ s) (ws : List (Write V)) :
    (writeAllTo s disk ws).states t = disk.states t ∧ ∀ m, (writeAllTo s disk ws).store m t = disk.store m t := by
  induction ws generalizing disk with
  | nil => exact ⟨rfl, fun _ => rfl⟩
  | cons w ws ih =>
    obtain ⟨hstate, hstore⟩ := ih (write s disk w)
    obtain ⟨hstate', hstore'⟩ := write_other s disk h w
    exact ⟨hstate.trans hstate', fun m => (hstore m).trans (hstore' m)⟩

theorem writeAllTo_append (ws ws' : List (Write V)) :
    writeAllTo s disk (ws ++ ws') = writeAllTo s (writeAllTo s disk ws) ws' := List.foldl_append

theorem files_states {ws : List (Write V)} (h : ∀ w ∈ ws, w.OfFiles) : (writeAllTo s disk ws).states = disk.states := by
  induction ws generalizing disk with
  | nil => rfl
  | cons w ws ih =>
    rw [writeAllTo, List.foldl_cons]
    refine (ih (write s disk w) fun w' hw' => h w' (List.mem_cons_of_mem w hw')).trans ?_
    cases w with
    | replaceState st => exact (h _ List.mem_cons_self).elim
    | _ => rfl

theorem unconcerned_store {ws : List (Write V)} {m : Modality} (h : ∀ w ∈ ws, ¬ w.Concerns m) :
    (writeAllTo s disk ws).store m s = disk.store m s := by
  induction ws generalizing disk with
  | nil => rfl
  | cons w ws ih =>
    rw [writeAllTo, List.foldl_cons]
    refine (ih (write s disk w) fun w' hw' => h w' (List.mem_cons_of_mem w hw')).trans ?_
    have hw := h w List.mem_cons_self
    cases w with
    | replaceState st => rfl
    | _ => exact if_neg fun hm => hw hm.1.symm

/-- Removals leave part of a directory, or nothing of it. -/
theorem removals_part {ws : List (Write V)} (h : ∀ w ∈ ws, w.Removes) {m : Modality} {dir : Directory}
    (hdir : (writeAllTo s disk ws).store m s = some dir) : ∃ before, disk.store m s = some before ∧ dir ⊆ before := by
  induction ws generalizing disk with
  | nil => exact ⟨dir, hdir, List.Subset.refl _⟩
  | cons w ws ih =>
    obtain ⟨between, hbetween, hsub⟩ := ih (write s disk w) (fun w' hw' => h w' (List.mem_cons_of_mem w hw')) hdir
    have hw := h w List.mem_cons_self
    cases w with
    | rename m' dir' => exact hw.elim
    | replaceState st => exact hw.elim
    | rmdir m' =>
      by_cases hm : m = m'
      · simp [write, setDirectory, hm] at hbetween
      · exact ⟨between, by simpa [write, setDirectory, hm] using hbetween, hsub⟩
    | unlink m' name =>
      by_cases hm : m = m'
      · subst hm
        simp only [write, setDirectory, and_self, if_true, Option.map_eq_some_iff] at hbetween
        obtain ⟨before, hbefore, rfl⟩ := hbetween
        exact ⟨before, hbefore, fun f hf => List.mem_of_mem_filter (hsub hf)⟩
      · exact ⟨between, by simpa [write, setDirectory, hm] using hbetween, hsub⟩

end Writing

section Sessions

variable (fs : FileSystem)

theorem removeTree_removes (disk : Disk V) (s : String) (m : Modality) :
    ∀ w ∈ removeTree fs disk s m, w.Removes ∧ w.Concerns m := by
  intro w hw
  unfold removeTree at hw
  cases hdir : disk.store m s with
  | none =>
    rw [hdir] at hw
    cases hw
  | some dir =>
    rw [hdir] at hw
    rcases List.mem_append.mp hw with hw | hw
    · obtain ⟨f, -, rfl⟩ := List.mem_map.mp hw
      exact ⟨trivial, rfl⟩
    · rw [List.mem_singleton.mp hw]
      exact ⟨trivial, rfl⟩

theorem cleanup_removes (disk : Disk V) (s : String) : ∀ w ∈ cleanupPartialOutput fs disk s, w.Removes := by
  intro w hw
  obtain ⟨m, -, hw⟩ := List.mem_flatMap.mp hw
  exact (removeTree_removes fs disk s m w hw).1

theorem installs_files (disk : Disk V) (s : String) (out : Modality → Directory) :
    ∀ w ∈ installs fs disk s out, w.OfFiles := by
  intro w hw
  obtain ⟨m, -, hw⟩ := List.mem_flatMap.mp hw
  rcases List.mem_append.mp hw with hw | hw
  · exact (removeTree_removes fs disk s m w hw).1.ofFiles
  · rw [List.mem_singleton.mp hw]
    trivial

/-- Of a list of modalities each has its directory in place, and no other is touched. -/
theorem installs_store (seen disk : Disk V) (s : String) (out : Modality → Directory) (ms : List Modality) (m : Modality) :
    (writeAllTo s disk (ms.flatMap fun m => removeTree fs seen s m ++ [.rename m (out m)])).store m s =
      if m ∈ ms then some (out m) else disk.store m s := by
  induction ms generalizing disk with
  | nil => rfl
  | cons m' ms ih =>
    rw [List.flatMap_cons, writeAllTo_append, ih, writeAllTo_append]
    by_cases hms : m ∈ ms
    · simp [hms]
    · by_cases hm : m = m'
      · simp [hm, writeAllTo, write, setDirectory]
      · rw [if_neg hms, if_neg (by simp [hm, hms])]
        have hrename : ∀ w ∈ [Write.rename m' (out m')], ¬ Write.Concerns (V := V) m w := by
          intro w hw
          rw [List.mem_singleton.mp hw]
          exact fun h => hm h.symm
        rw [unconcerned_store s _ hrename]
        refine unconcerned_store s disk fun w hw hc => hm ?_
        have hw := (removeTree_removes fs seen s m' w hw).2
        cases w with
        | replaceState st => exact hw.elim
        | _ => exact hc.symm.trans hw

end Sessions

/-! ## What a session may leave -/

section Invariant

variable (fmt : FloatFormat F) (fs : FileSystem)

/-- The state that a session saves when it has completed. -/
def completedState (x : Session F V) : SavedState V := endedState x (startedState x.engine none) true

@[simp] theorem completedState_status (x : Session F V) : (completedState x).status = .completed := rfl

@[simp] theorem completedState_versions (x : Session F V) : (completedState x).versions = x.engine.requiredVersions := rfl

theorem endedState_completed {x : Session F V} {prior : Option (SavedState V)} {succeeds : Bool}
    (h : (endedState x (startedState x.engine prior) succeeds).status = .completed) :
    succeeds = true ∧ endedState x (startedState x.engine prior) succeeds = completedState x := by
  cases succeeds with
  | false => cases h
  | true => exact ⟨rfl, rfl⟩

/-- An extraction that succeeds has put every directory in place. -/
theorem extract_succeeds {x : Session F V} {disk : Disk V} (h : (extractIntoStore fmt fs x disk).2 = true) :
    ∃ out, outputs fmt x = .ok out ∧ ∀ seen m,
      (writeAllTo x.scenarioId seen (extractIntoStore fmt fs x disk).1).store m x.scenarioId = some (out m) := by
  unfold extractIntoStore at h ⊢
  cases hout : outputs fmt x with
  | error e =>
    rw [hout] at h
    cases h
  | ok out =>
    cases hraises : x.extraction.raisesAfter with
    | some k =>
      rw [hout, hraises] at h
      cases h
    | none =>
      refine ⟨out, rfl, fun seen m => ?_⟩
      have hall : m ∈ modalities.reverse := by cases m <;> decide
      exact (installs_store fs disk seen x.scenarioId out modalities.reverse m).trans (if_pos hall)

theorem extract_files (x : Session F V) (disk : Disk V) : ∀ w ∈ (extractIntoStore fmt fs x disk).1, w.OfFiles := by
  intro w hw
  unfold extractIntoStore at hw
  cases hout : outputs fmt x with
  | error e =>
    rw [hout] at hw
    cases hw
  | ok out =>
    rw [hout] at hw
    cases hraises : x.extraction.raisesAfter with
    | none =>
      rw [hraises] at hw
      exact installs_files fs disk x.scenarioId out w hw
    | some k =>
      rw [hraises] at hw
      exact installs_files fs disk x.scenarioId out w (List.mem_of_mem_take hw)

/-- What a list with two marks in it may begin with. -/
theorem prefix_cases {α : Type} {p l l' : List α} {a b : α} (h : p <+: l ++ a :: (l' ++ [b])) :
    p <+: l ∨ (∃ q, q <+: l' ∧ p = l ++ a :: q) ∨ p = l ++ a :: (l' ++ [b]) := by
  induction l generalizing p with
  | nil =>
    cases p with
    | nil => exact .inl (List.prefix_refl [])
    | cons c q =>
      obtain ⟨rfl, hq⟩ := List.cons_prefix_cons.mp h
      rcases List.prefix_concat_iff.mp hq with rfl | hq
      · exact .inr (.inr rfl)
      · exact .inr (.inl ⟨q, hq, rfl⟩)
  | cons d l ih =>
    cases p with
    | nil => exact .inl List.nil_prefix
    | cons c p =>
      obtain ⟨rfl, hp⟩ := List.cons_prefix_cons.mp h
      rcases ih hp with hl | ⟨q, hq, rfl⟩ | rfl
      · exact .inl (List.cons_prefix_cons.mpr ⟨rfl, hl⟩)
      · exact .inr (.inl ⟨q, hq, rfl⟩)
      · exact .inr (.inr rfl)

variable [DecidableEq V]

/-- The changes that a session makes: removals; or removals, a state in progress and files; or
all of this and the state it ended in. -/
theorem made_cases (x : Session F V) (disk : Disk V) :
    (∀ w ∈ made fmt fs x disk, w.Removes) ∨
    ∃ removals started files, (∀ w ∈ removals, w.Removes) ∧ (∀ w ∈ files, w.OfFiles) ∧ started.status = .inProgress ∧
      (made fmt fs x disk = removals ++ .replaceState started :: files ∨
        ∃ ended, made fmt fs x disk = removals ++ .replaceState started :: (files ++ [.replaceState ended]) ∧
          (ended.status = .completed → ended = completedState x ∧ ∃ out, outputs fmt x = .ok out ∧
            ∀ seen m, (writeAllTo x.scenarioId seen files).store m x.scenarioId = some (out m))) := by
  cases hrun : runSession fmt fs x disk with
  | error found =>
    refine .inl fun w hw => ?_
    rw [made, hrun] at hw
    cases hw
  | ok ws =>
    have hprefix : made fmt fs x disk <+: ws := by
      rw [made, hrun]
      cases x.crashAfter with
      | none => exact List.prefix_refl ws
      | some k => exact List.take_prefix k ws
    unfold runSession at hrun
    cases hdecision : decision x disk with
    | error found =>
      rw [hdecision] at hrun
      cases hrun
    | ok decided =>
      obtain ⟨action, reason⟩ := decided
      rw [hdecision] at hrun
      simp only at hrun
      split at hrun
      · cases hrun
        rw [List.prefix_nil.mp hprefix]
        exact .inl fun w hw => nomatch hw
      · have hremovals : ∀ w ∈ (if action = .regenerate ∨ reason ≠ .noPriorState
            then cleanupPartialOutput fs disk x.scenarioId else []), w.Removes := by
          intro w hw
          split at hw
          · exact cleanup_removes fs disk x.scenarioId w hw
          · cases hw
        rw [← Except.ok.inj hrun] at hprefix
        rcases prefix_cases hprefix with hp | ⟨q, hq, hp⟩ | hp
        · exact .inl fun w hw => hremovals w (hp.subset hw)
        · exact .inr ⟨_, _, q, hremovals, fun w hw => extract_files fmt fs x _ w (hq.subset hw), rfl, .inl hp⟩
        · refine .inr ⟨_, _, _, hremovals, extract_files fmt fs x _, rfl, .inr ⟨_, hp, fun hended => ?_⟩⟩
          obtain ⟨hsucceeds, hstate⟩ := endedState_completed hended
          exact ⟨hstate, extract_succeeds fmt fs hsucceeds⟩

/-- A completed state is that of some session, whose output the directories are in some way. -/
def Backed (R : Option Directory → Directory → Prop) (sessions : List (Session F V)) (disk : Disk V) (s : String) : Prop :=
  ∀ st, disk.states s = some st → st.status = .completed →
    ∃ x ∈ sessions, x.scenarioId = s ∧ st = completedState x ∧
      ∃ out, outputs fmt x = .ok out ∧ ∀ m, R (disk.store m s) (out m)

/-- Nothing but files of the output. -/
def Part (found : Option Directory) (dir : Directory) : Prop := ∀ d ∈ found, d ⊆ dir

def Whole (found : Option Directory) (dir : Directory) : Prop := found = some dir

/-- The session is cut off while it cleans up what a completed session has left. -/
def Torn (disk : Disk V) (x : Session F V) : Prop :=
  (∃ st, disk.states x.scenarioId = some st ∧ st.status = .completed) ∧ made fmt fs x disk ≠ [] ∧
    ∀ w ∈ made fmt fs x disk, w.Removes

/-- One more session, if its removals leave the directories in their way. -/
theorem Backed.session {R : Option Directory → Directory → Prop} (hR : ∀ dir, R (some dir) dir)
    {sessions : List (Session F V)} {disk : Disk V} {s : String} (h : Backed fmt R sessions disk s) (x : Session F V)
    (hremovals : x.scenarioId = s → (∀ w ∈ made fmt fs x disk, w.Removes) →
      Backed fmt R sessions (StoreRecovery.session fmt fs disk x) s) :
    Backed fmt R (sessions ++ [x]) (StoreRecovery.session fmt fs disk x) s := by
  have hmore : ∀ {disk : Disk V}, Backed fmt R sessions disk s → Backed fmt R (sessions ++ [x]) disk s := by
    intro disk hbacked st hst hcompleted
    obtain ⟨y, hy, hrest⟩ := hbacked st hst hcompleted
    exact ⟨y, List.mem_append_left _ hy, hrest⟩
  by_cases hs : s = x.scenarioId
  · subst hs
    rcases made_cases fmt fs x disk with hall | ⟨removals, started, files, hr, hf, hstarted, hmade⟩
    · exact hmore (hremovals rfl hall)
    · intro st hst hcompleted
      rw [StoreRecovery.session] at hst ⊢
      rcases hmade with hmade | ⟨ended, hmade, hended⟩
      · -- the state is still in progress
        rw [hmade, writeAllTo_append, ← List.singleton_append, writeAllTo_append, files_states _ _ hf] at hst
        simp only [writeAllTo, List.foldl_cons, List.foldl_nil, write, if_true, Option.some.injEq] at hst
        rw [← hst, hstarted] at hcompleted
        cases hcompleted
      · rw [hmade] at hst ⊢
        rw [← List.cons_append, ← List.append_assoc, writeAllTo_append] at hst ⊢
        simp only [writeAllTo, List.foldl_cons, List.foldl_nil, write, if_true, Option.some.injEq] at hst ⊢
        subst hst
        obtain ⟨hstate, out, hout, hstore⟩ := hended hcompleted
        refine ⟨x, by simp, rfl, hstate, out, hout, fun m => ?_⟩
        have hplace := hstore (write x.scenarioId (removals.foldl (write x.scenarioId) disk) (.replaceState started)) m
        rw [writeAllTo] at hplace
        rw [List.foldl_append, List.foldl_cons, hplace]
        exact hR (out m)
  · refine hmore fun st hst hcompleted => ?_
    obtain ⟨hstate, hstore⟩ := writeAllTo_other x.scenarioId disk hs (made fmt fs x disk)
    rw [StoreRecovery.session, hstate] at hst
    obtain ⟨y, hy, hys, hyst, out, hout, hall⟩ := h st hst hcompleted
    exact ⟨y, hy, hys, hyst, out, hout, fun m => by rw [StoreRecovery.session, hstore m]; exact hall m⟩

theorem history_append (sessions : List (Session F V)) (x : Session F V) :
    history fmt fs (sessions ++ [x]) = session fmt fs (history fmt fs sessions) x := by
  rw [history, List.foldl_append]
  rfl

/-- Wherever the sessions were cut off: beside a completed state there are no files but those
of the session that completed. -/
theorem completed_files (sessions : List (Session F V)) (s : String) :
    Backed fmt Part sessions (history fmt fs sessions) s := by
  induction sessions using List.reverseRecOn with
  | nil => exact fun st hst => nomatch hst
  | append_singleton sessions x ih =>
    rw [history_append]
    refine Backed.session fmt fs (fun dir d hd => ?_) ih x fun hs hall st hst hcompleted => ?_
    · rw [Option.some.inj hd]
      exact List.Subset.refl d
    · rw [session, files_states _ _ fun w hw => (hall w hw).ofFiles] at hst
      obtain ⟨y, hy, hys, hyst, out, hout, hpart⟩ := ih st hst hcompleted
      refine ⟨y, hy, hys, hyst, out, hout, fun m d hd => ?_⟩
      subst hs
      obtain ⟨before, hbefore, hsub⟩ := removals_part x.scenarioId (history fmt fs sessions) hall hd
      exact List.Subset.trans hsub (hpart m before hbefore)

/-- No session of the history was cut off while it cleaned up after a completed one. -/
def Untorn (sessions : List (Session F V)) : Prop :=
  ∀ before x after, sessions = before ++ x :: after → ¬ Torn fmt fs (history fmt fs before) x

/-- Then the directories beside a completed state are those of the session, as it wrote them. -/
theorem completed_whole {sessions : List (Session F V)} (h : Untorn fmt fs sessions) (s : String) :
    Backed fmt Whole sessions (history fmt fs sessions) s := by
  induction sessions using List.reverseRecOn with
  | nil => exact fun st hst => nomatch hst
  | append_singleton sessions x ih =>
    have hbefore : Untorn fmt fs sessions := by
      intro before y after hsplit
      exact h before y (after ++ [x]) (by rw [hsplit]; simp)
    rw [history_append]
    refine Backed.session fmt fs (fun dir => rfl) (ih hbefore) x fun hs hall st hst hcompleted => ?_
    have hstates : (session fmt fs (history fmt fs sessions) x).states = (history fmt fs sessions).states :=
      files_states _ _ fun w hw => (hall w hw).ofFiles
    rw [hstates] at hst
    -- whoever only removes, and is not torn, does nothing
    have hnothing : made fmt fs x (history fmt fs sessions) = [] := by
      by_contra hsome
      exact h sessions x [] rfl ⟨⟨st, hs ▸ hst, hcompleted⟩, hsome, hall⟩
    rw [session, hnothing]
    exact ih hbefore st hst hcompleted

end Invariant

/-! ## What a reader gets -/

section Reading

variable (fmt : FloatFormat F)

theorem batches_flatten (limit : Int) (buffer rows : List (Row F)) :
    (batches limit buffer rows).flatten = buffer ++ rows := by
  induction rows generalizing buffer with
  | nil => simp [batches]
  | cons row rows ih =>
    unfold batches
    split
    · simp [ih]
    · simp [ih]

theorem flush_session (w : Writer F) : (flush fmt w).modality = w.modality ∧ (flush fmt w).scenarioId = w.scenarioId := by
  unfold flush
  split <;> exact ⟨rfl, rfl⟩

/-- Finalising puts the directory in place. -/
theorem finalize_rename (disk : Disk V) (w : Writer F) :
    finalize fmt disk.store w = (write w.scenarioId disk (.rename w.modality (outputDirectory fmt w))).store := by
  obtain ⟨hmodality, hscenario⟩ := flush_session fmt w
  unfold finalize
  simp only [hmodality, hscenario]
  rfl

theorem writeRows_fields {w w' : Writer F} {rows : List (Row F)} (h : writeRows fmt w rows = .ok w') :
    w'.modality = w.modality ∧ ∀ row ∈ rows, missing w.modality row = [] ∧ unknown w.modality row = [] := by
  induction rows generalizing w with
  | nil =>
    cases h
    exact ⟨rfl, fun row hrow => nomatch hrow⟩
  | cons row rows ih =>
    rw [writeRows] at h
    by_cases hmissing : missing w.modality row = []
    · by_cases hunknown : unknown w.modality row = []
      · rw [if_neg (not_not.mpr hmissing), if_neg (not_not.mpr hunknown)] at h
        have hsame : (bufferRow fmt w row).modality = w.modality := by
          unfold bufferRow
          dsimp only
          split
          · exact (flush_session fmt _).1
          · rfl
        obtain ⟨hmodality, hrows⟩ := ih h
        rw [hsame] at hmodality hrows
        refine ⟨hmodality, fun r hr => ?_⟩
        rcases List.mem_cons.mp hr with rfl | hr
        · exact ⟨hmissing, hunknown⟩
        · exact hrows r hr
      · rw [if_neg (not_not.mpr hmissing), if_pos hunknown] at h
        cases h
    · rw [if_pos hmissing] at h
      cases h

theorem writeAll_fields {w w' : Writer F} {calls : List (List (Row F))} (h : writeAll fmt w calls = .ok w') :
    ∀ row ∈ calls.flatten, missing w.modality row = [] ∧ unknown w.modality row = [] := by
  induction calls generalizing w with
  | nil => exact fun row hrow => nomatch hrow
  | cons call calls ih =>
    unfold writeAll at h ih
    rw [List.foldlM_cons] at h
    cases hcall : writeRows fmt w call with
    | error e =>
      rw [hcall] at h
      cases h
    | ok next =>
      rw [hcall] at h
      obtain ⟨hmodality, hrows⟩ := writeRows_fields fmt hcall
      intro row hrow
      rcases List.mem_append.mp hrow with hrow | hrow
      · exact hrows row hrow
      · rw [← hmodality]
        exact ih h row hrow

theorem fits_of_fields {modality : Modality} {row : Row F} (h : Writable fmt (.obj row)) (hmissing : missing modality row = [])
    (hunknown : unknown modality row = []) : Fits fmt modality row := by
  refine ⟨h, fun f => ⟨fun hf => ?_, fun hf => ?_⟩⟩
  · by_contra hnot
    exact List.filter_eq_nil_iff.mp hunknown f hf (decide_eq_true hnot)
  · by_contra hnot
    exact List.filter_eq_nil_iff.mp hmissing f hf (decide_eq_true hnot)

/-- What a writer has put in place are the parts of its rows. -/
theorem outputOf_files {x : Session F V} {m : Modality} {dir : Directory} (h : outputOf fmt x m = .ok dir)
    (hrows : ∀ row ∈ x.extraction.rows m, Writable fmt (.obj row)) :
    ∃ parts, dir = files fmt parts ∧ parts.flatten = x.extraction.rows m ∧
      ∀ limit, parts.length ≤ limit ↔ (x.extraction.rows m).length ≤ limit * (max 1 x.engine.outputBufferRows).toNat := by
  unfold outputOf at h
  have hflatten := batches_flatten x.engine.outputBufferRows [] (x.extraction.rows m)
  generalize batches x.engine.outputBufferRows [] (x.extraction.rows m) = calls at h hflatten
  rw [List.nil_append] at hflatten
  cases hwritten : writeAll fmt (.create x.scenarioId m x.engine.outputBufferRows) calls with
  | error e =>
    rw [hwritten] at h
    cases h
  | ok w =>
    rw [hwritten] at h
    have hdir : outputDirectory fmt w = dir := Except.ok.inj h
    have hfits : ∀ row ∈ calls.flatten, Fits fmt m row := by
      intro row hrow
      obtain ⟨hmissing, hunknown⟩ := writeAll_fields fmt hwritten row hrow
      exact fits_of_fields fmt (hrows row (hflatten ▸ hrow)) hmissing hunknown
    obtain ⟨w', hw', hsame, parts', hfilled⟩ :=
      filled_writeAll (filled_create x.scenarioId m x.engine.outputBufferRows) hfits
    rw [hwritten] at hw'
    cases hw'
    obtain ⟨parts, hplace, hparts, -, hlimit⟩ := finalize_files hfilled (Disk.empty (V := V)).store
    refine ⟨parts, ?_, ?_, fun limit => ?_⟩
    · rw [finalize_rename] at hplace
      rw [← hdir]
      exact Option.some.inj ((if_pos ⟨rfl, rfl⟩).symm.trans hplace)
    · rw [hparts, List.nil_append, hflatten]
    · rw [hlimit, List.nil_append, hflatten, hsame.2.2]
      rfl

theorem outputs_each {x : Session F V} {out : Modality → Directory} (h : outputs fmt x = .ok out) (m : Modality) :
    outputOf fmt x m = .ok (out m) := by
  unfold outputs at h
  cases hn : outputOf fmt x .network with
  | error e =>
    rw [hn] at h
    cases h
  | ok network =>
    cases hb : outputOf fmt x .behavior with
    | error e =>
      rw [hn, hb] at h
      cases h
    | ok behavior =>
      cases hc : outputOf fmt x .communication with
      | error e =>
        rw [hn, hb, hc] at h
        cases h
      | ok communication =>
        rw [hn, hb, hc] at h
        cases h
        cases m <;> assumption

theorem outputs_ok {x : Session F V} (h : ∀ m, ∀ row ∈ x.extraction.rows m, Fits fmt m row) :
    ∃ out, outputs fmt x = .ok out := by
  have hall : ∀ m, ∃ dir, outputOf fmt x m = .ok dir := by
    intro m
    have hfits : ∀ row ∈ (batches x.engine.outputBufferRows [] (x.extraction.rows m)).flatten, Fits fmt m row := by
      rw [batches_flatten]
      exact h m
    obtain ⟨w, hw, -⟩ := filled_writeAll (filled_create x.scenarioId m x.engine.outputBufferRows) hfits
    exact ⟨outputDirectory fmt w, by rw [outputOf, hw]; rfl⟩
  obtain ⟨network, hn⟩ := hall .network
  obtain ⟨behavior, hb⟩ := hall .behavior
  obtain ⟨communication, hc⟩ := hall .communication
  exact ⟨_, by rw [outputs, hn, hb, hc]; rfl⟩

section History

variable (fs : FileSystem)

/-- A directory that is there as it was written is read as the rows that were written. -/
theorem whole_read {x : Session F V} {out : Modality → Directory} {disk : Disk V} {m : Modality} (hout : outputs fmt x = .ok out)
    (hrows : ∀ row ∈ x.extraction.rows m, Writable fmt (.obj row))
    (hlimit : (x.extraction.rows m).length ≤ 100000 * (max 1 x.engine.outputBufferRows).toNat)
    (hwhole : disk.store m x.scenarioId = some (out m)) :
    iterParts fmt fs disk.store x.scenarioId m = .ok ((x.extraction.rows m).map .obj) := by
  obtain ⟨parts, hdir, hflat, hparts⟩ := outputOf_files fmt (outputs_each fmt hout m) hrows
  rw [hdir] at hwhole
  rw [iterParts_files fs hwhole (by rw [hflat]; exact hrows), sorted_named ((hparts 100000).mpr hlimit), named_rows, hflat]

variable [DecidableEq V]

theorem checkCompatible_ok {required : V} {disk : Disk V} {s : String} {st : SavedState V}
    (h : checkCompatible required disk s = .ok st) :
    disk.states s = some st ∧ st.status = .completed ∧ st.versions = required := by
  unfold checkCompatible at h
  cases hst : disk.states s with
  | none =>
    rw [hst] at h
    cases h
  | some saved =>
    rw [hst] at h
    dsimp only at h
    split at h
    · cases h
    split at h
    · cases h
    rename_i hcompleted hversions
    cases h
    exact ⟨rfl, not_not.mp hcompleted, not_not.mp hversions⟩

/-- After any sessions, cut off anywhere but in cleaning up after a completed one: what passes
the check is read as the rows of the session that completed, all of them and in their order. -/
theorem records_read_back {sessions : List (Session F V)} (huntorn : Untorn fmt fs sessions)
    (hrows : ∀ x ∈ sessions, ∀ m, ∀ row ∈ x.extraction.rows m, Writable fmt (.obj row)) {required : V} {s : String}
    {st : SavedState V} (hcheck : checkCompatible required (history fmt fs sessions) s = .ok st) :
    ∃ x ∈ sessions, x.scenarioId = s ∧ x.engine.requiredVersions = required ∧ st = completedState x ∧
      ∀ m, (x.extraction.rows m).length ≤ 100000 * (max 1 x.engine.outputBufferRows).toNat →
        iterRecords fmt fs required (history fmt fs sessions) s m true = .ok ((x.extraction.rows m).map .obj) := by
  obtain ⟨hst, hcompleted, hversions⟩ := checkCompatible_ok hcheck
  obtain ⟨x, hx, hs, hstate, out, hout, hwhole⟩ := completed_whole fmt fs huntorn s st hst hcompleted
  refine ⟨x, hx, hs, by rw [← hversions, hstate]; rfl, hstate, fun m hlimit => ?_⟩
  subst hs
  rw [iterRecords, if_pos rfl, hcheck, whole_read fmt fs hout (hrows x hx m) hlimit (hwhole m)]
  rfl

/-- A session is skipped for one with the same versions and settings, whose rows are read. -/
theorem skip_keeps_rows {sessions : List (Session F V)} (huntorn : Untorn fmt fs sessions)
    (hrows : ∀ x ∈ sessions, ∀ m, ∀ row ∈ x.extraction.rows m, Writable fmt (.obj row)) {x : Session F V} {reason : Reason}
    (hskip : decision x (history fmt fs sessions) = .ok (.skip, reason)) :
    ∃ y ∈ sessions, y.scenarioId = x.scenarioId ∧ y.engine.requiredVersions = x.engine.requiredVersions ∧
      |y.engine.windowSeconds - x.engine.windowSeconds| < 1 / 10 ^ 9 ∧
      y.engine.clockToleranceNs = x.engine.clockToleranceNs ∧ y.engine.maxEventLatenessNs = x.engine.maxEventLatenessNs ∧
      ∀ m, (y.extraction.rows m).length ≤ 100000 * (max 1 y.engine.outputBufferRows).toNat →
        iterRecords fmt fs x.engine.requiredVersions (history fmt fs sessions) x.scenarioId m true =
          .ok ((y.extraction.rows m).map .obj) := by
  unfold decision decideResume at hskip
  cases hst : (history fmt fs sessions).states x.scenarioId with
  | none =>
    rw [hst] at hskip
    dsimp only at hskip
    split at hskip <;> cases hskip
  | some st =>
    rw [hst] at hskip
    dsimp only at hskip
    split at hskip
    · rename_i hcompleted
      split at hskip
      · rename_i hfound
        simp only [problems, List.append_eq_nil_iff, ite_eq_left_iff, List.cons_ne_nil, imp_false, not_not, Option.all_some,
          decide_eq_true_eq] at hfound
        obtain ⟨⟨⟨⟨hversions, hwindow⟩, htolerance⟩, hlateness⟩, -⟩ := hfound
        have hcheck : checkCompatible x.engine.requiredVersions (history fmt fs sessions) x.scenarioId = .ok st := by
          rw [checkCompatible, hst]
          dsimp only
          rw [if_neg (not_not.mpr hcompleted), if_neg (not_not.mpr hversions)]
        obtain ⟨y, hy, hs, hengine, hstate, hread⟩ := records_read_back fmt fs huntorn hrows hcheck
        subst hstate
        exact ⟨y, hy, hs, hengine, hwindow, htolerance, hlateness, hread⟩
      · split at hskip <;> cases hskip
    · cases hskip

/-- Without a completed state nothing is refused or skipped. -/
theorem decision_runs {x : Session F V} {disk : Disk V}
    (h : ∀ st, disk.states x.scenarioId = some st → st.status ≠ .completed) :
    ∃ action reason, decision x disk = .ok (action, reason) ∧ action ≠ .skip := by
  unfold decision decideResume
  cases hst : disk.states x.scenarioId with
  | none =>
    dsimp only
    split
    · exact ⟨_, _, rfl, nofun⟩
    · exact ⟨_, _, rfl, nofun⟩
  | some st =>
    dsimp only
    rw [if_neg (h st hst)]
    exact ⟨_, _, rfl, nofun⟩

/-- A session that comes to its end, on whatever disk. -/
theorem rerun_whole {x : Session F V} {disk : Disk V}
    (h : ∀ st, disk.states x.scenarioId = some st → st.status ≠ .completed) (hcrash : x.crashAfter = none)
    (hraises : x.extraction.raisesAfter = none) {out : Modality → Directory} (hout : outputs fmt x = .ok out) :
    (session fmt fs disk x).states x.scenarioId = some (completedState x) ∧
      ∀ m, (session fmt fs disk x).store m x.scenarioId = some (out m) := by
  obtain ⟨action, reason, hdecision, haction⟩ := decision_runs h
  have hsucceeds : ∀ seen, extractIntoStore fmt fs x seen = (installs fs seen x.scenarioId out, true) := by
    intro seen
    rw [extractIntoStore, hout, hraises]
  have hrun : ∃ ws seen, made fmt fs x disk =
      ws ++ (installs fs seen x.scenarioId out ++ [.replaceState (completedState x)]) := by
    unfold made runSession
    rw [hdecision, hcrash]
    simp only [if_neg haction, hsucceeds]
    exact ⟨_, _, List.append_cons _ _ _⟩
  obtain ⟨ws, seen, hmade⟩ := hrun
  rw [session, hmade, writeAllTo_append, writeAllTo_append]
  refine ⟨?_, fun m => ?_⟩
  · simp [writeAllTo, write]
  · have hall : m ∈ modalities.reverse := by cases m <;> decide
    exact (installs_store fs seen _ x.scenarioId out modalities.reverse m).trans (if_pos hall)

/-- Whatever sessions left behind without completing, and wherever they were cut off: the next
one that comes to its end is read as its own rows. -/
theorem rerun_recovers {x : Session F V} {disk : Disk V}
    (h : ∀ st, disk.states x.scenarioId = some st → st.status ≠ .completed) (hcrash : x.crashAfter = none)
    (hraises : x.extraction.raisesAfter = none) (hrows : ∀ m, ∀ row ∈ x.extraction.rows m, Fits fmt m row) (m : Modality)
    (hlimit : (x.extraction.rows m).length ≤ 100000 * (max 1 x.engine.outputBufferRows).toNat) :
    iterRecords fmt fs x.engine.requiredVersions (session fmt fs disk x) x.scenarioId m true =
      .ok ((x.extraction.rows m).map .obj) := by
  obtain ⟨out, hout⟩ := outputs_ok fmt hrows
  obtain ⟨hstate, hwhole⟩ := rerun_whole fmt fs h hcrash hraises hout
  have hcheck : checkCompatible x.engine.requiredVersions (session fmt fs disk x) x.scenarioId =
      .ok (completedState x) := by
    rw [checkCompatible, hstate]
    simp
  rw [iterRecords, if_pos rfl, hcheck, whole_read fmt fs hout (fun row hrow => (hrows m row hrow).1) hlimit (hwhole m)]
  rfl

end History

end Reading

/-! ### A window of one session -/

section Window

open PythonJson (nanOnly)

/-- One record of communication, as the first version wrote it. -/
def windowSession (crashAfter : Option Nat) : Session Unit Nat where
  engine := ⟨1, 5, 0, 0, false, 10⟩
  scenarioId := "s1"
  extraction := ⟨fun m => if m = .communication then [windowRow 4] else [], none⟩
  crashAfter := crashAfter

theorem windowSession_fits (crashAfter : Option Nat) (m : Modality) :
    ∀ row ∈ (windowSession crashAfter).extraction.rows m, Fits nanOnly.toFloatFormat m row := by
  intro row hrow
  cases m with
  | communication =>
    rw [List.mem_singleton.mp hrow]
    exact windowRow_fits 4
  | network => cases hrow
  | behavior => cases hrow

theorem windowSession_untorn : Untorn nanOnly.toFloatFormat asListed [windowSession none] := by
  intro before x after hsplit
  rcases before with - | ⟨y, before⟩
  · rintro ⟨⟨st, hst, -⟩, -⟩
    cases hst
  · simp at hsplit

theorem windowSession_completes : ∃ out : Modality → Directory,
    (history nanOnly.toFloatFormat asListed [windowSession none]).states "s1" = some (completedState (windowSession none)) ∧
      ∀ m, (history nanOnly.toFloatFormat asListed [windowSession none]).store m "s1" = some (out m) := by
  obtain ⟨out, hout⟩ := outputs_ok nanOnly.toFloatFormat (windowSession_fits none)
  have hempty : ∀ st, (Disk.empty : Disk Nat).states (windowSession none).scenarioId = some st → st.status ≠ .completed :=
    fun st hst => nomatch hst
  exact ⟨out, rerun_whole nanOnly.toFloatFormat asListed hempty rfl rfl hout⟩

theorem window_read_back :
    ∃ x ∈ [windowSession none], x.scenarioId = "s1" ∧ x.engine.requiredVersions = 1 ∧
      completedState (windowSession none) = completedState x ∧
      ∀ m, (x.extraction.rows m).length ≤ 100000 * (max 1 x.engine.outputBufferRows).toNat →
        iterRecords nanOnly.toFloatFormat asListed 1 (history nanOnly.toFloatFormat asListed [windowSession none]) "s1" m true =
          .ok ((x.extraction.rows m).map .obj) := by
  refine records_read_back nanOnly.toFloatFormat asListed windowSession_untorn (fun x hx m row hrow => ?_) ?_
  · rw [List.mem_singleton.mp hx] at hrow
    exact (windowSession_fits none m row hrow).1
  · obtain ⟨out, hstate, -⟩ := windowSession_completes
    rw [checkCompatible, hstate]
    rfl

theorem window_skipped : ∃ y ∈ [windowSession none], y.scenarioId = "s1" ∧
    ∀ m, (y.extraction.rows m).length ≤ 100000 * (max 1 y.engine.outputBufferRows).toNat →
      iterRecords nanOnly.toFloatFormat asListed 1 (history nanOnly.toFloatFormat asListed [windowSession none]) "s1" m true =
        .ok ((y.extraction.rows m).map .obj) := by
  have hskip : decision (windowSession none) (history nanOnly.toFloatFormat asListed [windowSession none]) =
      .ok (.skip, .completeAndCompatible) := by
    obtain ⟨out, hstate, hstore⟩ := windowSession_completes
    have hscenario : (windowSession none).scenarioId = "s1" := rfl
    unfold decision decideResume
    rw [hscenario, hstate]
    dsimp only
    rw [if_pos (completedState_status _), if_pos]
    simp [problems, hstore, completedState, endedState, startedState]
  obtain ⟨y, hy, hs, -, -, -, -, hread⟩ := skip_keeps_rows nanOnly.toFloatFormat asListed windowSession_untorn
    (fun x hx m row hrow => by
      rw [List.mem_singleton.mp hx] at hrow
      exact (windowSession_fits none m row hrow).1) hskip
  exact ⟨y, hy, hs, hread⟩

/-- A session was cut off after its first change; it is run again. -/
theorem window_recovers :
    (∀ st, (history nanOnly.toFloatFormat asListed [windowSession (some 1)]).states "s1" = some st →
      st.status ≠ .completed) ∧
    ∀ m, iterRecords nanOnly.toFloatFormat asListed 1
      (session nanOnly.toFloatFormat asListed (history nanOnly.toFloatFormat asListed [windowSession (some 1)])
        (windowSession none)) "s1" m true = .ok (((windowSession none).extraction.rows m).map .obj) := by
  have hcut : ∀ st, (history nanOnly.toFloatFormat asListed [windowSession (some 1)]).states "s1" = some st →
      st.status ≠ .completed := by
    have hmade : made nanOnly.toFloatFormat asListed (windowSession (some 1)) .empty =
        [.replaceState (startedState (windowSession (some 1)).engine none)] := rfl
    intro st hst
    rw [history, List.foldl_cons, List.foldl_nil, session, hmade] at hst
    cases hst
    intro hstatus
    cases hstatus
  refine ⟨hcut, fun m => ?_⟩
  have hlimit : ((windowSession none).extraction.rows m).length ≤
      100000 * (max 1 (windowSession none).engine.outputBufferRows).toNat := by cases m <;> decide
  exact rerun_recovers nanOnly.toFloatFormat asListed hcut rfl rfl (windowSession_fits none) m hlimit

end Window

end StoreRecovery
