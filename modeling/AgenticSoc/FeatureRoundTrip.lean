import AgenticSoc.FeatureParts
import Mathlib.Data.List.Flatten

/-!
# Reading the feature store back

What the writer has taken is in full part files and in the buffer. The reader gives
the parts in the order of their names, and this is the order of writing as long as
five digits are enough for the indices.
-/
namespace FeatureStore

open JsonText TextLines Sorting BlackboardFirewall Calendar

variable {F : Type} {fmt : FloatFormat F}

/-- A row with exactly the fields of its modality and JSON values in them. -/
def Fits (fmt : FloatFormat F) (modality : Modality) (row : Row F) : Prop :=
  Writable fmt (.obj row) ∧ ∀ f, f ∈ row.map Prod.fst ↔ f ∈ fieldTypes modality

theorem fits_missing {modality : Modality} {row : Row F} (h : Fits fmt modality row) : missing modality row = [] := by
  refine List.filter_eq_nil_iff.mpr fun f hf => ?_
  simpa using (h.2 f).mpr hf

theorem fits_unknown {modality : Modality} {row : Row F} (h : Fits fmt modality row) : unknown modality row = [] := by
  refine List.filter_eq_nil_iff.mpr fun f hf => ?_
  simpa using (h.2 f).mp hf

/-! ## What the writer has taken -/

def textOf (fmt : FloatFormat F) (rows : List (Row F)) : List Char := rows.flatMap fun row => dumps fmt row ++ ['\n']

/-- Parts under their names. -/
def named (parts : List (List (Row F))) : List (String × List (Row F)) := parts.zipIdx.map fun p => (partName p.2, p.1)

def files (fmt : FloatFormat F) (parts : List (List (Row F))) : Directory :=
  (named parts).map fun e => (e.1, textOf fmt e.2)

theorem named_append (parts : List (List (Row F))) (part : List (Row F)) :
    named (parts ++ [part]) = named parts ++ [(partName parts.length, part)] := by
  unfold named
  rw [List.zipIdx_append, List.map_append]
  simp

theorem names (parts : List (List (Row F))) : (named parts).map Prod.fst = (List.range parts.length).map partName := by
  unfold named
  rw [List.map_map, List.range_eq_range', ← List.zipIdx_map_snd, List.map_map]
  rfl

theorem names_nodup (parts : List (List (Row F))) : ((named parts).map Prod.fst).Nodup := by
  rw [names]
  exact List.Nodup.map partName_injective List.nodup_range

theorem appendFile_new {dir : Directory} {name : String} (h : name ∉ dir.map Prod.fst) (text : List Char) :
    appendFile dir name text = dir ++ [(name, text)] := by
  have hnone : (dir.any fun f => f.1 = name) = false := by
    rw [List.any_eq_false]
    intro f hf heq
    exact h (List.mem_map.mpr ⟨f, hf, by simpa using heq⟩)
  unfold appendFile
  rw [hnone]
  rfl

theorem files_names (parts : List (List (Row F))) : (files fmt parts).map Prod.fst = (List.range parts.length).map partName := by
  unfold files
  rw [List.map_map]
  exact names parts

theorem files_append (parts : List (List (Row F))) (part : List (Row F)) :
    appendFile (files fmt parts) (partName parts.length) (textOf fmt part) = files fmt (parts ++ [part]) := by
  have hnew : partName parts.length ∉ (files fmt parts).map Prod.fst := by
    rw [files_names]
    intro h
    obtain ⟨i, hi, heq⟩ := List.mem_map.mp h
    have hlt := List.mem_range.mp hi
    have := partName_injective heq
    omega
  rw [appendFile_new hnew]
  unfold files
  rw [named_append, List.map_append]
  rfl

/-- The rows taken so far are in full parts and in the buffer. -/
structure Filled (fmt : FloatFormat F) (w : Writer F) (rows : List (Row F)) (parts : List (List (Row F))) : Prop where
  full : ∀ p ∈ parts, p.length = w.bufferRows
  room : w.buffer.length < w.bufferRows
  content : parts.flatten ++ w.buffer = rows
  directory : w.tmpDir = files fmt parts
  index : w.partIndex = parts.length

/-- The session that a writer writes does not change. -/
def SameSession (w w' : Writer F) : Prop :=
  w'.scenarioId = w.scenarioId ∧ w'.modality = w.modality ∧ w'.bufferRows = w.bufferRows

theorem SameSession.trans {w w' w'' : Writer F} (h : SameSession w w') (h' : SameSession w' w'') : SameSession w w'' :=
  ⟨h'.1.trans h.1, h'.2.1.trans h.2.1, h'.2.2.trans h.2.2⟩

theorem filled_create (scenarioId : String) (modality : Modality) (bufferRows : Int) :
    Filled fmt (Writer.create scenarioId modality bufferRows) [] [] where
  full := nofun
  room := by
    simp only [Writer.create, List.length_nil]
    omega
  content := rfl
  directory := rfl
  index := rfl

theorem filled_bufferRow {w : Writer F} {rows : List (Row F)} {parts : List (List (Row F))} (h : Filled fmt w rows parts)
    (row : Row F) :
    SameSession w (bufferRow fmt w row) ∧ ∃ parts', Filled fmt (bufferRow fmt w row) (rows ++ [row]) parts' := by
  have hroom := h.room
  unfold bufferRow
  simp only [List.length_append, List.length_singleton]
  by_cases hfull : w.bufferRows ≤ w.buffer.length + 1
  · -- the row fills the buffer, which becomes the next part
    have hne : w.buffer ++ [row] ≠ [] := by simp
    rw [if_pos hfull, flush, if_neg hne]
    refine ⟨⟨rfl, rfl, rfl⟩, parts ++ [w.buffer ++ [row]], ?_, ?_, ?_, ?_, ?_⟩
    · intro p hp
      rcases List.mem_append.mp hp with hp | hp
      · exact h.full p hp
      · rw [List.mem_singleton.mp hp, List.length_append, List.length_singleton]
        show w.buffer.length + 1 = w.bufferRows
        omega
    · show 0 < w.bufferRows
      omega
    · rw [← h.content]
      simp
    · show appendFile w.tmpDir (partName w.partIndex) (textOf fmt (w.buffer ++ [row])) = _
      rw [h.directory, h.index, files_append]
    · show w.partIndex + 1 = _
      rw [List.length_append, List.length_singleton, h.index]
  · rw [if_neg hfull]
    refine ⟨⟨rfl, rfl, rfl⟩, parts, h.full, ?_, ?_, h.directory, h.index⟩
    · show (w.buffer ++ [row]).length < w.bufferRows
      rw [List.length_append, List.length_singleton]
      omega
    · rw [← List.append_assoc, h.content]

theorem filled_writeRows {w : Writer F} {rows : List (Row F)} {parts : List (List (Row F))} (h : Filled fmt w rows parts)
    {call : List (Row F)} (hcall : ∀ row ∈ call, Fits fmt w.modality row) :
    ∃ w', writeRows fmt w call = .ok w' ∧ SameSession w w' ∧ ∃ parts', Filled fmt w' (rows ++ call) parts' := by
  induction call generalizing w rows parts with
  | nil => exact ⟨w, rfl, ⟨rfl, rfl, rfl⟩, parts, by rwa [List.append_nil]⟩
  | cons row call ih =>
    have hrow := hcall row List.mem_cons_self
    obtain ⟨hsame, parts', hfilled⟩ := filled_bufferRow h row
    obtain ⟨w', hw', hsame', hfilled'⟩ := ih hfilled fun r hr => by
      rw [hsame.2.1]
      exact hcall r (List.mem_cons_of_mem row hr)
    refine ⟨w', ?_, hsame.trans hsame', by rwa [List.append_assoc] at hfilled'⟩
    rw [writeRows, fits_missing hrow, fits_unknown hrow]
    simpa using hw'

/-- Every sequence of calls is taken, whatever the batches. -/
theorem filled_writeAll {w : Writer F} {rows : List (Row F)} {parts : List (List (Row F))} (h : Filled fmt w rows parts)
    {calls : List (List (Row F))} (hcalls : ∀ row ∈ calls.flatten, Fits fmt w.modality row) :
    ∃ w', writeAll fmt w calls = .ok w' ∧ SameSession w w' ∧ ∃ parts', Filled fmt w' (rows ++ calls.flatten) parts' := by
  induction calls generalizing w rows parts with
  | nil => exact ⟨w, rfl, ⟨rfl, rfl, rfl⟩, parts, by rwa [List.flatten_nil, List.append_nil]⟩
  | cons call calls ih =>
    rw [List.flatten_cons, List.forall_mem_append] at hcalls
    obtain ⟨w', hw', hsame, parts', hfilled⟩ := filled_writeRows h hcalls.1
    obtain ⟨w'', hw'', hsame', hfilled'⟩ := ih hfilled fun r hr => by
      rw [hsame.2.1]
      exact hcalls.2 r hr
    refine ⟨w'', ?_, hsame.trans hsame', by rwa [List.flatten_cons, ← List.append_assoc]⟩
    unfold writeAll at hw'' ⊢
    rw [List.foldlM_cons, hw']
    exact hw''

theorem marker_removed (parts : List (List (Row F))) :
    (appendFile (files fmt parts) "_FINALIZING" []).filter (fun f => f.1 ≠ "_FINALIZING") = files fmt parts := by
  have hother : ∀ f ∈ files fmt parts, f.1 ≠ "_FINALIZING" := by
    intro f hf heq
    have hname : f.1 ∈ (files fmt parts).map Prod.fst := List.mem_map_of_mem hf
    rw [files_names] at hname
    obtain ⟨i, -, hi⟩ := List.mem_map.mp hname
    exact partName_ne_marker i (hi.trans heq)
  have hnew : "_FINALIZING" ∉ (files fmt parts).map Prod.fst := by
    intro h
    obtain ⟨f, hf, heq⟩ := List.mem_map.mp h
    exact hother f hf heq
  rw [appendFile_new hnew, List.filter_append, List.filter_eq_self.mpr fun f hf => by simpa using hother f hf]
  simp

theorem flatten_length {α : Type} {parts : List (List α)} {k : Nat} (h : ∀ p ∈ parts, p.length = k) :
    parts.flatten.length = parts.length * k := by
  induction parts with
  | nil => simp
  | cons p parts ih =>
    rw [List.flatten_cons, List.length_append, h p List.mem_cons_self, ih fun q hq => h q (List.mem_cons_of_mem p hq),
      List.length_cons, Nat.succ_mul, Nat.add_comm]

/-- The directory that finalising leaves: its parts are not empty, hold the rows in
order and are as many as the buffer makes them. -/
theorem finalize_files {w : Writer F} {rows : List (Row F)} {parts : List (List (Row F))} (h : Filled fmt w rows parts)
    (store : Store) : ∃ parts', finalize fmt store w w.modality w.scenarioId = some (files fmt parts') ∧
      parts'.flatten = rows ∧ (∀ p ∈ parts', p ≠ []) ∧
      ∀ limit, parts'.length ≤ limit ↔ rows.length ≤ limit * w.bufferRows := by
  have hroom := h.room
  have hlength := flatten_length h.full
  have hfull : ∀ p ∈ parts, p ≠ [] := by
    rintro p hp rfl
    have := h.full [] hp
    rw [List.length_nil] at this
    omega
  by_cases hbuffer : w.buffer = []
  · refine ⟨parts, ?_, ?_, hfull, fun limit => ?_⟩
    · unfold finalize flush
      rw [if_pos hbuffer, h.directory, marker_removed]
      simp
    · rw [← h.content, hbuffer, List.append_nil]
    · rw [← h.content, hbuffer, List.append_nil, hlength]
      exact (Nat.mul_le_mul_right_iff (by omega)).symm
  · refine ⟨parts ++ [w.buffer], ?_, ?_, ?_, fun limit => ?_⟩
    · unfold finalize flush
      rw [if_neg hbuffer]
      simp only
      rw [h.directory, h.index]
      have happend : appendFile (files fmt parts) (partName parts.length)
          (w.buffer.flatMap fun row => dumps fmt row ++ ['\n']) = files fmt (parts ++ [w.buffer]) := files_append parts w.buffer
      rw [happend, marker_removed]
      simp
    · rw [← h.content]
      simp
    · intro p hp
      rcases List.mem_append.mp hp with hp | hp
      · exact hfull p hp
      · rw [List.mem_singleton.mp hp]
        exact hbuffer
    · have hpos := List.length_pos_of_ne_nil hbuffer
      rw [← h.content, List.length_append, List.length_append, hlength, List.length_singleton]
      constructor
      · intro hle
        have := Nat.mul_le_mul_right w.bufferRows hle
        rw [Nat.add_mul] at this
        omega
      · intro hle
        have : parts.length * w.bufferRows < limit * w.bufferRows := by omega
        have := Nat.lt_of_mul_lt_mul_right this
        omega

/-! ## Reading a part -/

theorem writeMembersIn_last (ms : List (String × Json F)) : ∃ t, writeMembersIn fmt defaultStyle ms = t ++ ['\x7d'] := by
  induction ms with
  | nil => exact ⟨[], by rw [writeMembersIn]; rfl⟩
  | cons m ms ih =>
    obtain ⟨t, ht⟩ := ih
    refine ⟨',' :: (defaultStyle.comma ++ (writeMemberIn fmt defaultStyle m ++ t)), ?_⟩
    rw [writeMembersIn, ht]
    simp

/-- The text of a row stands in braces. -/
theorem dumps_braces (row : Row F) : ∃ middle, dumps fmt row = '\x7b' :: middle ++ ['\x7d'] := by
  unfold dumps
  cases row with
  | nil => exact ⟨[], by rw [writeIn]; rfl⟩
  | cons m ms =>
    obtain ⟨t, ht⟩ := writeMembersIn_last ms
    refine ⟨writeMemberIn fmt defaultStyle m ++ t, ?_⟩
    rw [writeIn, ht]
    simp

theorem strip_dumps (row : Row F) :
    strip (String.ofList (dumps fmt row ++ ['\n'])) = String.ofList (dumps fmt row) := by
  obtain ⟨middle, hm⟩ := dumps_braces row
  rw [hm]
  exact strip_line (by decide) (by decide)

theorem dumps_one_line {row : Row F} (h : Writable fmt (.obj row)) : ∀ c ∈ dumps fmt row, c ≠ '\r' ∧ c ≠ '\n' := by
  intro c hc
  have hprintable := printable_writeIn h c hc
  constructor
  · rintro rfl
    exact absurd hprintable (by decide)
  · rintro rfl
    exact absurd hprintable (by decide)

/-- A part gives its rows back, in order. -/
theorem readLines_textOf {rows : List (Row F)} (h : ∀ row ∈ rows, Writable fmt (.obj row)) :
    readLines fmt (fileLines (textOf fmt rows)) = .ok (rows.map .obj) := by
  induction rows with
  | nil => rfl
  | cons row rows ih =>
    have hrow := h row List.mem_cons_self
    have htext : textOf fmt (row :: rows) = dumps fmt row ++ '\n' :: textOf fmt rows := by
      simp [textOf]
    have hne : String.ofList (dumps fmt row) ≠ "" := by
      obtain ⟨middle, hm⟩ := dumps_braces row
      rw [hm]
      intro heq
      exact absurd (congrArg String.toList heq) (by simp)
    have hread : read fmt (String.ofList (dumps fmt row)).toList = some (.obj row) := by
      rw [String.toList_ofList]
      exact read_writeIn defaultStyle hrow
    rw [htext, fileLines_append (dumps_one_line hrow), readLines]
    simp only [strip_dumps, if_neg hne, hread, ih fun r hr => h r (List.mem_cons_of_mem row hr)]
    rfl

theorem readParts_named {entries : List (String × List (Row F))}
    (h : ∀ e ∈ entries, ∀ row ∈ e.2, Writable fmt (.obj row)) :
    readParts fmt (entries.map fun e => (e.1, textOf fmt e.2)) = .ok ((entries.flatMap Prod.snd).map .obj) := by
  induction entries with
  | nil => rfl
  | cons e entries ih =>
    rw [List.map_cons, readParts, readLines_textOf (h e List.mem_cons_self),
      ih fun e' he' => h e' (List.mem_cons_of_mem e he'), List.flatMap_cons, List.map_append]
    rfl

/-- The parts in the order of their names, whatever the order of the scan. -/
theorem sorted_files (fs : FileSystem) (parts : List (List (Row F))) :
    sortBy Prod.fst ((fs.scan (files fmt parts)).filter fun f => "part-".toList.isPrefixOf f.1.toList) =
      (sortBy Prod.fst (named parts)).map fun e => (e.1, textOf fmt e.2) := by
  have hparts : ∀ f ∈ files fmt parts, "part-".toList.isPrefixOf f.1.toList = true := by
    intro f hf
    have hname : f.1 ∈ (files fmt parts).map Prod.fst := List.mem_map_of_mem hf
    rw [files_names] at hname
    obtain ⟨i, -, hi⟩ := List.mem_map.mp hname
    rw [← hi]
    exact partName_part i
  have hperm := (fs.scan_perm (files fmt parts)).filter fun f => "part-".toList.isPrefixOf f.1.toList
  rw [List.filter_eq_self.mpr hparts] at hperm
  have hnodup : ((files fmt parts).map Prod.fst).Nodup := by
    rw [files_names, ← names]
    exact names_nodup parts
  have hmap : (sortBy Prod.fst (named parts)).map (fun e => (e.1, textOf fmt e.2)) =
      sortBy Prod.fst ((named parts).map fun e => (e.1, textOf fmt e.2)) := sortBy_map fun a _ b _ => Iff.rfl
  rw [← sortBy_congr hperm.symm hnodup, hmap]
  rfl

theorem mem_named {parts : List (List (Row F))} {e : String × List (Row F)} (h : e ∈ named parts) : e.2 ∈ parts := by
  obtain ⟨p, hp, rfl⟩ := List.mem_map.mp h
  obtain ⟨i, hi⟩ := List.mem_iff_getElem?.mp hp
  rw [List.getElem?_zipIdx] at hi
  obtain ⟨part, hpart, heq⟩ := Option.map_eq_some_iff.mp hi
  rw [← heq]
  exact List.mem_of_getElem? hpart

theorem iterParts_files (fs : FileSystem) {store : Store} {scenarioId : String} {modality : Modality}
    {parts : List (List (Row F))} (hstore : store modality scenarioId = some (files fmt parts))
    (h : ∀ row ∈ parts.flatten, Writable fmt (.obj row)) :
    iterParts fmt fs store scenarioId modality =
      .ok (((sortBy Prod.fst (named parts)).flatMap Prod.snd).map .obj) := by
  unfold iterParts
  rw [hstore]
  simp only
  rw [sorted_files]
  refine readParts_named fun e he row hrow => h row ?_
  exact List.mem_flatten.mpr ⟨e.2, mem_named ((mem_sortBy).mp he), hrow⟩

/-! ## The order of the parts -/

theorem named_rows (parts : List (List (Row F))) : (named parts).flatMap Prod.snd = parts.flatten := by
  unfold named
  rw [List.flatMap_map, List.flatMap_def, ← List.zipIdx_map_fst 0 parts]
  simp

/-- With at most a hundred thousand parts the names are in the order of writing. -/
theorem sorted_named {parts : List (List (Row F))} (h : parts.length ≤ 100000) :
    sortBy Prod.fst (named parts) = named parts := by
  apply sortBy_eq_self
  rw [← List.pairwise_map (f := Prod.fst) (R := fun a b => a ≤ b), names, List.pairwise_map]
  refine (List.pairwise_lt_range (n := parts.length)).imp_of_mem ?_
  intro m n _ hn hlt
  have hn := List.mem_range.mp hn
  exact le_of_lt (partName_lt (by omega) hlt)

/-- In a list without repetition two members have one order. -/
theorem sublist_pair_asymm {α : Type} {l : List α} (h : l.Nodup) {a b : α} (hab : [a, b].Sublist l)
    (hba : [b, a].Sublist l) : False := by
  induction l with
  | nil => cases hab
  | cons c l ih =>
    rw [List.nodup_cons] at h
    cases hab with
    | cons _ hab =>
      cases hba with
      | cons _ hba => exact ih h.2 hab hba
      | cons_cons _ hba => exact h.1 (hab.subset (by simp))
    | cons_cons _ hab =>
      cases hba with
      | cons _ hba => exact h.1 (hba.subset (by simp))
      | cons_cons _ hba => exact h.1 (hab.subset (by simp))

theorem sublist_flatMap {α β : Type} {l : List α} {f : α → List β} {p q : α} (h : [p, q].Sublist l) {x y : β}
    (hx : x ∈ f p) (hy : y ∈ f q) : [x, y].Sublist (l.flatMap f) := by
  have hparts : ([p, q].flatMap f).Sublist (l.flatMap f) := h.flatMap f
  have hxy : ([x] ++ [y]).Sublist (f p ++ f q) :=
    (List.singleton_sublist.mpr hx).append (List.singleton_sublist.mpr hy)
  refine List.Sublist.trans ?_ hparts
  simpa using hxy

/-- In an ascending list the lesser of two members comes first. -/
theorem sublist_of_lt {α κ : Type} [LinearOrder κ] {key : α → κ} {l : List α} (h : l.Pairwise fun a b => key a ≤ key b)
    {a b : α} (ha : a ∈ l) (hb : b ∈ l) (hlt : key a < key b) : [a, b].Sublist l := by
  induction l with
  | nil => cases ha
  | cons c l ih =>
    rw [List.pairwise_cons] at h
    rcases List.mem_cons.mp ha with rfl | hal
    · rcases List.mem_cons.mp hb with rfl | hbl
      · exact absurd hlt (lt_irrefl _)
      · exact (List.singleton_sublist.mpr hbl).cons_cons _
    · rcases List.mem_cons.mp hb with rfl | hbl
      · exact absurd (h.1 a hal) (not_le.mpr hlt)
      · exact (ih h.2 hal hbl).cons _

theorem sublist_getElem {α : Type} {l : List α} {i j : Nat} (hij : i < j) (hj : j < l.length) :
    [l[i], l[j]].Sublist l := by
  have hsplit : l = l.take j ++ l.drop j := (List.take_append_drop j l).symm
  have hi : l[i] ∈ l.take j := List.mem_take_iff_getElem.mpr ⟨i, by omega, rfl⟩
  have hdrop : l[j] ∈ l.drop j := List.mem_drop_iff_getElem.mpr ⟨0, by omega, by simp⟩
  have hpair := (List.singleton_sublist.mpr hi).append (List.singleton_sublist.mpr hdrop)
  rw [← hsplit] at hpair
  exact hpair

/-- From one part more on, rows of the part with the first number of six digits are
read too early. -/
theorem reordered {parts : List (List (Row F))} (hne : ∀ p ∈ parts, p ≠ []) (h : 100000 < parts.length)
    (hnodup : parts.flatten.Nodup) : (sortBy Prod.fst (named parts)).flatMap Prod.snd ≠ parts.flatten := by
  intro heq
  have hpart : ∀ (i : Nat) (hi : i < parts.length), (partName i, parts[i]) ∈ named parts ∧ ∃ row, row ∈ parts[i] := by
    intro i hi
    refine ⟨List.mem_map.mpr ⟨(parts[i], i), ?_, rfl⟩, List.exists_mem_of_ne_nil _ (hne _ (List.getElem_mem hi))⟩
    exact List.mem_zipIdx_iff_getElem?.mpr (List.getElem?_eq_getElem hi)
  obtain ⟨hearly, a, ha⟩ := hpart 10001 (by omega)
  obtain ⟨hlate, b, hb⟩ := hpart 100000 h
  have hwritten : [a, b].Sublist parts.flatten := by
    have hpair := sublist_flatMap (f := id) (sublist_getElem (show 10001 < 100000 by decide) h) ha hb
    rwa [List.flatMap_id] at hpair
  have hread : [b, a].Sublist ((sortBy Prod.fst (named parts)).flatMap Prod.snd) :=
    sublist_flatMap (sublist_of_lt (sortBy_pairwise _ _) ((mem_sortBy).mpr hlate) ((mem_sortBy).mpr hearly)
      partName_out_of_order) hb ha
  rw [heq] at hread
  exact sublist_pair_asymm hnodup hwritten hread

/-! ## The round trip -/

/-- The calls are taken, and after finalising the reader gives their rows in order. -/
def RoundTrips (fmt : FloatFormat F) (fs : FileSystem) (store : Store) (scenarioId : String) (modality : Modality)
    (bufferRows : Int) (calls : List (List (Row F))) : Prop :=
  ∃ w, writeAll fmt (Writer.create scenarioId modality bufferRows) calls = .ok w ∧
    iterParts fmt fs (finalize fmt store w) scenarioId modality = .ok (calls.flatten.map .obj)

/-- What the reader gives is the rows of the parts in the order of the part names. -/
theorem roundTrips_iff (fs : FileSystem) (store : Store) (scenarioId : String) {modality : Modality} {bufferRows : Int}
    (hb : 1 ≤ bufferRows) {calls : List (List (Row F))} (h : ∀ row ∈ calls.flatten, Fits fmt modality row) :
    ∃ parts, parts.flatten = calls.flatten ∧ (∀ p ∈ parts, p ≠ []) ∧
      (parts.length ≤ 100000 ↔ (calls.flatten.length : Int) ≤ 100000 * bufferRows) ∧
      (RoundTrips fmt fs store scenarioId modality bufferRows calls ↔
        (sortBy Prod.fst (named parts)).flatMap Prod.snd = parts.flatten) := by
  obtain ⟨w, hw, ⟨hscenario, hmodality, hrows⟩, parts, hfilled⟩ :=
    filled_writeAll (filled_create scenarioId modality bufferRows) h
  obtain ⟨parts', hstore, hflat, hne, hlimit⟩ := finalize_files hfilled store
  rw [List.nil_append] at hflat hlimit
  have hstore' : finalize fmt store w modality scenarioId = some (files fmt parts') := by
    have hm : w.modality = modality := hmodality
    have hs : w.scenarioId = scenarioId := hscenario
    rwa [hm, hs] at hstore
  have hread := iterParts_files fs hstore' fun row hrow => (h row (by rwa [← hflat])).1
  have hbuffer : (w.bufferRows : Int) = bufferRows := by
    rw [hrows]
    simp only [Writer.create]
    omega
  refine ⟨parts', hflat, hne, ?_, ?_⟩
  · rw [hlimit, ← hbuffer]
    omega
  · constructor
    · rintro ⟨w', hw', hread'⟩
      rw [hw] at hw'
      cases hw'
      rw [hread, ← hflat] at hread'
      exact List.map_injective_iff.mpr (fun _ _ heq => Json.obj.inj heq) (Except.ok.inj hread')
    · intro heq
      refine ⟨w, hw, ?_⟩
      rw [hread, heq, hflat]

/-- With at most a hundred thousand parts the reader gives the rows as they were
written; with more of them it does not, when no two rows are the same. -/
theorem round_trip_when (fs : FileSystem) (store : Store) (scenarioId : String) {modality : Modality} {bufferRows : Int}
    (hb : 1 ≤ bufferRows) {calls : List (List (Row F))} (h : ∀ row ∈ calls.flatten, Fits fmt modality row) :
    ((calls.flatten.length : Int) ≤ 100000 * bufferRows →
      RoundTrips fmt fs store scenarioId modality bufferRows calls) ∧
    (calls.flatten.Nodup → RoundTrips fmt fs store scenarioId modality bufferRows calls →
      (calls.flatten.length : Int) ≤ 100000 * bufferRows) := by
  obtain ⟨parts, hflat, hne, hlimit, hiff⟩ := roundTrips_iff fs store scenarioId hb h
  rw [hiff, ← hlimit]
  constructor
  · intro hle
    rw [sorted_named hle, named_rows]
  · intro hnodup heq
    by_contra hlt
    exact reordered hne (by omega) (hflat ▸ hnodup) heq

/-! ### Rows of one window each -/

def asListed : FileSystem where
  scan := id
  scan_perm := fun dir => List.Perm.refl dir

/-- A row with its window and nothing else to say. -/
def windowRow (window : Nat) : Row Unit :=
  communicationFieldTypes.map fun f => (f, if f = "window_id" then .int window else .null)

theorem windowRow_fits (window : Nat) : Fits PythonJson.nanOnly.toFloatFormat .communication (windowRow window) := by
  have hkeys : (windowRow window).map Prod.fst = communicationFieldTypes := by
    unfold windowRow
    rw [List.map_map]
    exact List.map_id _
  refine ⟨.obj _ ?_ ?_, fun f => by rw [hkeys]; rfl⟩
  · rw [hkeys]
    decide
  · intro m hm
    obtain ⟨f, -, rfl⟩ := List.mem_map.mp hm
    dsimp only
    split
    · exact .int _
    · exact .null

theorem windowRow_injective : Function.Injective windowRow := by
  intro m n h
  have hmem : (("window_id", .int (m : Int)) : String × Json Unit) ∈ windowRow n := by
    rw [← h]
    exact List.mem_map.mpr ⟨"window_id", by decide, by simp⟩
  obtain ⟨f, -, heq⟩ := List.mem_map.mp hmem
  obtain ⟨rfl, hvalue⟩ := Prod.mk.inj heq
  rw [if_pos rfl] at hvalue
  have := Json.int.inj hvalue
  omega

theorem round_trip_when_three : RoundTrips PythonJson.nanOnly.toFloatFormat asListed (fun _ _ => none) "s1" .communication 2
    [[windowRow 4, windowRow 5], [], [windowRow 7]] := by
  have hfits : ∀ row ∈ [[windowRow 4, windowRow 5], [], [windowRow 7]].flatten,
      Fits PythonJson.nanOnly.toFloatFormat .communication row := by
    intro row hrow
    have hcases : row = windowRow 4 ∨ row = windowRow 5 ∨ row = windowRow 7 := by simpa using hrow
    rcases hcases with rfl | rfl | rfl <;> exact windowRow_fits _
  exact (round_trip_when asListed (fun _ _ => none) "s1" (by decide) hfits).1 (by decide)

/-- A hundred thousand and one rows, one a part: the last is read before the row of
window 10001. -/
theorem last_part_early :
    (∀ row ∈ [(List.range 100001).map windowRow].flatten, Fits PythonJson.nanOnly.toFloatFormat .communication row) ∧
    ¬ RoundTrips PythonJson.nanOnly.toFloatFormat asListed (fun _ _ => none) "s1" .communication 1
      [(List.range 100001).map windowRow] := by
  have hflatten : [(List.range 100001).map windowRow].flatten = (List.range 100001).map windowRow := by simp
  have hfits : ∀ row ∈ [(List.range 100001).map windowRow].flatten,
      Fits PythonJson.nanOnly.toFloatFormat .communication row := by
    rw [hflatten]
    intro row hrow
    obtain ⟨i, -, rfl⟩ := List.mem_map.mp hrow
    exact windowRow_fits i
  refine ⟨hfits, fun htrip => ?_⟩
  obtain ⟨parts, hflat, hne, hlimit, hiff⟩ :=
    roundTrips_iff asListed (fun _ _ => none) "s1" (show (1 : Int) ≤ 1 by decide) hfits
  have hlength : [(List.range 100001).map windowRow].flatten.length = 100001 := by
    rw [hflatten, List.length_map, List.length_range]
  have hmany : 100000 < parts.length := by
    rw [hlength] at hlimit
    omega
  refine reordered hne hmany ?_ (hiff.mp htrip)
  rw [hflat, hflatten]
  exact List.Nodup.map windowRow_injective List.nodup_range

end FeatureStore
