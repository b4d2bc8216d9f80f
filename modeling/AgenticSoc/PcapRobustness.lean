import AgenticSoc.PcapTimes
import AgenticSoc.ClassicPcap

/-!
# Damaged captures

What the readers do with arbitrary octets behind an accepted magic number, and with captures
that were cut off inside a block.
-/
namespace PcapRobustness

open ByteOrder PcapReader PcapContent PcapFraming PcapCaptures PcapTimes ClassicPcap

/-! ## The head of a block -/

def headType (r : Reader) : Nat := value (headOrder r) (r.file.rest.take 4)

def headLength (r : Reader) : Nat := value (headOrder r) ((r.file.rest.drop 4).take 4)

/-- A turn by the type and the length of the block. -/
theorem turn_block {r : Reader} (h : 8 ≤ r.file.rest.length) :
    turn r = if r.endian = none ∧ headType r ≠ blockShb then
        .raises (.pcapFormatError "PCAPNG must start with a Section Header Block") { r with file := r.file.advance 8 }
      else readBlock (headType r) (headLength r) { r with file := r.file.advance 8 } := by
  have hx : (r.file.rest.take 4).length = 4 := by
    rw [List.length_take]
    omega
  have hy : ((r.file.rest.drop 4).take 4).length = 4 := by
    rw [List.length_take, List.length_drop]
    omega
  have hsplit : r.file.rest.take 8 = r.file.rest.take 4 ++ (r.file.rest.drop 4).take 4 := List.take_add (i := 4) (j := 4)
  have hlength : (r.file.rest.take 8).length = 8 := by rw [hsplit, List.length_append, hx, hy]
  have hprobe : (r.endian = none ∧ value .little (r.file.rest.take 4) ≠ blockShb) ↔
      (r.endian = none ∧ headType r ≠ blockShb) := by
    refine and_congr_right fun hnone => ?_
    rw [headType, headOrder, hnone]
    rfl
  simp only [turn, readExact_eq, hlength]
  rw [if_neg (by decide), if_neg (by decide), hsplit, unpack_pair hx hy, unpack_pair hx hy]
  exact if_congr hprobe rfl rfl

theorem turn_headless {r : Reader} (h0 : 0 < r.file.rest.length) (h : r.file.rest.length < 8) :
    turn r = .stops (Reader.truncated { r with file := r.file.advance 8 }) := by
  have hlength : (r.file.rest.take 8).length = r.file.rest.length := by
    rw [List.length_take]
    omega
  simp only [turn, readExact_eq, hlength]
  rw [if_neg (by omega), if_pos h]

/-! ## Errors of a turn -/

/-- No error but a format error. -/
def Turn.Tame : Turn → Prop
  | .raises e _ => ∃ message, e = .pcapFormatError message
  | _ => True

theorem trailer_tame {r : Reader} {next : Reader → Turn} :
    Turn.Tame (readTrailer r next) ↔ (4 ≤ r.file.rest.length → Turn.Tame (next { r with file := r.file.advance 4 })) := by
  by_cases h : 4 ≤ r.file.rest.length
  · rw [trailer_whole h]
    exact ⟨fun ht _ => ht, fun ht => ht h⟩
  · have hshort : (r.file.rest.take 4).length < 4 := by
      rw [List.length_take]
      omega
    simp only [readTrailer, readExact_eq, if_pos hshort]
    exact ⟨fun _ h' => absurd h' h, fun _ => trivial⟩

theorem unpackWords_whole (o : Order) {widths : List Nat} {bs : List UInt8} (h : bs.length = widths.sum) :
    ∃ words, unpackWords (some o) widths bs = .ok words ∧ words.length = widths.length := by
  obtain ⟨words, hwords, hlength⟩ := unpack_whole o h
  exact ⟨words, by rw [unpackWords, hwords], hlength⟩

theorem unpackWords_short (o : Order) {widths : List Nat} {bs : List UInt8} (h : bs.length < widths.sum) :
    unpackWords (some o) widths bs = .error .structError := by
  rw [unpackWords, unpack_short o h]

/-- A section header needs its byte-order magic. -/
theorem header_tame {n : Nat} {r : Reader} : Turn.Tame (sectionHeader n r) ↔ 4 ≤ r.file.rest.length := by
  by_cases h : 4 ≤ r.file.rest.length
  · have hmagic : (r.file.rest.take 4).length = [4].sum := by
      rw [List.length_take]
      exact Nat.min_eq_left h
    obtain ⟨words, hwords, hlength⟩ := unpackWords_whole .little hmagic
    obtain ⟨bom, rfl⟩ := List.length_eq_one_iff.mp hlength
    refine ⟨fun _ => h, fun _ => ?_⟩
    simp only [sectionHeader, readExact_eq, skip_eq, hwords]
    split
    · exact (trailer_tame).mpr fun _ => trivial
    · split
      · exact (trailer_tame).mpr fun _ => trivial
      · exact ⟨_, rfl⟩
  · have hmagic : (r.file.rest.take 4).length < [4].sum := by
      rw [List.length_take, List.sum_singleton]
      omega
    refine ⟨fun ht => ?_, fun h' => absurd h' h⟩
    simp only [sectionHeader, readExact_eq, unpackWords_short .little hmagic] at ht
    obtain ⟨message, hmessage⟩ := ht
    cases hmessage

/-- An interface block that is there as declared needs room for its fields. -/
theorem interface_tame {n : Nat} {r : Reader} {o : Order} (hendian : r.endian = some o) :
    Turn.Tame (interfaceDescription n r) ↔ ¬ (n < 8 ∧ n + 4 ≤ r.file.rest.length) := by
  by_cases hwhole : n - min n 512 ≤ (r.file.advance (min n 512)).rest.length
  · have hrest : ((r.file.advance (min n 512)).advance (n - min n 512)).rest.length = r.file.rest.length - n := by
      rw [advance_advance, advance_rest, List.length_drop]
      omega
    simp only [interfaceDescription, readExact_eq, skip_eq, decide_eq_true hwhole, Bool.not_true, Bool.false_eq_true, if_false,
      trailer_tame, hrest, hendian]
    by_cases hn : n < 8
    · have hfields : ((r.file.rest.take (min n 512)).take 8).length < [2, 2, 4].sum := by
        simp only [List.length_take, List.sum_cons, List.sum_nil]
        omega
      rw [unpackWords_short o hfields]
      constructor
      · rintro ht ⟨-, hall⟩
        obtain ⟨message, hmessage⟩ := ht (by omega)
        cases hmessage
      · intro hnot hleft
        exact absurd ⟨hn, by omega⟩ hnot
    · refine ⟨fun _ h => hn h.1, fun _ hleft => ?_⟩
      have hfields : ((r.file.rest.take (min n 512)).take 8).length = [2, 2, 4].sum := by
        simp only [List.length_take, List.sum_cons, List.sum_nil]
        omega
      obtain ⟨words, hwords, -⟩ := unpackWords_whole o hfields
      rw [hwords]
      exact trivial
  · have hend : ¬ (n < 8 ∧ n + 4 ≤ r.file.rest.length) := by
      rw [advance_rest, List.length_drop] at hwhole
      omega
    simp only [interfaceDescription, readExact_eq, skip_eq, decide_eq_false hwhole]
    exact ⟨fun _ => hend, fun _ => trivial⟩

theorem close_tame (tsNs : Option Nat) (caplen wirelen : Nat) (data : List UInt8) (r : Reader) :
    Turn.Tame (closePacket tsNs caplen wirelen data r) := by
  rcases close_cases tsNs caplen wirelen data r with ⟨r', h⟩ | ⟨r', h⟩
  · rw [h]
    exact trivial
  · rw [h]
    exact trivial

theorem five_words {words : List Nat} (h : words.length = 5) : ∃ a b c d e, words = [a, b, c, d, e] := by
  rcases words with _ | ⟨a, _ | ⟨b, _ | ⟨c, _ | ⟨d, _ | ⟨e, _ | ⟨f, words⟩⟩⟩⟩⟩⟩
  case cons.cons.cons.cons.cons.nil => exact ⟨a, b, c, d, e, rfl⟩
  all_goals
    simp only [List.length_cons, List.length_nil] at h
    omega

theorem enhanced_tame {r : Reader} {o : Order} (hendian : r.endian = some o) : Turn.Tame (enhancedPacket r) := by
  simp only [enhancedPacket, readExact_eq, hendian]
  split
  · exact trivial
  · rename_i hlong
    have hhead : (r.file.rest.take 20).length = [4, 4, 4, 4, 4].sum := by
      rw [List.length_take] at hlong ⊢
      simp only [List.sum_cons, List.sum_nil]
      omega
    obtain ⟨words, hwords, hlength⟩ := unpackWords_whole o hhead
    obtain ⟨ifaceId, tsHi, tsLo, caplen, wirelen, rfl⟩ := five_words hlength
    rw [hwords]
    dsimp only
    split
    · exact ⟨_, rfl⟩
    · exact close_tame ..

theorem simple_tame {r : Reader} {o : Order} (hendian : r.endian = some o) : Turn.Tame (simplePacket r) := by
  simp only [simplePacket, readExact_eq, hendian]
  split
  · exact trivial
  · rename_i hlong
    have hhead : (r.file.rest.take 4).length = [4].sum := by
      rw [List.length_take] at hlong ⊢
      rw [List.sum_singleton]
      omega
    obtain ⟨words, hwords, hlength⟩ := unpackWords_whole o hhead
    obtain ⟨wirelen, rfl⟩ := List.length_eq_one_iff.mp hlength
    rw [hwords]
    dsimp only
    split
    · exact ⟨_, rfl⟩
    · exact close_tame ..

theorem other_tame (n : Nat) (r : Reader) : Turn.Tame (otherBlock n r) := by
  simp only [otherBlock, skip_eq]
  split
  · exact trivial
  · exact (trailer_tame).mpr fun _ => trivial

/-- A section header of which there is the head and less than the byte-order magic. -/
structure TornHeader (r : Reader) : Prop where
  head : 8 ≤ r.file.rest.length
  torn : r.file.rest.length < 12
  kind : headType r = blockShb
  declared : 12 ≤ headLength r ∧ headLength r ≤ maxSaneRecord

/-- An interface block that is there as declared, and declared without room for its fields. -/
structure ShortInterface (r : Reader) : Prop where
  inSection : r.endian ≠ none
  kind : headType r = blockIdb
  declared : 12 ≤ headLength r ∧ headLength r < 20
  whole : headLength r ≤ r.file.rest.length

/-- The errors of a turn are format errors, except on torn headers and short interfaces. -/
theorem turn_tame (r : Reader) : Turn.Tame (turn r) ↔ ¬ TornHeader r ∧ ¬ ShortInterface r := by
  by_cases h : 8 ≤ r.file.rest.length
  · have hafter : (r.file.advance 8).rest.length = r.file.rest.length - 8 := by rw [advance_rest, List.length_drop]
    rw [turn_block h]
    split
    · rename_i hfirst
      exact ⟨fun _ => ⟨fun ht => hfirst.2 ht.kind, fun hs => hs.inSection hfirst.1⟩, fun _ => ⟨_, rfl⟩⟩
    rename_i hfirst
    unfold readBlock
    split
    · rename_i hlimits
      refine ⟨fun _ => ⟨fun ht => ?_, fun hs => ?_⟩, fun _ => ⟨_, rfl⟩⟩
      · have hdeclared := ht.declared
        omega
      · have hdeclared := hs.declared
        have hsmall : 20 ≤ maxSaneRecord := by decide
        omega
    rename_i hlimits
    split
    · rename_i hshb
      rw [header_tame, hafter]
      constructor
      · refine fun hmagic => ⟨fun ht => ?_, fun hs => ?_⟩
        · have htorn := ht.torn
          omega
        · exact absurd (hshb.symm.trans hs.kind) (by decide)
      · intro hnot
        by_contra hshort
        exact hnot.1 ⟨h, by omega, hshb, by omega, by omega⟩
    rename_i hshb
    -- past the first block the order of the words is known
    obtain ⟨o, hendian⟩ : ∃ o, r.endian = some o := Option.ne_none_iff_exists'.mp fun hnone => hfirst ⟨hnone, hshb⟩
    have hheader : ¬ TornHeader r := fun ht => hshb ht.kind
    split
    · rename_i hidb
      rw [interface_tame (r := { r with file := r.file.advance 8 }) hendian, hafter]
      constructor
      · refine fun hroom => ⟨hheader, fun hs => hroom ?_⟩
        have hdeclared := hs.declared
        have hwhole := hs.whole
        omega
      · rintro ⟨-, hnot⟩ ⟨hroom, hwhole⟩
        exact hnot ⟨Option.ne_none_iff_exists'.mpr ⟨o, hendian⟩, hidb, by omega, by omega⟩
    rename_i hidb
    have hinterface : ¬ ShortInterface r := fun hs => hidb hs.kind
    refine ⟨fun _ => ⟨hheader, hinterface⟩, fun _ => ?_⟩
    split
    · exact enhanced_tame hendian
    split
    · exact simple_tame hendian
    · exact other_tame ..
  · have hstops : Turn.Tame (turn r) := by
      by_cases h0 : 0 < r.file.rest.length
      · rw [turn_headless h0 (by omega)]
        exact trivial
      · rw [turn_end (List.length_eq_zero_iff.mp (by omega))]
        exact trivial
    refine ⟨fun _ => ⟨fun ht => h ht.head, fun hs => ?_⟩, fun _ => hstops⟩
    have hdeclared := hs.declared
    have hwhole := hs.whole
    omega

/-! ## Records -/

/-- Every record has the number of octets that it says. -/
def Turn.Sized (t : Turn) : Prop := ∀ record, t.record = some record → record.data.length = record.caplen

theorem trailer_sized {r : Reader} {next : Reader → Turn}
    (h : 4 ≤ r.file.rest.length → Turn.Sized (next { r with file := r.file.advance 4 })) :
    Turn.Sized (readTrailer r next) := by
  by_cases hwhole : 4 ≤ r.file.rest.length
  · rw [trailer_whole hwhole]
    exact h hwhole
  · have hshort : (r.file.rest.take 4).length < 4 := by
      rw [List.length_take]
      omega
    simp only [readTrailer, readExact_eq, if_pos hshort]
    intro record hrecord
    cases hrecord

/-- The trailing length after the data is only there if the data is. -/
theorem close_sized (tsNs : Option Nat) (caplen wirelen : Nat) (fh : File) (r : Reader) (hfile : r.file = fh.advance caplen) :
    Turn.Sized (closePacket tsNs caplen wirelen (fh.rest.take caplen) r) := by
  simp only [closePacket, skip_eq]
  split
  · intro record hrecord
    cases hrecord
  · refine trailer_sized fun htrailer => ?_
    intro record hrecord
    rw [← Option.some.inj hrecord]
    rw [hfile, advance_advance, advance_rest, List.length_drop] at htrailer
    change (fh.rest.take caplen).length = caplen
    rw [List.length_take]
    omega

theorem proceed_sized {t : Turn} (h : t.record = none) : Turn.Sized t := by
  intro record hrecord
  rw [h] at hrecord
  cases hrecord

theorem header_record (n : Nat) (r : Reader) : Turn.Sized (sectionHeader n r) := by
  simp only [sectionHeader, readExact_eq, skip_eq]
  split
  · split
    · exact trailer_sized fun _ => proceed_sized rfl
    · split
      · exact trailer_sized fun _ => proceed_sized rfl
      · exact proceed_sized rfl
  · exact proceed_sized rfl
  · exact proceed_sized rfl

theorem interface_record (n : Nat) (r : Reader) : Turn.Sized (interfaceDescription n r) := by
  simp only [interfaceDescription, readExact_eq, skip_eq]
  split
  · exact proceed_sized rfl
  · refine trailer_sized fun _ => ?_
    split
    · exact proceed_sized rfl
    · exact proceed_sized rfl

theorem enhanced_sized (r : Reader) : Turn.Sized (enhancedPacket r) := by
  simp only [enhancedPacket, readExact_eq]
  split
  · exact proceed_sized rfl
  · split
    · split
      · exact proceed_sized rfl
      · exact close_sized _ _ _ (r.file.advance 20) _ rfl
    · exact proceed_sized rfl
    · exact proceed_sized rfl

theorem simple_sized (r : Reader) : Turn.Sized (simplePacket r) := by
  simp only [simplePacket, readExact_eq]
  split
  · exact proceed_sized rfl
  · split
    · split
      · exact proceed_sized rfl
      · exact close_sized _ _ _ (r.file.advance 4) _ rfl
    · exact proceed_sized rfl
    · exact proceed_sized rfl

theorem turn_sized (r : Reader) : Turn.Sized (turn r) := by
  by_cases h : 8 ≤ r.file.rest.length
  · rw [turn_block h]
    unfold readBlock
    split
    · exact proceed_sized rfl
    split
    · exact proceed_sized rfl
    split
    · exact header_record _ _
    split
    · exact interface_record _ _
    split
    · exact enhanced_sized _
    split
    · exact simple_sized _
    · simp only [otherBlock, skip_eq]
      split
      · exact proceed_sized rfl
      · exact trailer_sized fun _ => proceed_sized rfl
  · by_cases h0 : 0 < r.file.rest.length
    · rw [turn_headless h0 (by omega)]
      exact proceed_sized rfl
    · rw [turn_end (List.length_eq_zero_iff.mp (by omega))]
      exact proceed_sized rfl

/-! ## Whole runs -/

/-- The readers that the loop comes to. -/
inductive Reaches : Reader → Reader → Prop where
  | here (r : Reader) : Reaches r r
  | onward {r r' r'' : Reader} (h : (turn r).next = some r') (hreaches : Reaches r' r'') : Reaches r r''

/-- Every turn of the loop is one from a reader that it comes to, and conversely. -/
theorem turns_reached {r : Reader} {P : Turn → Prop} : (∀ t ∈ turns r, P t) ↔ ∀ r', Reaches r r' → P (turn r') := by
  constructor
  · intro hall r' hreaches
    induction hreaches with
    | here r =>
      refine hall _ ?_
      rw [turns]
      split <;> exact List.mem_cons_self ..
    | onward hnext _ ih =>
      refine ih fun t ht => hall t ?_
      rw [turns_next hnext]
      exact List.mem_cons_of_mem _ ht
  · intro hall
    induction hn : r.file.rest.length using Nat.strongRecOn generalizing r with
    | _ n ih =>
      cases hnext : (turn r).next with
      | none =>
        rw [turns_last hnext]
        intro t ht
        rw [List.mem_singleton.mp ht]
        exact hall r (.here r)
      | some r' =>
        rw [turns_next hnext]
        intro t ht
        rcases List.mem_cons.mp ht with rfl | ht
        · exact hall r (.here r)
        · exact ih _ (hn ▸ turn_shorter hnext) (fun s hs => hall s (.onward hnext hs)) rfl t ht

/-- Only the last turn can raise. -/
theorem tame_last (r : Reader) :
    (∀ t ∈ turns r, Turn.Tame t) ↔ ∀ t, (turns r).getLast? = some t → Turn.Tame t := by
  refine ⟨fun hall t ht => hall t (List.mem_of_getLast? ht), fun hlast => ?_⟩
  induction hn : r.file.rest.length using Nat.strongRecOn generalizing r with
  | _ n ih =>
    cases hnext : (turn r).next with
    | none =>
      intro t ht
      refine hlast t ?_
      rw [turns_last hnext] at ht ⊢
      rw [List.mem_singleton.mp ht]
      rfl
    | some r' =>
      rw [turns_next hnext, List.getLast?_cons_of_ne_nil (turns_ne_nil r')] at hlast
      rw [turns_next hnext]
      intro t ht
      rcases List.mem_cons.mp ht with rfl | ht
      · cases hturn : turn r with
        | raises e s => rw [hturn] at hnext; cases hnext
        | proceed s => exact trivial
        | yields record s => exact trivial
        | stops s => exact trivial
      · exact ih _ (hn ▸ turn_shorter hnext) r' hlast rfl t ht

/-- No error, or a format error. -/
def Harmless (error : Option ReadError) : Prop := error = none ∨ ∃ message, error = some (.pcapFormatError message)

theorem raised_harmless (bytes : List UInt8) :
    Harmless (raised bytes) ↔ ∀ r, Reaches (.start bytes) r → ¬ TornHeader r ∧ ¬ ShortInterface r := by
  have htame : (∀ r, Reaches (.start bytes) r → ¬ TornHeader r ∧ ¬ ShortInterface r) ↔
      ∀ r, Reaches (.start bytes) r → Turn.Tame (turn r) :=
    forall_congr' fun r => imp_congr_right fun _ => (turn_tame r).symm
  obtain ⟨t, hlast, -⟩ := turns_end (.start bytes)
  rw [htame, ← turns_reached, tame_last, hlast, raised, hlast]
  constructor
  · rintro h t' ht'
    rw [← Option.some.inj ht']
    cases t with
    | raises e s =>
      rcases h with h | ⟨message, h⟩
      · cases h
      · exact ⟨message, Option.some.inj h⟩
    | proceed s => exact trivial
    | yields record s => exact trivial
    | stops s => exact trivial
  · intro h
    cases t with
    | raises e s =>
      obtain ⟨message, rfl⟩ := h _ rfl
      exact .inr ⟨message, rfl⟩
    | proceed s => exact .inl rfl
    | yields record s => exact .inl rfl
    | stops s => exact .inl rfl

theorem records_sized (bytes : List UInt8) : ∀ record ∈ records bytes, record.data.length = record.caplen := by
  have hall : ∀ t ∈ turns (.start bytes), Turn.Sized t := (turns_reached).mpr fun r _ => turn_sized r
  intro record hrecord
  obtain ⟨t, ht, hof⟩ := List.mem_filterMap.mp hrecord
  exact hall t ht record hof

/-! ## Classic captures -/

theorem readRecords_robust (reader : ClassicPcapReader) (fh : File) (stats : ReaderStats) :
    Harmless (readRecords reader fh stats).error ∧
      ∀ record ∈ (readRecords reader fh stats).records, record.data.length = record.caplen := by
  fun_induction readRecords reader fh stats with
  | case1 fh stats h => exact ⟨.inl rfl, by simp⟩
  | case2 fh stats h h' => exact ⟨.inl rfl, by simp⟩
  | case3 fh stats h h' tsec tfrac caplen wirelen hwords hcaplen => exact ⟨.inr ⟨_, rfl⟩, by simp⟩
  | case4 fh stats h h' tsec tfrac caplen wirelen hwords hcaplen data hdata => exact ⟨.inl rfl, by simp⟩
  | case5 fh stats h h' tsec tfrac caplen wirelen hwords hcaplen data hdata tsNs record later ih =>
    refine ⟨ih.1, fun other hother => ?_⟩
    rcases List.mem_cons.mp hother with rfl | hother
    · have hread : data.length ≤ caplen := List.length_take_le ..
      change data.length = caplen
      omega
    · exact ih.2 other hother
  | case6 fh stats h h' hnone =>
    have hhead : (fh.read 16).1.length = [4, 4, 4, 4].sum := by
      have hread : (fh.read 16).1.length ≤ 16 := List.length_take_le ..
      simp only [List.sum_cons, List.sum_nil]
      omega
    obtain ⟨words, hwords, hlength⟩ := unpack_whole reader.endian hhead
    match words, hlength, hwords with
    | [tsec, tfrac, caplen, wirelen], _, hwords => exact absurd hwords (hnone tsec tfrac caplen wirelen)

theorem generate_robust (reader : ClassicPcapReader) (bytes : List UInt8) :
    Harmless (generate reader bytes).error ∧
      ∀ record ∈ (generate reader bytes).records, record.data.length = record.caplen := by
  simp only [generate]
  split
  · exact ⟨.inl rfl, by simp⟩
  · split
    · exact ⟨.inr ⟨_, rfl⟩, by simp⟩
    · exact readRecords_robust ..

/-! ## Cut captures -/

/-- The reader stops at a truncated tail. -/
def Turn.Cut (t : Turn) : Prop := ∃ r, t = .stops r ∧ r.stats.truncatedTail = true

theorem trailer_cut {r : Reader} {next : Reader → Turn} (h : r.file.rest.length < 4) : Turn.Cut (readTrailer r next) := by
  have hshort : (r.file.rest.take 4).length < 4 := by
    rw [List.length_take]
    omega
  simp only [readTrailer, readExact_eq, if_pos hshort]
  exact ⟨_, rfl, rfl⟩

theorem other_cut {n : Nat} {r : Reader} (h : r.file.rest.length < n + 4) : Turn.Cut (otherBlock n r) := by
  simp only [otherBlock, skip_eq]
  split
  · exact ⟨_, rfl, rfl⟩
  · refine trailer_cut ?_
    rw [advance_rest, List.length_drop]
    omega

theorem interface_cut {n : Nat} {r : Reader} (h : r.file.rest.length < n + 4) : Turn.Cut (interfaceDescription n r) := by
  simp only [interfaceDescription, readExact_eq, skip_eq]
  split
  · exact ⟨_, rfl, rfl⟩
  · refine trailer_cut ?_
    rw [advance_advance, advance_rest, List.length_drop]
    omega

theorem close_cut {tsNs : Option Nat} {caplen wirelen : Nat} {data : List UInt8} {r : Reader}
    (h : r.file.rest.length < padded caplen - caplen + 4) : Turn.Cut (closePacket tsNs caplen wirelen data r) := by
  simp only [closePacket, skip_eq]
  split
  · exact ⟨_, rfl, rfl⟩
  · refine trailer_cut ?_
    rw [advance_rest, List.length_drop]
    omega

theorem header_cut {h : SectionHeader} {r : Reader} {j : Nat} (hj : 4 ≤ j)
    (hrest : r.file.rest = (encode .little (Block.header h).body ++ bytes .little 4 (Block.header h).length).take j)
    (hcut : r.file.rest.length < size (Block.header h).body + 4) :
    Turn.Cut (sectionHeader (size (Block.header h).body) r) := by
  have hbody : encode .little (Block.header h).body = bytes .little 4 0x1A2B3C4D ++
      encode .little ([.word 2 h.major.toNat, .word 2 h.minor.toNat, .word 8 h.sectionLength.toNat] ++ h.options.layout) := by
    simp only [Block.body, List.cons_append, List.nil_append, encode_cons, Field.encode]
  have hmagic : r.file.rest.take 4 = bytes .little 4 0x1A2B3C4D := by
    rw [hrest, List.take_take, Nat.min_eq_left hj, hbody, List.append_assoc, List.take_left' (bytes_length ..)]
  have hword : unpackWords (some .little) [4] (bytes .little 4 0x1A2B3C4D) = .ok [0x1A2B3C4D] := by decide
  simp only [sectionHeader, readExact_eq, skip_eq, hmagic, hword, if_true]
  refine trailer_cut ?_
  have hsize : 16 ≤ size (Block.header h).body := by
    simp only [Block.body, size_append, size_cons, size_nil, Field.size]
    omega
  rw [advance_advance, advance_rest, List.length_drop]
  omega

theorem enhanced_cut {p : EnhancedPacket} {r : Reader} {j : Nat} (hendian : r.endian = some .little)
    (hrest : r.file.rest = (encode .little (Block.enhanced p).body ++ bytes .little 4 (Block.enhanced p).length).take j)
    (hcut : r.file.rest.length < size (Block.enhanced p).body + 4) (hsane : (Block.enhanced p).length ≤ maxSaneRecord)
    (hconsumed : Consumed (.enhanced p)) : Turn.Cut (enhancedPacket r) := by
  have hsize : size (Block.enhanced p).body = 20 + padded p.data.length := by
    rw [enhanced_size, show size p.options.layout = 0 from hconsumed, Nat.add_zero]
  have hpadded := le_padded p.data.length
  have hroom : p.data.length ≤ maxSaneRecord := by
    rw [Block.length] at hsane
    omega
  simp only [enhancedPacket, readExact_eq]
  split
  · exact ⟨_, rfl, rfl⟩
  rename_i hlong
  have hj : 20 ≤ j := by
    rw [hrest, List.take_take, List.length_take] at hlong
    omega
  have hhead : r.file.rest.take 20 = encode .little p.head := by
    have hbody : encode .little (Block.enhanced p).body = encode .little p.head ++
        encode .little (dataLayout p.data ++ p.options.layout) := by
      rw [Block.body, List.append_assoc, encode_append]
    rw [hrest, List.take_take, Nat.min_eq_left hj, hbody, List.append_assoc]
    refine List.take_left' ?_
    rw [encode_length]
    rfl
  have hwords : unpackWords (some .little) [4, 4, 4, 4, 4] (encode .little p.head) =
      .ok [p.interface.toNat, p.high.toNat, p.low.toNat, p.data.length, p.original.toNat] := by
    refine unpackWords_encode .little [(4, p.interface.toNat), (4, p.high.toNat), (4, p.low.toNat), (4, p.data.length),
      (4, p.original.toNat)] ?_
    have hsmall : maxSaneRecord < 256 ^ 4 := by decide
    have hfits : p.data.length < 256 ^ 4 := Nat.lt_of_le_of_lt hroom hsmall
    simp only [List.mem_cons, List.not_mem_nil, or_false, forall_eq_or_imp, forall_eq]
    exact ⟨word4_lt _, word4_lt _, word4_lt _, hfits, word4_lt _⟩
  rw [hhead, hendian, hwords]
  dsimp only
  rw [if_neg (by omega)]
  refine close_cut ?_
  rw [advance_advance, advance_rest, List.length_drop]
  omega

theorem simple_cut {p : SimplePacket} {r : Reader} {j : Nat} (hendian : r.endian = some .little)
    (hrest : r.file.rest = (encode .little (Block.simple p).body ++ bytes .little 4 (Block.simple p).length).take j)
    (hcut : r.file.rest.length < size (Block.simple p).body + 4) (hsane : (Block.simple p).length ≤ maxSaneRecord)
    (hconsumed : Consumed (.simple p)) : Turn.Cut (simplePacket r) := by
  have horiginal : p.original.toNat = p.data.length := hconsumed
  have hsize := simple_size p
  have hpadded := le_padded p.data.length
  have hroom : ¬ maxSaneRecord < p.original.toNat := by
    rw [Block.length] at hsane
    omega
  simp only [simplePacket, readExact_eq]
  split
  · exact ⟨_, rfl, rfl⟩
  rename_i hlong
  have hj : 4 ≤ j := by
    rw [hrest, List.take_take, List.length_take] at hlong
    omega
  have hhead : r.file.rest.take 4 = bytes .little 4 p.original.toNat := by
    have hbody : encode .little (Block.simple p).body = bytes .little 4 p.original.toNat ++ encode .little (dataLayout p.data) := by
      rw [Block.body, encode_append, encode_cons, Field.encode, encode_nil, List.append_nil]
    rw [hrest, List.take_take, Nat.min_eq_left hj, hbody, List.append_assoc, List.take_left' (bytes_length ..)]
  have hwords : unpackWords (some .little) [4] (bytes .little 4 p.original.toNat) = .ok [p.original.toNat] := by
    have h := unpackWords_encode .little [(4, p.original.toNat)] (by
      simp only [List.mem_cons, List.not_mem_nil, or_false, forall_eq]
      exact word4_lt p.original)
    simpa only [List.map_cons, List.map_nil, encode_cons, encode_nil, Field.encode, List.append_nil] using h
  rw [hhead, hendian, hwords]
  dsimp only
  rw [if_neg hroom, horiginal]
  refine close_cut ?_
  rw [advance_advance, advance_rest, List.length_drop]
  omega

/-- A section header cut within its byte-order magic. -/
def InMagic (b : Block) (k : Nat) : Prop := b.kind = blockShb ∧ 8 ≤ k ∧ k < 12

theorem layout_eq (b : Block) : encode .little b.layout = bytes .little 4 b.kind ++ (bytes .little 4 b.length ++
    (encode .little b.body ++ bytes .little 4 b.length)) := by
  simp only [Block.layout, encode_append, encode_cons, Field.encode, encode_nil, List.append_nil, List.append_assoc]

/-- A block of which the reader finds the first `k` octets. -/
theorem turn_cut {r : Reader} {b : Block} {k : Nat} (hrest : r.file.rest = (encode .little b.layout).take k) (h0 : 0 < k)
    (hk : k < b.length) (horder : b.kind = blockShb ∨ r.endian = some .little) (hlittle : headOrder r = .little)
    (hsane : b.length ≤ maxSaneRecord) (hconsumed : Consumed b) :
    (¬ InMagic b k → Turn.Cut (turn r)) ∧ (InMagic b k → ¬ Turn.Tame (turn r)) := by
  have hlength : r.file.rest.length = k := by
    rw [hrest, List.length_take, encode_length, layout_size, Nat.min_eq_left (Nat.le_of_lt hk)]
  by_cases h8 : 8 ≤ k
  · have hkind : headType r = b.kind := by
      rw [headType, hlittle, hrest, List.take_take, Nat.min_eq_left (by omega), layout_eq, List.take_left' (bytes_length ..),
        value_word (kind_lt b)]
    have hsmall : maxSaneRecord < 256 ^ 4 := by decide
    have hdeclared : headLength r = b.length := by
      rw [headLength, hlittle, hrest, List.drop_take, List.take_take, Nat.min_eq_left (by omega), layout_eq,
        List.drop_left' (bytes_length ..), List.take_left' (bytes_length ..), value_word (Nat.lt_of_le_of_lt hsane hsmall)]
    have hafter : (r.file.advance 8).rest = (encode .little b.body ++ bytes .little 4 b.length).take (k - 8) := by
      rw [advance_rest, hrest, List.drop_take, layout_eq, ← List.append_assoc,
        List.drop_left' (by rw [List.length_append, bytes_length, bytes_length])]
    have hcut : (r.file.advance 8).rest.length < size b.body + 4 := by
      rw [advance_rest, List.length_drop, hlength]
      rw [Block.length] at hk
      omega
    have hfirst : ¬ (r.endian = none ∧ headType r ≠ blockShb) := by
      rintro ⟨hnone, hne⟩
      rw [hkind] at hne
      rw [horder.resolve_left hne] at hnone
      cases hnone
    rw [turn_block (by omega), if_neg hfirst, hkind, hdeclared, readBlock_kind hsane]
    cases b with
    | header h =>
      constructor
      · intro hout
        have h12 : ¬ k < 12 := fun hin => hout ⟨rfl, h8, hin⟩
        exact header_cut (r := { r with file := r.file.advance 8 }) (by omega) hafter hcut
      · rintro ⟨-, -, hin⟩ htame
        have hmagic := (header_tame (r := { r with file := r.file.advance 8 })).mp htame
        rw [advance_rest, List.length_drop] at hmagic
        omega
    | interface i => exact ⟨fun _ => interface_cut hcut, fun hin => absurd hin.1 (by change ¬ blockIdb = blockShb; decide)⟩
    | enhanced p =>
      have hother : ¬ (Block.enhanced p).kind = blockShb := by
        change ¬ blockEpb = blockShb
        decide
      exact ⟨fun _ => enhanced_cut (r := { r with file := r.file.advance 8 }) (horder.resolve_left hother) hafter hcut hsane
        hconsumed, fun hin => absurd hin.1 hother⟩
    | simple p =>
      have hother : ¬ (Block.simple p).kind = blockShb := by
        change ¬ blockSpb = blockShb
        decide
      exact ⟨fun _ => simple_cut (r := { r with file := r.file.advance 8 }) (horder.resolve_left hother) hafter hcut hsane
        hconsumed, fun hin => absurd hin.1 hother⟩
    | other x =>
      have hother := x.other
      simp only [List.mem_cons, not_or] at hother
      exact ⟨fun _ => other_cut hcut, fun hin => absurd hin.1 hother.1⟩
  · refine ⟨fun _ => ?_, fun hin => absurd hin.2.1 h8⟩
    rw [turn_headless (by omega) (by omega)]
    exact ⟨_, rfl, rfl⟩

/-- Blocks that a little-endian capture may begin with, within the limit of the reader and
with nothing that the reader ignores. -/
structure Opens (blocks : List Block) : Prop where
  starts : ∀ b, blocks[0]? = some b → b.kind = blockShb
  whole : ∀ b ∈ blocks, b.length ≤ maxSaneRecord ∧ Consumed b

theorem Opens.announced {blocks : List Block} (h : Opens blocks) : Announced none (blocks.map (Order.little, ·)) := by
  have hall := announced_little fun b hb => (h.whole b hb).1
  cases blocks with
  | nil => exact trivial
  | cons b blocks => exact ⟨hall.1, .inl (h.starts b rfl), hall.2.2⟩

theorem Opens.before {before : List Block} {b : Block} (h : Opens (before ++ [b])) : Opens before := by
  refine ⟨fun c hc => h.starts c ?_, fun c hc => h.whole c (List.mem_append_left _ hc)⟩
  rw [List.getElem?_append_left (List.getElem?_eq_some_iff.mp hc).1, hc]

/-- A turn that is the last one decides what the run ends in. -/
theorem ends_in {bytes : List UInt8} {passed : List Turn} {r : Reader} {t : Turn}
    (hturns : turns (.start bytes) = passed ++ turns r) (ht : turn r = t) (hlast : t.next = none) :
    (turns (.start bytes)).getLast? = some t := by
  rw [hturns, turns_last (by rw [ht]; exact hlast), List.getLast?_append, ht]
  rfl

/-- A capture that ends within a block is read up to there, and the reader notices, unless a
section header is cut within its byte-order magic. -/
theorem cut_noticed {before : List Block} {b : Block} (h : Opens (before ++ [b])) {k : Nat} (h0 : 0 < k) (hk : k < b.length) :
    let cut := encodeBlocks (before.map (Order.little, ·)) ++ (encode .little b.layout).take k
    (raised cut = none ∧ (finalStats cut).truncatedTail = true) ↔ ¬ InMagic b k := by
  intro cut
  obtain ⟨passed, r, hturns, hrest, -, hendian, -, -⟩ := turns_past [] (r := .start cut) rfl h.before.announced
    (readable_little h.before.whole rfl) rfl
  obtain ⟨hsane, hconsumed⟩ := h.whole b (List.mem_append_right _ (List.mem_singleton_self b))
  -- the first block is a section header, the others are in the order of one
  have hknown : (b.kind = blockShb ∨ r.endian = some .little) ∧ headOrder r = .little := by
    cases before with
    | nil => exact ⟨.inl (h.starts b rfl), by rw [headOrder, hendian]; rfl⟩
    | cons c before =>
      rw [last_little] at hendian
      exact ⟨.inr hendian, by rw [headOrder, hendian]; rfl⟩
  obtain ⟨hcut, hmagic⟩ := turn_cut hrest h0 hk hknown.1 hknown.2 hsane hconsumed
  constructor
  · rintro ⟨hraised, -⟩ hin
    have hwild := hmagic hin
    cases ht : turn r with
    | raises e s =>
      rw [raised, ends_in hturns ht rfl] at hraised
      cases hraised
    | proceed s => rw [ht] at hwild; exact hwild trivial
    | yields record s => rw [ht] at hwild; exact hwild trivial
    | stops s => rw [ht] at hwild; exact hwild trivial
  · intro hout
    obtain ⟨r', hstops, htruncated⟩ := hcut hout
    have hlast := ends_in hturns hstops rfl
    exact ⟨by rw [raised, hlast], by rw [finalStats, hlast]; exact htruncated⟩

/-! ## Robust streams -/

def acceptedMagics : List (List UInt8) := [pcapngMagic, pcapMagicLeUs, pcapMagicBeUs, pcapMagicLeNs, pcapMagicBeNs]

/-- No torn section header and no short interface block on the way of the PCAPNG reader. -/
def Sound (bytes : List UInt8) : Prop :=
  bytes.take 4 = pcapngMagic → ∀ r, Reaches (.start bytes) r → ¬ TornHeader r ∧ ¬ ShortInterface r

theorem stream_robust (path : String) {bytes : List UInt8} (h : bytes.take 4 ∈ acceptedMagics) :
    ∃ reading, pcapPacketStream path bytes = .ok reading ∧ (Harmless reading.error ↔ Sound bytes) ∧
      ∀ record ∈ reading.records, record.data.length = record.caplen := by
  by_cases hng : bytes.take 4 = pcapngMagic
  · refine ⟨_, by rw [pcapPacketStream, detectPcapFormat, if_pos hng], ?_, records_sized bytes⟩
    exact (raised_harmless bytes).trans ⟨fun hall _ => hall, fun hall => hall hng⟩
  · have hclassic : bytes.take 4 ∈ [pcapMagicLeUs, pcapMagicBeUs, pcapMagicLeNs, pcapMagicBeNs] :=
      (List.mem_cons.mp h).resolve_left hng
    have hsound : ∀ reader, Harmless (generate reader bytes).error ↔ Sound bytes :=
      fun reader => ⟨fun _ hmagic => absurd hmagic hng, fun _ => (generate_robust reader bytes).1⟩
    rw [pcapPacketStream, detectPcapFormat, if_neg hng, if_pos hclassic]
    dsimp only
    split
    · exact ⟨_, rfl, hsound _, (generate_robust _ bytes).2⟩
    · exact ⟨_, rfl, hsound _, (generate_robust _ bytes).2⟩

theorem starts_header {sections : List Section} {before after : List Block} {b c : Block}
    (hblocks : sections.flatMap Section.blocks = before ++ b :: after) (hc : (before ++ [b])[0]? = some c) :
    c.kind = blockShb := by
  have hfirst : (before ++ b :: after)[0]? = some c := by
    rw [List.append_cons, List.getElem?_append_left (List.getElem?_eq_some_iff.mp hc).1, hc]
  cases sections with
  | nil =>
    rw [← hblocks] at hfirst
    cases hfirst
  | cons s sections =>
    rw [← hblocks, List.flatMap_cons] at hfirst
    rw [← Option.some.inj hfirst]
    rfl

theorem encodeBlocks_length (blocks : List Block) :
    (encodeBlocks (blocks.map (Order.little, ·))).length = (blocks.map Block.length).sum := by
  induction blocks with
  | nil => rfl
  | cons b blocks ih =>
    rw [List.map_cons, encodeBlocks, List.flatMap_cons, List.length_append, encode_length, layout_size, List.map_cons,
      List.sum_cons, ← ih]
    rfl

/-- What is left of a capture that is cut inside a block. -/
theorem cut_bytes {sections : List Section} {before after : List Block} {b : Block} {k : Nat}
    (hblocks : sections.flatMap Section.blocks = before ++ b :: after) (hk : k ≤ b.length) :
    (encodeCapture (sections.map (Order.little, ·))).take ((before.map Block.length).sum + k) =
      encodeBlocks (before.map (Order.little, ·)) ++ (encode .little b.layout).take k := by
  have hall : blocksOf (sections.map (Order.little, ·)) = (before ++ b :: after).map (Order.little, ·) := by
    rw [← hblocks, blocksOf, List.flatMap_map, List.map_flatMap]
  have hsplit : encodeCapture (sections.map (Order.little, ·)) = encodeBlocks (before.map (Order.little, ·)) ++
      (encode .little b.layout ++ encodeBlocks (after.map (Order.little, ·))) := by
    rw [encodeCapture, hall, List.map_append, encodeBlocks, List.flatMap_append]
    rfl
  rw [hsplit, ← encodeBlocks_length, List.take_length_add_append,
    List.take_append_of_le_length (by rw [encode_length, layout_size]; exact hk)]

/-- The head of a section header and nothing more. -/
def tornCapture : List UInt8 := [0x0A, 0x0D, 0x0D, 0x0A, 28, 0, 0, 0]

theorem torn_error : turn (.start tornCapture) = .raises .structError ⟨⟨[], 8⟩, none, [], {}⟩ := by
  have hkind : headType (.start tornCapture) = blockShb := by decide
  have hdeclared : headLength (.start tornCapture) = 28 := by decide
  rw [turn_block (by decide), if_neg (by decide), hkind, hdeclared, readBlock, if_neg (by decide), if_pos rfl]
  simp only [sectionHeader, readExact_eq]
  rfl

end PcapRobustness
