import AgenticSoc.ByteOrder

/-!
# The PCAPNG reader

One turn of the reader's loop consumes one block, each kind of block by arithmetic of its
own. A capture file is the octets not read yet and the offset reached.
-/
namespace PcapReader

open ByteOrder

def blockShb : Nat := 0x0A0D0D0A
def blockIdb : Nat := 0x00000001
def blockEpb : Nat := 0x00000006
def blockSpb : Nat := 0x00000003

/-- 256 MiB, a guard against corruption. -/
def maxSaneRecord : Nat := 268435456

inductive ReadError where
  | pcapFormatError (message : String)
  | structError
  | typeError
  deriving DecidableEq, Repr

structure PacketRecord where
  tsNs : Option Nat
  caplen : Nat
  wirelen : Nat
  data : List UInt8
  deriving DecidableEq, Repr

structure ReaderStats where
  packetsYielded : Nat := 0
  recordsWithoutTimestamp : Nat := 0
  truncatedTail : Bool := false
  sectionsSeen : Nat := 0
  interfacesSeen : Nat := 0
  deriving DecidableEq, Repr

structure File where
  rest : List UInt8
  position : Nat
  deriving DecidableEq, Repr

def File.read (n : Nat) (fh : File) : List UInt8 × File :=
  (fh.rest.take n, ⟨fh.rest.drop n, fh.position + (fh.rest.take n).length⟩)

def readLoop (n : Nat) (buf : List UInt8) (fh : File) : List UInt8 × File :=
  if buf.length < n then
    match fh.read (n - buf.length) with
    | ([], fh) => (buf, fh)
    | (b :: chunk, fh) => readLoop n (buf ++ b :: chunk) fh
  else (buf, fh)
termination_by n - buf.length
decreasing_by simp only [List.length_append, List.length_cons]; omega

def readExact (n : Nat) (fh : File) : List UInt8 × File := readLoop n [] fh

/-- Whether the octets to pass over were all there. -/
def skip (remaining : Nat) (fh : File) : Bool × File :=
  if 0 < remaining then
    match fh.read (min remaining (1024 * 1024)) with
    | ([], fh) => (false, fh)
    | (b :: chunk, fh) => skip (remaining - (b :: chunk).length) fh
  else (true, fh)
termination_by remaining
decreasing_by simp only [List.length_cons]; omega

structure Reader where
  file : File
  endian : Option Order
  ifaceResolutions : List (Nat × Nat)
  stats : ReaderStats
  deriving DecidableEq, Repr

def Reader.start (bytes : List UInt8) : Reader := ⟨⟨bytes, 0⟩, none, [], {}⟩

def Reader.truncated (r : Reader) : Reader := { r with stats := { r.stats with truncatedTail := true } }

/-- What one turn of the loop ends in. -/
inductive Turn where
  | proceed (r : Reader)
  | yields (record : PacketRecord) (r : Reader)
  | stops (r : Reader)
  | raises (error : ReadError) (r : Reader)
  deriving DecidableEq

def finishPacket (record : PacketRecord) (r : Reader) : Turn :=
  .yields record { r with stats := { r.stats with
    packetsYielded := r.stats.packetsYielded + 1
    recordsWithoutTimestamp := r.stats.recordsWithoutTimestamp + if record.tsNs.isNone then 1 else 0 } }

/-- The multiplier and the divisor that take ticks to nanoseconds. -/
def tsresolToScale (resol : Nat) : Nat × Nat :=
  if resol &&& 0x80 ≠ 0 then (10 ^ 9, 1 <<< (resol &&& 0x7F))
  else
    let exponent := resol &&& 0x7F
    if exponent ≤ 9 then (10 ^ (9 - exponent), 1) else (1, 10 ^ (exponent - 9))

/-- The next multiple of four. -/
def padded (n : Nat) : Nat := (n + 3) / 4 * 4

def hexText (n : Nat) : String := "0x" ++ String.ofList (Nat.toDigits 16 n)

/-- The trailing length, then `next` with the reader after it. -/
def readTrailer (r : Reader) (next : Reader → Turn) : Turn :=
  let (trailer, fh) := readExact 4 r.file
  let r := { r with file := fh }
  if trailer.length < 4 then .stops r.truncated else next r

/-- Words in the order of the section; no section means no order to unpack in. -/
def unpackWords (endian : Option Order) (widths : List Nat) (bs : List UInt8) : Except ReadError (List Nat) :=
  match endian with
  | none => .error .typeError
  | some o => match unpack o widths bs with
    | none => .error .structError
    | some words => .ok words

def sectionHeader (bodyLen : Nat) (r : Reader) : Turn :=
  let (magic, fh) := readExact 4 r.file
  let r := { r with file := fh }
  match unpackWords (some .little) [4] magic with
  | .ok [bom] =>
    let goOn (endian : Order) :=
      readTrailer { r with endian := some endian, file := (skip (bodyLen - 4) r.file).2 } fun r =>
        .proceed { r with ifaceResolutions := [], stats := { r.stats with sectionsSeen := r.stats.sectionsSeen + 1 } }
    if bom = 0x1A2B3C4D then goOn .little
    else if bom = 0x4D3C2B1A then goOn .big
    else .raises (.pcapFormatError ("bad byte-order magic " ++ hexText bom)) r
  | .ok _ => .raises .structError r
  | .error e => .raises e r

/-- The time resolution among the options of an interface. -/
def scanOptions (o : Order) (body : List UInt8) (resolByte : Nat) : Nat :=
  if body.length < 4 then resolByte
  else
    let code := value o (body.take 2)
    let olen := value o ((body.drop 2).take 2)
    if code = 0 then resolByte
    else scanOptions o (body.drop (4 + padded olen))
      (match body.drop 4 with
        | b :: _ => if code = 9 ∧ 1 ≤ olen then b.toNat else resolByte
        | [] => resolByte)
termination_by body.length
decreasing_by simp only [List.length_drop]; omega

def interfaceDescription (bodyLen : Nat) (r : Reader) : Turn :=
  let (body, fh) := readExact (min bodyLen 512) r.file
  let (whole, fh) := skip (bodyLen - min bodyLen 512) fh
  let r := { r with file := fh }
  if !whole then .stops r.truncated
  else readTrailer r fun r =>
    match unpackWords r.endian [2, 2, 4] (body.take 8) with
    | .ok _ =>
      let resolByte := scanOptions (r.endian.getD .little) (body.drop 8) 6
      .proceed { r with
        ifaceResolutions := r.ifaceResolutions ++ [tsresolToScale resolByte]
        stats := { r.stats with interfacesSeen := r.stats.interfacesSeen + 1 } }
    | .error e => .raises e r

/-- The octets that fill the packet data up, the trailing length, and the record. -/
def closePacket (tsNs : Option Nat) (caplen wirelen : Nat) (data : List UInt8) (r : Reader) : Turn :=
  let (whole, fh) := skip (padded caplen - caplen) r.file
  let r := { r with file := fh }
  if caplen < padded caplen ∧ !whole then .stops r.truncated
  else readTrailer r (finishPacket ⟨tsNs, caplen, wirelen, data⟩)

def enhancedPacket (r : Reader) : Turn :=
  let (bodyHead, fh) := readExact 20 r.file
  let r := { r with file := fh }
  if bodyHead.length < 20 then .stops r.truncated
  else match unpackWords r.endian [4, 4, 4, 4, 4] bodyHead with
    | .ok [ifaceId, tsHi, tsLo, caplen, wirelen] =>
      if maxSaneRecord < caplen then .raises (.pcapFormatError s!"implausible EPB caplen {caplen}") r
      else
        let (data, fh) := readExact caplen r.file
        let (mult, div) := (r.ifaceResolutions[ifaceId]?).getD (1000000, 1)
        let ticks := (tsHi <<< 32) ||| tsLo
        closePacket (some (ticks * mult / div)) caplen wirelen data { r with file := fh }
    | .ok _ => .raises .structError r
    | .error e => .raises e r

def simplePacket (r : Reader) : Turn :=
  let (bodyHead, fh) := readExact 4 r.file
  let r := { r with file := fh }
  if bodyHead.length < 4 then .stops r.truncated
  else match unpackWords r.endian [4] bodyHead with
    | .ok [wirelen] =>
      if maxSaneRecord < wirelen then .raises (.pcapFormatError s!"implausible SPB len {wirelen}") r
      else
        let (data, fh) := readExact wirelen r.file
        closePacket none wirelen wirelen data { r with file := fh }
    | .ok _ => .raises .structError r
    | .error e => .raises e r

def otherBlock (bodyLen : Nat) (r : Reader) : Turn :=
  let (whole, fh) := skip bodyLen r.file
  let r := { r with file := fh }
  if !whole then .stops r.truncated else readTrailer r .proceed

/-- The body of a block and its trailing length, by the kind of the block. -/
def readBlock (btype blen : Nat) (r : Reader) : Turn :=
  if blen < 12 ∨ maxSaneRecord < blen then .raises (.pcapFormatError s!"implausible block length {blen}") r
  else if btype = blockShb then sectionHeader (blen - 12) r
  else if btype = blockIdb then interfaceDescription (blen - 12) r
  else if btype = blockEpb then enhancedPacket r
  else if btype = blockSpb then simplePacket r
  else otherBlock (blen - 12) r

def turn (r : Reader) : Turn :=
  let (hdr, fh) := readExact 8 r.file
  let r := { r with file := fh }
  if hdr.length = 0 then .stops r
  else if hdr.length < 8 then .stops r.truncated
  else match unpackWords (some .little) [4, 4] hdr, unpackWords (some (r.endian.getD .little)) [4, 4] hdr with
    | .ok [btypeProbe, _], .ok [btype, blen] =>
      if r.endian = none ∧ btypeProbe ≠ blockShb then
        .raises (.pcapFormatError "PCAPNG must start with a Section Header Block") r
      else readBlock btype blen r
    | .error e, _ => .raises e r
    | _, _ => .raises .structError r

/-! ## Reading -/

/-- The file after `n` octets, or after all there are. -/
def File.advance (n : Nat) (fh : File) : File := ⟨fh.rest.drop n, fh.position + min n fh.rest.length⟩

@[simp] theorem advance_rest (n : Nat) (fh : File) : (fh.advance n).rest = fh.rest.drop n := rfl

theorem read_eq (n : Nat) (fh : File) : fh.read n = (fh.rest.take n, fh.advance n) := by
  simp [File.read, File.advance]

theorem advance_zero (fh : File) : fh.advance 0 = fh := by simp [File.advance]

theorem advance_advance (m n : Nat) (fh : File) : (fh.advance m).advance n = fh.advance (m + n) := by
  simp only [File.advance, List.drop_drop, List.length_drop, File.mk.injEq, true_and]
  omega

/-- A file that has no more gives no more. -/
theorem advance_end {fh : File} (h : fh.rest = []) (n : Nat) : fh.advance n = fh := by
  obtain ⟨rest, position⟩ := fh
  simp only at h
  subst h
  simp [File.advance]

theorem readLoop_eq (n : Nat) (buf : List UInt8) (fh : File) :
    readLoop n buf fh = (buf ++ fh.rest.take (n - buf.length), fh.advance (n - buf.length)) := by
  fun_induction readLoop n buf fh with
  | case1 buf fh hroom fh' hread =>
    rw [read_eq, Prod.mk.injEq] at hread
    rw [hread.1, List.append_nil, hread.2]
  | case2 buf fh hroom b chunk fh' hread ih =>
    rw [read_eq, Prod.mk.injEq] at hread
    have hchunk : (b :: chunk).length = min (n - buf.length) fh.rest.length := by rw [← hread.1, List.length_take]
    rw [ih, ← hread.2, ← hread.1, List.length_append, List.length_take, advance_rest, List.append_assoc]
    by_cases hall : n - buf.length ≤ fh.rest.length
    · have hnone : n - (buf.length + min (n - buf.length) fh.rest.length) = 0 := by omega
      rw [hnone, advance_zero, List.take_zero, List.append_nil]
    · have hend : (fh.advance (n - buf.length)).rest = [] := by
        rw [advance_rest, List.drop_eq_nil_of_le (by omega)]
      rw [advance_end hend, ← advance_rest, hend, List.take_nil, List.append_nil]
  | case3 buf fh hfull =>
    have hnone : n - buf.length = 0 := by omega
    rw [hnone, advance_zero, List.take_zero, List.append_nil]

@[simp] theorem readExact_eq (n : Nat) (fh : File) : readExact n fh = (fh.rest.take n, fh.advance n) := by
  rw [readExact, readLoop_eq]
  rfl

@[simp] theorem skip_eq (n : Nat) (fh : File) : skip n fh = (decide (n ≤ fh.rest.length), fh.advance n) := by
  fun_induction skip n fh with
  | case1 n fh hn fh' hread =>
    rw [read_eq, Prod.mk.injEq] at hread
    have hempty : fh.rest = [] := by
      rcases List.take_eq_nil_iff.mp hread.1 with hzero | hempty
      · omega
      · exact hempty
    have hshort : ¬ n ≤ fh.rest.length := by
      rw [hempty, List.length_nil]
      omega
    rw [← hread.2, advance_end hempty, advance_end hempty, decide_eq_false hshort]
  | case2 n fh hn b chunk fh' hread ih =>
    rw [read_eq, Prod.mk.injEq] at hread
    have hchunk : (b :: chunk).length = min (min n (1024 * 1024)) fh.rest.length := by rw [← hread.1, List.length_take]
    rw [ih, hchunk, ← hread.2, advance_advance, advance_rest, List.length_drop, Prod.mk.injEq]
    by_cases hall : min n (1024 * 1024) ≤ fh.rest.length
    · refine ⟨decide_eq_decide.mpr (by omega), ?_⟩
      rw [Nat.min_eq_left hall, Nat.add_sub_cancel' (Nat.min_le_left _ _)]
    · have hend : fh.rest.length ≤ n := by omega
      refine ⟨decide_eq_decide.mpr (by omega), ?_⟩
      simp only [File.advance, File.mk.injEq]
      exact ⟨by rw [List.drop_eq_nil_of_le (by omega), List.drop_eq_nil_of_le hend], by omega⟩
  | case3 n fh hn =>
    have hzero : n = 0 := by omega
    simp [hzero, advance_zero]

/-! ## The loop -/

/-- The reader after a turn. -/
def Turn.reader : Turn → Reader
  | .proceed r => r
  | .yields _ r => r
  | .stops r => r
  | .raises _ r => r

/-- A turn leaves at most `n` octets to be read. -/
def Turn.Leaves (n : Nat) (t : Turn) : Prop := t.reader.file.rest.length ≤ n

theorem leaves_trailer {n : Nat} {r : Reader} {next : Reader → Turn} (hr : r.file.rest.length ≤ n)
    (hnext : ∀ r : Reader, r.file.rest.length ≤ n → (next r).Leaves n) : (readTrailer r next).Leaves n := by
  have hafter : (r.file.advance 4).rest.length ≤ n := by
    rw [advance_rest, List.length_drop]
    omega
  simp only [readTrailer, readExact_eq]
  split
  · exact hafter
  · exact hnext _ hafter

theorem advance_le {m n : Nat} {fh : File} (h : fh.rest.length ≤ n) : (fh.advance m).rest.length ≤ n := by
  rw [advance_rest, List.length_drop]
  omega

theorem leaves_header {n bodyLen : Nat} {r : Reader} (hr : r.file.rest.length ≤ n) :
    (sectionHeader bodyLen r).Leaves n := by
  simp only [sectionHeader, readExact_eq, skip_eq]
  split
  · split
    · exact leaves_trailer (advance_le (advance_le hr)) fun _ h => h
    · split
      · exact leaves_trailer (advance_le (advance_le hr)) fun _ h => h
      · exact advance_le hr
  · exact advance_le hr
  · exact advance_le hr

theorem leaves_interface {n bodyLen : Nat} {r : Reader} (hr : r.file.rest.length ≤ n) :
    (interfaceDescription bodyLen r).Leaves n := by
  simp only [interfaceDescription, readExact_eq, skip_eq]
  split
  · exact advance_le (advance_le hr)
  · refine leaves_trailer (advance_le (advance_le hr)) fun r' h => ?_
    split
    · exact h
    · exact h

theorem leaves_close {n caplen wirelen : Nat} {tsNs : Option Nat} {data : List UInt8} {r : Reader}
    (hr : r.file.rest.length ≤ n) : (closePacket tsNs caplen wirelen data r).Leaves n := by
  simp only [closePacket, skip_eq]
  split
  · exact advance_le hr
  · exact leaves_trailer (advance_le hr) fun _ h => h

theorem leaves_enhanced {n : Nat} {r : Reader} (hr : r.file.rest.length ≤ n) : (enhancedPacket r).Leaves n := by
  simp only [enhancedPacket, readExact_eq]
  split
  · exact advance_le hr
  · split
    · split
      · exact advance_le hr
      · exact leaves_close (advance_le (advance_le hr))
    · exact advance_le hr
    · exact advance_le hr

theorem leaves_simple {n : Nat} {r : Reader} (hr : r.file.rest.length ≤ n) : (simplePacket r).Leaves n := by
  simp only [simplePacket, readExact_eq]
  split
  · exact advance_le hr
  · split
    · split
      · exact advance_le hr
      · exact leaves_close (advance_le (advance_le hr))
    · exact advance_le hr
    · exact advance_le hr

theorem leaves_other {n bodyLen : Nat} {r : Reader} (hr : r.file.rest.length ≤ n) :
    (otherBlock bodyLen r).Leaves n := by
  simp only [otherBlock, skip_eq]
  split
  · exact advance_le hr
  · exact leaves_trailer (advance_le hr) fun _ h => h

theorem leaves_block {n btype blen : Nat} {r : Reader} (hr : r.file.rest.length ≤ n) :
    (readBlock btype blen r).Leaves n := by
  unfold readBlock
  split
  · exact hr
  split
  · exact leaves_header hr
  split
  · exact leaves_interface hr
  split
  · exact leaves_enhanced hr
  split
  · exact leaves_simple hr
  · exact leaves_other hr

/-- The reader to go on with. -/
def Turn.next : Turn → Option Reader
  | .proceed r => some r
  | .yields _ r => some r
  | .stops _ => none
  | .raises _ _ => none

/-- The loop goes on only after a whole block head. -/
theorem turn_shorter {r r' : Reader} (h : (turn r).next = some r') :
    r'.file.rest.length < r.file.rest.length := by
  have hlast : (turn r).reader = r' := by
    cases ht : turn r <;> rw [ht] at h <;> first | exact Option.some.inj h | cases h
  by_cases hwhole : 8 ≤ r.file.rest.length
  · have hleaves : (turn r).Leaves (r.file.rest.length - 8) := by
      have hr : (r.file.advance 8).rest.length ≤ r.file.rest.length - 8 :=
        Nat.le_of_eq (by rw [advance_rest, List.length_drop])
      simp only [turn, readExact_eq]
      split
      · exact hr
      split
      · exact hr
      split
      · split
        · exact hr
        · exact leaves_block hr
      · exact hr
      · exact hr
    unfold Turn.Leaves at hleaves
    rw [hlast] at hleaves
    omega
  · exfalso
    have hshort : (r.file.rest.take 8).length < 8 := by
      rw [List.length_take]
      omega
    simp only [turn, readExact_eq] at h
    by_cases hempty : (r.file.rest.take 8).length = 0
    · rw [if_pos hempty] at h
      cases h
    · rw [if_neg hempty, if_pos hshort] at h
      cases h

/-- The turns of the loop, the last one a stop or an error. -/
def turns (r : Reader) : List Turn :=
  match _h : (turn r).next with
  | some r' => turn r :: turns r'
  | none => [turn r]
termination_by r.file.rest.length
decreasing_by exact turn_shorter _h

theorem turns_next {r r' : Reader} (h : (turn r).next = some r') : turns r = turn r :: turns r' := by
  rw [turns]
  split
  · rename_i r'' h''
    rw [h] at h''
    rw [Option.some.inj h'']
  · rename_i h''
    rw [h] at h''
    cases h''

theorem turns_last {r : Reader} (h : (turn r).next = none) : turns r = [turn r] := by
  rw [turns]
  split
  · rename_i h''
    rw [h] at h''
    cases h''
  · rfl

/-! ## What a reader of the stream sees -/

def Turn.record : Turn → Option PacketRecord
  | .yields record _ => some record
  | _ => none

/-- The records in the order they are yielded. -/
def records (bytes : List UInt8) : List PacketRecord := (turns (.start bytes)).filterMap Turn.record

/-- The error the stream ends in, if any. -/
def raised (bytes : List UInt8) : Option ReadError :=
  match (turns (.start bytes)).getLast? with
  | some (.raises e _) => some e
  | _ => none

/-- The statistics once the stream has ended. -/
def finalStats (bytes : List UInt8) : ReaderStats :=
  match (turns (.start bytes)).getLast? with
  | some t => t.reader.stats
  | none => {}

/-- The offset reached after each block that the loop goes on from. -/
def stands (bytes : List UInt8) : List Nat :=
  (turns (.start bytes)).filterMap fun t => t.next.map fun r => r.file.position

end PcapReader
