import AgenticSoc.PcapContent

/-!
# Classic captures

The reader of libpcap files in either byte order and with either resolution of the
timestamps, and the choice of the reader by the magic number. A file that was cut short
gives the packets that are whole in what is left of it.
-/
namespace ClassicPcap

open ByteOrder PcapReader PcapContent

def pcapMagicLeUs : List UInt8 := [0xd4, 0xc3, 0xb2, 0xa1]
def pcapMagicBeUs : List UInt8 := [0xa1, 0xb2, 0xc3, 0xd4]
def pcapMagicLeNs : List UInt8 := [0x4d, 0x3c, 0xb2, 0xa1]
def pcapMagicBeNs : List UInt8 := [0xa1, 0xb2, 0x3c, 0x4d]
def pcapngMagic : List UInt8 := [0x0a, 0x0d, 0x0d, 0x0a]

/-- What a stream has given once it ends. -/
structure Reading where
  records : List PacketRecord
  stats : ReaderStats
  error : Option ReadError
  deriving DecidableEq, Repr

structure ClassicPcapReader where
  endian : Order
  nanoseconds : Bool
  deriving DecidableEq, Repr

def fracToNs (nanoseconds : Bool) : Nat := if nanoseconds then 1 else 1000

def cutShort (stats : ReaderStats) : ReaderStats := { stats with truncatedTail := true }

def countPacket (record : PacketRecord) (stats : ReaderStats) : ReaderStats :=
  { stats with
    packetsYielded := stats.packetsYielded + 1
    recordsWithoutTimestamp := stats.recordsWithoutTimestamp + if record.tsNs.isNone then 1 else 0 }

/-- The loop over the records. -/
def readRecords (reader : ClassicPcapReader) (fh : File) (stats : ReaderStats) : Reading :=
  if (fh.read 16).1.length = 0 then ⟨[], stats, none⟩
  else if _hwhole : (fh.read 16).1.length < 16 then ⟨[], cutShort stats, none⟩
  else match unpack reader.endian [4, 4, 4, 4] (fh.read 16).1 with
    | some [tsec, tfrac, caplen, wirelen] =>
      if maxSaneRecord < caplen then
        ⟨[], stats, some (.pcapFormatError ("implausible record caplen " ++ Nat.repr caplen))⟩
      else
        let data := ((fh.read 16).2.read caplen).1
        if data.length < caplen then ⟨[], cutShort stats, none⟩
        else
          let tsNs := tsec * 1000000000 + tfrac * fracToNs reader.nanoseconds
          let record : PacketRecord := ⟨some tsNs, caplen, wirelen, data⟩
          let later := readRecords reader ((fh.read 16).2.read caplen).2 (countPacket record stats)
          { later with records := record :: later.records }
    | _ => ⟨[], stats, some .structError⟩
termination_by fh.rest.length
decreasing_by
  simp only [File.read, List.length_take, List.length_drop] at _hwhole ⊢
  omega

def resolutionText (nanoseconds : Bool) : String := if nanoseconds then "ns" else "us"

/-- The file header, then the records. -/
def generate (reader : ClassicPcapReader) (bytes : List UInt8) : Reading :=
  let (header, fh) := (File.mk bytes 0).read 24
  if header.length < 24 then ⟨[], cutShort {}, none⟩
  else
    let magic := header.take 4
    let actualNs := decide (magic ∈ [pcapMagicLeNs, pcapMagicBeNs])
    if reader.nanoseconds ≠ actualNs then
      ⟨[], {}, some (.pcapFormatError ("timestamp resolution mismatch: header magic says " ++
        resolutionText actualNs ++ " but reader configured for " ++ resolutionText reader.nanoseconds))⟩
    else readRecords reader fh {}

inductive CaptureFormat where
  | pcapng | pcap
  deriving DecidableEq, Repr

def octetHex (b : UInt8) : List Char := [Nat.digitChar (b.toNat / 16), Nat.digitChar (b.toNat % 16)]

def detectPcapFormat (path : String) (bytes : List UInt8) : Except ReadError CaptureFormat :=
  let magic := bytes.take 4
  if magic = pcapngMagic then .ok .pcapng
  else if magic ∈ [pcapMagicLeUs, pcapMagicBeUs, pcapMagicLeNs, pcapMagicBeNs] then .ok .pcap
  else .error (.pcapFormatError (path ++ ": unrecognized capture format magic " ++
    String.ofList (magic.flatMap octetHex)))

/-- All that the stream over a file gives; an unknown format is refused before any packet. -/
def pcapPacketStream (path : String) (bytes : List UInt8) : Except ReadError Reading :=
  match detectPcapFormat path bytes with
  | .error e => .error e
  | .ok .pcapng => .ok ⟨PcapReader.records bytes, finalStats bytes, raised bytes⟩
  | .ok .pcap =>
    let magic := bytes.take 4
    if magic ∈ [pcapMagicLeUs, pcapMagicLeNs] then .ok (generate ⟨.little, magic = pcapMagicLeNs⟩ bytes)
    else .ok (generate ⟨.big, magic = pcapMagicBeNs⟩ bytes)

/-! ## Files -/

structure FileHeader where
  major : UInt16
  minor : UInt16
  thiszone : UInt32
  sigfigs : UInt32
  snaplen : UInt32
  linktype : UInt32

def magicNumber (nanoseconds : Bool) : Nat := if nanoseconds then 0xa1b23c4d else 0xa1b2c3d4

def FileHeader.fields (h : FileHeader) : List Field :=
  [.word 2 h.major.toNat, .word 2 h.minor.toNat, .word 4 h.thiszone.toNat, .word 4 h.sigfigs.toNat,
    .word 4 h.snaplen.toNat, .word 4 h.linktype.toNat]

/-- A packet that the reader finds plausible. -/
structure Packet where
  sec : UInt32
  frac : UInt32
  original : UInt32
  data : List UInt8
  sane : data.length ≤ maxSaneRecord

def Packet.words (p : Packet) : List (Nat × Nat) :=
  [(4, p.sec.toNat), (4, p.frac.toNat), (4, p.data.length), (4, p.original.toNat)]

def Packet.head (p : Packet) : List Field := p.words.map fun w => .word w.1 w.2

/-- The room a packet takes in a file. -/
def Packet.length (p : Packet) : Nat := 16 + p.data.length

def encodePacket (o : Order) (p : Packet) : List UInt8 := encode o p.head ++ p.data

def encodePackets (o : Order) (packets : List Packet) : List UInt8 := packets.flatMap (encodePacket o)

def encodeFile (o : Order) (nanoseconds : Bool) (h : FileHeader) (packets : List Packet) : List UInt8 :=
  bytes o 4 (magicNumber nanoseconds) ++ encode o h.fields ++ encodePackets o packets

/-- The packet as it is read. -/
def Packet.record (nanoseconds : Bool) (p : Packet) : PacketRecord :=
  ⟨some (p.sec.toNat * 10 ^ 9 + p.frac.toNat * fracToNs nanoseconds), p.data.length, p.original.toNat, p.data⟩

/-- The offsets at which the packets of a file end. -/
def packetEnds (start : Nat) (packets : List Packet) : List Nat := boundaries start (packets.map Packet.length)

/-- The packets that end at or before the offset. -/
def wholePackets (start cut : Nat) (packets : List Packet) : List Packet :=
  ((packets.zip (packetEnds start packets)).filter fun p => p.2 ≤ cut).map Prod.fst

/-! ## Reading a cut file -/

theorem head_size (o : Order) (p : Packet) : (encode o p.head).length = 16 := by
  simp [Packet.head, Packet.words, Field.size]

theorem unpack_head (o : Order) (p : Packet) :
    unpack o [4, 4, 4, 4] (encode o p.head) = some [p.sec.toNat, p.frac.toNat, p.data.length, p.original.toNat] := by
  have hroom : ∀ w ∈ p.words, w.2 < 256 ^ w.1 := by
    have hsane := p.sane
    intro w hw
    simp only [Packet.words, List.mem_cons, List.not_mem_nil, or_false] at hw
    rcases hw with rfl | rfl | rfl | rfl
    · exact p.sec.toNat_lt
    · exact p.frac.toNat_lt
    · simp only [maxSaneRecord] at hsane ⊢
      omega
    · exact p.original.toNat_lt
  exact unpack_encode o p.words hroom

theorem encodePacket_length (o : Order) (p : Packet) : (encodePacket o p).length = p.length := by
  rw [encodePacket, List.length_append, head_size, Packet.length]

theorem le_packetEnds {start n : Nat} {packets : List Packet} (h : n ∈ packetEnds start packets) : start ≤ n := by
  induction packets generalizing start with
  | nil => cases h
  | cons p packets ih =>
    rcases List.mem_cons.mp h with rfl | h
    · omega
    · have hlater : start + p.length ≤ n := ih h
      omega

theorem wholePackets_cons (start cut : Nat) (p : Packet) (packets : List Packet) :
    wholePackets start cut (p :: packets) =
      if start + p.length ≤ cut then p :: wholePackets (start + p.length) cut packets else [] := by
  have hends : packetEnds start (p :: packets) = (start + p.length) :: packetEnds (start + p.length) packets := rfl
  by_cases hin : start + p.length ≤ cut
  · rw [if_pos hin, wholePackets, hends, List.zip_cons_cons, List.filter_cons_of_pos (by simpa using hin)]
    rfl
  · have hnone : ((packets.zip (packetEnds (start + p.length) packets)).filter fun q => q.2 ≤ cut) = [] := by
      rw [List.filter_eq_nil_iff]
      rintro ⟨q, n⟩ hq
      have hlate := le_packetEnds (List.of_mem_zip hq).2
      simp only [decide_eq_true_eq]
      omega
    rw [if_neg hin, wholePackets, hends, List.zip_cons_cons, List.filter_cons_of_neg (by simpa using hin), hnone]
    rfl

section Steps

variable {reader : ClassicPcapReader} {fh : File} {s : ReaderStats}

theorem readRecords_end (h : fh.rest = []) : readRecords reader fh s = ⟨[], s, none⟩ := by
  rw [readRecords, if_pos (by simp [File.read, h])]

theorem readRecords_head (hsome : fh.rest ≠ []) (hshort : fh.rest.length < 16) :
    readRecords reader fh s = ⟨[], cutShort s, none⟩ := by
  have hne : (fh.read 16).1.length ≠ 0 := by
    have hpos := List.length_pos_iff.mpr hsome
    simp only [File.read, List.length_take]
    omega
  have hlt : (fh.read 16).1.length < 16 := by
    simp only [File.read, List.length_take]
    omega
  rw [readRecords, if_neg hne, dif_pos hlt]

/-- The head of a packet, then what there is of its data. -/
theorem readRecords_after_head {p : Packet} {more : List UInt8}
    (hrest : fh.rest = encode reader.endian p.head ++ more) :
    readRecords reader fh s =
      if more.length < p.data.length then ⟨[], cutShort s, none⟩
      else
        let record : PacketRecord :=
          ⟨some (p.sec.toNat * 1000000000 + p.frac.toNat * fracToNs reader.nanoseconds), p.data.length,
            p.original.toNat, more.take p.data.length⟩
        let later := readRecords reader ((fh.read 16).2.read p.data.length).2 (countPacket record s)
        { later with records := record :: later.records } := by
  have hsize := head_size reader.endian p
  have hhead : (fh.read 16).1 = encode reader.endian p.head := by
    rw [File.read, hrest, List.take_left' hsize]
  have hafter : (fh.read 16).2.rest = more := by
    rw [File.read, hrest]
    exact List.drop_left' hsize
  have hne : (fh.read 16).1.length ≠ 0 := by rw [hhead, hsize]; decide
  have hwhole : ¬ (fh.read 16).1.length < 16 := by rw [hhead, hsize]; decide
  have hdata : ((fh.read 16).2.read p.data.length).1 = more.take p.data.length := by rw [File.read, hafter]
  have hshort : (more.take p.data.length).length < p.data.length ↔ more.length < p.data.length := by
    rw [List.length_take]
    omega
  rw [readRecords, if_neg hne, dif_neg hwhole, hhead, unpack_head]
  simp only [hdata, hshort, if_neg (Nat.not_lt.mpr p.sane)]

theorem readRecords_data {p : Packet} {more : List UInt8} (hrest : fh.rest = encode reader.endian p.head ++ more)
    (hshort : more.length < p.data.length) : readRecords reader fh s = ⟨[], cutShort s, none⟩ := by
  rw [readRecords_after_head hrest, if_pos hshort]

theorem readRecords_packet {p : Packet} {more : List UInt8}
    (hrest : fh.rest = encodePacket reader.endian p ++ more) :
    ∃ fh' : File, fh'.rest = more ∧ readRecords reader fh s =
      let later := readRecords reader fh' (countPacket (p.record reader.nanoseconds) s)
      { later with records := p.record reader.nanoseconds :: later.records } := by
  rw [encodePacket, List.append_assoc] at hrest
  refine ⟨((fh.read 16).2.read p.data.length).2, ?_, ?_⟩
  · simp only [File.read, hrest, List.drop_left' (head_size reader.endian p), List.drop_left]
  · have hroom : ¬ (p.data ++ more).length < p.data.length := by simp
    rw [readRecords_after_head hrest, if_neg hroom, List.take_left]
    rfl

end Steps

/-- The statistics of a cut file: the whole packets, and a tail unless the cut is where a packet ends. -/
def cutStats (start cut : Nat) (packets : List Packet) (stats : ReaderStats) : ReaderStats :=
  { stats with
    packetsYielded := stats.packetsYielded + (wholePackets start cut packets).length
    truncatedTail := stats.truncatedTail || decide (cut ∉ start :: packetEnds start packets) }

/-- A cut before the end of the first packet. -/
theorem cutStats_inside {start m : Nat} {p : Packet} {packets : List Packet} (hm : m < p.length) (stats : ReaderStats) :
    cutStats start (start + m) (p :: packets) stats = if m = 0 then stats else cutShort stats := by
  have hnone : wholePackets start (start + m) (p :: packets) = [] := by
    rw [wholePackets_cons, if_neg (by omega)]
  have hends : start + m ∉ packetEnds start (p :: packets) := by
    intro h
    rcases List.mem_cons.mp h with h | h
    · omega
    · have hlate := le_packetEnds h
      omega
  by_cases hzero : m = 0
  · subst hzero
    rw [Nat.add_zero] at hnone
    simp [cutStats, hnone]
  · simp [cutStats, cutShort, hnone, hzero, hends]

theorem cutStats_after {start m : Nat} {p : Packet} {packets : List Packet} (hm : p.length ≤ m) (stats : ReaderStats)
    (nanoseconds : Bool) :
    cutStats start (start + m) (p :: packets) stats =
      cutStats (start + p.length) (start + p.length + (m - p.length)) packets (countPacket (p.record nanoseconds) stats) := by
  have hcut : start + p.length + (m - p.length) = start + m := by omega
  have hroom : 0 < p.length := by
    unfold Packet.length
    omega
  have hmem : start + m ∈ start :: packetEnds start (p :: packets) ↔
      start + m ∈ (start + p.length) :: packetEnds (start + p.length) packets := by
    refine ⟨fun h => ?_, List.mem_cons_of_mem start⟩
    rcases List.mem_cons.mp h with h | h
    · omega
    · exact h
  simp only [cutStats, hcut, wholePackets_cons, if_pos (show start + p.length ≤ start + m by omega), hmem,
    countPacket, Packet.record, List.length_cons, ReaderStats.mk.injEq, Option.isNone_some, Bool.false_eq_true, if_false]
  refine ⟨by omega, by simp, ?_⟩
  simp

/-- The loop over the records of a cut file, by induction on the packets. -/
theorem readRecords_cut (reader : ClassicPcapReader) (packets : List Packet) {m : Nat}
    (hm : m ≤ (encodePackets reader.endian packets).length) (start : Nat) {fh : File}
    (hrest : fh.rest = (encodePackets reader.endian packets).take m) (stats : ReaderStats) :
    readRecords reader fh stats =
      ⟨(wholePackets start (start + m) packets).map (Packet.record reader.nanoseconds),
        cutStats start (start + m) packets stats, none⟩ := by
  induction packets generalizing m start fh stats with
  | nil =>
    have hzero : m = 0 := Nat.le_zero.mp hm
    subst hzero
    rw [readRecords_end (by simpa using hrest)]
    simp [wholePackets, packetEnds, boundaries, cutStats]
  | cons p packets ih =>
    have hall : encodePackets reader.endian (p :: packets) =
      encodePacket reader.endian p ++ encodePackets reader.endian packets := rfl
    have hlength := encodePacket_length reader.endian p
    rw [hall] at hm hrest
    rw [List.length_append, hlength] at hm
    by_cases hin : p.length ≤ m
    · -- the packet is whole and the loop goes on with the others
      rw [List.take_append, List.take_of_length_le (by omega), hlength] at hrest
      obtain ⟨fh', hrest', hread⟩ := readRecords_packet (s := stats) hrest
      have hcut : start + p.length + (m - p.length) = start + m := by omega
      rw [hread, ih (by omega) (start + p.length) hrest', cutStats_after hin stats reader.nanoseconds,
        wholePackets_cons, if_pos (by omega), List.map_cons, hcut]
    · have hbefore : m < p.length := by omega
      rw [List.take_append_of_le_length (by omega)] at hrest
      rw [cutStats_inside hbefore, wholePackets_cons, if_neg (by omega), List.map_nil]
      by_cases hzero : m = 0
      · rw [if_pos hzero, readRecords_end (by rw [hrest, hzero, List.take_zero])]
      · rw [if_neg hzero]
        by_cases hhead : m < 16
        · have hlen : fh.rest.length = m := by rw [hrest, List.length_take, hlength, Nat.min_eq_left (Nat.le_of_lt hbefore)]
          refine readRecords_head (fun hnil => ?_) (by omega)
          rw [hnil, List.length_nil] at hlen
          exact hzero hlen.symm
        · have hsize := head_size reader.endian p
          have hkept : fh.rest = encode reader.endian p.head ++ p.data.take (m - 16) := by
            rw [hrest, encodePacket, List.take_append, List.take_of_length_le (by omega), hsize]
          refine readRecords_data hkept ?_
          rw [List.length_take]
          simp only [Packet.length] at hbefore
          omega

/-! ## The stream over a cut file -/

theorem magic_bytes (o : Order) (nanoseconds : Bool) :
    bytes o 4 (magicNumber nanoseconds) = match o, nanoseconds with
      | .little, false => pcapMagicLeUs
      | .big, false => pcapMagicBeUs
      | .little, true => pcapMagicLeNs
      | .big, true => pcapMagicBeNs := by
  cases o <;> cases nanoseconds <;> decide

/-- The magic number chooses the reader that the file was written for. -/
theorem stream_reader {o : Order} {nanoseconds : Bool} {file : List UInt8} (path : String)
    (h : file.take 4 = bytes o 4 (magicNumber nanoseconds)) :
    pcapPacketStream path file = .ok (generate ⟨o, nanoseconds⟩ file) := by
  rw [magic_bytes] at h
  unfold pcapPacketStream detectPcapFormat
  cases o <;> cases nanoseconds <;> simp only [h] <;> rfl

theorem fields_size (o : Order) (h : FileHeader) : (encode o h.fields).length = 20 := by
  simp [FileHeader.fields, Field.size]

theorem header_size (o : Order) (nanoseconds : Bool) (h : FileHeader) :
    (bytes o 4 (magicNumber nanoseconds) ++ encode o h.fields).length = 24 := by
  rw [List.length_append, fields_size, bytes_length]

/-- The packets of a file that was cut behind its header. -/
theorem generate_cut (o : Order) (nanoseconds : Bool) (h : FileHeader) (packets : List Packet) {n : Nat}
    (hn : 24 ≤ n) (hle : n ≤ (encodeFile o nanoseconds h packets).length) :
    generate ⟨o, nanoseconds⟩ ((encodeFile o nanoseconds h packets).take n) =
      ⟨(wholePackets 24 n packets).map (Packet.record nanoseconds), cutStats 24 n packets {}, none⟩ := by
  have hsize := header_size o nanoseconds h
  have hkept : (encodeFile o nanoseconds h packets).take n =
      (bytes o 4 (magicNumber nanoseconds) ++ encode o h.fields) ++ (encodePackets o packets).take (n - 24) := by
    rw [encodeFile, List.take_append, List.take_of_length_le (by omega), hsize]
  have hmagic : (bytes o 4 (magicNumber nanoseconds) ++ encode o h.fields).take 4 =
      bytes o 4 (magicNumber nanoseconds) := List.take_left' (bytes_length o 4 _)
  have hactual : decide (bytes o 4 (magicNumber nanoseconds) ∈ [pcapMagicLeNs, pcapMagicBeNs]) = nanoseconds := by
    rw [magic_bytes]
    cases o <;> cases nanoseconds <;> decide
  rw [encodeFile, List.length_append, hsize] at hle
  simp only [generate, hkept, File.read, List.take_left' hsize, List.drop_left' hsize, hsize, hmagic, hactual,
    Nat.lt_irrefl, if_false, ne_eq, not_true_eq_false]
  have hroom : n - 24 ≤ (encodePackets o packets).length := by omega
  have hafter : (File.mk ((encodePackets o packets).take (n - 24)) (0 + 24)).rest =
    (encodePackets o packets).take (n - 24) := rfl
  have hread := readRecords_cut ⟨o, nanoseconds⟩ packets hroom 24 hafter {}
  rw [Nat.add_sub_cancel' hn] at hread
  exact hread

theorem generate_headless (reader : ClassicPcapReader) {file : List UInt8} (h : file.length < 24) :
    generate reader file = ⟨[], cutShort {}, none⟩ := by
  have hshort : ((File.mk file 0).read 24).1.length < 24 := by
    simp only [File.read, List.length_take]
    omega
  simp only [generate, if_pos hshort]

theorem cutStats_start (stats : ReaderStats) {n : Nat} (hn : n < 24) (packets : List Packet) :
    wholePackets 24 n packets = [] ∧ cutStats 24 n packets stats = cutShort stats := by
  have hnone : wholePackets 24 n packets = [] := by
    cases packets with
    | nil => rfl
    | cons p packets => rw [wholePackets_cons, if_neg (by omega)]
  have hends : n ∉ packetEnds 24 packets := fun h => by
    have hlate := le_packetEnds h
    omega
  refine ⟨hnone, ?_⟩
  simp [cutStats, cutShort, hnone, hends, show n ≠ 24 by omega]

theorem stream_cut (path : String) (o : Order) (nanoseconds : Bool) (h : FileHeader) (packets : List Packet) {n : Nat}
    (hn : 4 ≤ n) (hle : n ≤ (encodeFile o nanoseconds h packets).length) :
    pcapPacketStream path ((encodeFile o nanoseconds h packets).take n) =
      .ok ⟨(wholePackets 24 n packets).map (Packet.record nanoseconds), cutStats 24 n packets {}, none⟩ := by
  have hmagic : ((encodeFile o nanoseconds h packets).take n).take 4 = bytes o 4 (magicNumber nanoseconds) := by
    rw [List.take_take, Nat.min_eq_left hn, encodeFile, List.append_assoc, List.take_left' (bytes_length o 4 _)]
  rw [stream_reader path hmagic]
  by_cases hheader : 24 ≤ n
  · rw [generate_cut o nanoseconds h packets hheader hle]
  · obtain ⟨hnone, hstats⟩ := cutStats_start {} (n := n) (by omega) packets
    rw [generate_headless ⟨o, nanoseconds⟩ (by rw [List.length_take]; omega), hnone, hstats]
    rfl

theorem packetEnds_last (packets : List Packet) (start : Nat) (o : Order) :
    start + (encodePackets o packets).length ∈ start :: packetEnds start packets ∧
      wholePackets start (start + (encodePackets o packets).length) packets = packets := by
  induction packets generalizing start with
  | nil => exact ⟨by simp [encodePackets], rfl⟩
  | cons p packets ih =>
    obtain ⟨hend, hwhole⟩ := ih (start + p.length)
    have hlength : (encodePackets o (p :: packets)).length = p.length + (encodePackets o packets).length := by
      rw [encodePackets, List.flatMap_cons, List.length_append, encodePacket_length]
      rfl
    rw [hlength, ← Nat.add_assoc]
    refine ⟨List.mem_cons_of_mem start hend, ?_⟩
    rw [wholePackets_cons, if_pos (by omega), hwhole]

/-- Every packet list is read back from its file, and a file cut behind its magic number gives
the packets whole in it and a truncated tail just when the cut is no end of a packet. -/
theorem classic_round_trip (path : String) (o : Order) (nanoseconds : Bool) (h : FileHeader) (packets : List Packet) :
    pcapPacketStream path (encodeFile o nanoseconds h packets) =
        .ok ⟨packets.map (Packet.record nanoseconds), { packetsYielded := packets.length }, none⟩ ∧
      ∀ cut, 4 ≤ cut → cut ≤ (encodeFile o nanoseconds h packets).length →
        ∃ stats, pcapPacketStream path ((encodeFile o nanoseconds h packets).take cut) =
            .ok ⟨(wholePackets 24 cut packets).map (Packet.record nanoseconds), stats, none⟩ ∧
          stats.packetsYielded = (wholePackets 24 cut packets).length ∧
          (stats.truncatedTail = true ↔ cut ∉ 24 :: packetEnds 24 packets) := by
  constructor
  · have hlength : (encodeFile o nanoseconds h packets).length = 24 + (encodePackets o packets).length := by
      rw [encodeFile, List.length_append, header_size]
    obtain ⟨hend, hwhole⟩ := packetEnds_last packets 24 o
    have hread := stream_cut path o nanoseconds h packets (n := (encodeFile o nanoseconds h packets).length)
      (by omega) (Nat.le_refl _)
    rw [List.take_length, hlength, hwhole] at hread
    rw [hread]
    simp [cutStats, hwhole, hend]
  · intro cut hcut hle
    refine ⟨cutStats 24 cut packets {}, stream_cut path o nanoseconds h packets hcut hle, ?_, ?_⟩
    · simp [cutStats]
    · simp [cutStats]

def devHeader : FileHeader := ⟨2, 4, 0, 0, 65535, 1⟩

def devPacket : Packet := ⟨1700000000, 250000, 60, [0xde, 0xad], by decide⟩

/-- A big-endian file with nanoseconds, cut within its second packet. -/
theorem classic_round_trip_torn :
    4 ≤ 43 ∧ 43 ≤ (encodeFile .big true devHeader [devPacket, devPacket]).length ∧
      ∃ stats, pcapPacketStream "capture.pcap" ((encodeFile .big true devHeader [devPacket, devPacket]).take 43) =
          .ok ⟨(wholePackets 24 43 [devPacket, devPacket]).map (Packet.record true), stats, none⟩ ∧
        stats.packetsYielded = (wholePackets 24 43 [devPacket, devPacket]).length ∧
        (stats.truncatedTail = true ↔ 43 ∉ 24 :: packetEnds 24 [devPacket, devPacket]) :=
  ⟨by decide, by decide, (classic_round_trip "capture.pcap" .big true devHeader [devPacket, devPacket]).2 43
    (by decide) (by decide)⟩

example : (wholePackets 24 43 [devPacket, devPacket]).length = 1 := by decide

end ClassicPcap
