import AgenticSoc.PcapContent

/-!
# Framing of PCAPNG captures

What one turn of the reader does on an encoded block, and from it what whole captures give.
-/
namespace PcapFraming

open ByteOrder PcapReader PcapContent

theorem take_front {α : Type} {l a b : List α} {n : Nat} (h : l = a ++ b) (hn : a.length = n) : l.take n = a := by
  rw [h, List.take_left' hn]

theorem drop_front {α : Type} {l a b : List α} {n : Nat} (h : l = a ++ b) (hn : a.length = n) : l.drop n = b := by
  rw [h, List.drop_left' hn]

theorem word4_lt (n : UInt32) : n.toNat < 256 ^ 4 := n.toNat_lt

/-! ## The words of a block -/

theorem unpackWords_encode (o : Order) (words : List (Nat × Nat)) (h : ∀ p ∈ words, p.2 < 256 ^ p.1) :
    unpackWords (some o) (words.map Prod.fst) (encode o (words.map fun p => .word p.1 p.2)) = .ok (words.map Prod.snd) := by
  rw [unpackWords, unpack_encode o words h]

/-- The block type of a section header reads alike in both orders. -/
theorem swapped_shb : swapped 4 blockShb = blockShb := by decide

theorem swapped_magic : swapped 4 0x1A2B3C4D = 0x4D3C2B1A := by decide

theorem kind_lt (b : Block) : b.kind < 256 ^ 4 := by
  cases b <;> simp only [Block.kind, blockShb, blockIdb, blockEpb, blockSpb] <;> first | decide | exact word4_lt _

/-- The order the head of the next block is read in. -/
def headOrder (r : Reader) : Order := r.endian.getD .little

theorem unpack_pair {o : Order} {x y : List UInt8} (hx : x.length = 4) (hy : y.length = 4) :
    unpackWords (some o) [4, 4] (x ++ y) = .ok [value o x, value o y] := by
  have hxy : ¬ (x ++ y).length < 4 := by
    rw [List.length_append]
    omega
  have hy' : ¬ y.length < 4 := by omega
  simp only [unpackWords, unpack, if_neg hxy, List.drop_left' hx, List.take_left' hx, if_neg hy',
    List.drop_eq_nil_of_le (Nat.le_of_eq hy), List.take_of_length_le (Nat.le_of_eq hy), Option.map_some]

/-- The type and the length that the reader takes a block to have. -/
theorem turn_head {r : Reader} {o : Order} {b : Block} {tail : List UInt8}
    (hrest : r.file.rest = encode o b.layout ++ tail) (horder : b.kind = blockShb ∨ r.endian = some o) :
    turn r = readBlock b.kind (value (headOrder r) (bytes o 4 b.length)) { r with file := r.file.advance 8 } := by
  have hrest' : r.file.rest = (bytes o 4 b.kind ++ bytes o 4 b.length) ++ (encode o (b.body ++ [.word 4 b.length]) ++ tail) := by
    rw [hrest]
    simp only [Block.layout, encode_append, encode_cons, Field.encode, encode_nil, List.append_nil, List.append_assoc]
  have hhead : r.file.rest.take 8 = bytes o 4 b.kind ++ bytes o 4 b.length :=
    take_front hrest' (by rw [List.length_append, bytes_length, bytes_length])
  have hlength : (bytes o 4 b.kind ++ bytes o 4 b.length).length = 8 := by
    rw [List.length_append, bytes_length, bytes_length]
  -- a section header gives its type in any order, the other blocks in that of their section
  have hkind : value (headOrder r) (bytes o 4 b.kind) = b.kind := by
    by_cases ho : headOrder r = o
    · rw [ho, value_word (kind_lt b)]
    · rcases horder with hshb | hendian
      · rw [value_other ho, hshb, swapped_shb]
      · exact absurd (by rw [headOrder, hendian]; rfl) ho
  have hprobe : ¬ (r.endian = none ∧ value .little (bytes o 4 b.kind) ≠ blockShb) := by
    rintro ⟨hnone, hne⟩
    rcases horder with hshb | hendian
    · have hlittle : headOrder r = .little := by rw [headOrder, hnone]; rfl
      rw [hlittle] at hkind
      exact hne (hkind.trans hshb)
    · rw [hnone] at hendian
      cases hendian
  simp only [turn, readExact_eq, hhead, hlength]
  rw [if_neg (by decide), if_neg (by decide), unpack_pair (bytes_length o 4 _) (bytes_length o 4 _),
    unpack_pair (bytes_length o 4 _) (bytes_length o 4 _)]
  change (if _ then _ else readBlock (value (headOrder r) _) _ _) = _
  rw [if_neg hprobe, hkind]
  rfl

/-! ## The options of an interface -/

/-- The time resolution that an option sets. -/
def resolutionOf (code olen : Nat) (value : List UInt8) (resolByte : Nat) : Nat :=
  match value with
  | b :: _ => if code = 9 ∧ 1 ≤ olen then b.toNat else resolByte
  | [] => resolByte

/-- One option of an option list that may be cut off. -/
theorem scan_option (o : Order) {code olen : Nat} (hcode : code < 256 ^ 2) (holen : olen < 256 ^ 2) (rest : List UInt8)
    (k d : Nat) :
    scanOptions o ((bytes o 2 code ++ (bytes o 2 olen ++ rest)).take k) d =
      if k < 4 then d
      else if code = 0 then d
      else scanOptions o ((rest.drop (padded olen)).take (k - 4 - padded olen)) (resolutionOf code olen (rest.take (k - 4)) d) := by
  have hlength : ((bytes o 2 code ++ (bytes o 2 olen ++ rest)).take k).length = min k (4 + rest.length) := by
    simp only [List.length_take, List.length_append, bytes_length]
    omega
  rw [scanOptions]
  by_cases hk : k < 4
  · rw [if_pos (by omega), if_pos hk]
  rw [if_neg (by omega), if_neg hk]
  have hfirst : ((bytes o 2 code ++ (bytes o 2 olen ++ rest)).take k).take 2 = bytes o 2 code := by
    rw [List.take_take, Nat.min_eq_left (by omega), List.take_left' (bytes_length o 2 code)]
  have hsecond : (((bytes o 2 code ++ (bytes o 2 olen ++ rest)).take k).drop 2).take 2 = bytes o 2 olen := by
    rw [List.drop_take, List.drop_left' (bytes_length o 2 code), List.take_take, Nat.min_eq_left (by omega),
      List.take_left' (bytes_length o 2 olen)]
  have hvalue : ((bytes o 2 code ++ (bytes o 2 olen ++ rest)).take k).drop 4 = rest.take (k - 4) := by
    rw [List.drop_take, ← List.append_assoc,
      List.drop_left' (by rw [List.length_append, bytes_length, bytes_length])]
  have hnext : ((bytes o 2 code ++ (bytes o 2 olen ++ rest)).take k).drop (4 + padded olen) =
      (rest.drop (padded olen)).take (k - 4 - padded olen) := by
    rw [← List.drop_drop, hvalue, List.drop_take]
  simp only [hfirst, hsecond, hvalue, hnext, value_word hcode, value_word holen]
  rfl

/-- The two ways in which an option list ends read alike in both orders. -/
theorem encode_closing (o : Order) (closed : Bool) :
    encode o (if closed then [.word 2 0, .word 2 0] else []) = if closed then [0, 0, 0, 0] else [] := by
  cases o <;> cases closed <;> decide

theorem encode_option (o : Order) (opt : PcapOption) (rest : List UInt8) :
    encode o opt.layout ++ rest = bytes o 2 opt.code.toNat ++ (bytes o 2 (size opt.value) ++
      (encode o (opt.value ++ [padding (size opt.value)]) ++ rest)) := by
  simp only [PcapOption.layout, encode_append, encode_cons, encode_nil, Field.encode, List.append_assoc, List.append_nil]

/-- Only a single octet is ever taken from an option. -/
theorem resolution_order (o : Order) (opt : PcapOption) (rest rest' : List UInt8) (k d : Nat) :
    resolutionOf opt.code.toNat (size opt.value) ((encode o (opt.value ++ [padding (size opt.value)]) ++ rest).take k) d =
      resolutionOf opt.code.toNat (size opt.value)
        ((encode .little (opt.value ++ [padding (size opt.value)]) ++ rest').take k) d := by
  by_cases hnine : opt.code = 9
  · obtain ⟨b, hb⟩ := opt.resolution hnine
    rw [hb]
    simp only [List.cons_append, List.nil_append, encode_cons, Field.encode]
    cases k <;> rfl
  · have hcode : opt.code.toNat ≠ 9 := fun h => hnine (UInt16.toNat_inj.mp h)
    have hkept : ∀ value, resolutionOf opt.code.toNat (size opt.value) value d = d := by
      intro value
      unfold resolutionOf
      split
      · rw [if_neg fun h => hcode h.1]
      · rfl
    rw [hkept, hkept]

/-- The order of a section does not matter for the options of its interfaces, also when they
are cut off. -/
theorem scan_order (o : Order) (items : List PcapOption) (closed : Bool) (k d : Nat) :
    scanOptions o ((encode o (Options.layout ⟨items, closed⟩)).take k) d =
      scanOptions .little ((encode .little (Options.layout ⟨items, closed⟩)).take k) d := by
  induction items generalizing k d with
  | nil =>
    simp only [Options.layout, List.flatMap_nil, List.nil_append, encode_closing]
    cases closed
    · simp [scanOptions]
    · by_cases hk : k < 4
      · have hshort : (([0, 0, 0, 0] : List UInt8).take k).length < 4 := by
          rw [List.length_take, List.length_cons, List.length_cons, List.length_cons, List.length_cons, List.length_nil]
          omega
        rw [if_pos rfl, scanOptions, if_pos hshort, scanOptions, if_pos hshort]
      · have hall : ([0, 0, 0, 0] : List UInt8).take k = [0, 0, 0, 0] := List.take_of_length_le (by simpa using hk)
        rw [if_pos rfl, hall, scanOptions, scanOptions]
        cases o <;> rfl
  | cons opt items ih =>
    have hlayout : Options.layout ⟨opt :: items, closed⟩ = opt.layout ++ Options.layout ⟨items, closed⟩ := by
      simp only [Options.layout, List.flatMap_cons, List.append_assoc]
    have hcode : opt.code.toNat < 256 ^ 2 := opt.code.toNat_lt
    have hdrop : ∀ o, (encode o (opt.value ++ [padding (size opt.value)]) ++ encode o (Options.layout ⟨items, closed⟩)).drop
        (padded (size opt.value)) = encode o (Options.layout ⟨items, closed⟩) := by
      intro o
      refine List.drop_left' ?_
      rw [encode_length, size_append, size_cons, size_nil, padding_size]
      have := le_padded (size opt.value)
      omega
    rw [hlayout, encode_append, encode_append, encode_option, encode_option, scan_option o hcode opt.room,
      scan_option .little hcode opt.room, hdrop, hdrop, resolution_order o opt _ (encode .little (Options.layout ⟨items, closed⟩)), ih]

/-! ## One block -/

/-- The scale of an interface; the reader sees the first 512 octets of the block body. -/
def Interface.scale (i : Interface) : Nat × Nat :=
  tsresolToScale (scanOptions .little ((encode .little i.options.layout).take (min (size (Block.interface i).body) 512 - 8)) 6)

/-- The time of a packet by the interfaces known so far. -/
def EnhancedPacket.time (p : EnhancedPacket) (ifaces : List (Nat × Nat)) : Nat :=
  let (mult, div) := (ifaces[p.interface.toNat]?).getD (1000000, 1)
  ((p.high.toNat <<< 32) ||| p.low.toNat) * mult / div

/-- What the reader makes of a block that it reads whole. -/
def absorb (o : Order) (b : Block) (r : Reader) : Turn :=
  match b with
  | .header _ =>
    .proceed { r with
      endian := some o, ifaceResolutions := []
      stats := { r.stats with sectionsSeen := r.stats.sectionsSeen + 1 } }
  | .interface i =>
    .proceed { r with
      ifaceResolutions := r.ifaceResolutions ++ [Interface.scale i]
      stats := { r.stats with interfacesSeen := r.stats.interfacesSeen + 1 } }
  | .enhanced p =>
    finishPacket ⟨some (EnhancedPacket.time p r.ifaceResolutions), p.data.length, p.original.toNat, p.data⟩ r
  | .simple p => finishPacket ⟨none, p.original.toNat, p.original.toNat, p.data⟩ r
  | .other _ => .proceed r

/-- Packets whose whole block is read: no options, nothing cut off by a snap length. -/
def Consumed : Block → Prop
  | .enhanced p => size p.options.layout = 0
  | .simple p => p.original.toNat = p.data.length
  | _ => True

theorem trailer_whole {r : Reader} {next : Reader → Turn} (h : 4 ≤ r.file.rest.length) :
    readTrailer r next = next { r with file := r.file.advance 4 } := by
  have hlength : ¬ (r.file.rest.take 4).length < 4 := by
    rw [List.length_take]
    omega
  simp only [readTrailer, readExact_eq, if_neg hlength]

theorem header_whole {r : Reader} {o : Order} {h : SectionHeader} {rest : List UInt8}
    (hrest : r.file.rest = encode o (Block.header h).body ++ rest) (hlength : 4 ≤ rest.length) :
    sectionHeader (size (Block.header h).body) r =
      absorb o (.header h) { r with file := r.file.advance (size (Block.header h).body + 4) } := by
  have hmagic : r.file.rest.take 4 = bytes o 4 0x1A2B3C4D := by
    refine take_front (b := encode o ([.word 2 h.major.toNat, .word 2 h.minor.toNat, .word 8 h.sectionLength.toNat] ++
      h.options.layout) ++ rest) ?_ (bytes_length o 4 _)
    rw [hrest]
    simp only [Block.body, List.cons_append, List.nil_append, encode_cons, Field.encode, List.append_assoc]
  have hsize : 16 ≤ size (Block.header h).body := by
    simp only [Block.body, size_append, size_cons, size_nil, Field.size]
    omega
  have hall : r.file.rest.length = size (Block.header h).body + rest.length := by
    rw [hrest, List.length_append, encode_length]
  have hleft : 4 ≤ ((r.file.advance 4).advance (size (Block.header h).body - 4)).rest.length := by
    rw [advance_advance, advance_rest, List.length_drop]
    omega
  have hdone : ((r.file.advance 4).advance (size (Block.header h).body - 4)).advance 4 =
      r.file.advance (size (Block.header h).body + 4) := by
    rw [advance_advance, advance_advance]
    congr 1
    omega
  have hword : unpackWords (some .little) [4] (bytes o 4 0x1A2B3C4D) = .ok [value .little (bytes o 4 0x1A2B3C4D)] := by
    cases o <;> decide
  simp only [sectionHeader, readExact_eq, skip_eq, hmagic, hword]
  cases o with
  | little =>
    have hvalue : value .little (bytes .little 4 0x1A2B3C4D) = 0x1A2B3C4D := by decide
    rw [if_pos hvalue, trailer_whole hleft, hdone]
    rfl
  | big =>
    have hvalue : value .little (bytes .big 4 0x1A2B3C4D) = 0x4D3C2B1A := by decide
    rw [hvalue, if_neg (by decide), if_pos rfl, trailer_whole hleft, hdone]
    rfl

theorem interface_whole {r : Reader} {o : Order} {i : Interface} {rest : List UInt8} (hendian : r.endian = some o)
    (hrest : r.file.rest = encode o (Block.interface i).body ++ rest) (hlength : 4 ≤ rest.length) :
    interfaceDescription (size (Block.interface i).body) r =
      absorb o (.interface i) { r with file := r.file.advance (size (Block.interface i).body + 4) } := by
  have hsize : size (Block.interface i).body = 8 + size i.options.layout := by
    simp only [Block.body, size_append, size_cons, size_nil, Field.size]
  have hall : r.file.rest.length = size (Block.interface i).body + rest.length := by
    rw [hrest, List.length_append, encode_length]
  have hbody : encode o (Block.interface i).body = encode o [.word 2 i.linktype.toNat, .word 2 i.reserved.toNat,
      .word 4 i.snaplen.toNat] ++ encode o i.options.layout := by rw [Block.body, encode_append]
  have hhead : (encode o [.word 2 i.linktype.toNat, .word 2 i.reserved.toNat, .word 4 i.snaplen.toNat]).length = 8 := by
    rw [encode_length]
    rfl
  have htaken : r.file.rest.take (min (size (Block.interface i).body) 512) =
      encode o [.word 2 i.linktype.toNat, .word 2 i.reserved.toNat, .word 4 i.snaplen.toNat] ++
        (encode o i.options.layout).take (min (size (Block.interface i).body) 512 - 8) := by
    rw [hrest, List.take_append_of_le_length (by rw [encode_length]; omega), hbody, List.take_append, hhead,
      List.take_of_length_le (by omega)]
  have hwords : unpackWords (some o) [2, 2, 4] (encode o [.word 2 i.linktype.toNat, .word 2 i.reserved.toNat,
      .word 4 i.snaplen.toNat]) = .ok [i.linktype.toNat, i.reserved.toNat, i.snaplen.toNat] := by
    refine unpackWords_encode o [(2, i.linktype.toNat), (2, i.reserved.toNat), (4, i.snaplen.toNat)] ?_
    simp only [List.mem_cons, List.not_mem_nil, or_false, forall_eq_or_imp, forall_eq]
    exact ⟨i.linktype.toNat_lt, i.reserved.toNat_lt, word4_lt i.snaplen⟩
  have hwhole : size (Block.interface i).body - min (size (Block.interface i).body) 512 ≤
      (r.file.advance (min (size (Block.interface i).body) 512)).rest.length := by
    rw [advance_rest, List.length_drop]
    omega
  have hleft : 4 ≤ ((r.file.advance (min (size (Block.interface i).body) 512)).advance
      (size (Block.interface i).body - min (size (Block.interface i).body) 512)).rest.length := by
    rw [advance_advance, advance_rest, List.length_drop]
    omega
  have hdone : ((r.file.advance (min (size (Block.interface i).body) 512)).advance
      (size (Block.interface i).body - min (size (Block.interface i).body) 512)).advance 4 =
      r.file.advance (size (Block.interface i).body + 4) := by
    rw [advance_advance, advance_advance]
    congr 1
    omega
  simp only [interfaceDescription, readExact_eq, skip_eq, htaken, decide_eq_true hwhole, Bool.not_true, Bool.false_eq_true,
    if_false]
  rw [trailer_whole hleft, hdone, List.take_left' hhead, List.drop_left' hhead, hendian, hwords]
  simp only [Option.getD_some, absorb, Interface.scale]
  rw [scan_order o i.options.items i.options.closed]

theorem close_whole {r : Reader} {tsNs : Option Nat} {caplen wirelen : Nat} {data : List UInt8}
    (h : padded caplen - caplen + 4 ≤ r.file.rest.length) :
    closePacket tsNs caplen wirelen data r =
      finishPacket ⟨tsNs, caplen, wirelen, data⟩ { r with file := r.file.advance (padded caplen - caplen + 4) } := by
  have hwhole : padded caplen - caplen ≤ r.file.rest.length := by omega
  have hleft : 4 ≤ (r.file.advance (padded caplen - caplen)).rest.length := by
    rw [advance_rest, List.length_drop]
    omega
  simp only [closePacket, skip_eq, decide_eq_true hwhole, Bool.not_true, Bool.false_eq_true, and_false, if_false]
  rw [trailer_whole hleft, advance_advance]

/-- A packet is closed with the lengths it was read with, or not at all. -/
theorem close_cases (tsNs : Option Nat) (caplen wirelen : Nat) (data : List UInt8) (r : Reader) :
    (∃ r', closePacket tsNs caplen wirelen data r = .stops r') ∨
      ∃ r', closePacket tsNs caplen wirelen data r = finishPacket ⟨tsNs, caplen, wirelen, data⟩ r' := by
  simp only [closePacket, readTrailer, readExact_eq, skip_eq]
  split
  · exact .inl ⟨_, rfl⟩
  · split
    · exact .inl ⟨_, rfl⟩
    · exact .inr ⟨_, rfl⟩

theorem dataLayout_size (data : List UInt8) : size (dataLayout data) = padded data.length := by
  have hpadded := le_padded data.length
  rw [dataLayout, size_cons, size_cons, size_nil, padding_size, Field.size]
  omega

theorem enhanced_size (p : EnhancedPacket) :
    size (Block.enhanced p).body = 20 + padded p.data.length + size p.options.layout := by
  simp only [Block.body, EnhancedPacket.head, size_append, size_cons, size_nil, Field.size, dataLayout_size]

theorem simple_size (p : SimplePacket) : size (Block.simple p).body = 4 + padded p.data.length := by
  simp only [Block.body, size_append, size_cons, size_nil, Field.size, dataLayout_size]

/-- An enhanced packet, read up to the octets that fill its data up and one word more. -/
theorem enhanced_read {r : Reader} {o : Order} {p : EnhancedPacket} {rest : List UInt8} (hendian : r.endian = some o)
    (hrest : r.file.rest = encode o (Block.enhanced p).body ++ rest) (hlength : 4 ≤ rest.length)
    (hsane : (Block.enhanced p).length ≤ maxSaneRecord) :
    enhancedPacket r = finishPacket ⟨some (EnhancedPacket.time p r.ifaceResolutions), p.data.length, p.original.toNat, p.data⟩
      { r with file := r.file.advance (20 + padded p.data.length + 4) } := by
  have hsize := enhanced_size p
  have hpadded := le_padded p.data.length
  have hroom : p.data.length ≤ maxSaneRecord := by
    rw [Block.length] at hsane
    omega
  have hhead : (encode o p.head).length = 20 := by
    rw [encode_length]
    rfl
  have hsplit : r.file.rest = encode o p.head ++ (p.data ++ (encode o ([padding p.data.length] ++ p.options.layout) ++ rest)) := by
    rw [hrest]
    simp only [Block.body, dataLayout, encode_append, encode_cons, Field.encode, encode_nil, List.append_assoc,
      List.append_nil]
  have htaken : r.file.rest.take 20 = encode o p.head := take_front hsplit hhead
  have hdata : (r.file.advance 20).rest.take p.data.length = p.data := by
    rw [advance_rest, drop_front hsplit hhead, List.take_left' rfl]
  have hwords : unpackWords (some o) [4, 4, 4, 4, 4] (encode o p.head) =
      .ok [p.interface.toNat, p.high.toNat, p.low.toNat, p.data.length, p.original.toNat] := by
    refine unpackWords_encode o [(4, p.interface.toNat), (4, p.high.toNat), (4, p.low.toNat), (4, p.data.length),
      (4, p.original.toNat)] ?_
    have hsmall : maxSaneRecord < 256 ^ 4 := by decide
    have hfits : p.data.length < 256 ^ 4 := Nat.lt_of_le_of_lt hroom hsmall
    simp only [List.mem_cons, List.not_mem_nil, or_false, forall_eq_or_imp, forall_eq]
    exact ⟨word4_lt _, word4_lt _, word4_lt _, hfits, word4_lt _⟩
  have hall : r.file.rest.length = size (Block.enhanced p).body + rest.length := by
    rw [hrest, List.length_append, encode_length]
  have hleft : padded p.data.length - p.data.length + 4 ≤ ((r.file.advance 20).advance p.data.length).rest.length := by
    rw [advance_advance, advance_rest, List.length_drop]
    omega
  have hdone : ((r.file.advance 20).advance p.data.length).advance (padded p.data.length - p.data.length + 4) =
      r.file.advance (20 + padded p.data.length + 4) := by
    rw [advance_advance, advance_advance]
    congr 1
    omega
  simp only [enhancedPacket, readExact_eq, htaken, hhead, hendian, hwords]
  rw [if_neg (by decide), if_neg (by omega), close_whole hleft, hdata, hdone]
  rfl

/-- A simple packet, closed with its original length if at all. -/
theorem simple_read {r : Reader} {o : Order} {p : SimplePacket} {rest : List UInt8} (hendian : r.endian = some o)
    (hrest : r.file.rest = encode o (Block.simple p).body ++ rest) :
    simplePacket r = if maxSaneRecord < p.original.toNat then
        .raises (.pcapFormatError s!"implausible SPB len {p.original.toNat}") { r with file := r.file.advance 4 }
      else closePacket none p.original.toNat p.original.toNat ((p.data ++ (encode o [padding p.data.length] ++ rest)).take
        p.original.toNat) { r with file := (r.file.advance 4).advance p.original.toNat } := by
  have hsplit : r.file.rest = bytes o 4 p.original.toNat ++ (p.data ++ (encode o [padding p.data.length] ++ rest)) := by
    rw [hrest]
    simp only [Block.body, dataLayout, encode_append, encode_cons, Field.encode, encode_nil, List.append_assoc,
      List.append_nil]
  have htaken : r.file.rest.take 4 = bytes o 4 p.original.toNat := take_front hsplit (bytes_length o 4 _)
  have hdata : (r.file.advance 4).rest = p.data ++ (encode o [padding p.data.length] ++ rest) := by
    rw [advance_rest, drop_front hsplit (bytes_length o 4 _)]
  have hwords : unpackWords (some o) [4] (bytes o 4 p.original.toNat) = .ok [p.original.toNat] := by
    have h := unpackWords_encode o [(4, p.original.toNat)] (by
      simp only [List.mem_cons, List.not_mem_nil, or_false, forall_eq]
      exact word4_lt p.original)
    simpa only [List.map_cons, List.map_nil, encode_cons, encode_nil, Field.encode, List.append_nil] using h
  simp only [simplePacket, readExact_eq, htaken, bytes_length, hendian, hwords, hdata]
  rw [if_neg (by decide)]

theorem other_whole {r : Reader} {b : OtherBlock} {o : Order} {rest : List UInt8}
    (hrest : r.file.rest = encode o (Block.other b).body ++ rest) (hlength : 4 ≤ rest.length) :
    otherBlock (size (Block.other b).body) r =
      absorb o (.other b) { r with file := r.file.advance (size (Block.other b).body + 4) } := by
  have hall : r.file.rest.length = size (Block.other b).body + rest.length := by
    rw [hrest, List.length_append, encode_length]
  have hwhole : size (Block.other b).body ≤ r.file.rest.length := by omega
  have hleft : 4 ≤ (r.file.advance (size (Block.other b).body)).rest.length := by
    rw [advance_rest, List.length_drop]
    omega
  simp only [otherBlock, skip_eq, decide_eq_true hwhole, Bool.not_true, Bool.false_eq_true, if_false]
  rw [trailer_whole hleft, advance_advance]
  rfl

/-- The body of a block is read by the kind of the block. -/
theorem readBlock_kind {b : Block} {r : Reader} (hsane : b.length ≤ maxSaneRecord) :
    readBlock b.kind b.length r = match b with
      | .header _ => sectionHeader (size b.body) r
      | .interface _ => interfaceDescription (size b.body) r
      | .enhanced _ => enhancedPacket r
      | .simple _ => simplePacket r
      | .other _ => otherBlock (size b.body) r := by
  have hlimits : ¬ (b.length < 12 ∨ maxSaneRecord < b.length) := by
    rw [Block.length] at hsane ⊢
    omega
  have hbody : b.length - 12 = size b.body := by
    rw [Block.length]
    omega
  rw [readBlock, if_neg hlimits, hbody]
  cases b with
  | header h => rfl
  | interface i => rfl
  | enhanced p => rfl
  | simple p => rfl
  | other x =>
    have hother := x.other
    simp only [List.mem_cons, List.not_mem_nil, or_false, not_or] at hother
    simp only [Block.kind, hother.1, hother.2.1, hother.2.2.1, hother.2.2.2, if_false]

theorem simple_whole {r : Reader} {o : Order} {p : SimplePacket} {rest : List UInt8} (hendian : r.endian = some o)
    (hrest : r.file.rest = encode o (Block.simple p).body ++ rest) (hlength : 4 ≤ rest.length)
    (hsane : (Block.simple p).length ≤ maxSaneRecord) (horiginal : p.original.toNat = p.data.length) :
    simplePacket r =
      absorb o (.simple p) { r with file := r.file.advance (size (Block.simple p).body + 4) } := by
  have hpadded := le_padded p.data.length
  have hsize := simple_size p
  have hroom : ¬ maxSaneRecord < p.original.toNat := by
    rw [Block.length] at hsane
    omega
  have hall : r.file.rest.length = size (Block.simple p).body + rest.length := by
    rw [hrest, List.length_append, encode_length]
  have hleft : padded p.data.length - p.data.length + 4 ≤ ((r.file.advance 4).advance p.data.length).rest.length := by
    rw [advance_advance, advance_rest, List.length_drop]
    omega
  have hdone : ((r.file.advance 4).advance p.data.length).advance (padded p.data.length - p.data.length + 4) =
      r.file.advance (size (Block.simple p).body + 4) := by
    rw [advance_advance, advance_advance]
    congr 1
    omega
  rw [simple_read hendian hrest, if_neg hroom, horiginal, List.take_left' rfl, close_whole hleft, hdone]
  simp only [absorb, horiginal]

theorem block_whole {r : Reader} {o : Order} {b : Block} {rest : List UInt8}
    (hrest : r.file.rest = encode o b.body ++ rest) (hlength : 4 ≤ rest.length)
    (horder : b.kind = blockShb ∨ r.endian = some o) (hsane : b.length ≤ maxSaneRecord) (hconsumed : Consumed b) :
    readBlock b.kind b.length r = absorb o b { r with file := r.file.advance (size b.body + 4) } := by
  rw [readBlock_kind hsane]
  cases b with
  | header h => exact header_whole hrest hlength
  | interface i => exact interface_whole (horder.resolve_left (by change ¬ blockIdb = blockShb; decide)) hrest hlength
  | enhanced p =>
    have hread := enhanced_read (horder.resolve_left (by change ¬ blockEpb = blockShb; decide)) hrest hlength hsane
    have hsize : size (Block.enhanced p).body = 20 + padded p.data.length := by
      rw [enhanced_size, show size p.options.layout = 0 from hconsumed, Nat.add_zero]
    rw [← hsize] at hread
    exact hread
  | simple p =>
    exact simple_whole (horder.resolve_left (by change ¬ blockSpb = blockShb; decide)) hrest hlength hsane hconsumed
  | other x => exact other_whole hrest hlength

theorem layout_rest (o : Order) (b : Block) (tail : List UInt8) :
    encode o b.layout ++ tail = (bytes o 4 b.kind ++ bytes o 4 b.length) ++ (encode o b.body ++ (bytes o 4 b.length ++ tail)) := by
  simp only [Block.layout, encode_append, encode_cons, Field.encode, encode_nil, List.append_nil, List.append_assoc]

theorem after_head {r : Reader} {o : Order} {b : Block} {tail : List UInt8}
    (hrest : r.file.rest = encode o b.layout ++ tail) :
    (r.file.advance 8).rest = encode o b.body ++ (bytes o 4 b.length ++ tail) := by
  rw [advance_rest, hrest, layout_rest]
  exact List.drop_left' (by rw [List.length_append, bytes_length, bytes_length])

/-- A block that is read as it was written, and whole. -/
theorem turn_whole {r : Reader} {o : Order} {b : Block} {tail : List UInt8}
    (hrest : r.file.rest = encode o b.layout ++ tail) (horder : b.kind = blockShb ∨ r.endian = some o)
    (hvalue : value (headOrder r) (bytes o 4 b.length) = b.length) (hsane : b.length ≤ maxSaneRecord) (hconsumed : Consumed b) :
    turn r = absorb o b { r with file := r.file.advance b.length } := by
  have hafter := after_head hrest
  have htrailer : 4 ≤ (bytes o 4 b.length ++ tail).length := by
    rw [List.length_append, bytes_length]
    omega
  have hdone : (r.file.advance 8).advance (size b.body + 4) = r.file.advance b.length := by
    rw [advance_advance, Block.length]
    congr 1
    omega
  rw [turn_head hrest horder, hvalue,
    block_whole (r := { r with file := r.file.advance 8 }) hafter htrailer horder hsane hconsumed, hdone]

/-! ## The turns over a capture -/

def packetOf (record : PacketRecord) : List UInt8 × Nat × Nat := (record.data, record.caplen, record.wirelen)

/-- The reader after a block that it has read whole. -/
theorem absorb_next {o : Order} {b : Block} {r : Reader} (horder : b.kind = blockShb ∨ r.endian = some o) :
    ∃ r', (absorb o b r).next = some r' ∧ r'.file = r.file ∧ r'.endian = some o ∧
      r'.stats.truncatedTail = r.stats.truncatedTail := by
  cases b with
  | header h => exact ⟨_, rfl, rfl, rfl, rfl⟩
  | interface i => exact ⟨_, rfl, rfl, horder.resolve_left (by change ¬ blockIdb = blockShb; decide), rfl⟩
  | enhanced p => exact ⟨_, rfl, rfl, horder.resolve_left (by change ¬ blockEpb = blockShb; decide), rfl⟩
  | simple p => exact ⟨_, rfl, rfl, horder.resolve_left (by change ¬ blockSpb = blockShb; decide), rfl⟩
  | other x =>
    have hother := x.other
    simp only [List.mem_cons, not_or] at hother
    exact ⟨_, rfl, rfl, horder.resolve_left hother.1, rfl⟩

theorem absorb_record {o : Order} {b : Block} {r : Reader} (hconsumed : Consumed b) :
    (absorb o b r).record.map packetOf = b.packet := by
  cases b with
  | simple p => exact congrArg (fun n => some (p.data, n, p.original.toNat)) hconsumed
  | header h => rfl
  | interface i => rfl
  | enhanced p => rfl
  | other x => rfl

def standing (t : Turn) : Option Nat := t.next.map fun r => r.file.position

/-- The turns from a reader on give every packet of the blocks, stand at the end of each
block, and end at the end of the file. -/
structure FramedFrom (r : Reader) (blocks : List Block) : Prop where
  packets : ((turns r).filterMap Turn.record).map packetOf = blocks.filterMap Block.packet
  stands : (turns r).filterMap standing = boundaries r.file.position (blocks.map Block.length)
  ended : ∃ r', (turns r).getLast? = some (.stops r') ∧ r'.stats.truncatedTail = false

/-- The reader at the end of its file. -/
theorem turn_end {r : Reader} (h : r.file.rest = []) : turn r = .stops r := by
  simp only [turn, readExact_eq, h, List.take_nil, List.length_nil, advance_end h]
  rfl

theorem framed_end {r : Reader} (h : r.file.rest = []) (hintact : r.stats.truncatedTail = false) : FramedFrom r [] := by
  have hturns : turns r = [.stops r] := by rw [turns_last (by rw [turn_end h]; rfl), turn_end h]
  exact ⟨by rw [hturns]; rfl, by rw [hturns]; rfl, r, by rw [hturns]; rfl, hintact⟩

theorem turns_ne_nil (r : Reader) : turns r ≠ [] := by
  rw [turns]
  split <;> exact List.cons_ne_nil _ _

/-- After a block read whole the rest decides. -/
theorem framed_cons {r r' : Reader} {b : Block} {blocks : List Block} (hnext : (turn r).next = some r')
    (hrecord : (turn r).record.map packetOf = b.packet) (hposition : r'.file.position = r.file.position + b.length) :
    FramedFrom r (b :: blocks) ↔ FramedFrom r' blocks := by
  have hturns := turns_next hnext
  have hrecords : ((turns r).filterMap Turn.record).map packetOf =
      b.packet.toList ++ ((turns r').filterMap Turn.record).map packetOf := by
    rw [hturns, List.filterMap_cons, ← hrecord]
    cases (turn r).record <;> rfl
  have hpackets : (b :: blocks).filterMap Block.packet = b.packet.toList ++ blocks.filterMap Block.packet := by
    rw [List.filterMap_cons]
    cases b.packet <;> rfl
  have hstanding : standing (turn r) = some (r.file.position + b.length) := by
    rw [standing, hnext, Option.map_some, hposition]
  have hstands : (turns r).filterMap standing = (r.file.position + b.length) :: (turns r').filterMap standing := by
    rw [hturns, List.filterMap_cons, hstanding]
  have hlast : (turns r).getLast? = (turns r').getLast? := by
    rw [hturns, List.getLast?_cons_of_ne_nil (turns_ne_nil r')]
  constructor
  · intro h
    refine ⟨?_, ?_, ?_⟩
    · have hall := h.packets
      rw [hrecords, hpackets] at hall
      exact List.append_cancel_left hall
    · have hall := h.stands
      rw [hstands, List.map_cons, boundaries] at hall
      rw [(List.cons.inj hall).2, hposition]
    · rw [← hlast]
      exact h.ended
  · intro h
    refine ⟨?_, ?_, ?_⟩
    · rw [hrecords, hpackets, h.packets]
    · rw [hstands, List.map_cons, boundaries, h.stands, hposition]
    · rw [hlast]
      exact h.ended

/-! ## When a block is read whole -/

/-- What a framed run says of its first turn. -/
theorem framed_first {r : Reader} {b : Block} {blocks : List Block} (h : FramedFrom r (b :: blocks)) :
    ∃ r', (turn r).next = some r' ∧ r'.file.position = r.file.position + b.length ∧
      ∀ record p, (turn r).record = some record → b.packet = some p → packetOf record = p := by
  have hstands := h.stands
  rw [List.map_cons, boundaries] at hstands
  cases hnext : (turn r).next with
  | none =>
    rw [turns_last hnext, List.filterMap_cons, standing, hnext] at hstands
    cases hstands
  | some r' =>
    have hstanding : standing (turn r) = some r'.file.position := by rw [standing, hnext, Option.map_some]
    rw [turns_next hnext, List.filterMap_cons, hstanding] at hstands
    refine ⟨r', rfl, (List.cons.inj hstands).1, ?_⟩
    intro record p hrecord hp
    have hpackets := h.packets
    rw [turns_next hnext, List.filterMap_cons, hrecord, List.filterMap_cons, hp] at hpackets
    exact (List.cons.inj hpackets).1

/-- A turn that goes on has found the trailing length. -/
theorem trailer_next {r r' : Reader} {next : Reader → Turn} (h : (readTrailer r next).next = some r') :
    4 ≤ r.file.rest.length ∧ (next { r with file := r.file.advance 4 }).next = some r' := by
  by_cases hlength : 4 ≤ r.file.rest.length
  · rw [trailer_whole hlength] at h
    exact ⟨hlength, h⟩
  · have hshort : (r.file.rest.take 4).length < 4 := by
      rw [List.length_take]
      omega
    simp only [readTrailer, readExact_eq, if_pos hshort] at h
    cases h

/-- A section header moves the reader as far as the length it is taken to have. -/
theorem header_moves {bodyLen : Nat} {r r' : Reader} (h : (sectionHeader bodyLen r).next = some r') :
    r'.file.position = r.file.position + (4 + (bodyLen - 4) + 4) := by
  have hmoves : ∀ endian, (readTrailer { r with endian := some endian, file := (r.file.advance 4).advance (bodyLen - 4) }
      fun r => .proceed { r with ifaceResolutions := [], stats := { r.stats with
        sectionsSeen := r.stats.sectionsSeen + 1 } }).next = some r' →
      r'.file.position = r.file.position + (4 + (bodyLen - 4) + 4) := by
    intro endian hnext
    obtain ⟨hlength, hnext⟩ := trailer_next hnext
    rw [advance_advance, advance_rest, List.length_drop] at hlength
    have hr' := Option.some.inj hnext
    rw [← hr', advance_advance, advance_advance, File.advance]
    change _ + min _ _ = _
    omega
  simp only [sectionHeader, readExact_eq, skip_eq] at h
  split at h
  · split at h
    · exact hmoves _ h
    · split at h
      · exact hmoves _ h
      · cases h
  · cases h
  · cases h

/-- A turn over a block that is too long for the reader. -/
theorem block_beyond {r : Reader} {n k : Nat} (h : n < 12 ∨ maxSaneRecord < n) : (readBlock k n r).next = none := by
  rw [readBlock, if_pos h]
  rfl

/-- The block is not beyond the reader's limit, it has nothing that the reader ignores, and
its length is understood. -/
structure Readable (endian : Option Order) (o : Order) (b : Block) : Prop where
  sane : b.length ≤ maxSaneRecord
  consumed : Consumed b
  order : endian.getD .little = o ∨ swapped 4 b.length = b.length

theorem readable_value {endian : Option Order} {o : Order} {b : Block} (hroom : b.length < 2 ^ 32) :
    value (endian.getD .little) (bytes o 4 b.length) = b.length ↔
      endian.getD .little = o ∨ swapped 4 b.length = b.length := by
  by_cases ho : endian.getD .little = o
  · rw [ho, value_word hroom]
    exact ⟨fun _ => .inl rfl, fun _ => rfl⟩
  · rw [value_other ho]
    exact ⟨fun h => .inr h, fun h => h.resolve_left ho⟩

/-- A reader that stands at the end of the block, with the right packet, has read it whole. -/
theorem readable_of_turn {r r' : Reader} {o : Order} {b : Block} {tail : List UInt8}
    (hrest : r.file.rest = encode o b.layout ++ tail) (horder : b.kind = blockShb ∨ r.endian = some o)
    (hroom : b.length < 2 ^ 32) (hnext : (turn r).next = some r') (hposition : r'.file.position = r.file.position + b.length)
    (hrecord : ∀ record p, (turn r).record = some record → b.packet = some p → packetOf record = p) :
    Readable r.endian o b := by
  have hafter := after_head hrest
  have htrailer : 4 ≤ (bytes o 4 b.length ++ tail).length := by
    rw [List.length_append, bytes_length]
    omega
  have hrestLength : r.file.rest.length = b.length + tail.length := by
    rw [hrest, List.length_append, encode_length, layout_size]
  have hlarge : 12 ≤ b.length := by
    rw [Block.length]
    omega
  have hat : (r.file.advance 8).position = r.file.position + 8 := by
    rw [File.advance, Nat.min_eq_left (by omega)]
  rw [turn_head hrest horder] at hnext hrecord
  -- the length is understood, or a section header moves the reader elsewhere
  have hvalue : value (headOrder r) (bytes o 4 b.length) = b.length := by
    by_cases ho : headOrder r = o
    · rw [ho, value_word hroom]
    · have hshb : b.kind = blockShb := by
        rcases horder with hshb | hendian
        · exact hshb
        · exact absurd (by rw [headOrder, hendian]; rfl) ho
      cases b with
      | header h =>
        have hheader : 28 ≤ (Block.header h).length := by
          simp only [Block.length, Block.body, size_append, size_cons, size_nil, Field.size]
          omega
        by_cases hlimits : value (headOrder r) (bytes o 4 (Block.header h).length) < 12 ∨
            maxSaneRecord < value (headOrder r) (bytes o 4 (Block.header h).length)
        · rw [block_beyond hlimits] at hnext
          cases hnext
        · rw [readBlock, if_neg hlimits, hshb, if_pos rfl] at hnext
          have hmoves := header_moves hnext
          simp only [hat] at hmoves
          omega
      | interface i => exact absurd hshb (by change ¬ blockIdb = blockShb; decide)
      | enhanced p => exact absurd hshb (by change ¬ blockEpb = blockShb; decide)
      | simple p => exact absurd hshb (by change ¬ blockSpb = blockShb; decide)
      | other x =>
        have hother := x.other
        simp only [List.mem_cons, not_or] at hother
        exact absurd hshb hother.1
  rw [hvalue] at hnext hrecord
  have hsane : b.length ≤ maxSaneRecord := by
    by_contra hlong
    rw [block_beyond (.inr (by omega))] at hnext
    cases hnext
  refine ⟨hsane, ?_, (readable_value hroom).mp hvalue⟩
  rw [readBlock_kind hsane] at hnext hrecord
  cases b with
  | header h => exact trivial
  | interface i => exact trivial
  | other x => exact trivial
  | enhanced p =>
    -- one word after the packet data the reader believes the block to be over
    have hendian := horder.resolve_left (by change ¬ blockEpb = blockShb; decide)
    have hread := enhanced_read (r := { r with file := r.file.advance 8 }) hendian hafter htrailer hsane
    simp only [hread] at hnext
    have hr' := Option.some.inj hnext
    have hsize := enhanced_size p
    rw [← hr'] at hposition
    change ((r.file.advance 8).advance (20 + padded p.data.length + 4)).position = _ at hposition
    rw [advance_advance, File.advance] at hposition
    change r.file.position + min _ _ = _ at hposition
    rw [Block.length] at hposition hrestLength
    change size p.options.layout = 0
    omega
  | simple p =>
    -- the original length is taken for the captured one
    have hendian := horder.resolve_left (by change ¬ blockSpb = blockShb; decide)
    have hread := simple_read (r := { r with file := r.file.advance 8 }) hendian hafter
    simp only [hread] at hnext hrecord
    by_cases hlong : maxSaneRecord < p.original.toNat
    · rw [if_pos hlong] at hnext
      cases hnext
    · rw [if_neg hlong] at hnext hrecord
      rcases close_cases none p.original.toNat p.original.toNat ((p.data ++ (encode o [padding p.data.length] ++
          (bytes o 4 (Block.simple p).length ++ tail))).take p.original.toNat)
          { r with file := ((r.file.advance 8).advance 4).advance p.original.toNat } with ⟨r'', hclose⟩ | ⟨r'', hclose⟩
      · rw [hclose] at hnext
        cases hnext
      · rw [hclose] at hrecord
        have hpacket := hrecord _ (p.data, p.data.length, p.original.toNat) rfl rfl
        exact congrArg (fun q => q.2.1) hpacket

end PcapFraming
