import AgenticSoc.FrameContent
import Mathlib.Tactic.IntervalCases

/-!
# Decoding what was encoded

Layer by layer, the decoder finds in a well-formed frame what was put into it.
-/
namespace FrameRoundTrip

open ByteOrder FrameDecoder VlanTags FrameContent

/-! ## Fields of a header -/

section Fields

variable {fields : List Field} {tail buf : List UInt8} {k i : Nat}

theorem field_split {f : Field} (hbuf : buf = encode .big fields ++ tail) (hf : fields[k]? = some f) :
    buf = encode .big (fields.take k) ++ (f.encode .big ++ (encode .big (fields.drop (k + 1)) ++ tail)) := by
  obtain ⟨hk, hfk⟩ := List.getElem?_eq_some_iff.mp hf
  have hsplit : fields = fields.take k ++ f :: fields.drop (k + 1) := by
    rw [← hfk, List.getElem_cons_drop, List.take_append_drop]
  have hencode : encode .big fields =
      encode .big (fields.take k) ++ (f.encode .big ++ encode .big (fields.drop (k + 1))) := by
    have hall := congrArg (encode .big) hsplit
    rwa [encode_append, encode_cons] at hall
  rw [hbuf, hencode, List.append_assoc, List.append_assoc]

/-- The octets of a field are found where the fields before it end. -/
theorem slice_field {f : Field} (hbuf : buf = encode .big fields ++ tail) (hf : fields[k]? = some f)
    (hi : size (fields.take k) = i) (j : Nat) (hj : i + f.size = j) : slice buf i j = .ok (f.encode .big) := by
  have hlength : (encode .big (fields.take k)).length = i := by rw [encode_length, hi]
  have hafter := slice_after (encode .big (fields.take k)) (f.encode .big ++ (encode .big (fields.drop (k + 1)) ++ tail))
    0 f.size
  rw [← field_split hbuf hf, hlength, hj, Nat.add_zero] at hafter
  rw [hafter, slice_within (by rw [List.length_append, Field.encode_length]; omega), List.drop_zero, Nat.sub_zero,
    List.take_left' (Field.encode_length ..)]

theorem word_field {n : Nat} (hbuf : buf = encode .big fields ++ tail) (hf : fields[k]? = some (.word 2 n))
    (hi : size (fields.take k) = i) (hn : n < 2 ^ 16) : word buf i = .ok n := by
  rw [word, slice_field hbuf hf hi (i + 2) rfl]
  exact congrArg Except.ok (value_word hn)

theorem octet_field {n : Nat} (hbuf : buf = encode .big fields ++ tail) (hf : fields[k]? = some (.word 1 n))
    (hi : size (fields.take k) = i) (hn : n < 2 ^ 8) : octet buf i = .ok n := by
  have hlength : (encode .big (fields.take k)).length = i := by rw [encode_length, hi]
  have hafter := octet_after (encode .big (fields.take k))
    ((Field.word 1 n).encode .big ++ (encode .big (fields.drop (k + 1)) ++ tail)) 0
  rw [← field_split hbuf hf, hlength, Nat.add_zero] at hafter
  rw [hafter]
  exact congrArg Except.ok (UInt8.toNat_ofNat_of_lt' hn)

end Fields

/-! ## TCP options -/

/-- The last segment size, or the one known before. -/
theorem lastSize_cons (opt : TcpOption) (items : List TcpOption) (mss : Option Nat) :
    (((opt :: items).filterMap TcpOption.segmentSize).getLast?).or mss =
      ((items.filterMap TcpOption.segmentSize).getLast?).or (opt.segmentSize.or mss) := by
  rw [List.filterMap_cons]
  cases opt.segmentSize with
  | none => rfl
  | some size =>
    rw [List.getLast?_cons, Option.some_or]
    cases (items.filterMap TcpOption.segmentSize).getLast? <;> rfl

theorem bind_ok {α β : Type} (a : α) (f : α → Except Fault β) : (Except.ok a >>= f) = f a := rfl

theorem options_end (buf : List UInt8) (optEnd : Nat) (mss : Option Nat) : tcpOptions buf optEnd optEnd mss = .ok mss := by
  rw [tcpOptions, if_neg (by omega)]
  rfl

/-- Padding ends the options. -/
theorem padding_read (rest : List UInt8) {padding : List UInt8} (hended : padding = [] ∨ ∃ more, padding = 0 :: more)
    (mss : Option Nat) : tcpOptions (padding ++ rest) padding.length 0 mss = .ok mss := by
  rcases hended with rfl | ⟨more, rfl⟩
  · exact options_end ..
  · rw [tcpOptions]
    split
    · rfl
    · rfl

/-- One option of a list. -/
theorem option_step (opt : TcpOption) (more rest : List UInt8) (mss : Option Nat) :
    tcpOptions (opt.encode ++ (more ++ rest)) (opt.encode.length + more.length) 0 mss =
      tcpOptions (more ++ rest) more.length 0 (opt.segmentSize.or mss) := by
  have hafter (mss : Option Nat) : tcpOptions (opt.encode ++ (more ++ rest)) (opt.encode.length + more.length)
      opt.encode.length mss = tcpOptions (more ++ rest) more.length 0 mss :=
    tcpOptions_after opt.encode (more ++ rest) more.length 0 mss
  rw [← hafter]
  cases opt with
  | nop =>
    have hkind : octet (TcpOption.nop.encode ++ (more ++ rest)) 0 = .ok 1 := rfl
    have hlength : TcpOption.nop.encode.length = 1 := rfl
    by_cases hlast : more.length = 0
    · rw [hlast, tcpOptions, hlength, if_neg (by omega)]
      exact (options_end ..).symm
    · rw [tcpOptions, hlength, if_pos (by omega), hkind]
      rfl
  | mss size =>
    have hkind : octet ((TcpOption.mss size).encode ++ (more ++ rest)) 0 = .ok 2 := rfl
    have holen : octet ((TcpOption.mss size).encode ++ (more ++ rest)) 1 = .ok 4 := rfl
    have hlength : (TcpOption.mss size).encode.length = 4 := rfl
    have hsize : word ((TcpOption.mss size).encode ++ (more ++ rest)) 2 = .ok size.toNat := by
      have hvalue : value .big (bytes .big 2 size.toNat) = size.toNat := value_word size.toNat_lt
      rw [word_within (by rw [List.length_append, hlength]; omega)]
      exact congrArg Except.ok hvalue
    rw [tcpOptions, hlength, if_pos (by omega), hkind, bind_ok, if_neg (by decide), if_neg (by decide), if_neg (by omega),
      holen, bind_ok, if_neg (by decide), if_pos ⟨rfl, rfl, by omega⟩, hsize, bind_ok]
    rfl
  | other kind data unknown room =>
    have hkind : octet ((TcpOption.other kind data unknown room).encode ++ (more ++ rest)) 0 = .ok kind.toNat := rfl
    have holen : octet ((TcpOption.other kind data unknown room).encode ++ (more ++ rest)) 1 = .ok (data.length + 2) :=
      congrArg Except.ok (UInt8.toNat_ofNat_of_lt' room)
    have hlength : (TcpOption.other kind data unknown room).encode.length = data.length + 2 := by
      simp only [TcpOption.encode, List.cons_append, List.nil_append, List.length_cons]
    rw [tcpOptions, hlength, if_pos (by omega), hkind, bind_ok, if_neg (by omega), if_neg (by omega), if_neg (by omega),
      holen, bind_ok, if_neg (by omega), if_neg (by omega), Nat.zero_add]
    rfl

theorem options_read (rest : List UInt8) (items : List TcpOption) {padding : List UInt8}
    (hended : padding = [] ∨ ∃ more, padding = 0 :: more) (mss : Option Nat) :
    tcpOptions ((items.flatMap TcpOption.encode ++ padding) ++ rest) (items.flatMap TcpOption.encode ++ padding).length 0 mss =
      .ok (((items.filterMap TcpOption.segmentSize).getLast?).or mss) := by
  induction items generalizing mss with
  | nil => exact padding_read rest hended mss
  | cons opt items ih =>
    have hsplit : (opt :: items).flatMap TcpOption.encode ++ padding =
        opt.encode ++ (items.flatMap TcpOption.encode ++ padding) := by rw [List.flatMap_cons, List.append_assoc]
    rw [hsplit, List.length_append, List.append_assoc, option_step, ih, lastSize_cons]

/-! ## Transport -/

theorem header_offset : ∀ q < 16, ∀ r < 16, (((q * 16 + r) >>> 4) &&& 0xF) * 4 = q * 4 := by decide

/-- A TCP header and its options. -/
theorem tcp_read (h : Tcp) (rest : List UInt8) (view : FrameView) (hmss : view.mss = none) :
    decodeTcp (encode .big (Transport.tcp h).header ++ rest) 0 view = .ok ((Transport.tcp h).fill view) := by
  have hroom := h.options.room
  have haligned := h.options.aligned
  have hheader : h.headerLen = 20 + (h.options.items.flatMap TcpOption.encode ++ h.options.padding).length := rfl
  have hquarter : h.headerLen / 4 < 16 := by omega
  have hreserved := h.reserved.isLt
  have hoffset : (((h.headerLen / 4 * 16 + h.reserved.val) >>> 4) &&& 0xF) * 4 = h.headerLen := by
    rw [header_offset _ hquarter _ hreserved]
    omega
  have hsize : (encode .big (Transport.tcp h).header ++ rest).length = h.headerLen + rest.length := by
    rw [List.length_append, encode_length]
    simp only [Transport.header, size_cons, size_nil]
    simp only [Field.size, Tcp.headerLen]
    omega
  have hend : min (0 + h.headerLen) (encode .big (Transport.tcp h).header ++ rest).length = h.headerLen := by
    rw [hsize]
    omega
  have hbuf : encode .big (Transport.tcp h).header ++ rest = encode .big (Transport.tcp h).header ++ rest := rfl
  have hfixed : encode .big (Transport.tcp h).header ++ rest =
      encode .big ((Transport.tcp h).header.take 9) ++ (h.options.encode ++ rest) := field_split (k := 9) hbuf rfl
  have hoptions : tcpOptions (encode .big (Transport.tcp h).header ++ rest) h.headerLen (0 + 20) view.mss =
      .ok h.options.lastMss := by
    have hafter := tcpOptions_after (encode .big ((Transport.tcp h).header.take 9)) (h.options.encode ++ rest)
      h.options.encode.length 0 view.mss
    rw [← hfixed] at hafter
    refine hafter.trans ?_
    rw [TcpOptions.encode, options_read rest h.options.items h.options.ended, hmss, Option.or_none]
    rfl
  have hsport : word _ 0 = .ok h.sport.toNat := word_field (k := 0) hbuf rfl rfl h.sport.toNat_lt
  have hdport : word _ (0 + 2) = .ok h.dport.toNat := word_field (k := 1) hbuf rfl rfl h.dport.toNat_lt
  have hwindow : word _ (0 + 14) = .ok h.window.toNat := word_field (k := 6) hbuf rfl rfl h.window.toNat_lt
  have hflags : octet _ (0 + 13) = .ok h.flags.toNat := octet_field (k := 5) hbuf rfl rfl h.flags.toNat_lt
  have hhigh : octet _ (0 + 12) = .ok (h.headerLen / 4 * 16 + h.reserved.val) :=
    octet_field (k := 4) hbuf rfl rfl (by omega)
  rw [decodeTcp, hsport, bind_ok, hdport, bind_ok, hwindow, bind_ok, hflags, bind_ok, hhigh, bind_ok]
  dsimp only
  rw [hoffset, hend, hoptions, bind_ok]
  rfl

theorem udp_read (h : Udp) (rest : List UInt8) (view : FrameView) :
    decodeUdp (encode .big (Transport.udp h).header ++ rest) 0 view = .ok ((Transport.udp h).fill view) := by
  have hbuf : encode .big (Transport.udp h).header ++ rest = encode .big (Transport.udp h).header ++ rest := rfl
  have hsport : word _ 0 = .ok h.sport.toNat := word_field (k := 0) hbuf rfl rfl h.sport.toNat_lt
  have hdport : word _ (0 + 2) = .ok h.dport.toNat := word_field (k := 1) hbuf rfl rfl h.dport.toNat_lt
  have hlength : word _ (0 + 4) = .ok h.length.toNat := word_field (k := 2) hbuf rfl rfl h.length.toNat_lt
  rw [decodeUdp, hsport, bind_ok, hdport, bind_ok, hlength, bind_ok]
  rfl

theorem icmp_read (h : Icmp) (rest : List UInt8) (view : FrameView) :
    decodeIcmp (encode .big (Transport.icmp h).header ++ rest) 0 view = .ok ((Transport.icmp h).fill view) := by
  have hbuf : encode .big (Transport.icmp h).header ++ rest = encode .big (Transport.icmp h).header ++ rest := rfl
  have htype : octet _ 0 = .ok h.type.toNat := octet_field (k := 0) hbuf rfl rfl h.type.toNat_lt
  rw [decodeIcmp, htype, bind_ok]
  rfl

/-- The layer above IP of a segment, whatever follows it. -/
theorem segment_read (s : Segment) (rest : List UInt8) (overIpv6 : Bool) (view : FrameView)
    (hproto : view.l3Proto = s.transport.l3Proto overIpv6) (hmss : view.mss = none) :
    decodeL4 (s.encode ++ rest) 0 view = .ok (s.transport.fill view) := by
  have hsplit : s.encode ++ rest = encode .big s.transport.header ++ (s.payload ++ rest) := by
    rw [Segment.encode, List.append_assoc]
  have hroom (n : Nat) (hn : n ≤ size s.transport.header) : 0 + n ≤ (s.encode ++ rest).length := by
    rw [hsplit, List.length_append, encode_length]
    omega
  rw [decodeL4, hproto]
  cases ht : s.transport with
  | tcp h =>
    have hlong : 20 ≤ size s.transport.header := by
      rw [ht]
      simp only [Transport.header, size_cons, size_nil]
      simp only [Field.size]
      omega
    change (if _ then _ else _) = _
    rw [if_pos (hroom 20 hlong), hsplit, ht, tcp_read h _ view hmss]
  | udp h =>
    have hlong : 8 ≤ size s.transport.header := by rw [ht]; exact Nat.le_refl 8
    change (if _ then _ else _) = _
    rw [if_pos (hroom 8 hlong), hsplit, ht, udp_read]
  | icmp h =>
    have hlong : 2 ≤ size s.transport.header := by
      rw [ht]
      exact of_decide_eq_true rfl
    cases overIpv6 with
    | false =>
      change (if _ then _ else _) = _
      rw [if_pos (hroom 2 hlong), hsplit, ht, icmp_read]
    | true =>
      change (if _ then _ else _) = _
      rw [if_pos (hroom 2 hlong), hsplit, ht, icmp_read]

/-! ## Network -/

theorem arp_read (a : Arp) (rest : List UInt8) (view : FrameView) :
    decodeArp (a.encode ++ rest) 0 view = .ok ((Network.arp a).fill view) := by
  have hbuf : a.encode ++ rest = encode .big [.word 2 a.hardware.toNat, .word 2 a.protocol.toNat,
      .word 1 a.hardwareSize.toNat, .word 1 a.protocolSize.toNat, .word 2 a.operation.toNat, .octets a.senderMac.octets,
      .octets a.senderIp.octets, .octets a.targetMac.octets, .octets a.targetIp.octets] ++ rest := rfl
  have hsha : slice _ (0 + 8) (0 + 14) = .ok a.senderMac.octets := slice_field (k := 5) hbuf rfl rfl _ rfl
  have hspa : slice _ (0 + 14) (0 + 18) = .ok a.senderIp.octets := slice_field (k := 6) hbuf rfl rfl _ rfl
  have htha : slice _ (0 + 18) (0 + 24) = .ok a.targetMac.octets := slice_field (k := 7) hbuf rfl rfl _ rfl
  have htpa : slice _ (0 + 24) (0 + 28) = .ok a.targetIp.octets := slice_field (k := 8) hbuf rfl rfl _ rfl
  have hroom : 0 + 28 ≤ (a.encode ++ rest).length := by
    rw [List.length_append]
    exact Nat.le_add_right _ _
  rw [decodeArp, if_pos hroom, hsha, bind_ok, hspa, bind_ok, htha, bind_ok, htpa, bind_ok]
  rfl

theorem version_nibble : ∀ q < 16, (4 * 16 + q) >>> 4 = 4 ∧ (4 * 16 + q) &&& 0x0F = q := by decide

theorem flags_read (p : Ipv4) : decide (p.flagsFrag &&& 0x4000 ≠ 0) = p.dontFragment ∧
    decide (p.flagsFrag &&& 0x2000 ≠ 0) = p.moreFragments ∧ p.flagsFrag &&& 0x1FFF = 0 ∧ p.flagsFrag < 2 ^ 16 := by
  unfold Ipv4.flagsFrag
  cases p.dontFragment <;> cases p.moreFragments <;> decide

theorem protocol_read (t : Transport) : ipv4Proto t.protocol = t.l3Proto false ∧ ipv6Proto t.nextHeader = t.l3Proto true := by
  cases t <;> exact ⟨rfl, rfl⟩

theorem protocol_room (t : Transport) : t.protocol < 2 ^ 8 ∧ t.nextHeader < 2 ^ 8 := by
  cases t <;> exact ⟨of_decide_eq_true rfl, of_decide_eq_true rfl⟩

theorem ipv4_read (p : Ipv4) (rest : List UInt8) (view : FrameView) (hmss : view.mss = none) :
    decodeIpv4 (p.encode ++ rest) 0 view = .ok ((Network.ipv4 p).fill view) := by
  have haligned := p.aligned
  have hoptions := p.roomOptions
  have hroom := p.room
  have hheader : p.headerLen = 20 + p.options.length := rfl
  have htotal : p.totalLen = 20 + p.options.length + p.segment.encode.length := rfl
  obtain ⟨hversion, hihl⟩ := version_nibble (p.headerLen / 4) (by omega)
  obtain ⟨hdf, hmf, hoffset, hflagsRoom⟩ := flags_read p
  have hsplit : p.encode ++ rest = encode .big p.header ++ ((p.options ++ p.segment.encode) ++ rest) := by
    rw [Ipv4.encode, List.append_assoc]
  have hsize : (encode .big p.header).length = 20 := by
    rw [encode_length]
    rfl
  have hlong : ¬ (p.encode ++ rest).length < 0 + 20 := by
    rw [hsplit, List.length_append, hsize]
    omega
  have hip : slice (p.encode ++ rest) 0 (0 + 20) = .ok (encode .big p.header) := by
    rw [slice_within (by omega), hsplit, List.drop_zero, List.take_left' hsize]
  have hbuf : encode .big p.header = encode .big p.header ++ [] := (List.append_nil _).symm
  have hfirst : octet _ 0 = .ok (4 * 16 + p.headerLen / 4) := octet_field (k := 0) hbuf rfl rfl (by omega)
  have hlength : word _ 2 = .ok p.totalLen := word_field (k := 2) hbuf rfl rfl (by omega)
  have hflags : word _ 6 = .ok p.flagsFrag := word_field (k := 4) hbuf rfl rfl hflagsRoom
  have httl : octet _ 8 = .ok p.ttl.toNat := octet_field (k := 5) hbuf rfl rfl p.ttl.toNat_lt
  have hproto : octet _ 9 = .ok p.segment.transport.protocol :=
    octet_field (k := 6) hbuf rfl rfl (protocol_room p.segment.transport).1
  have hsrc : slice _ 12 16 = .ok p.source.octets := slice_field (k := 8) hbuf rfl rfl _ rfl
  have hdst : slice _ 16 20 = .ok p.destination.octets := slice_field (k := 9) hbuf rfl rfl _ rfl
  have hquarter : p.headerLen / 4 * 4 = p.headerLen := by omega
  rw [decodeIpv4, if_neg hlong, hip, bind_ok, hfirst, bind_ok, hversion, if_neg (fun h => h rfl), hlength, bind_ok, hflags,
    bind_ok, httl, bind_ok, hproto, bind_ok, hsrc, bind_ok, hdst, bind_ok]
  dsimp only
  rw [if_pos hoffset, hihl, hquarter]
  -- the segment stands behind the header and its options
  have hbefore : (encode .big p.header ++ p.options).length = p.headerLen := by
    rw [List.length_append, hsize, hheader]
  have hinner : p.encode ++ rest = (encode .big p.header ++ p.options) ++ (p.segment.encode ++ rest) := by
    rw [hsplit, List.append_assoc, List.append_assoc]
  have hview : view.ipv4Header p.headerLen p.totalLen p.flagsFrag p.ttl.toNat p.segment.transport.protocol p.source.octets
      p.destination.octets = p.fill view := by
    rw [FrameView.ipv4Header, hdf, hmf, hoffset, (protocol_read p.segment.transport).1]
    rfl
  have hbehind := (relative_l4).behind (encode .big p.header ++ p.options) (p.segment.encode ++ rest) (p.fill view)
  rw [hbefore, ← hinner, segment_read p.segment rest false (p.fill view) rfl hmss] at hbehind
  rw [hview, Nat.zero_add]
  exact hbehind

/-- The groups of an address that begins at the field `k` of a header. -/
theorem groups_read (ip : Ipv6Address) {buf : List UInt8} {start : Nat}
    (h : ∀ k < 8, word buf (start + 2 * k) = .ok (ip.numbers.getD k 0)) : ipv6Groups buf start = .ok ip.numbers := by
  have hall : ∀ ks : List Nat, (∀ k ∈ ks, k < 8) →
      (ks.mapM fun k => word buf (start + 2 * k)) = .ok (ks.map fun k => ip.numbers.getD k 0) := by
    intro ks hks
    induction ks with
    | nil => rfl
    | cons k ks ih =>
      rw [List.mapM_cons, h k (hks k (List.mem_cons_self ..)), bind_ok, ih fun j hj => hks j (List.mem_cons_of_mem k hj), bind_ok]
      rfl
  exact hall (List.range 8) fun k hk => List.mem_range.mp hk

theorem number_room (ip : Ipv6Address) (k : Nat) : ip.numbers.getD k 0 < 2 ^ 16 := by
  have hall : ∀ n ∈ ip.numbers, n < 2 ^ 16 := by
    simp only [Ipv6Address.numbers, List.mem_cons, List.not_mem_nil, or_false, forall_eq_or_imp, forall_eq]
    exact ⟨ip.a.toNat_lt, ip.b.toNat_lt, ip.c.toNat_lt, ip.d.toNat_lt, ip.e.toNat_lt, ip.f.toNat_lt, ip.g.toNat_lt,
      ip.h.toNat_lt⟩
  rw [List.getD_eq_getElem?_getD]
  cases hk : ip.numbers[k]? with
  | none => exact Nat.two_pow_pos 16
  | some n => exact hall n (List.mem_of_getElem? hk)

theorem ipv6_sizes (p : Ipv6) : p.header.map Field.size = [4, 2, 1, 1] ++ List.replicate 16 2 := rfl

/-- The groups of both addresses stand one behind the other. -/
theorem ipv6_groups (p : Ipv6) {k : Nat} (hk : k < 8) :
    p.header[4 + k]? = some (.word 2 (p.source.numbers.getD k 0)) ∧ size (p.header.take (4 + k)) = 8 + 2 * k ∧
      p.header[12 + k]? = some (.word 2 (p.destination.numbers.getD k 0)) ∧
      size (p.header.take (12 + k)) = 24 + 2 * k := by
  refine ⟨?_, ?_, ?_, ?_⟩
  · interval_cases k <;> rfl
  · rw [size, List.map_take, ipv6_sizes]
    interval_cases k <;> decide
  · interval_cases k <;> rfl
  · rw [size, List.map_take, ipv6_sizes]
    interval_cases k <;> decide

theorem ipv6_read (p : Ipv6) (rest : List UInt8) (view : FrameView) (hmss : view.mss = none) :
    decodeIpv6 (p.encode ++ rest) 0 view = .ok ((Network.ipv6 p).fill view) := by
  have hroom := p.room
  have hsplit : p.encode ++ rest = encode .big p.header ++ (p.segment.encode ++ rest) := by
    rw [Ipv6.encode, List.append_assoc]
  have hsize : (encode .big p.header).length = 40 := by
    rw [encode_length, size, ipv6_sizes]
    decide
  have hlong : ¬ (p.encode ++ rest).length < 0 + 40 := by
    rw [hsplit, List.length_append, hsize]
    omega
  have hip : slice (p.encode ++ rest) 0 (0 + 40) = .ok (encode .big p.header) := by
    rw [slice_within (by omega), hsplit, List.drop_zero, List.take_left' hsize]
  have hbuf : encode .big p.header = encode .big p.header ++ [] := (List.append_nil _).symm
  have hlength : word _ 4 = .ok p.segment.encode.length := word_field (k := 1) hbuf rfl rfl hroom
  have hnext : octet _ 6 = .ok p.segment.transport.nextHeader :=
    octet_field (k := 2) hbuf rfl rfl (protocol_room p.segment.transport).2
  have hhop : octet _ 7 = .ok p.hopLimit.toNat := octet_field (k := 3) hbuf rfl rfl p.hopLimit.toNat_lt
  have hsrc : ipv6Groups (encode .big p.header) 8 = .ok p.source.numbers := by
    refine groups_read p.source fun k hk => ?_
    obtain ⟨hat, hbefore, -, -⟩ := ipv6_groups p hk
    exact word_field hbuf hat hbefore (number_room p.source k)
  have hdst : ipv6Groups (encode .big p.header) 24 = .ok p.destination.numbers := by
    refine groups_read p.destination fun k hk => ?_
    obtain ⟨-, -, hat, hbefore⟩ := ipv6_groups p hk
    exact word_field hbuf hat hbefore (number_room p.destination k)
  rw [decodeIpv6, if_neg hlong, hip, bind_ok, hlength, bind_ok, hnext, bind_ok, hhop, bind_ok, hsrc, bind_ok, hdst, bind_ok]
  have hview : view.ipv6Header p.segment.encode.length p.segment.transport.nextHeader p.hopLimit.toNat p.source.numbers
      p.destination.numbers = p.fill view := by
    rw [FrameView.ipv6Header, (protocol_read p.segment.transport).2]
    rfl
  have hbehind := (relative_l4).behind (encode .big p.header) (p.segment.encode ++ rest) (p.fill view)
  rw [hsize, ← hsplit, segment_read p.segment rest true (p.fill view) rfl hmss] at hbehind
  rw [hview, Nat.zero_add]
  exact hbehind

theorem network_read (n : Network) (rest : List UInt8) (view : FrameView) (hmss : view.mss = none) :
    decodeL3 (n.encode ++ rest) n.ethertype 0 view = .ok (n.fill view) := by
  cases n with
  | arp a => exact arp_read a rest view
  | ipv4 p => exact ipv4_read p rest view hmss
  | ipv6 p => exact ipv6_read p rest view hmss

/-! ## Tags -/

/-- The type that stands first, of a tag or of the network layer. -/
def firstType (ethertype : Nat) : List Tag → Nat
  | [] => ethertype
  | tag :: _ => tag.type.number

/-- What stands behind the first type. -/
def behindType (ethertype : Nat) : List Tag → List UInt8
  | [] => []
  | tag :: tags => bytes .big 2 tag.control.toNat ++ bytes .big 2 (firstType ethertype tags) ++ behindType ethertype tags

theorem tags_split (ethertype : Nat) (tags : List Tag) :
    tags.flatMap Tag.encode ++ bytes .big 2 ethertype = bytes .big 2 (firstType ethertype tags) ++ behindType ethertype tags := by
  induction tags with
  | nil => simp only [List.flatMap_nil, List.nil_append, firstType, behindType, List.append_nil]
  | cons tag tags ih =>
    rw [List.flatMap_cons, List.append_assoc, ih]
    simp only [Tag.encode, firstType, behindType, List.append_assoc]

theorem ethertype_room (n : Network) : n.ethertype < 256 ^ 2 ∧ 1500 < n.ethertype ∧ n.ethertype ≠ ethertypeVlan ∧
    n.ethertype ≠ ethertypeQinq := by
  cases n <;> exact ⟨of_decide_eq_true rfl, of_decide_eq_true rfl, of_decide_eq_true rfl, of_decide_eq_true rfl⟩

theorem tagType_room (t : TagType) : t.number < 256 ^ 2 ∧ 1500 < t.number ∧
    (t.number = ethertypeVlan ∨ t.number = ethertypeQinq) := by
  cases t
  · exact ⟨by decide, by decide, .inl rfl⟩
  · exact ⟨by decide, by decide, .inr rfl⟩

theorem firstType_room (n : Network) (tags : List Tag) :
    firstType n.ethertype tags < 256 ^ 2 ∧ 1500 < firstType n.ethertype tags := by
  cases tags with
  | nil => exact ⟨(ethertype_room n).1, (ethertype_room n).2.1⟩
  | cons tag tags => exact ⟨(tagType_room tag.type).1, (tagType_room tag.type).2.1⟩

/-- The view of the second layer, with everything up to the network header. -/
def linked (view : FrameView) (tags l2HeaderLen ethertype : Nat) : FrameView :=
  { view with vlanTags := view.vlanTags + tags, l2HeaderLen, ethertype := some ethertype }

theorem tags_read (n : Network) (rest : List UInt8) (tags : List Tag) (before : List UInt8) (view : FrameView)
    (hview : view.l2HeaderLen = before.length) :
    decodeTagged (before ++ (behindType n.ethertype tags ++ rest)) (firstType n.ethertype tags) before.length view =
      decodeL3 rest n.ethertype 0 (linked view tags.length (before.length + 4 * tags.length) n.ethertype) := by
  induction tags generalizing before view with
  | nil =>
    obtain ⟨-, -, hvlan, hqinq⟩ := ethertype_room n
    have hlinked : linked view 0 (before.length + 4 * 0) n.ethertype = { view with ethertype := some n.ethertype } := by
      rw [Nat.mul_zero, Nat.add_zero, ← hview]
      rfl
    rw [decodeTagged, firstType, if_neg (by rintro (h | h) <;> contradiction), behindType, List.nil_append,
      List.length_nil, hlinked]
    exact (relative_l3 n.ethertype).behind before rest { view with ethertype := some n.ethertype }
  | cons tag tags ih =>
    obtain ⟨-, -, hvlan⟩ := tagType_room tag.type
    have hcontrol : (before ++ bytes .big 2 tag.control.toNat).length = before.length + 2 := by
      rw [List.length_append, bytes_length]
    have hfront : (before ++ bytes .big 2 tag.control.toNat ++ bytes .big 2 (firstType n.ethertype tags)).length =
        before.length + 4 := by
      rw [List.length_append, hcontrol, bytes_length]
    have hsplit : before ++ (behindType n.ethertype (tag :: tags) ++ rest) =
        (before ++ bytes .big 2 tag.control.toNat ++ bytes .big 2 (firstType n.ethertype tags)) ++
          (behindType n.ethertype tags ++ rest) := by
      simp only [behindType, List.append_assoc]
    have hword : word (before ++ (behindType n.ethertype (tag :: tags) ++ rest)) (before.length + 2) =
        .ok (firstType n.ethertype tags) := by
      have hafter := word_after (before ++ bytes .big 2 tag.control.toNat)
        (bytes .big 2 (firstType n.ethertype tags) ++ (behindType n.ethertype tags ++ rest)) 0
      rw [hcontrol, ← List.append_assoc, ← hsplit] at hafter
      refine hafter.trans ?_
      rw [word_within (by rw [List.length_append, bytes_length]; omega), List.drop_zero, List.take_left' (bytes_length ..),
        value_word (firstType_room n tags).1]
    have hroom : ¬ (before ++ (behindType n.ethertype (tag :: tags) ++ rest)).length < before.length + 4 := by
      rw [hsplit, List.length_append, hfront]
      omega
    have hlinked : linked (view.tagged (before.length + 4)) tags.length (before.length + 4 + 4 * tags.length) n.ethertype =
        linked view (tag :: tags).length (before.length + 4 * (tag :: tags).length) n.ethertype := by
      have htags : view.vlanTags + 1 + tags.length = view.vlanTags + (tags.length + 1) := by omega
      have hlength : before.length + 4 + 4 * tags.length = before.length + 4 * (tags.length + 1) := by omega
      simp only [linked, FrameView.tagged, List.length_cons, htags, hlength]
    have hmore := ih (before ++ bytes .big 2 tag.control.toNat ++ bytes .big 2 (firstType n.ethertype tags))
      (view.tagged (before.length + 4)) hfront.symm
    rw [hfront, ← hsplit, hlinked] at hmore
    rw [decodeTagged, firstType, if_pos hvlan, if_neg hroom, hword, bind_ok]
    exact hmore

/-! ## Whole frames -/

theorem addressed_encode (f : Frame) :
    addressed f.encode = FrameView.start (formatMac f.source.octets) (formatMac f.destination.octets) := rfl

theorem type_encode (f : Frame) {n : Nat} {more : List UInt8} (hn : n < 256 ^ 2)
    (h : f.link.encode f.network.ethertype = bytes .big 2 n ++ more) : typeOrLen f.encode = n := by
  rw [typeOrLen, Frame.encode, h, List.append_assoc, List.append_assoc]
  exact value_word hn

/-- The decoder finds the header fields of every well-formed frame. -/
theorem frame_read (f : Frame) : decodeFrame f.encode = .ok (some f.view) := by
  obtain ⟨destination, source, link, n, trailer⟩ := f
  cases link with
  | etherII tags =>
    obtain ⟨hroom, hether⟩ := firstType_room n tags
    have hlink : (Link.etherII tags).encode n.ethertype =
        bytes .big 2 (firstType n.ethertype tags) ++ behindType n.ethertype tags := tags_split n.ethertype tags
    have htype : typeOrLen (Frame.mk destination source (.etherII tags) n trailer).encode = firstType n.ethertype tags :=
      type_encode _ hroom hlink
    have hsplit : (Frame.mk destination source (.etherII tags) n trailer).encode =
        (destination.octets ++ source.octets ++ bytes .big 2 (firstType n.ethertype tags)) ++
          (behindType n.ethertype tags ++ (n.encode ++ trailer)) := by
      simp only [Frame.encode, hlink, List.append_assoc]
    have hfront : (destination.octets ++ source.octets ++ bytes .big 2 (firstType n.ethertype tags)).length = 14 := rfl
    have hlong : 14 ≤ (Frame.mk destination source (.etherII tags) n trailer).encode.length := by
      rw [hsplit, List.length_append, hfront]
      omega
    have htags := tags_read n (n.encode ++ trailer) tags
      (destination.octets ++ source.octets ++ bytes .big 2 (firstType n.ethertype tags))
      (FrameView.start (formatMac source.octets) (formatMac destination.octets)) rfl
    rw [hfront, ← hsplit, network_read n trailer _ rfl] at htags
    rw [decodeFrame_eq hlong, htype, if_neg (by omega), addressed_encode, htags]
    simp only [Frame.view, Link.tagCount, Link.headerLen, Link.isEtherII, linked, FrameView.start, Nat.zero_add]
    rfl
  | snap length small =>
    have hether := (ethertype_room n).1
    have htype : typeOrLen (Frame.mk destination source (.snap length small) n trailer).encode = length.toNat :=
      type_encode _ length.toNat_lt rfl
    have hsplit : (Frame.mk destination source (.snap length small) n trailer).encode =
        (destination.octets ++ source.octets ++ bytes .big 2 length.toNat ++ [0xAA, 0xAA, 0x03, 0, 0, 0] ++
          bytes .big 2 n.ethertype) ++ (n.encode ++ trailer) := by
      simp only [Frame.encode, Link.encode, List.append_assoc]
    have hfront : (destination.octets ++ source.octets ++ bytes .big 2 length.toNat ++ [0xAA, 0xAA, 0x03, 0, 0, 0] ++
        bytes .big 2 n.ethertype).length = 22 := rfl
    have hlong : 22 ≤ (Frame.mk destination source (.snap length small) n trailer).encode.length := by
      rw [hsplit, List.length_append, hfront]
      omega
    have hword : word (Frame.mk destination source (.snap length small) n trailer).encode 20 = .ok n.ethertype := by
      rw [word_within hlong]
      exact congrArg Except.ok (value_word hether)
    have hdsap : octet (Frame.mk destination source (.snap length small) n trailer).encode 14 = .ok 0xAA := rfl
    have hssap : octet (Frame.mk destination source (.snap length small) n trailer).encode 15 = .ok 0xAA := rfl
    have hcontrol : octet (Frame.mk destination source (.snap length small) n trailer).encode 16 = .ok 0x03 := rfl
    have houi : slice (Frame.mk destination source (.snap length small) n trailer).encode 17 20 = .ok [0, 0, 0] := by
      rw [slice_within (by omega)]
      rfl
    have htags := tags_read n (n.encode ++ trailer) []
      (destination.octets ++ source.octets ++ bytes .big 2 length.toNat ++ [0xAA, 0xAA, 0x03, 0, 0, 0] ++
        bytes .big 2 n.ethertype)
      { FrameView.start (formatMac source.octets) (formatMac destination.octets) with
        isEtherII := false, l2HeaderLen := 22 } rfl
    rw [behindType, List.nil_append, hfront, ← hsplit, network_read n trailer _ rfl, firstType] at htags
    rw [decodeFrame_eq (by omega), htype, if_pos small, addressed_encode, decodeLengthField, if_neg (by omega), hdsap, bind_ok,
      hssap, bind_ok, hcontrol, bind_ok, if_pos ⟨rfl, rfl, rfl, hlong⟩, houi, bind_ok, hword, bind_ok, if_pos rfl, htags]
    rfl

theorem lengthOr_pos {n : Nat} (h : 0 < n) (d : Int) : NetworkFeatures.lengthOr (some n) d = n := by
  rw [NetworkFeatures.lengthOr, if_neg (by omega)]

theorem transport_size (t : Transport) : (encode .big t.header).length = match t with
    | .tcp h => h.headerLen
    | .udp _ => 8
    | .icmp _ => 8 := by
  cases t with
  | tcp h =>
    rw [encode_length]
    simp only [Transport.header, size_cons, size_nil, Tcp.headerLen]
    simp only [Field.size]
    omega
  | udp h => rfl
  | icmp h => rfl

/-- The length of a datagram less its headers is that of the payload. -/
theorem segment_payload (s : Segment) (overIpv6 : Bool) (view : FrameView) (ihl : Nat) (hihl : 0 < ihl)
    (hheader : view.ipHeaderLen = some ihl) (htotal : view.ipTotalLen = some (ihl + s.encode.length))
    (hproto : view.l3Proto = s.transport.l3Proto overIpv6) :
    (s.transport.fill view).payloadLength = s.payload.length := by
  have hsize : s.encode.length = (encode .big s.transport.header).length + s.payload.length := by
    rw [Segment.encode, List.length_append]
  rw [transport_size] at hsize
  have hdeclared := s.declared
  cases ht : s.transport with
  | tcp h =>
    rw [ht] at hproto hsize
    change s.encode.length = h.headerLen + s.payload.length at hsize
    have hlong : 0 < h.headerLen := by
      rw [Tcp.headerLen]
      omega
    have hinner : ((ihl + s.encode.length : Nat) : Int) - ihl - h.headerLen = s.payload.length := by omega
    simp only [Transport.fill, NetworkFeatures.FrameView.payloadLength, hheader, htotal, hproto, Transport.l3Proto,
      lengthOr_pos hihl, lengthOr_pos hlong, hinner]
    exact max_eq_right (Int.natCast_nonneg _)
  | udp h =>
    rw [ht] at hproto hsize
    change s.encode.length = 8 + s.payload.length at hsize
    have hcovers := hdeclared h ht
    have hinner : ((ihl + s.encode.length : Nat) : Int) - ihl - 8 = s.payload.length := by omega
    simp only [Transport.fill, NetworkFeatures.FrameView.payloadLength, hheader, htotal, hproto, Transport.l3Proto,
      lengthOr_pos hihl, lengthOr_pos (show 0 < h.length.toNat by omega), hinner]
    rw [min_eq_left (by omega), max_eq_right (Int.natCast_nonneg _)]
  | icmp h =>
    rw [ht] at hproto hsize
    change s.encode.length = 8 + s.payload.length at hsize
    have hinner : ((ihl + s.encode.length : Nat) : Int) - ihl - 8 = s.payload.length := by omega
    cases overIpv6 <;>
    · simp only [Transport.fill, NetworkFeatures.FrameView.payloadLength, hheader, htotal, hproto, Transport.l3Proto,
        lengthOr_pos hihl, Bool.false_eq_true, if_false, if_true, hinner]
      exact max_eq_right (Int.natCast_nonneg _)

theorem frame_payload (f : Frame) {payload : List UInt8} (h : f.network.payload = some payload) :
    f.view.payloadLength = payload.length := by
  obtain ⟨destination, source, link, n, trailer⟩ := f
  cases n with
  | arp a => cases h
  | ipv4 p =>
    rw [← Option.some.inj h]
    refine segment_payload p.segment false (p.fill _) p.headerLen ?_ rfl rfl rfl
    rw [Ipv4.headerLen]
    omega
  | ipv6 p =>
    rw [← Option.some.inj h]
    exact segment_payload p.segment true (p.fill _) 40 (by decide) rfl rfl rfl

/-- The first segment of a connection, with two segment sizes. -/
def openingSegment : Segment where
  transport := .tcp ⟨49152, 443, 1, 0, 0, 0x02, 64240, 0, 0, {
    items := [.mss 536, .nop, .other 3 [7] (by decide) (by decide), .mss 1460]
    padding := []
    ended := .inl rfl
    aligned := by decide
    room := by decide }⟩
  payload := []
  declared := by simp

example : openingSegment.encode.length = 32 ∧ (openingSegment.transport.fill (.start "" "")).mss = some 1460 := by decide

end FrameRoundTrip
