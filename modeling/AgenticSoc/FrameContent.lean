import AgenticSoc.VlanTags

/-!
# Well-formed frames

Frames apart from their octets: addresses, tags, network and transport headers and the
payload; their encoding, and the header fields that a decoder should find in it.
-/
namespace FrameContent

open ByteOrder FrameDecoder VlanTags

structure Mac where
  a : UInt8
  b : UInt8
  c : UInt8
  d : UInt8
  e : UInt8
  f : UInt8
  deriving DecidableEq, Repr

def Mac.octets (m : Mac) : List UInt8 := [m.a, m.b, m.c, m.d, m.e, m.f]

structure Ipv4Address where
  a : UInt8
  b : UInt8
  c : UInt8
  d : UInt8
  deriving DecidableEq, Repr

def Ipv4Address.octets (ip : Ipv4Address) : List UInt8 := [ip.a, ip.b, ip.c, ip.d]

/-- Eight groups of sixteen bits. -/
structure Ipv6Address where
  a : UInt16
  b : UInt16
  c : UInt16
  d : UInt16
  e : UInt16
  f : UInt16
  g : UInt16
  h : UInt16
  deriving DecidableEq, Repr

def Ipv6Address.numbers (ip : Ipv6Address) : List Nat :=
  [ip.a.toNat, ip.b.toNat, ip.c.toNat, ip.d.toNat, ip.e.toNat, ip.f.toNat, ip.g.toNat, ip.h.toNat]

/-! ## Transport -/

inductive TcpOption where
  | nop
  | mss (size : UInt16)
  | other (kind : UInt8) (data : List UInt8) (unknown : 2 < kind.toNat) (room : data.length + 2 < 256)

def TcpOption.encode : TcpOption → List UInt8
  | .nop => [1]
  | .mss size => [2, 4] ++ bytes .big 2 size.toNat
  | .other kind data _ _ => [kind, UInt8.ofNat (data.length + 2)] ++ data

def TcpOption.segmentSize : TcpOption → Option Nat
  | .mss size => some size.toNat
  | _ => none

/-- An option list fills whole words. What follows an end-of-list option is padding. -/
structure TcpOptions where
  items : List TcpOption
  padding : List UInt8
  ended : padding = [] ∨ ∃ more, padding = 0 :: more
  aligned : (items.flatMap TcpOption.encode ++ padding).length % 4 = 0
  room : (items.flatMap TcpOption.encode ++ padding).length ≤ 40

def TcpOptions.encode (options : TcpOptions) : List UInt8 := options.items.flatMap TcpOption.encode ++ options.padding

def TcpOptions.lastMss (options : TcpOptions) : Option Nat := (options.items.filterMap TcpOption.segmentSize).getLast?

structure Tcp where
  sport : UInt16
  dport : UInt16
  sequence : UInt32
  acknowledgment : UInt32
  reserved : Fin 16
  flags : UInt8
  window : UInt16
  checksum : UInt16
  urgent : UInt16
  options : TcpOptions

def Tcp.headerLen (h : Tcp) : Nat := 20 + h.options.encode.length

structure Udp where
  sport : UInt16
  dport : UInt16
  length : UInt16
  checksum : UInt16

structure Icmp where
  type : UInt8
  code : UInt8
  checksum : UInt16
  rest : UInt32

inductive Transport where
  | tcp (h : Tcp)
  | udp (h : Udp)
  | icmp (h : Icmp)

def Transport.header : Transport → List Field
  | .tcp h =>
    [.word 2 h.sport.toNat, .word 2 h.dport.toNat, .word 4 h.sequence.toNat, .word 4 h.acknowledgment.toNat,
      .word 1 (h.headerLen / 4 * 16 + h.reserved), .word 1 h.flags.toNat, .word 2 h.window.toNat, .word 2 h.checksum.toNat,
      .word 2 h.urgent.toNat, .octets h.options.encode]
  | .udp h => [.word 2 h.sport.toNat, .word 2 h.dport.toNat, .word 2 h.length.toNat, .word 2 h.checksum.toNat]
  | .icmp h => [.word 1 h.type.toNat, .word 1 h.code.toNat, .word 2 h.checksum.toNat, .word 4 h.rest.toNat]

/-- A transport header and its payload. A datagram may be longer than its first fragment. -/
structure Segment where
  transport : Transport
  payload : List UInt8
  declared : ∀ h, transport = .udp h → 8 + payload.length ≤ h.length.toNat

def Segment.encode (s : Segment) : List UInt8 := ByteOrder.encode .big s.transport.header ++ s.payload

/-! ## Network -/

structure Arp where
  hardware : UInt16
  protocol : UInt16
  hardwareSize : UInt8
  protocolSize : UInt8
  operation : UInt16
  senderMac : Mac
  senderIp : Ipv4Address
  targetMac : Mac
  targetIp : Ipv4Address

def Arp.encode (a : Arp) : List UInt8 :=
  ByteOrder.encode .big [.word 2 a.hardware.toNat, .word 2 a.protocol.toNat, .word 1 a.hardwareSize.toNat,
    .word 1 a.protocolSize.toNat, .word 2 a.operation.toNat] ++
    (a.senderMac.octets ++ (a.senderIp.octets ++ (a.targetMac.octets ++ a.targetIp.octets)))

/-- An unfragmented datagram, or the first fragment of one. -/
structure Ipv4 where
  service : UInt8
  identification : UInt16
  dontFragment : Bool
  moreFragments : Bool
  ttl : UInt8
  checksum : UInt16
  source : Ipv4Address
  destination : Ipv4Address
  options : List UInt8
  segment : Segment
  aligned : options.length % 4 = 0
  roomOptions : options.length ≤ 40
  room : 20 + options.length + segment.encode.length < 2 ^ 16

def Ipv4.headerLen (p : Ipv4) : Nat := 20 + p.options.length

def Ipv4.totalLen (p : Ipv4) : Nat := p.headerLen + p.segment.encode.length

def Transport.protocol : Transport → Nat
  | .tcp _ => ipprotoTcp
  | .udp _ => ipprotoUdp
  | .icmp _ => ipprotoIcmp

def Transport.nextHeader : Transport → Nat
  | .tcp _ => ipprotoTcp
  | .udp _ => ipprotoUdp
  | .icmp _ => ipprotoIcmpv6

def Ipv4.flagsFrag (p : Ipv4) : Nat := (if p.dontFragment then 0x4000 else 0) + if p.moreFragments then 0x2000 else 0

def Ipv4.header (p : Ipv4) : List Field :=
  [.word 1 (4 * 16 + p.headerLen / 4), .word 1 p.service.toNat, .word 2 p.totalLen, .word 2 p.identification.toNat,
    .word 2 p.flagsFrag, .word 1 p.ttl.toNat, .word 1 p.segment.transport.protocol, .word 2 p.checksum.toNat,
    .octets p.source.octets, .octets p.destination.octets]

def Ipv4.encode (p : Ipv4) : List UInt8 := ByteOrder.encode .big p.header ++ (p.options ++ p.segment.encode)

/-- A datagram without extension headers. -/
structure Ipv6 where
  label : Fin (2 ^ 28)
  hopLimit : UInt8
  source : Ipv6Address
  destination : Ipv6Address
  segment : Segment
  room : segment.encode.length < 2 ^ 16

def Ipv6.header (p : Ipv6) : List Field :=
  [.word 4 (6 * 2 ^ 28 + p.label), .word 2 p.segment.encode.length, .word 1 p.segment.transport.nextHeader,
    .word 1 p.hopLimit.toNat] ++ p.source.numbers.map (.word 2 ·) ++ p.destination.numbers.map (.word 2 ·)

def Ipv6.encode (p : Ipv6) : List UInt8 := ByteOrder.encode .big p.header ++ p.segment.encode

inductive Network where
  | arp (a : Arp)
  | ipv4 (p : Ipv4)
  | ipv6 (p : Ipv6)

def Network.ethertype : Network → Nat
  | .arp _ => ethertypeArp
  | .ipv4 _ => ethertypeIpv4
  | .ipv6 _ => ethertypeIpv6

def Network.encode : Network → List UInt8
  | .arp a => a.encode
  | .ipv4 p => p.encode
  | .ipv6 p => p.encode

/-! ## Frames -/

inductive Link where
  | etherII (tags : List Tag)
  | snap (length : UInt16) (small : length.toNat ≤ 1500)

/-- A frame, with whatever fills it up behind the datagram. -/
structure Frame where
  destination : Mac
  source : Mac
  link : Link
  network : Network
  trailer : List UInt8

def Link.encode (ethertype : Nat) : Link → List UInt8
  | .etherII tags => tags.flatMap Tag.encode ++ bytes .big 2 ethertype
  | .snap length _ => bytes .big 2 length.toNat ++ ([0xAA, 0xAA, 0x03, 0, 0, 0] ++ bytes .big 2 ethertype)

def Frame.encode (f : Frame) : List UInt8 :=
  f.destination.octets ++ f.source.octets ++ f.link.encode f.network.ethertype ++ (f.network.encode ++ f.trailer)

/-! ## What is in a frame -/

def Transport.fill (view : FrameView) : Transport → FrameView
  | .tcp h => { view with
      sport := some h.sport.toNat, dport := some h.dport.toNat, tcpFlags := some h.flags.toNat
      tcpWindow := some h.window.toNat, tcpHeaderLen := some h.headerLen, mss := h.options.lastMss }
  | .udp h => { view with
      sport := some h.sport.toNat, dport := some h.dport.toNat, udpLength := some h.length.toNat }
  | .icmp h => { view with icmpType := some h.type.toNat }

def Transport.l3Proto (overIpv6 : Bool) : Transport → NetworkFeatures.L3Proto
  | .tcp _ => .tcp
  | .udp _ => .udp
  | .icmp _ => if overIpv6 then .icmpv6 else .icmp

def Ipv4.fill (p : Ipv4) (view : FrameView) : FrameView :=
  { view with
    ipHeaderLen := some p.headerLen, ipTotalLen := some p.totalLen, ttl := some p.ttl.toNat
    ipDf := p.dontFragment, ipMf := p.moreFragments, ipFragOffset := 0
    srcIp := some (formatIpv4 p.source.octets), dstIp := some (formatIpv4 p.destination.octets)
    l3Proto := p.segment.transport.l3Proto false }

def Ipv6.fill (p : Ipv6) (view : FrameView) : FrameView :=
  { view with
    ipHeaderLen := some 40, ipTotalLen := some (40 + p.segment.encode.length), ttl := some p.hopLimit.toNat
    srcIp := some (formatIpv6 p.source.numbers), dstIp := some (formatIpv6 p.destination.numbers)
    l3Proto := p.segment.transport.l3Proto true }

def Network.fill (view : FrameView) : Network → FrameView
  | .arp a => { view with
      l3Proto := .arp
      arpSenderMac := some (formatMac a.senderMac.octets), arpSenderIp := some (formatIpv4 a.senderIp.octets)
      arpTargetMac := some (formatMac a.targetMac.octets), arpTargetIp := some (formatIpv4 a.targetIp.octets)
      srcIp := some (formatIpv4 a.senderIp.octets), dstIp := some (formatIpv4 a.targetIp.octets) }
  | .ipv4 p => p.segment.transport.fill (p.fill view)
  | .ipv6 p => p.segment.transport.fill (p.fill view)

def Link.headerLen : Link → Nat
  | .etherII tags => 14 + 4 * tags.length
  | .snap _ _ => 22

def Link.tagCount : Link → Nat
  | .etherII tags => tags.length
  | .snap _ _ => 0

def Link.isEtherII : Link → Bool
  | .etherII _ => true
  | .snap _ _ => false

/-- The header fields of a frame. -/
def Frame.view (f : Frame) : FrameView :=
  f.network.fill { FrameView.start (formatMac f.source.octets) (formatMac f.destination.octets) with
    isEtherII := f.link.isEtherII, vlanTags := f.link.tagCount, l2HeaderLen := f.link.headerLen
    ethertype := some f.network.ethertype }

/-- The octets behind the transport header that the length of the datagram covers. -/
def Network.payload : Network → Option (List UInt8)
  | .arp _ => none
  | .ipv4 p => some p.segment.payload
  | .ipv6 p => some p.segment.payload

end FrameContent
