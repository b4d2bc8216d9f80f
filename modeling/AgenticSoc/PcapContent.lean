import AgenticSoc.PcapReader

/-!
# PCAPNG content

Sections, interfaces, packets and other blocks apart from their octets, and their encoding in
either byte order. The well-formedness of a section is part of it.
-/
namespace PcapContent

open ByteOrder PcapReader

/-- The octets up to the next multiple of four. -/
def padding (n : Nat) : Field := .octets (List.replicate (padded n - n) 0)

theorem le_padded (n : Nat) : n ≤ padded n := by
  unfold padded
  omega

@[simp] theorem padding_size (n : Nat) : (padding n).size = padded n - n := by
  simp [padding, Field.size]

/-- An option. The time resolution of an interface is one octet. -/
structure PcapOption where
  code : UInt16
  value : List Field
  notEnd : code ≠ 0
  room : size value < 2 ^ 16
  resolution : code = 9 → ∃ b, value = [.octets [b]]

def PcapOption.layout (opt : PcapOption) : List Field :=
  [.word 2 opt.code.toNat, .word 2 (size opt.value)] ++ opt.value ++ [padding (size opt.value)]

/-- The options of a block, with or without the end-of-options option. -/
structure Options where
  items : List PcapOption
  closed : Bool

def Options.layout (options : Options) : List Field :=
  options.items.flatMap PcapOption.layout ++ if options.closed then [.word 2 0, .word 2 0] else []

def Options.none : Options := ⟨[], false⟩

structure SectionHeader where
  major : UInt16
  minor : UInt16
  sectionLength : UInt64
  options : Options

structure Interface where
  linktype : UInt16
  reserved : UInt16
  snaplen : UInt32
  options : Options

structure EnhancedPacket where
  interface : UInt32
  high : UInt32
  low : UInt32
  original : UInt32
  data : List UInt8
  options : Options

structure SimplePacket where
  original : UInt32
  data : List UInt8

/-- A block of a kind the reader passes over. -/
structure OtherBlock where
  kind : UInt32
  body : List Field
  other : kind.toNat ∉ [blockShb, blockIdb, blockEpb, blockSpb]
  aligned : size body % 4 = 0

inductive Block where
  | header (h : SectionHeader)
  | interface (i : Interface)
  | enhanced (p : EnhancedPacket)
  | simple (p : SimplePacket)
  | other (b : OtherBlock)

def Block.kind : Block → Nat
  | .header _ => blockShb
  | .interface _ => blockIdb
  | .enhanced _ => blockEpb
  | .simple _ => blockSpb
  | .other b => b.kind.toNat

/-- The words before the packet data of an enhanced packet. -/
def EnhancedPacket.head (p : EnhancedPacket) : List Field :=
  [.word 4 p.interface.toNat, .word 4 p.high.toNat, .word 4 p.low.toNat, .word 4 p.data.length, .word 4 p.original.toNat]

def dataLayout (data : List UInt8) : List Field := [.octets data, padding data.length]

def Block.body : Block → List Field
  | .header h =>
    [.word 4 0x1A2B3C4D, .word 2 h.major.toNat, .word 2 h.minor.toNat, .word 8 h.sectionLength.toNat] ++ h.options.layout
  | .interface i => [.word 2 i.linktype.toNat, .word 2 i.reserved.toNat, .word 4 i.snaplen.toNat] ++ i.options.layout
  | .enhanced p => p.head ++ dataLayout p.data ++ p.options.layout
  | .simple p => [.word 4 p.original.toNat] ++ dataLayout p.data
  | .other b => b.body

/-- The total length of a block. -/
def Block.length (b : Block) : Nat := 12 + size b.body

def Block.layout (b : Block) : List Field := [.word 4 b.kind, .word 4 b.length] ++ b.body ++ [.word 4 b.length]

theorem layout_size (b : Block) : size b.layout = b.length := by
  simp only [Block.layout, Block.length, size_append, size_cons, size_nil, Field.size]
  omega

/-- What an interface of the given snap length keeps of a packet; zero means no limit. -/
def captured (snaplen original : UInt32) : Nat :=
  if snaplen = 0 then original.toNat else min original.toNat snaplen.toNat

/-- A block that may follow the given interfaces in a section. -/
def Block.Allowed (interfaces : List Interface) : Block → Prop
  | .header _ => False
  | .interface _ => True
  | .enhanced p => p.interface.toNat < interfaces.length
  | .simple p => ∃ i, interfaces[0]? = some i ∧ p.data.length = captured i.snaplen p.original
  | .other _ => True

def Block.interfaces : Block → List Interface
  | .interface i => [i]
  | _ => []

def WellFormed (interfaces : List Interface) : List Block → Prop
  | [] => True
  | b :: blocks => b.length < 2 ^ 32 ∧ b.Allowed interfaces ∧ WellFormed (interfaces ++ b.interfaces) blocks

structure Section where
  header : SectionHeader
  body : List Block
  headerRoom : (Block.header header).length < 2 ^ 32
  wellFormed : WellFormed [] body

def Section.blocks (s : Section) : List Block := .header s.header :: s.body

/-- The blocks of a capture, each with the order of its section. -/
def blocksOf (capture : List (Order × Section)) : List (Order × Block) :=
  capture.flatMap fun s => s.2.blocks.map (s.1, ·)

def encodeBlocks (blocks : List (Order × Block)) : List UInt8 := blocks.flatMap fun b => encode b.1 b.2.layout

def encodeCapture (capture : List (Order × Section)) : List UInt8 := encodeBlocks (blocksOf capture)

/-- The same capture in little-endian sections throughout. -/
def littleEndian (capture : List (Order × Section)) : List (Order × Section) := capture.map fun s => (.little, s.2)

/-- The captured octets of a packet block, their number and the length on the wire. -/
def Block.packet : Block → Option (List UInt8 × Nat × Nat)
  | .enhanced p => some (p.data, p.data.length, p.original.toNat)
  | .simple p => some (p.data, p.data.length, p.original.toNat)
  | _ => none

/-- The offsets at which blocks of these lengths end. -/
def boundaries (start : Nat) : List Nat → List Nat
  | [] => []
  | n :: lengths => (start + n) :: boundaries (start + n) lengths

/-! ## Order of the sections -/

/-- Every block comes in the order announced by the last section header before it. -/
def Announced (endian : Option Order) : List (Order × Block) → Prop
  | [] => True
  | b :: blocks => b.2.length < 2 ^ 32 ∧ (b.2.kind = blockShb ∨ endian = some b.1) ∧ Announced (some b.1) blocks

theorem announced_body {interfaces : List Interface} {body : List Block} (h : WellFormed interfaces body)
    (o : Order) {more : List (Order × Block)} (hmore : ∀ e, Announced e more) :
    Announced (some o) (body.map (o, ·) ++ more) := by
  induction body generalizing interfaces with
  | nil => exact hmore (some o)
  | cons b body ih =>
    obtain ⟨hroom, -, hrest⟩ := h
    exact ⟨hroom, .inr rfl, ih hrest⟩

theorem announced_capture (capture : List (Order × Section)) (endian : Option Order) :
    Announced endian (blocksOf capture) := by
  induction capture generalizing endian with
  | nil => exact trivial
  | cons s capture ih =>
    obtain ⟨o, s⟩ := s
    exact ⟨s.headerRoom, .inl rfl, announced_body s.wellFormed o ih⟩

end PcapContent
