import AgenticSoc.PcapCaptures
import Mathlib.Algebra.Order.Floor.Semifield
import Mathlib.Data.Rat.Floor

/-!
# Times of PCAPNG packets

The ticks of a packet become nanoseconds by the resolution of its interface. The reader looks
for it in the first octets of an interface block only.
-/
namespace PcapTimes

open ByteOrder PcapReader PcapContent PcapFraming PcapCaptures

/-! ## Resolutions -/

/-- A tick in seconds: a power of ten, or of two when the highest bit is set. -/
def resolution (resol : UInt8) : ℚ :=
  if resol.toNat < 128 then 1 / 10 ^ resol.toNat else 1 / 2 ^ (resol.toNat - 128)

/-- The resolution that an option states. -/
def PcapOption.tsresol (opt : PcapOption) : Option UInt8 :=
  if opt.code = 9 then
    match opt.value with
    | [.octets [b]] => some b
    | _ => none
  else none

def Interface.tsresol (i : Interface) : Option UInt8 := i.options.items.findSome? PcapOption.tsresol

/-- Microseconds where nothing else is stated. -/
def resolutionOr (tsresol : Option UInt8) : ℚ := resolution (tsresol.getD 6)

/-- The octets of the options before the one that states the resolution. -/
def octetsBefore (items : List PcapOption) : Nat :=
  size ((items.takeWhile fun opt => opt.code ≠ 9).flatMap PcapOption.layout)

/-- The resolution is the usual one, or stated within the octets that the reader looks at. -/
def Interface.Early (i : Interface) : Prop :=
  ∀ b, Interface.tsresol i = some b → b = 6 ∨ 8 + octetsBefore i.options.items + 4 < 512

/-- An interface states its resolution once at most. -/
def StatedOnce (items : List PcapOption) : Prop := (items.filter fun opt => opt.code = 9).length ≤ 1

theorem high_bit : ∀ n < 256, (n &&& 0x80 ≠ 0 ↔ 128 ≤ n) ∧ n &&& 0x7F = n % 128 := by decide +kernel

/-- The scale of a resolution, as a fraction. -/
theorem scale_resolution (resol : UInt8) :
    ((tsresolToScale resol.toNat).1 : ℚ) / (tsresolToScale resol.toNat).2 = 10 ^ 9 * resolution resol := by
  have hroom : resol.toNat < 256 := resol.toNat_lt
  obtain ⟨hbit, hlow⟩ := high_bit resol.toNat hroom
  by_cases hhigh : 128 ≤ resol.toNat
  · have hexponent : resol.toNat % 128 = resol.toNat - 128 := by omega
    rw [resolution, if_neg (Nat.not_lt.mpr hhigh), tsresolToScale, if_pos (hbit.mpr hhigh), hlow, hexponent,
      Nat.one_shiftLeft]
    push_cast
    ring
  · have hexponent : resol.toNat % 128 = resol.toNat := by omega
    rw [resolution, if_pos (Nat.not_le.mp hhigh), tsresolToScale, if_neg (fun h => hhigh (hbit.mp h)), hlow, hexponent]
    by_cases hfine : resol.toNat ≤ 9
    · simp only [if_pos hfine]
      push_cast
      rw [div_one, mul_one_div, eq_div_iff (by positivity), ← pow_add, Nat.sub_add_cancel hfine]
    · simp only [if_neg hfine]
      push_cast
      rw [mul_one_div, div_eq_div_iff (by positivity) (by positivity), one_mul, ← pow_add,
        Nat.add_sub_cancel' (by omega)]

/-- Ticks are scaled in whole numbers, with nothing lost but the fraction of a nanosecond. -/
theorem scale_floor (resol : UInt8) (ticks : Nat) :
    ticks * (tsresolToScale resol.toNat).1 / (tsresolToScale resol.toNat).2 =
      ⌊(ticks : ℚ) * 10 ^ 9 * resolution resol⌋₊ := by
  rw [mul_assoc, ← scale_resolution, ← mul_div_assoc, ← Nat.cast_mul, Nat.floor_div_eq_div]

/-- One tick tells any resolution from microseconds. -/
theorem one_tick : ∀ n < 256, n ≠ 6 → (tsresolToScale n).1 / (tsresolToScale n).2 ≠ 1000 := by decide +kernel

/-! ## Options within the first octets -/

/-- The resolution found in the first `k` octets of an option list. -/
def seen : List PcapOption → Nat → UInt8 → UInt8
  | [], _, d => d
  | opt :: items, k, d =>
    if k < 4 then d
    else seen items (k - size opt.layout) (if 4 < k then (PcapOption.tsresol opt).getD d else d)

theorem option_size (opt : PcapOption) : size opt.layout = 4 + padded (size opt.value) := by
  have hpadded := le_padded (size opt.value)
  simp only [PcapOption.layout, size_append, size_cons, size_nil, padding_size]
  simp only [Field.size]
  omega

/-- The octet an option sets the resolution to, if the reader sees it. -/
theorem resolution_seen (opt : PcapOption) (rest : List UInt8) {k : Nat} (hk : 4 ≤ k) (d : UInt8) :
    resolutionOf opt.code.toNat (size opt.value)
      ((encode .little (opt.value ++ [padding (size opt.value)]) ++ rest).take (k - 4)) d.toNat =
        (if 4 < k then (PcapOption.tsresol opt).getD d else d).toNat := by
  by_cases hnine : opt.code = 9
  · obtain ⟨b, hb⟩ := opt.resolution hnine
    have hcode : opt.code.toNat = 9 := by rw [hnine]; rfl
    have hstated : PcapOption.tsresol opt = some b := by rw [PcapOption.tsresol, if_pos hnine, hb]
    rw [hcode, hstated, hb]
    obtain ⟨k, rfl⟩ : ∃ m, k = m + 4 := ⟨k - 4, by omega⟩
    simp only [List.cons_append, List.nil_append, encode_cons, Field.encode, Nat.add_sub_cancel]
    cases k with
    | zero => rfl
    | succ k =>
      rw [if_pos (by omega)]
      rfl
  · have hcode : opt.code.toNat ≠ 9 := fun h => hnine (UInt16.toNat_inj.mp h)
    have hsilent : PcapOption.tsresol opt = none := by rw [PcapOption.tsresol, if_neg hnine]
    rw [hsilent, Option.getD_none, ite_self]
    unfold resolutionOf
    split
    · rw [if_neg fun h => hcode h.1]
    · rfl

theorem scan_seen (items : List PcapOption) (closed : Bool) (k : Nat) (d : UInt8) :
    scanOptions .little ((encode .little (Options.layout ⟨items, closed⟩)).take k) d.toNat = (seen items k d).toNat := by
  induction items generalizing k d with
  | nil =>
    simp only [Options.layout, List.flatMap_nil, List.nil_append, encode_closing, seen]
    cases closed
    · simp [scanOptions]
    · rw [if_pos rfl]
      by_cases hk : 4 ≤ k
      · have hall : ([0, 0, 0, 0] : List UInt8).take k = [0, 0, 0, 0] := List.take_of_length_le hk
        rw [hall, scanOptions]
        rfl
      · have hshort : (([0, 0, 0, 0] : List UInt8).take k).length < 4 := by
          rw [List.length_take]
          omega
        rw [scanOptions, if_pos hshort]
  | cons opt items ih =>
    have hlayout : Options.layout ⟨opt :: items, closed⟩ = opt.layout ++ Options.layout ⟨items, closed⟩ := by
      simp only [Options.layout, List.flatMap_cons, List.append_assoc]
    have hcode : opt.code.toNat ≠ 0 := fun h => opt.notEnd (UInt16.toNat_inj.mp h)
    have hdrop : (encode .little (opt.value ++ [padding (size opt.value)]) ++
        encode .little (Options.layout ⟨items, closed⟩)).drop (padded (size opt.value)) =
          encode .little (Options.layout ⟨items, closed⟩) := by
      refine List.drop_left' ?_
      have hpadded := le_padded (size opt.value)
      rw [encode_length, size_append, size_cons, size_nil, padding_size]
      omega
    have hsize : k - 4 - padded (size opt.value) = k - size opt.layout := by
      rw [option_size]
      omega
    rw [hlayout, encode_append, encode_option, scan_option .little opt.code.toNat_lt opt.room, if_neg hcode, seen]
    by_cases hk : k < 4
    · rw [if_pos hk, if_pos hk]
    · rw [if_neg hk, if_neg hk, hdrop, hsize, resolution_seen opt _ (by omega), ih]

theorem tsresol_silent {opt : PcapOption} (h : opt.code ≠ 9) : PcapOption.tsresol opt = none := if_neg h

/-- Options that state nothing change nothing. -/
theorem seen_silent {items : List PcapOption} (h : ∀ opt ∈ items, opt.code ≠ 9) (k : Nat) (d : UInt8) :
    seen items k d = d := by
  induction items generalizing k with
  | nil => rfl
  | cons opt items ih =>
    rw [seen, tsresol_silent (h opt (List.mem_cons_self ..)), Option.getD_none, ite_self,
      ih (fun o ho => h o (List.mem_cons_of_mem opt ho)), ite_self]

theorem silent_of_once {opt : PcapOption} {items : List PcapOption} (honce : StatedOnce (opt :: items))
    (h : opt.code = 9) : ∀ o ∈ items, o.code ≠ 9 := by
  rw [StatedOnce, List.filter_cons_of_pos (by simpa using h), List.length_cons] at honce
  have hnone : items.filter (fun opt => opt.code = 9) = [] := List.length_eq_zero_iff.mp (by omega)
  intro o ho hcode
  have hmem : o ∈ items.filter fun opt => opt.code = 9 := List.mem_filter.mpr ⟨ho, by simpa using hcode⟩
  rw [hnone] at hmem
  cases hmem

/-- What the reader finds in the first `k` octets. -/
theorem seen_once {items : List PcapOption} (honce : StatedOnce items) (k : Nat) (d : UInt8) :
    seen items k d = if octetsBefore items + 4 < k then (items.findSome? PcapOption.tsresol).getD d else d := by
  induction items generalizing k with
  | nil =>
    rw [List.findSome?_nil, Option.getD_none, ite_self]
    rfl
  | cons opt items ih =>
    by_cases hnine : opt.code = 9
    · obtain ⟨b, hb⟩ := opt.resolution hnine
      have hstated : PcapOption.tsresol opt = some b := by rw [PcapOption.tsresol, if_pos hnine, hb]
      have hbefore : octetsBefore (opt :: items) = 0 := by
        rw [octetsBefore, List.takeWhile_cons_of_neg (by simpa using hnine)]
        rfl
      rw [seen, seen_silent (silent_of_once honce hnine), hbefore, List.findSome?_cons, hstated]
      by_cases hk : 4 < k
      · rw [if_neg (by omega), if_pos hk]
      · rw [if_neg hk, ite_self]
    · have hfewer : StatedOnce items := by
        rwa [StatedOnce, List.filter_cons_of_neg (by simpa using hnine)] at honce
      have hbefore : octetsBefore (opt :: items) = size opt.layout + octetsBefore items := by
        rw [octetsBefore, List.takeWhile_cons_of_pos (by simpa using hnine), List.flatMap_cons, size_append, octetsBefore]
      have hsize := option_size opt
      rw [seen, tsresol_silent hnine, Option.getD_none, ite_self, ih hfewer, List.findSome?_cons, tsresol_silent hnine, hbefore]
      by_cases hk : k < 4
      · rw [if_pos hk, if_neg (by omega)]
      · rw [if_neg hk]
        by_cases hin : size opt.layout + octetsBefore items + 4 < k
        · rw [if_pos hin, if_pos (by omega)]
        · rw [if_neg hin, if_neg (by omega)]

/-! ## Up to a packet -/

/-- An option that states the resolution has room for it. -/
theorem stated_inside {items : List PcapOption} {b : UInt8} (h : items.findSome? PcapOption.tsresol = some b) :
    octetsBefore items + 4 < size (items.flatMap PcapOption.layout) := by
  induction items with
  | nil => cases h
  | cons opt items ih =>
    by_cases hnine : opt.code = 9
    · obtain ⟨c, hc⟩ := opt.resolution hnine
      have hvalue : size opt.value = 1 := by rw [hc]; rfl
      have hbefore : octetsBefore (opt :: items) = 0 := by
        rw [octetsBefore, List.takeWhile_cons_of_neg (by simpa using hnine)]
        rfl
      rw [hbefore, List.flatMap_cons, size_append, option_size, hvalue]
      exact Nat.lt_add_right _ (by decide)
    · rw [List.findSome?_cons, tsresol_silent hnine] at h
      have hbefore : octetsBefore (opt :: items) = size opt.layout + octetsBefore items := by
        rw [octetsBefore, List.takeWhile_cons_of_pos (by simpa using hnine), List.flatMap_cons, size_append, octetsBefore]
      have hlater := ih h
      rw [hbefore, List.flatMap_cons, size_append]
      omega

/-- The scale of an interface is that of its resolution, or the usual one where it is stated late. -/
theorem interface_scale {i : Interface} (honce : StatedOnce i.options.items) :
    Interface.scale i = tsresolToScale (if 8 + octetsBefore i.options.items + 4 < 512 then
      (Interface.tsresol i).getD 6 else 6).toNat := by
  have hscan := scan_seen i.options.items i.options.closed (min (size (Block.interface i).body) 512 - 8) 6
  have hsize : size (Block.interface i).body = 8 + size i.options.layout := by
    simp only [Block.body, size_append, size_cons, size_nil]
    rfl
  have hitems : size (i.options.items.flatMap PcapOption.layout) ≤ size i.options.layout := by
    rw [Options.layout, size_append]
    exact Nat.le_add_right _ _
  rw [seen_once honce] at hscan
  rw [Interface.scale]
  refine congrArg tsresolToScale (hscan.trans (congrArg UInt8.toNat ?_))
  cases hstated : i.options.items.findSome? PcapOption.tsresol with
  | none => rw [Interface.tsresol, hstated, Option.getD_none, ite_self, ite_self]
  | some b =>
    have hinside := stated_inside hstated
    rw [Interface.tsresol, hstated]
    by_cases hearly : 8 + octetsBefore i.options.items + 4 < 512
    · rw [if_pos (by omega), if_pos hearly]
    · rw [if_neg (by omega), if_neg hearly]

/-- The interfaces known after blocks. -/
def known (ifaces : List Interface) : List Block → List Interface
  | [] => ifaces
  | .header _ :: blocks => known [] blocks
  | .interface i :: blocks => known (ifaces ++ [i]) blocks
  | _ :: blocks => known ifaces blocks

theorem absorb_known (o : Order) (b : Block) (r : Reader) {ifaces : List Interface}
    (hifaces : r.ifaceResolutions = ifaces.map Interface.scale) {r' : Reader} (h : (absorb o b r).next = some r') :
    r'.ifaceResolutions = (known ifaces [b]).map Interface.scale := by
  cases b with
  | header x => rw [← Option.some.inj h]; rfl
  | interface i =>
    rw [← Option.some.inj h]
    simp only [known, List.map_append, List.map_cons, List.map_nil, hifaces]
  | enhanced p => rw [← Option.some.inj h]; exact hifaces
  | simple p => rw [← Option.some.inj h]; exact hifaces
  | other x => rw [← Option.some.inj h]; exact hifaces

theorem known_cons (ifaces : List Interface) (b : Block) (blocks : List Block) :
    known ifaces (b :: blocks) = known (known ifaces [b]) blocks := by
  cases b <;> rfl

/-- The reader past blocks that it reads whole. -/
theorem turns_past (ifaces : List Interface) {blocks : List (Order × Block)} {r : Reader} {tail : List UInt8}
    (hrest : r.file.rest = encodeBlocks blocks ++ tail) (hannounced : Announced r.endian blocks)
    (hreadable : AllReadable r.endian blocks) (hifaces : r.ifaceResolutions = ifaces.map Interface.scale) :
    ∃ passed r', turns r = passed ++ turns r' ∧ r'.file.rest = tail ∧
      (passed.filterMap Turn.record).map packetOf = (blocks.map Prod.snd).filterMap Block.packet ∧
      r'.endian = ((blocks.map Prod.fst).getLast?.map some).getD r.endian ∧
      r'.ifaceResolutions = (known ifaces (blocks.map Prod.snd)).map Interface.scale ∧
      r'.stats.truncatedTail = r.stats.truncatedTail := by
  induction blocks generalizing r ifaces with
  | nil => exact ⟨[], r, rfl, hrest, rfl, rfl, hifaces, rfl⟩
  | cons b blocks ih =>
    obtain ⟨o, b⟩ := b
    obtain ⟨hroom, horder, hmore⟩ := hannounced
    obtain ⟨hb, hall⟩ := hreadable
    have hrest' : r.file.rest = encode o b.layout ++ (encodeBlocks blocks ++ tail) := by
      rw [hrest, encodeBlocks, List.flatMap_cons, List.append_assoc]
      rfl
    have hturn := turn_whole hrest' horder ((readable_value hroom).mpr hb.order) hb.sane hb.consumed
    obtain ⟨s, hnext, hfile, hendian, hstats⟩ :=
      absorb_next (o := o) (b := b) (r := { r with file := r.file.advance b.length }) horder
    have hgo : (turn r).next = some s := by rw [hturn]; exact hnext
    have htail : s.file.rest = encodeBlocks blocks ++ tail := by
      rw [hfile, advance_rest, hrest']
      exact List.drop_left' (by rw [encode_length, layout_size])
    obtain ⟨passed, r', hturns, hrest'', hpackets, hlast, hknown, htruncated⟩ :=
      ih _ htail (hendian ▸ hmore) (hendian ▸ hall) (absorb_known o b { r with file := r.file.advance b.length } hifaces hnext)
    refine ⟨turn r :: passed, r', ?_, hrest'', ?_, ?_, ?_, htruncated.trans hstats⟩
    · rw [turns_next hgo, hturns, List.cons_append]
    · have hrecord : (turn r).record.map packetOf = b.packet := by rw [hturn]; exact absorb_record hb.consumed
      rw [List.filterMap_cons, List.map_cons, List.filterMap_cons, ← hrecord, ← hpackets]
      cases (turn r).record <;> rfl
    · rw [hlast, hendian]
      cases blocks <;> rfl
    · rw [hknown, List.map_cons, ← known_cons]

/-- The reader at an enhanced packet, whatever its options and whatever follows. -/
theorem turn_enhanced {r : Reader} {p : EnhancedPacket} {tail : List UInt8} (hendian : r.endian = some .little)
    (hrest : r.file.rest = encode .little (Block.enhanced p).layout ++ tail)
    (hsane : (Block.enhanced p).length ≤ maxSaneRecord) :
    (turn r).record =
      some ⟨some (EnhancedPacket.time p r.ifaceResolutions), p.data.length, p.original.toNat, p.data⟩ := by
  have horder : headOrder r = .little := by rw [headOrder, hendian]; rfl
  have hsmall : maxSaneRecord < 256 ^ 4 := by decide
  have htrailer : 4 ≤ (bytes .little 4 (Block.enhanced p).length ++ tail).length := by
    rw [List.length_append, bytes_length]
    omega
  rw [turn_head hrest (.inr hendian), horder, value_word (Nat.lt_of_le_of_lt hsane hsmall), readBlock_kind hsane]
  have hread := enhanced_read (r := { r with file := r.file.advance 8 }) hendian (after_head hrest) htrailer hsane
  rw [hread]
  rfl

/-- A little-endian section up to a packet, after other sections. Its blocks are within the
limit of the reader and have nothing that the reader ignores. -/
structure Opening where
  earlier : List Section
  header : SectionHeader
  before : List Block
  inside : ∀ b ∈ before, b.kind ≠ blockShb
  whole : ∀ b ∈ earlier.flatMap Section.blocks ++ .header header :: before, b.length ≤ maxSaneRecord ∧ Consumed b
  statedOnce : ∀ i ∈ before.flatMap Block.interfaces, StatedOnce i.options.items

namespace Opening

def blocks (s : Opening) : List Block := s.earlier.flatMap Section.blocks ++ .header s.header :: s.before

/-- The interfaces that the section has described. -/
def interfaces (s : Opening) : List Interface := s.before.flatMap Block.interfaces

/-- The packets already yielded. -/
def packets (s : Opening) : Nat := (s.blocks.filterMap Block.packet).length

/-- The capture with one more packet, and anything after it. -/
def bytesThen (s : Opening) (p : EnhancedPacket) (tail : List UInt8) : List UInt8 :=
  encodeBlocks (s.blocks.map (Order.little, ·)) ++ (encode .little (Block.enhanced p).layout ++ tail)

/-- The resolution of an interface, microseconds where none is stated or no interface is described. -/
def resolution (s : Opening) (n : UInt32) : ℚ := resolutionOr (s.interfaces[n.toNat]?.bind Interface.tsresol)

end Opening

def ticks (p : EnhancedPacket) : Nat := (p.high.toNat <<< 32) ||| p.low.toNat

theorem known_append (ifaces : List Interface) (blocks more : List Block) :
    known ifaces (blocks ++ more) = known (known ifaces blocks) more := by
  induction blocks generalizing ifaces with
  | nil => rfl
  | cons b blocks ih => rw [List.cons_append, known_cons, ih, known_cons ifaces b blocks]

theorem known_inside {blocks : List Block} (h : ∀ b ∈ blocks, b.kind ≠ blockShb) (ifaces : List Interface) :
    known ifaces blocks = ifaces ++ blocks.flatMap Block.interfaces := by
  induction blocks generalizing ifaces with
  | nil => rw [known, List.flatMap_nil, List.append_nil]
  | cons b blocks ih =>
    have hmore := fun ifaces => ih (fun c hc => h c (List.mem_cons_of_mem b hc)) ifaces
    cases b with
    | header x => exact absurd rfl (h _ (List.mem_cons_self ..))
    | interface i =>
      rw [known, hmore, List.flatMap_cons, List.append_assoc]
      rfl
    | enhanced p => exact hmore ifaces
    | simple p => exact hmore ifaces
    | other x => exact hmore ifaces

theorem Opening.known_blocks (s : Opening) : known [] s.blocks = s.interfaces := by
  rw [Opening.blocks, known_append, known, known_inside s.inside, List.nil_append]
  rfl

theorem announced_little {blocks : List Block} (h : ∀ b ∈ blocks, b.length ≤ maxSaneRecord) :
    Announced (some .little) (blocks.map (Order.little, ·)) := by
  induction blocks with
  | nil => exact trivial
  | cons b blocks ih =>
    have hsmall : maxSaneRecord < 2 ^ 32 := by decide
    exact ⟨Nat.lt_of_le_of_lt (h b (List.mem_cons_self ..)) hsmall, .inr rfl,
      ih fun c hc => h c (List.mem_cons_of_mem b hc)⟩

theorem readable_little {blocks : List Block} (h : ∀ b ∈ blocks, b.length ≤ maxSaneRecord ∧ Consumed b)
    {endian : Option Order} (hendian : endian.getD .little = .little) :
    AllReadable endian (blocks.map (Order.little, ·)) := by
  induction blocks generalizing endian with
  | nil => exact trivial
  | cons b blocks ih =>
    obtain ⟨hsane, hconsumed⟩ := h b (List.mem_cons_self ..)
    exact ⟨⟨hsane, hconsumed, .inl hendian⟩, ih (fun c hc => h c (List.mem_cons_of_mem b hc)) rfl⟩

theorem Opening.starts (s : Opening) : ∃ x more, s.blocks = .header x :: more := by
  cases hearlier : s.earlier with
  | nil => exact ⟨s.header, s.before, by rw [Opening.blocks, hearlier]; rfl⟩
  | cons e earlier => exact ⟨e.header, _, by rw [Opening.blocks, hearlier, List.flatMap_cons]; rfl⟩

theorem Opening.announced (s : Opening) : Announced none (s.blocks.map (Order.little, ·)) := by
  obtain ⟨x, more, hblocks⟩ := s.starts
  have hall := announced_little fun b hb => (s.whole b hb).1
  change Announced _ (s.blocks.map _) at hall
  rw [hblocks] at hall ⊢
  exact ⟨hall.1, .inl rfl, hall.2.2⟩

/-- The order that little-endian blocks leave behind. -/
theorem last_little (b : Block) (blocks : List Block) (endian : Option Order) :
    ((((b :: blocks).map (Order.little, ·)).map Prod.fst).getLast?.map some).getD endian = some .little := by
  rw [List.map_cons, List.map_cons, List.getLast?_cons, Option.map_some, Option.getD_some]
  cases hlast : ((blocks.map (Order.little, ·)).map Prod.fst).getLast? with
  | none => rfl
  | some o =>
    have hmem := List.mem_of_getLast? hlast
    rw [List.map_map, List.mem_map] at hmem
    obtain ⟨c, -, hc⟩ := hmem
    rw [Option.getD_some, ← hc]
    rfl

/-- The record of the packet. -/
theorem Opening.record_at (s : Opening) (p : EnhancedPacket) (tail : List UInt8)
    (hsane : (Block.enhanced p).length ≤ maxSaneRecord) :
    (records (s.bytesThen p tail))[s.packets]? = some ⟨some (EnhancedPacket.time p (s.interfaces.map Interface.scale)),
      p.data.length, p.original.toNat, p.data⟩ := by
  obtain ⟨passed, r, hturns, hrest, hpackets, hendian, hifaces, -⟩ :=
    turns_past [] (r := .start (s.bytesThen p tail)) rfl s.announced (readable_little s.whole rfl) rfl
  have hblocks : (s.blocks.map (Order.little, ·)).map Prod.snd = s.blocks := by
    rw [List.map_map]
    exact List.map_id _
  have hlittle : r.endian = some .little := by
    obtain ⟨x, more, hstart⟩ := s.starts
    rw [hendian, hstart, last_little]
  rw [hblocks] at hpackets hifaces
  rw [s.known_blocks] at hifaces
  have hcount : (passed.filterMap Turn.record).length = s.packets := by
    rw [Opening.packets, ← hpackets, List.length_map]
  have hrecord := turn_enhanced hlittle hrest hsane
  have hnext : turns r = turn r :: (turns r).tail := by
    rw [turns]
    split <;> rfl
  rw [records, hturns, hnext, List.filterMap_append, ← hcount, List.getElem?_append_right (Nat.le_refl _), Nat.sub_self,
    List.filterMap_cons, hrecord, hifaces]
  rfl

/-! ## Whole nanoseconds -/

/-- The scale of an interface by its number, or the usual one. -/
theorem Opening.time_by (s : Opening) (p : EnhancedPacket) (resol : UInt8)
    (h : ((s.interfaces.map Interface.scale)[p.interface.toNat]?).getD (1000000, 1) = tsresolToScale resol.toNat) :
    EnhancedPacket.time p (s.interfaces.map Interface.scale) = ⌊(ticks p : ℚ) * 10 ^ 9 * PcapTimes.resolution resol⌋₊ := by
  rw [← scale_floor, ← h]
  rfl

/-- The time of a packet is exact where the interface is described early. -/
theorem Opening.time_early (s : Opening) (p : EnhancedPacket) {i : Interface}
    (hi : s.interfaces[p.interface.toNat]? = some i) (hearly : Interface.Early i) :
    EnhancedPacket.time p (s.interfaces.map Interface.scale) = ⌊(ticks p : ℚ) * 10 ^ 9 * s.resolution p.interface⌋₊ := by
  refine s.time_by p _ ?_
  rw [List.getElem?_map, hi, Option.map_some, Option.getD_some, Option.bind_some,
    interface_scale (s.statedOnce i (List.mem_of_getElem? hi))]
  split
  · rfl
  · rename_i hlate
    cases hstated : Interface.tsresol i with
    | none => rfl
    | some b => rw [Option.getD_some, (hearly b hstated).resolve_right hlate]

/-- A packet of one tick, off where its resolution is stated late. -/
theorem Opening.time_late (s : Opening) {p : EnhancedPacket} {i : Interface} (hticks : ticks p = 1)
    (hi : s.interfaces[p.interface.toNat]? = some i) (hlate : ¬ Interface.Early i) :
    EnhancedPacket.time p (s.interfaces.map Interface.scale) ≠ ⌊(ticks p : ℚ) * 10 ^ 9 * s.resolution p.interface⌋₊ := by
  obtain ⟨b, hstated, hother, hbeyond⟩ : ∃ b, Interface.tsresol i = some b ∧ b ≠ 6 ∧
      ¬ 8 + octetsBefore i.options.items + 4 < 512 := by
    rw [Interface.Early] at hlate
    push Not at hlate
    obtain ⟨b, hstated, hother, hbeyond⟩ := hlate
    exact ⟨b, hstated, hother, Nat.not_lt.mpr hbeyond⟩
  have husual := s.time_by p 6 (by
    rw [List.getElem?_map, hi, Option.map_some, Option.getD_some, interface_scale (s.statedOnce i (List.mem_of_getElem? hi)),
      if_neg hbeyond])
  have hexact : s.resolution p.interface = PcapTimes.resolution b := by
    rw [Opening.resolution, hi, Option.bind_some, resolutionOr, hstated, Option.getD_some]
  rw [husual, hexact, ← scale_floor, ← scale_floor, hticks, Nat.one_mul, Nat.one_mul]
  exact (one_tick b.toNat b.toNat_lt fun hsix => hother (UInt8.toNat_inj.mp hsix)).symm

/-- The scale for interfaces that were not described is that of milliseconds. -/
theorem Opening.time_undescribed (s : Opening) {p : EnhancedPacket} (hticks : ticks p = 1)
    (hnone : s.interfaces[p.interface.toNat]? = none) :
    EnhancedPacket.time p (s.interfaces.map Interface.scale) ≠ ⌊(ticks p : ℚ) * 10 ^ 9 * s.resolution p.interface⌋₊ := by
  have hmilli := s.time_by p 3 (by
    rw [List.getElem?_map, hnone]
    decide)
  have hexact : s.resolution p.interface = PcapTimes.resolution 6 := by
    rw [Opening.resolution, hnone]
    rfl
  rw [hmilli, hexact, ← scale_floor, ← scale_floor, hticks]
  decide

def oneTick (n : UInt32) : EnhancedPacket := ⟨n, 0, 1, 0, [], .none⟩

theorem oneTick_sane (n : UInt32) : (Block.enhanced (oneTick n)).length ≤ maxSaneRecord := by
  rw [Block.length, enhanced_size]
  change 12 + (20 + padded 0 + 0) ≤ maxSaneRecord
  decide

/-- Every packet of an interface gets the time that its ticks say, rounded down to whole
nanoseconds, exactly when the interface is described and states its resolution early, or none
but the usual. -/
theorem times_exact_iff (s : Opening) (n : UInt32) :
    (∀ p : EnhancedPacket, p.interface = n → (Block.enhanced p).length ≤ maxSaneRecord → ∀ tail,
        ∃ record, (records (s.bytesThen p tail))[s.packets]? = some record ∧ record.data = p.data ∧
          record.tsNs = some ⌊(ticks p : ℚ) * 10 ^ 9 * s.resolution n⌋₊) ↔
      ∃ i, s.interfaces[n.toNat]? = some i ∧ Interface.Early i := by
  constructor
  · intro hexact
    obtain ⟨record, hrecord, -, htime⟩ := hexact (oneTick n) rfl (oneTick_sane n) []
    rw [s.record_at _ _ (oneTick_sane n)] at hrecord
    rw [← Option.some.inj hrecord] at htime
    have hticks : ticks (oneTick n) = 1 := by
      change (UInt32.toNat 0 <<< 32) ||| UInt32.toNat 1 = 1
      decide
    cases hi : s.interfaces[n.toNat]? with
    | none => exact absurd (Option.some.inj htime) (s.time_undescribed hticks hi)
    | some i =>
      refine ⟨i, rfl, ?_⟩
      by_contra hlate
      exact s.time_late hticks hi hlate (Option.some.inj htime)
  · rintro ⟨i, hi, hearly⟩ p rfl hsane tail
    refine ⟨_, s.record_at p tail hsane, rfl, ?_⟩
    rw [s.time_early p hi hearly]

/-- A section that describes no interface. -/
def bareSection : Opening where
  earlier := []
  header := plainHeader
  before := []
  inside := by simp
  whole := by
    intro b hb
    rw [List.mem_singleton.mp hb]
    exact ⟨by decide, trivial⟩
  statedOnce := by simp

/-- A packet of an interface that was not described comes out a thousand times too late. -/
theorem bare_milliseconds :
    (records (bareSection.bytesThen (oneTick 0) []))[bareSection.packets]?.map PacketRecord.tsNs = some (some 1000000) ∧
      ⌊(ticks (oneTick 0) : ℚ) * 10 ^ 9 * bareSection.resolution 0⌋₊ = 1000 := by
  refine ⟨?_, ?_⟩
  · rw [bareSection.record_at _ _ (oneTick_sane 0)]
    rfl
  · have hexact : bareSection.resolution 0 = PcapTimes.resolution 6 := rfl
    rw [hexact, ← scale_floor]
    rfl

end PcapTimes
