import AgenticSoc.PcapFraming

/-!
# Whole PCAPNG captures

When the reader gives every packet of a little-endian capture, and when it gives the same
packets for sections of both byte orders.
-/
namespace PcapCaptures

open ByteOrder PcapReader PcapContent PcapFraming

def AllReadable : Option Order → List (Order × Block) → Prop
  | _, [] => True
  | endian, b :: blocks => Readable endian b.1 b.2 ∧ AllReadable (some b.1) blocks

theorem announced_order {endian : Option Order} {b : Order × Block} {blocks : List (Order × Block)}
    (h : Announced endian (b :: blocks)) : b.2.kind = blockShb ∨ endian = some b.1 := h.2.1

/-- The run over encoded blocks is framed exactly when each block is readable. -/
theorem framed_iff {blocks : List (Order × Block)} {r : Reader} (hrest : r.file.rest = encodeBlocks blocks)
    (hannounced : Announced r.endian blocks) (hintact : r.stats.truncatedTail = false) :
    FramedFrom r (blocks.map Prod.snd) ↔ AllReadable r.endian blocks := by
  induction blocks generalizing r with
  | nil => exact ⟨fun _ => trivial, fun _ => framed_end hrest hintact⟩
  | cons b blocks ih =>
    obtain ⟨o, b⟩ := b
    obtain ⟨hroom, horder, hmore⟩ := hannounced
    have hreadable (h : FramedFrom r (b :: blocks.map Prod.snd)) : Readable r.endian o b := by
      obtain ⟨r', hnext, hposition, hrecord⟩ := framed_first h
      exact readable_of_turn hrest horder hroom hnext hposition hrecord
    have hstep (h : Readable r.endian o b) :
        FramedFrom r (b :: blocks.map Prod.snd) ↔ AllReadable (some o) blocks := by
      have hturn := turn_whole hrest horder ((readable_value hroom).mpr h.order) h.sane h.consumed
      have hfits : b.length ≤ r.file.rest.length := by
        rw [hrest, encodeBlocks, List.flatMap_cons, List.length_append, encode_length, layout_size]
        exact Nat.le_add_right _ _
      obtain ⟨r', hnext, hfile, hendian, hstats⟩ :=
        absorb_next (o := o) (b := b) (r := { r with file := r.file.advance b.length }) horder
      rw [framed_cons (by rw [hturn]; exact hnext) (by rw [hturn]; exact absorb_record h.consumed) (by
        rw [hfile, File.advance, Nat.min_eq_left hfits])]
      rw [← hendian] at hmore ⊢
      refine ih ?_ hmore (hstats.trans hintact)
      rw [hfile, advance_rest, hrest]
      exact List.drop_left' (by rw [encode_length, layout_size])
    constructor
    · intro h
      exact ⟨hreadable h, (hstep (hreadable h)).mp h⟩
    · intro h
      exact (hstep h.1).mpr h.2

/-! ## The stream of a capture -/

/-- The stream gives one record a packet block, with its captured octets, their number and
its original length; the reader stands at the end of each block; the tail is whole. -/
structure Framed (bytes : List UInt8) (blocks : List Block) : Prop where
  packets : (records bytes).map packetOf = blocks.filterMap Block.packet
  stands : stands bytes = boundaries 0 (blocks.map Block.length)
  raised : raised bytes = none
  intact : (finalStats bytes).truncatedTail = false

theorem turns_end (r : Reader) : ∃ t, (turns r).getLast? = some t ∧ t.next = none := by
  induction hn : r.file.rest.length using Nat.strongRecOn generalizing r with
  | _ n ih =>
    cases hnext : (turn r).next with
    | none => exact ⟨turn r, by rw [turns_last hnext]; rfl, hnext⟩
    | some r' =>
      obtain ⟨t, hlast, ht⟩ := ih _ (hn ▸ turn_shorter hnext) r' rfl
      exact ⟨t, by rw [turns_next hnext, List.getLast?_cons_of_ne_nil (turns_ne_nil r'), hlast], ht⟩

theorem framed_start (bytes : List UInt8) (blocks : List Block) :
    Framed bytes blocks ↔ FramedFrom (.start bytes) blocks := by
  obtain ⟨t, hlast, hend⟩ := turns_end (.start bytes)
  constructor
  · intro h
    have hraised := h.raised
    have hintact := h.intact
    simp only [raised, hlast] at hraised
    simp only [finalStats, hlast] at hintact
    refine ⟨h.packets, h.stands, ?_⟩
    cases t with
    | proceed r => cases hend
    | yields record r => cases hend
    | stops r => exact ⟨r, hlast, hintact⟩
    | raises e r => cases hraised
  · intro h
    obtain ⟨r, hstops, hintact⟩ := h.ended
    exact ⟨h.packets, h.stands, by rw [raised, hstops], by rw [finalStats, hstops]; exact hintact⟩

theorem framed_blocks (capture : List (Order × Section)) :
    Framed (encodeCapture capture) ((blocksOf capture).map Prod.snd) ↔ AllReadable none (blocksOf capture) := by
  rw [framed_start]
  exact framed_iff (r := .start (encodeCapture capture)) rfl (announced_capture capture none) rfl

theorem blocksOf_blocks (capture : List (Order × Section)) :
    (blocksOf capture).map Prod.snd = capture.flatMap fun s => s.2.blocks := by
  simp only [blocksOf, List.map_flatMap, List.map_map]
  congr 1
  funext s
  exact List.map_id _

/-! ## Byte orders -/

/-- The length of every block is understood. -/
def Understood : Option Order → List (Order × Block) → Prop
  | _, [] => True
  | endian, b :: blocks =>
    (endian.getD .little = b.1 ∨ swapped 4 b.2.length = b.2.length) ∧ Understood (some b.1) blocks

theorem allReadable_iff {endian : Option Order} {blocks : List (Order × Block)} :
    AllReadable endian blocks ↔
      Understood endian blocks ∧ ∀ b ∈ blocks, b.2.length ≤ maxSaneRecord ∧ Consumed b.2 := by
  induction blocks generalizing endian with
  | nil => exact ⟨fun _ => ⟨trivial, fun b hb => absurd hb List.not_mem_nil⟩, fun _ => trivial⟩
  | cons b blocks ih =>
    constructor
    · rintro ⟨hreadable, hmore⟩
      obtain ⟨horder, hall⟩ := ih.mp hmore
      refine ⟨⟨hreadable.order, horder⟩, fun c hc => ?_⟩
      rcases List.mem_cons.mp hc with rfl | hc
      · exact ⟨hreadable.sane, hreadable.consumed⟩
      · exact hall c hc
    · rintro ⟨⟨horder, hmore⟩, hall⟩
      exact ⟨⟨(hall b (List.mem_cons_self ..)).1, (hall b (List.mem_cons_self ..)).2, horder⟩,
        ih.mpr ⟨hmore, fun c hc => hall c (List.mem_cons_of_mem _ hc)⟩⟩

/-- A section in another byte order than the one before it, little-endian at first, has a
header whose length reads alike in both orders. -/
def InOrder : Order → List (Order × Section) → Prop
  | _, [] => True
  | before, s :: capture =>
    (before = s.1 ∨ swapped 4 (Block.header s.2.header).length = (Block.header s.2.header).length) ∧ InOrder s.1 capture

theorem understood_body (o : Order) (body : List Block) (more : List (Order × Block)) :
    Understood (some o) (body.map (o, ·) ++ more) ↔ Understood (some o) more := by
  induction body with
  | nil => rfl
  | cons b body ih => exact ⟨fun h => ih.mp h.2, fun h => ⟨.inl rfl, ih.mpr h⟩⟩

theorem understood_capture (capture : List (Order × Section)) (endian : Option Order) :
    Understood endian (blocksOf capture) ↔ InOrder (endian.getD .little) capture := by
  induction capture generalizing endian with
  | nil => rfl
  | cons s capture ih => exact and_congr Iff.rfl ((understood_body s.1 s.2.body _).trans (ih (some s.1)))

theorem inOrder_little (sections : List Section) : InOrder .little (sections.map (Order.little, ·)) := by
  induction sections with
  | nil => exact trivial
  | cons s sections ih => exact ⟨.inl rfl, ih⟩

theorem mem_blocksOf {capture : List (Order × Section)} {P : Block → Prop} :
    (∀ b ∈ blocksOf capture, P b.2) ↔ ∀ s ∈ capture, ∀ b ∈ s.2.blocks, P b := by
  simp only [blocksOf, List.mem_flatMap, List.mem_map]
  constructor
  · intro h s hs b hb
    exact h (s.1, b) ⟨s, hs, b, hb, rfl⟩
  · rintro h b ⟨s, hs, b', hb', rfl⟩
    exact h s hs b' hb'

/-- The stream of a little-endian capture is framed exactly when no block exceeds the limit
of the reader, no enhanced packet has options, and no simple packet is cut off. -/
theorem little_framed (sections : List Section) :
    Framed (encodeCapture (sections.map (Order.little, ·))) (sections.flatMap Section.blocks) ↔
      ∀ s ∈ sections, ∀ b ∈ s.blocks, b.length ≤ maxSaneRecord ∧ Consumed b := by
  have hblocks : sections.flatMap Section.blocks = (blocksOf (sections.map (Order.little, ·))).map Prod.snd := by
    rw [blocksOf_blocks, List.flatMap_map]
  have horder : Understood none (blocksOf (sections.map (Order.little, ·))) :=
    (understood_capture _ none).mpr (inOrder_little sections)
  rw [hblocks, framed_blocks, allReadable_iff,
    mem_blocksOf (P := fun b => b.length ≤ maxSaneRecord ∧ Consumed b), List.forall_mem_map]
  exact ⟨fun h => h.2, fun h => ⟨horder, h⟩⟩

def plainHeader : SectionHeader := ⟨1, 0, 0xFFFFFFFFFFFFFFFF, .none⟩

def ethernet : Interface := ⟨1, 0, 262144, .none⟩

/-- Four octets of Ethernet, with nothing but the end-of-options option. -/
def closedPacket : EnhancedPacket := ⟨0, 0, 0, 4, [1, 2, 3, 4], ⟨[], true⟩⟩

def closedSection : Section where
  header := plainHeader
  body := [.interface ethernet, .enhanced closedPacket]
  headerRoom := by decide
  wellFormed := ⟨by decide, trivial, by decide, Nat.zero_lt_one, trivial⟩

/-- One packet with options is enough. -/
theorem closed_unframed :
    ¬ Framed (encodeCapture ([closedSection].map (Order.little, ·))) ([closedSection].flatMap Section.blocks) := by
  have hblocks : [closedSection].flatMap Section.blocks =
      (blocksOf ([closedSection].map (Order.little, ·))).map Prod.snd := by
    rw [blocksOf_blocks, List.flatMap_map]
  rw [hblocks, framed_blocks, allReadable_iff]
  rintro ⟨-, hall⟩
  have hconsumed := (hall (.little, .enhanced closedPacket) (by simp [blocksOf, Section.blocks, closedSection])).2
  exact absurd hconsumed (by change ¬ size closedPacket.options.layout = 0; decide)

/-! ## Sections of both byte orders -/

/-- Sections of interfaces, enhanced packets without options, and other blocks. -/
structure PlainSection extends Section where
  plain : ∀ b ∈ toSection.blocks, match b with
    | .enhanced p => size p.options.layout = 0
    | .simple _ => False
    | _ => True

theorem PlainSection.consumed (s : PlainSection) : ∀ b ∈ s.toSection.blocks, Consumed b := by
  intro b hb
  have h := s.plain b hb
  cases b with
  | simple p => exact h.elim
  | enhanced p => exact h
  | header x => exact trivial
  | interface x => exact trivial
  | other x => exact trivial

def sectionsOf (capture : List (Order × PlainSection)) : List (Order × Section) := capture.map fun s => (s.1, s.2.toSection)

def Turn.error : Turn → Option ReadError
  | .raises e _ => some e
  | _ => none

/-- What a turn shows to a consumer of the stream. -/
def shown (t : Turn) : Option PacketRecord × Option ReadError × ReaderStats := (t.record, Turn.error t, t.reader.stats)

/-- Readers that differ only in the octets to come and their order. -/
structure Alike (r r' : Reader) : Prop where
  ifaces : r.ifaceResolutions = r'.ifaceResolutions
  stats : r.stats = r'.stats

theorem absorb_alike (o o' : Order) (b : Block) (r r' : Reader) (h : Alike r r') :
    shown (absorb o b r) = shown (absorb o' b r') ∧
      ∀ s s', (absorb o b r).next = some s → (absorb o' b r').next = some s' → Alike s s' := by
  obtain ⟨⟨file, endian, ifaces, stats⟩, ⟨file', endian', ifaces', stats'⟩⟩ := r, r'
  obtain ⟨hifaces, hstats⟩ := h
  simp only at hifaces hstats
  subst hifaces hstats
  cases b <;>
    exact ⟨rfl, fun s s' hs hs' => by rw [← Option.some.inj hs, ← Option.some.inj hs']; exact ⟨rfl, rfl⟩⟩

/-- Two runs over the same blocks in different orders show the same. -/
theorem runs_alike (blocks : List (Order × Block)) (r r' : Reader) (halike : Alike r r')
    (hrest : r.file.rest = encodeBlocks blocks)
    (hrest' : r'.file.rest = encodeBlocks (blocks.map fun b => (Order.little, b.2)))
    (hannounced : Announced r.endian blocks)
    (hannounced' : Announced r'.endian (blocks.map fun b => (Order.little, b.2)))
    (hunderstood : Understood r.endian blocks)
    (hunderstood' : Understood r'.endian (blocks.map fun b => (Order.little, b.2)))
    (hconsumed : ∀ b ∈ blocks, Consumed b.2) : (turns r).map shown = (turns r').map shown := by
  induction blocks generalizing r r' with
  | nil =>
    have hturns : ∀ r : Reader, r.file.rest = [] → turns r = [.stops r] := by
      intro r h
      rw [turns_last (by rw [turn_end h]; rfl), turn_end h]
    rw [hturns r hrest, hturns r' hrest']
    simp only [List.map_cons, List.map_nil, shown, Turn.record, Turn.error, Turn.reader, halike.stats]
  | cons b blocks ih =>
    obtain ⟨o, b⟩ := b
    obtain ⟨hroom, horder, hmore⟩ := hannounced
    obtain ⟨-, horder', hmore'⟩ := hannounced'
    have hvalue := (readable_value hroom).mpr hunderstood.1
    have hvalue' := (readable_value hroom).mpr hunderstood'.1
    by_cases hsane : b.length ≤ maxSaneRecord
    · have hb : Consumed b := hconsumed (o, b) (List.mem_cons_self ..)
      have hturn := turn_whole hrest horder hvalue hsane hb
      have hturn' := turn_whole hrest' horder' hvalue' hsane hb
      obtain ⟨s, hnext, hfile, hendian, -⟩ :=
        absorb_next (o := o) (b := b) (r := { r with file := r.file.advance b.length }) horder
      obtain ⟨s', hnext', hfile', hendian', -⟩ :=
        absorb_next (o := Order.little) (b := b) (r := { r' with file := r'.file.advance b.length }) horder'
      obtain ⟨hshown, hsame⟩ := absorb_alike o .little b { r with file := r.file.advance b.length }
        { r' with file := r'.file.advance b.length } ⟨halike.ifaces, halike.stats⟩
      have htail : s.file.rest = encodeBlocks blocks := by
        rw [hfile, advance_rest, hrest]
        exact List.drop_left' (by rw [encode_length, layout_size])
      have htail' : s'.file.rest = encodeBlocks (blocks.map fun b => (Order.little, b.2)) := by
        rw [hfile', advance_rest, hrest']
        exact List.drop_left' (by rw [encode_length, layout_size])
      have hgo : (turn r).next = some s := by rw [hturn]; exact hnext
      have hgo' : (turn r').next = some s' := by rw [hturn']; exact hnext'
      have hfirst : shown (turn r) = shown (turn r') := by rw [hturn, hturn']; exact hshown
      rw [turns_next hgo, turns_next hgo', List.map_cons, List.map_cons, hfirst]
      congr 1
      exact ih s s' (hsame s s' hnext hnext') htail htail' (hendian ▸ hmore) (hendian' ▸ hmore') (hendian ▸ hunderstood.2)
        (hendian' ▸ hunderstood'.2) fun c hc => hconsumed c (List.mem_cons_of_mem _ hc)
    · have hlong : b.length < 12 ∨ maxSaneRecord < b.length := .inr (by omega)
      have hturn : ∀ {r : Reader} {o : Order} {tail : List UInt8}, r.file.rest = encode o b.layout ++ tail →
          (b.kind = blockShb ∨ r.endian = some o) → value (headOrder r) (bytes o 4 b.length) = b.length →
          turn r = .raises (.pcapFormatError s!"implausible block length {b.length}") { r with file := r.file.advance 8 } := by
        intro r o tail hrest horder hvalue
        rw [turn_head hrest horder, hvalue, readBlock, if_pos hlong]
      have ht := hturn hrest horder hvalue
      have ht' := hturn hrest' horder' hvalue'
      have hstop : (turn r).next = none := by rw [ht]; rfl
      have hstop' : (turn r').next = none := by rw [ht']; rfl
      rw [turns_last hstop, turns_last hstop', ht, ht']
      simp only [List.map_cons, List.map_nil, shown, Turn.record, Turn.error, Turn.reader, halike.stats]

theorem shown_records (bytes : List UInt8) :
    records bytes = ((turns (.start bytes)).map shown).filterMap fun v => v.1 := by
  rw [records, List.filterMap_map]
  rfl

theorem shown_raised (bytes : List UInt8) : raised bytes = ((turns (.start bytes)).map shown).getLast?.bind fun v => v.2.1 := by
  rw [raised, List.getLast?_map]
  cases (turns (.start bytes)).getLast? with
  | none => rfl
  | some t => cases t <;> rfl

theorem shown_stats (bytes : List UInt8) :
    finalStats bytes = (((turns (.start bytes)).map shown).getLast?.map fun v => v.2.2).getD {} := by
  rw [finalStats, List.getLast?_map]
  cases (turns (.start bytes)).getLast? <;> rfl

theorem littleEndian_blocks (capture : List (Order × Section)) :
    blocksOf (littleEndian capture) = (blocksOf capture).map fun b => (Order.little, b.2) := by
  simp only [blocksOf, littleEndian, List.flatMap_map, List.map_flatMap, List.map_map]
  rfl

theorem littleEndian_sections (capture : List (Order × Section)) :
    littleEndian capture = (capture.map Prod.snd).map (Order.little, ·) := by
  rw [littleEndian, List.map_map]
  rfl

/-- The same stream for sections in both orders as for little-endian ones. -/
def SameStream (capture : List (Order × Section)) : Prop :=
  records (encodeCapture capture) = records (encodeCapture (littleEndian capture)) ∧
    raised (encodeCapture capture) = raised (encodeCapture (littleEndian capture)) ∧
    finalStats (encodeCapture capture) = finalStats (encodeCapture (littleEndian capture))

theorem sameStream_of_inOrder {capture : List (Order × Section)} (hconsumed : ∀ s ∈ capture, ∀ b ∈ s.2.blocks, Consumed b)
    (horder : InOrder .little capture) : SameStream capture := by
  have hlittle : Understood none (blocksOf (littleEndian capture)) := by
    refine (understood_capture _ none).mpr ?_
    rw [littleEndian_sections]
    exact inOrder_little _
  have hannounced := announced_capture (littleEndian capture) none
  rw [littleEndian_blocks] at hlittle hannounced
  have hview : (turns (.start (encodeCapture capture))).map shown =
      (turns (.start (encodeCapture (littleEndian capture)))).map shown :=
    runs_alike (blocksOf capture) (.start (encodeCapture capture)) (.start (encodeCapture (littleEndian capture))) ⟨rfl, rfl⟩ rfl (by rw [← littleEndian_blocks]; rfl) (announced_capture capture none)
      hannounced ((understood_capture capture none).mpr horder) hlittle ((mem_blocksOf).mpr hconsumed)
  refine ⟨?_, ?_, ?_⟩
  · rw [shown_records, shown_records, hview]
  · rw [shown_raised, shown_raised, hview]
  · rw [shown_stats, shown_stats, hview]

theorem wellFormed_kind {interfaces : List Interface} {body : List Block} (h : WellFormed interfaces body) :
    ∀ b ∈ body, b.kind ≠ blockShb := by
  induction body generalizing interfaces with
  | nil => exact fun b hb => absurd hb List.not_mem_nil
  | cons b body ih =>
    obtain ⟨-, hallowed, hmore⟩ := h
    intro c hc
    rcases List.mem_cons.mp hc with rfl | hc
    · cases c with
      | header x => exact hallowed.elim
      | interface i => exact of_decide_eq_false rfl
      | enhanced p => exact of_decide_eq_false rfl
      | simple p => exact of_decide_eq_false rfl
      | other x =>
        have hother := x.other
        simp only [List.mem_cons, not_or] at hother
        exact hother.1
    · exact ih hmore c hc

/-- A header length that the reader rejects when it reads it backwards. -/
def Rejected (b : Block) : Prop :=
  swapped 4 b.length = b.length ∨ swapped 4 b.length < 12 ∨ maxSaneRecord < swapped 4 b.length

/-- The first length read backwards ends the run. -/
theorem understood_or_raised {blocks : List (Order × Block)} {r : Reader} (hrest : r.file.rest = encodeBlocks blocks)
    (hannounced : Announced r.endian blocks) (hall : ∀ b ∈ blocks, b.2.length ≤ maxSaneRecord ∧ Consumed b.2)
    (hrejected : ∀ b ∈ blocks, b.2.kind = blockShb → Rejected b.2) :
    Understood r.endian blocks ∨ ∃ e r', (turns r).getLast? = some (.raises e r') := by
  induction blocks generalizing r with
  | nil => exact .inl trivial
  | cons b blocks ih =>
    obtain ⟨o, b⟩ := b
    obtain ⟨hroom, horder, hmore⟩ := hannounced
    have hb := hall (o, b) (List.mem_cons_self ..)
    by_cases hvalue : value (headOrder r) (bytes o 4 b.length) = b.length
    · have hturn := turn_whole hrest horder hvalue hb.1 hb.2
      obtain ⟨s, hnext, hfile, hendian, -⟩ :=
        absorb_next (o := o) (b := b) (r := { r with file := r.file.advance b.length }) horder
      have htail : s.file.rest = encodeBlocks blocks := by
        rw [hfile, advance_rest, hrest]
        exact List.drop_left' (by rw [encode_length, layout_size])
      have hgo : (turn r).next = some s := by rw [hturn]; exact hnext
      rw [turns_next hgo, List.getLast?_cons_of_ne_nil (turns_ne_nil s)]
      rcases ih htail (hendian ▸ hmore) (fun c hc => hall c (List.mem_cons_of_mem _ hc))
          (fun c hc => hrejected c (List.mem_cons_of_mem _ hc)) with hunderstood | hraises
      · exact .inl ⟨(readable_value hroom).mp hvalue, hendian ▸ hunderstood⟩
      · exact .inr hraises
    · right
      have ho : headOrder r ≠ o := by
        intro ho
        rw [ho, value_word hroom] at hvalue
        exact hvalue rfl
      have hshb : b.kind = blockShb := by
        rcases horder with hshb | hendian
        · exact hshb
        · exact absurd (by rw [headOrder, hendian]; rfl) ho
      rw [value_other ho] at hvalue
      have hlimits := (hrejected (o, b) (List.mem_cons_self ..) hshb).resolve_left hvalue
      have hturn := turn_head hrest horder
      rw [value_other ho, readBlock, if_pos hlimits] at hturn
      have hstop : (turn r).next = none := by rw [hturn]; rfl
      rw [turns_last hstop, hturn]
      exact ⟨_, _, rfl⟩

/-- A packet in a section of its own. -/
def onePacket : PlainSection where
  header := plainHeader
  body := [.interface ethernet, .enhanced ⟨0, 0, 0, 4, [1, 2, 3, 4], .none⟩]
  headerRoom := by decide
  wellFormed := ⟨by decide, trivial, by decide, Nat.zero_lt_one, trivial⟩
  plain := by
    intro b hb
    simp only [Section.blocks, List.mem_cons, List.not_mem_nil, or_false] at hb
    rcases hb with rfl | rfl | rfl
    · exact trivial
    · exact trivial
    · rfl

end PcapCaptures
