import AgenticSoc.FrameDecoder

/-!
# VLAN tags

What the decoder makes of a frame with one more tag behind its addresses.
-/
namespace VlanTags

open ByteOrder FrameDecoder

inductive TagType where
  | vlan | qinq
  deriving DecidableEq, Repr

def TagType.number : TagType → Nat
  | .vlan => ethertypeVlan
  | .qinq => ethertypeQinq

structure Tag where
  type : TagType
  control : UInt16
  deriving DecidableEq, Repr

def Tag.encode (tag : Tag) : List UInt8 := bytes .big 2 tag.type.number ++ bytes .big 2 tag.control.toNat

@[simp] theorem Tag.encode_length (tag : Tag) : tag.encode.length = 4 := by
  rw [Tag.encode, List.length_append, bytes_length, bytes_length]

/-- The frame with a tag directly behind its two addresses. -/
def insertTag (tag : Tag) (buf : List UInt8) : List UInt8 := buf.take 12 ++ tag.encode ++ buf.drop 12

/-- Frames with an ethertype behind the addresses. -/
def IsEtherII (buf : List UInt8) : Prop := 14 ≤ buf.length ∧ 1500 < typeOrLen buf

/-- Frames with a length, and a SNAP header without an organization. -/
def IsSnap (buf : List UInt8) : Prop :=
  22 ≤ buf.length ∧ typeOrLen buf ≤ 1500 ∧ (buf.drop 14).take 6 = [0xAA, 0xAA, 0x03, 0, 0, 0]

/-- One more tag adds its four octets to the second layer, and changes nothing else. -/
def Transparent (tag : Tag) (buf : List UInt8) : Prop :=
  ∃ view, decodeFrame buf = .ok (some view) ∧ decodeFrame (insertTag tag buf) =
    .ok (some { view with vlanTags := view.vlanTags + 1, l2HeaderLen := view.l2HeaderLen + 4 })

section Inserted

variable (tag : Tag) {buf : List UInt8} (h : 14 ≤ buf.length)

include h

theorem front_length : (buf.take 12).length = 12 := by
  rw [List.length_take]
  omega

theorem insertTag_length : (insertTag tag buf).length = buf.length + 4 := by
  simp only [insertTag, List.length_append, List.length_take, List.length_drop, Tag.encode_length]
  omega

theorem insertTag_addressed : addressed (insertTag tag buf) = addressed buf := by
  have hfront : (insertTag tag buf).take 12 = buf.take 12 := by
    rw [insertTag, List.append_assoc, List.take_left' (front_length h)]
  have hdst : (insertTag tag buf).take 6 = buf.take 6 := by
    have htake := congrArg (List.take 6) hfront
    rwa [List.take_take, List.take_take] at htake
  have hsrc : ((insertTag tag buf).drop 6).take 6 = (buf.drop 6).take 6 := by
    have hdrop := congrArg (List.drop 6) hfront
    rwa [List.drop_take, List.drop_take] at hdrop
  rw [addressed, addressed, hdst, hsrc]

theorem insertTag_type : typeOrLen (insertTag tag buf) = tag.type.number := by
  have hroom : tag.type.number < 256 ^ 2 := by cases tag.type <;> decide
  rw [typeOrLen, insertTag, List.append_assoc, List.drop_left' (front_length h), Tag.encode, List.append_assoc,
    List.take_left' (bytes_length ..), value_word hroom]

/-- The type behind the tag is the one that was behind the addresses. -/
theorem insertTag_inner : word (insertTag tag buf) 16 = .ok (typeOrLen buf) := by
  have hlength : (buf.take 12 ++ tag.encode).length = 16 := by
    rw [List.length_append, front_length h, Tag.encode_length]
  have hword := word_after (buf.take 12 ++ tag.encode) (buf.drop 12) 0
  rw [hlength] at hword
  refine hword.trans ?_
  rw [word_within (by rw [List.length_drop]; omega), List.drop_zero, typeOrLen]

theorem insertTag_decodes : decodeFrame (insertTag tag buf) =
    (decodeTagged (insertTag tag buf) (typeOrLen buf) 18 ((addressed buf).tagged 18)).map some := by
  have hlong : 14 ≤ (insertTag tag buf).length := by
    rw [insertTag_length tag h]
    omega
  have hvlan : tag.type.number = ethertypeVlan ∨ tag.type.number = ethertypeQinq := by
    cases tag.type
    · exact .inl rfl
    · exact .inr rfl
  have hether : ¬ tag.type.number ≤ 1500 := by cases tag.type <;> decide
  rw [decodeFrame_eq hlong, insertTag_type tag h, if_neg hether, insertTag_addressed tag h, decodeTagged, if_pos hvlan,
    if_neg (by rw [insertTag_length tag h]; omega), insertTag_inner tag h]
  rfl

end Inserted

/-- Frames with an ethertype are decoded alike with and without the tag. -/
theorem transparent_etherII (tag : Tag) {buf : List UInt8} (h : IsEtherII buf) : Transparent tag buf := by
  obtain ⟨hlong, hether⟩ := h
  -- both are the same octets from the type on, behind twelve and behind sixteen others
  have hplain : decodeTagged buf (typeOrLen buf) 14 (addressed buf) =
      (decodeTagged (buf.drop 12) (typeOrLen buf) 2 { addressed buf with l2HeaderLen := 2 }).map
        fun view => view.moved 12 0 := by
    have hafter := decodeTagged_after (buf.take 12) (buf.drop 12) (typeOrLen buf) 2
      { addressed buf with l2HeaderLen := 2 } 0
    rw [List.take_append_drop, front_length hlong] at hafter
    exact hafter
  have htagged : decodeTagged (insertTag tag buf) (typeOrLen buf) 18 ((addressed buf).tagged 18) =
      (decodeTagged (buf.drop 12) (typeOrLen buf) 2 { addressed buf with l2HeaderLen := 2 }).map
        fun view => view.moved 16 1 := by
    have hlength : (buf.take 12 ++ tag.encode).length = 16 := by
      rw [List.length_append, front_length hlong, Tag.encode_length]
    have hafter := decodeTagged_after (buf.take 12 ++ tag.encode) (buf.drop 12) (typeOrLen buf) 2
      { addressed buf with l2HeaderLen := 2 } 1
    rw [hlength] at hafter
    exact hafter
  have hbelow : 2 ≤ (buf.drop 12).length := by
    rw [List.length_drop]
    omega
  obtain ⟨view, hview, -⟩ := decodeTagged_gives (typeOrLen buf) 2
    { addressed buf with l2HeaderLen := 2 } ⟨hbelow, rfl⟩
  rw [hview] at hplain htagged
  refine ⟨view.moved 12 0, ?_, ?_⟩
  · rw [decodeFrame_eq hlong, if_neg (Nat.not_le.mpr hether), hplain]
    rfl
  · rw [insertTag_decodes tag hlong, htagged]
    rfl

/-- Behind a tag a length is taken for an ethertype. -/
theorem hidden_length (tag : Tag) {buf : List UInt8} (hlong : 14 ≤ buf.length) (hlength : typeOrLen buf ≤ 1500) :
    ¬ Transparent tag buf := by
  rintro ⟨view, hplain, htagged⟩
  obtain ⟨plain, hview, hin⟩ := decodeLengthField_gives { addressed buf with isEtherII := false } ⟨hlong, rfl⟩
  have hfits : 18 ≤ (insertTag tag buf).length := by
    rw [insertTag_length tag hlong]
    omega
  obtain ⟨tagged, hview', hin'⟩ := decodeTagged_gives (typeOrLen buf) 18
    ((addressed buf).tagged 18) ⟨hfits, rfl⟩
  rw [decodeFrame_eq hlong, if_pos hlength, hview] at hplain
  rw [insertTag_decodes tag hlong, hview'] at htagged
  have hsame : tagged.isEtherII = plain.isEtherII := by
    have hplain' := Option.some.inj (Except.ok.inj hplain)
    have htagged' := Option.some.inj (Except.ok.inj htagged)
    rw [htagged', hplain']
  rw [hin.isEtherII, hin'.isEtherII] at hsame
  cases hsame

/-- A tag is transparent to the decoding of the frames with an ethertype, and of no frame
with a length. -/
theorem transparent_iff (tag : Tag) (buf : List UInt8) (h : IsEtherII buf ∨ IsSnap buf) :
    Transparent tag buf ↔ IsEtherII buf := by
  refine ⟨fun htransparent => ?_, transparent_etherII tag⟩
  rcases h with hether | ⟨hlong, hlength, -⟩
  · exact hether
  · exact absurd htransparent (hidden_length tag (by omega) hlength)

def priorityTag : Tag := ⟨.vlan, 0⟩

/-- An ARP frame cut off behind its ethertype. -/
def arpFrame : List UInt8 := [255, 255, 255, 255, 255, 255, 2, 0, 0, 0, 0, 1, 0x08, 0x06]

theorem transparent_iff_arp : (IsEtherII arpFrame ∨ IsSnap arpFrame) ∧ (Transparent priorityTag arpFrame ↔ IsEtherII arpFrame) :=
  have hether : IsEtherII arpFrame := ⟨by decide, by decide⟩
  ⟨.inl hether, transparent_iff priorityTag arpFrame (.inl hether)⟩

/-- The same behind a length and a SNAP header. -/
def snapFrame : List UInt8 :=
  [255, 255, 255, 255, 255, 255, 2, 0, 0, 0, 0, 1, 0, 8, 0xAA, 0xAA, 0x03, 0, 0, 0, 0x08, 0x06]

theorem snap_hidden : IsSnap snapFrame ∧ ¬ Transparent priorityTag snapFrame :=
  ⟨⟨by decide, by decide, by decide⟩, hidden_length priorityTag (by decide) (by decide)⟩

end VlanTags
