import AgenticSoc.ClassicPcap
import AgenticSoc.NetworkFeatures

/-!
# The frame decoder

Header fields of captured Ethernet frames. Every read names its place in the buffer; one that
leaves the buffer is a fault.
-/
namespace FrameDecoder

open ByteOrder
open NetworkFeatures (L3Proto)

def ethertypeIpv4 : Nat := 0x0800
def ethertypeArp : Nat := 0x0806
def ethertypeVlan : Nat := 0x8100
def ethertypeQinq : Nat := 0x88A8
def ethertypeIpv6 : Nat := 0x86DD

def ipprotoIcmp : Nat := 1
def ipprotoTcp : Nat := 6
def ipprotoUdp : Nat := 17
def ipprotoIcmpv6 : Nat := 58

def formatMac (raw : List UInt8) : String :=
  ":".intercalate (raw.map fun b => String.ofList (ClassicPcap.octetHex b))

def formatIpv4 (raw : List UInt8) : String := ".".intercalate (raw.map fun b => Nat.repr b.toNat)

def formatIpv6 (groups : List Nat) : String :=
  ":".intercalate (groups.map fun group => String.ofList (Nat.toDigits 16 group))

structure FrameView extends NetworkFeatures.FrameView where
  isEtherII : Bool
  vlanTags : Nat
  ethertype : Option Nat
  ipDf : Bool
  icmpType : Option Nat
  arpSenderMac : Option String
  arpSenderIp : Option String
  arpTargetMac : Option String
  arpTargetIp : Option String
  deriving DecidableEq, Repr

/-- The view of a frame of which only the two addresses are known. -/
def FrameView.start (srcMac dstMac : String) : FrameView where
  srcMac := srcMac
  dstMac := dstMac
  l2HeaderLen := 14
  l3Proto := .other
  srcIp := none
  dstIp := none
  ttl := none
  ipTotalLen := none
  ipHeaderLen := none
  ipMf := false
  ipFragOffset := 0
  sport := none
  dport := none
  tcpFlags := none
  tcpWindow := none
  tcpHeaderLen := none
  udpLength := none
  mss := none
  isEtherII := true
  vlanTags := 0
  ethertype := none
  ipDf := false
  icmpType := none
  arpSenderMac := none
  arpSenderIp := none
  arpTargetMac := none
  arpTargetIp := none

/-! ## Reading the buffer -/

inductive Fault where
  | outside
  deriving DecidableEq, Repr

def octet (buf : List UInt8) (i : Nat) : Except Fault Nat :=
  match buf[i]? with
  | some b => .ok b.toNat
  | none => .error .outside

def slice (buf : List UInt8) (start stop : Nat) : Except Fault (List UInt8) :=
  if stop ≤ buf.length then .ok ((buf.drop start).take (stop - start)) else .error .outside

/-- Two octets, the first the more significant. -/
def word (buf : List UInt8) (i : Nat) : Except Fault Nat := do
  let raw ← slice buf i (i + 2)
  return value .big raw

/-! ## Decoding -/

/-- The options of a TCP header up to `optEnd`; the last segment size among them. -/
def tcpOptions (buf : List UInt8) (optEnd pos : Nat) (mss : Option Nat) : Except Fault (Option Nat) :=
  if pos + 1 < optEnd then do
    let kind ← octet buf pos
    if kind = 0 then return mss
    else if kind = 1 then tcpOptions buf optEnd (pos + 1) mss
    else if optEnd ≤ pos + 1 then return mss
    else
      let olen ← octet buf (pos + 1)
      if olen < 2 then return mss
      else if kind = 2 ∧ olen = 4 ∧ pos + 4 ≤ optEnd then
        let size ← word buf (pos + 2)
        tcpOptions buf optEnd (pos + olen) (some size)
      else tcpOptions buf optEnd (pos + olen) mss
  else return mss
termination_by optEnd - pos

def decodeTcp (buf : List UInt8) (offset : Nat) (view : FrameView) : Except Fault FrameView := do
  let sport ← word buf offset
  let dport ← word buf (offset + 2)
  let window ← word buf (offset + 14)
  let flags ← octet buf (offset + 13)
  let high ← octet buf (offset + 12)
  let dataOff := ((high >>> 4) &&& 0xF) * 4
  let mss ← tcpOptions buf (min (offset + dataOff) buf.length) (offset + 20) view.mss
  return { view with
    sport := some sport, dport := some dport, tcpFlags := some flags, tcpWindow := some window
    tcpHeaderLen := some dataOff, mss }

def decodeUdp (buf : List UInt8) (offset : Nat) (view : FrameView) : Except Fault FrameView := do
  let sport ← word buf offset
  let dport ← word buf (offset + 2)
  let ulen ← word buf (offset + 4)
  return { view with sport := some sport, dport := some dport, udpLength := some ulen }

def decodeIcmp (buf : List UInt8) (offset : Nat) (view : FrameView) : Except Fault FrameView := do
  let icmpType ← octet buf offset
  return { view with icmpType := some icmpType }

/-- The layer above IP, where enough of it was captured. -/
def decodeL4 (buf : List UInt8) (offset : Nat) (view : FrameView) : Except Fault FrameView :=
  match view.l3Proto with
  | .tcp => if offset + 20 ≤ buf.length then decodeTcp buf offset view else return view
  | .udp => if offset + 8 ≤ buf.length then decodeUdp buf offset view else return view
  | .icmp | .icmpv6 => if offset + 2 ≤ buf.length then decodeIcmp buf offset view else return view
  | .arp | .other => return view

def decodeArp (buf : List UInt8) (offset : Nat) (view : FrameView) : Except Fault FrameView :=
  if offset + 28 ≤ buf.length then do
    let sha ← slice buf (offset + 8) (offset + 14)
    let spa ← slice buf (offset + 14) (offset + 18)
    let tha ← slice buf (offset + 18) (offset + 24)
    let tpa ← slice buf (offset + 24) (offset + 28)
    return { view with
      l3Proto := .arp, arpSenderMac := some (formatMac sha), arpSenderIp := some (formatIpv4 spa)
      arpTargetMac := some (formatMac tha), arpTargetIp := some (formatIpv4 tpa)
      srcIp := some (formatIpv4 spa), dstIp := some (formatIpv4 tpa) }
  else return { view with l3Proto := .arp }

def ipv4Proto (proto : Nat) : L3Proto :=
  if proto = ipprotoTcp then .tcp else if proto = ipprotoUdp then .udp else if proto = ipprotoIcmp then .icmp else .other

def ipv6Proto (nextHdr : Nat) : L3Proto :=
  if nextHdr = ipprotoTcp then .tcp else if nextHdr = ipprotoUdp then .udp
  else if nextHdr = ipprotoIcmpv6 then .icmpv6 else .other

def FrameView.ipv4Header (view : FrameView) (ihl totalLen flagsFrag ttl proto : Nat) (src dst : List UInt8) : FrameView :=
  { view with
    ipHeaderLen := some ihl, ipTotalLen := some totalLen, ttl := some ttl
    ipDf := decide (flagsFrag &&& 0x4000 ≠ 0), ipMf := decide (flagsFrag &&& 0x2000 ≠ 0)
    ipFragOffset := flagsFrag &&& 0x1FFF
    srcIp := some (formatIpv4 src), dstIp := some (formatIpv4 dst), l3Proto := ipv4Proto proto }

def FrameView.ipv6Header (view : FrameView) (payloadLen nextHdr hopLimit : Nat) (src dst : List Nat) : FrameView :=
  { view with
    ipHeaderLen := some 40, ipTotalLen := some (40 + payloadLen), ttl := some hopLimit
    srcIp := some (formatIpv6 src), dstIp := some (formatIpv6 dst), l3Proto := ipv6Proto nextHdr }

def decodeIpv4 (buf : List UInt8) (offset : Nat) (view : FrameView) : Except Fault FrameView :=
  if buf.length < offset + 20 then return view
  else do
    let ip ← slice buf offset (offset + 20)
    let versionIhl ← octet ip 0
    if versionIhl >>> 4 ≠ 4 then return view
    else
      let ihl := (versionIhl &&& 0x0F) * 4
      let totalLen ← word ip 2
      let flagsFrag ← word ip 6
      let ttl ← octet ip 8
      let proto ← octet ip 9
      let src ← slice ip 12 16
      let dst ← slice ip 16 20
      let view := view.ipv4Header ihl totalLen flagsFrag ttl proto src dst
      if flagsFrag &&& 0x1FFF = 0 then decodeL4 buf (offset + ihl) view
      else return { view with l3Proto := .other }

/-- Eight groups of two octets. -/
def ipv6Groups (ip6 : List UInt8) (start : Nat) : Except Fault (List Nat) :=
  (List.range 8).mapM fun k => word ip6 (start + 2 * k)

def decodeIpv6 (buf : List UInt8) (offset : Nat) (view : FrameView) : Except Fault FrameView :=
  if buf.length < offset + 40 then return view
  else do
    let ip6 ← slice buf offset (offset + 40)
    let payloadLen ← word ip6 4
    let nextHdr ← octet ip6 6
    let hopLimit ← octet ip6 7
    let src ← ipv6Groups ip6 8
    let dst ← ipv6Groups ip6 24
    decodeL4 buf (offset + 40) (view.ipv6Header payloadLen nextHdr hopLimit src dst)

def decodeL3 (buf : List UInt8) (etype offset : Nat) (view : FrameView) : Except Fault FrameView :=
  if etype = ethertypeArp then decodeArp buf offset view
  else if etype = ethertypeIpv4 then decodeIpv4 buf offset view
  else if etype = ethertypeIpv6 then decodeIpv6 buf offset view
  else return view

/-- The view behind one more tag, which ends at the offset. -/
def FrameView.tagged (view : FrameView) (offset : Nat) : FrameView :=
  { view with vlanTags := view.vlanTags + 1, l2HeaderLen := offset }

/-- VLAN tags to any depth, then the layer that the last type names. -/
def decodeTagged (buf : List UInt8) (etype offset : Nat) (view : FrameView) : Except Fault FrameView :=
  if etype = ethertypeVlan ∨ etype = ethertypeQinq then
    if buf.length < offset + 4 then return { view with vlanTags := view.vlanTags + 1 }
    else do
      let etype ← word buf (offset + 2)
      decodeTagged buf etype (offset + 4) (view.tagged (offset + 4))
  else decodeL3 buf etype offset { view with ethertype := some etype }
termination_by buf.length - offset

/-- A frame with a length field is only looked into behind a SNAP header without an organization. -/
def decodeLengthField (buf : List UInt8) (view : FrameView) : Except Fault FrameView :=
  if buf.length < 18 then return view
  else do
    let dsap ← octet buf 14
    let ssap ← octet buf 15
    let control ← octet buf 16
    if dsap = 0xAA ∧ ssap = 0xAA ∧ control = 0x03 ∧ 22 ≤ buf.length then
      let oui ← slice buf 17 20
      let snapEtype ← word buf 20
      if oui = [0, 0, 0] then decodeTagged buf snapEtype 22 { view with l2HeaderLen := 22 }
      else return view
    else return view

def decodeFrame (buf : List UInt8) : Except Fault (Option FrameView) :=
  if buf.length < 14 then return none
  else do
    let dstRaw ← slice buf 0 6
    let srcRaw ← slice buf 6 12
    let typeOrLen ← word buf 12
    let view := FrameView.start (formatMac srcRaw) (formatMac dstRaw)
    if typeOrLen ≤ 1500 then
      let view ← decodeLengthField buf { view with isEtherII := false }
      return some view
    else
      let view ← decodeTagged buf typeOrLen 14 view
      return some view

/-! ## Reads within the buffer -/

theorem octet_within {buf : List UInt8} {i : Nat} (h : i < buf.length) : octet buf i = .ok buf[i].toNat := by
  rw [octet, List.getElem?_eq_getElem h]

theorem slice_within {buf : List UInt8} {start stop : Nat} (h : stop ≤ buf.length) :
    slice buf start stop = .ok ((buf.drop start).take (stop - start)) := if_pos h

theorem word_within {buf : List UInt8} {i : Nat} (h : i + 2 ≤ buf.length) :
    word buf i = .ok (value .big ((buf.drop i).take 2)) := by
  rw [word, slice_within h, Nat.add_sub_cancel_left]
  rfl

/-! ## Buffers behind other octets -/

theorem octet_after (before rest : List UInt8) (i : Nat) : octet (before ++ rest) (before.length + i) = octet rest i := by
  rw [octet, octet, List.getElem?_append_right (Nat.le_add_right _ _), Nat.add_sub_cancel_left]

theorem slice_after (before rest : List UInt8) (start stop : Nat) :
    slice (before ++ rest) (before.length + start) (before.length + stop) = slice rest start stop := by
  have hsize : before.length + stop - (before.length + start) = stop - start := by omega
  rw [slice, slice, List.drop_length_add_append, hsize]
  refine if_congr ?_ rfl rfl
  rw [List.length_append]
  omega

theorem word_after (before rest : List UInt8) (i : Nat) : word (before ++ rest) (before.length + i) = word rest i := by
  rw [word, word, Nat.add_assoc, slice_after]

theorem tcpOptions_after (before rest : List UInt8) (optEnd pos : Nat) (mss : Option Nat) :
    tcpOptions (before ++ rest) (before.length + optEnd) (before.length + pos) mss = tcpOptions rest optEnd pos mss := by
  fun_induction tcpOptions rest optEnd pos mss with
  | case1 pos mss h ihNop ihSize ihOther =>
    rw [tcpOptions, if_pos (by omega), octet_after]
    refine bind_congr fun kind => if_congr Iff.rfl rfl (if_congr Iff.rfl ?_ (if_congr (by omega) rfl ?_))
    · rw [Nat.add_assoc, ihNop]
    · rw [Nat.add_assoc, octet_after]
      refine bind_congr fun olen => ?_
      by_cases hsmall : olen < 2
      · rw [if_pos hsmall, if_pos hsmall]
      · rw [if_neg hsmall, if_neg hsmall, Nat.add_assoc, Nat.add_assoc, Nat.add_assoc, word_after, ihOther olen hsmall]
        by_cases hmss : kind = 2 ∧ olen = 4 ∧ pos + 4 ≤ optEnd
        · rw [if_pos hmss, if_pos ⟨hmss.1, hmss.2.1, by omega⟩]
          exact bind_congr fun size => ihSize kind olen hmss size
        · rw [if_neg hmss, if_neg fun h => hmss ⟨h.1, h.2.1, by omega⟩]
  | case2 pos mss h => rw [tcpOptions, if_neg (by omega)]

/-! ## Frames with more in front -/

/-- The view of a frame with `n` more octets and `t` more tags before its third layer. -/
def FrameView.moved (view : FrameView) (n t : Nat) : FrameView :=
  { view with l2HeaderLen := view.l2HeaderLen + n, vlanTags := view.vlanTags + t }

theorem map_bind {α β γ : Type} (x : Except Fault α) (f : α → Except Fault β) (g : β → γ) :
    (x >>= f).map g = x >>= fun a => (f a).map g := by
  cases x <;> rfl

theorem map_ite {β γ : Type} {c : Prop} [Decidable c] (x y : Except Fault β) (g : β → γ) :
    (if c then x else y).map g = if c then x.map g else y.map g := by
  split <;> rfl

/-- A decoder that depends only on what follows its offset, and passes the second layer on. -/
def Relative (decode : List UInt8 → Nat → FrameView → Except Fault FrameView) : Prop :=
  ∀ before rest offset view n t, decode (before ++ rest) (before.length + offset) (view.moved n t) =
    (decode rest offset view).map fun view => view.moved n t

/-- Behind other octets a decoder gives what it gives without them. -/
theorem Relative.behind {decode : List UInt8 → Nat → FrameView → Except Fault FrameView} (h : Relative decode)
    (before rest : List UInt8) (view : FrameView) : decode (before ++ rest) before.length view = decode rest 0 view := by
  have hsame : ((decode rest 0 view).map fun view => view.moved 0 0) = decode rest 0 view := by
    cases decode rest 0 view <;> rfl
  exact (h before rest 0 view 0 0).trans hsame

theorem within_after (before rest : List UInt8) (i : Nat) :
    before.length + i ≤ (before ++ rest).length ↔ i ≤ rest.length := by
  rw [List.length_append]
  omega

theorem short_after (before rest : List UInt8) (i : Nat) :
    (before ++ rest).length < before.length + i ↔ rest.length < i := by
  rw [List.length_append]
  omega

theorem relative_tcp : Relative decodeTcp := by
  intro before rest offset view n t
  have hend (d : Nat) : min (before.length + (offset + d)) (before ++ rest).length =
      before.length + min (offset + d) rest.length := by
    rw [List.length_append]
    omega
  simp only [decodeTcp, Nat.add_assoc, word_after, octet_after, hend, tcpOptions_after, map_bind]
  rfl

theorem relative_udp : Relative decodeUdp := by
  intro before rest offset view n t
  simp only [decodeUdp, Nat.add_assoc, word_after, map_bind]
  rfl

theorem relative_icmp : Relative decodeIcmp := by
  intro before rest offset view n t
  simp only [decodeIcmp, octet_after, map_bind]
  rfl

theorem relative_l4 : Relative decodeL4 := by
  intro before rest offset view n t
  have hproto : (view.moved n t).l3Proto = view.l3Proto := rfl
  rw [decodeL4, decodeL4, hproto]
  cases view.l3Proto with
  | tcp =>
    simp only [Nat.add_assoc, within_after, map_ite, relative_tcp before rest offset view n t]
    rfl
  | udp =>
    simp only [Nat.add_assoc, within_after, map_ite, relative_udp before rest offset view n t]
    rfl
  | icmp =>
    simp only [Nat.add_assoc, within_after, map_ite, relative_icmp before rest offset view n t]
    rfl
  | icmpv6 =>
    simp only [Nat.add_assoc, within_after, map_ite, relative_icmp before rest offset view n t]
    rfl
  | arp => rfl
  | other => rfl

theorem relative_arp : Relative decodeArp := by
  intro before rest offset view n t
  simp only [decodeArp, Nat.add_assoc, within_after, slice_after, map_ite, map_bind]
  rfl

theorem relative_ipv4 : Relative decodeIpv4 := by
  intro before rest offset view n t
  simp only [decodeIpv4, Nat.add_assoc, short_after, slice_after, map_ite, map_bind]
  refine if_congr Iff.rfl rfl (bind_congr fun ip => bind_congr fun versionIhl => if_congr Iff.rfl rfl ?_)
  refine bind_congr fun totalLen => bind_congr fun flagsFrag => bind_congr fun ttl => bind_congr fun proto => ?_
  refine bind_congr fun src => bind_congr fun dst => if_congr Iff.rfl ?_ rfl
  exact relative_l4 before rest (offset + (versionIhl &&& 0x0F) * 4)
    (view.ipv4Header ((versionIhl &&& 0x0F) * 4) totalLen flagsFrag ttl proto src dst) n t

theorem relative_ipv6 : Relative decodeIpv6 := by
  intro before rest offset view n t
  simp only [decodeIpv6, Nat.add_assoc, short_after, slice_after, map_ite, map_bind]
  refine if_congr Iff.rfl rfl (bind_congr fun ip6 => bind_congr fun payloadLen => bind_congr fun nextHdr => ?_)
  refine bind_congr fun hopLimit => bind_congr fun src => bind_congr fun dst => ?_
  exact relative_l4 before rest (offset + 40) (view.ipv6Header payloadLen nextHdr hopLimit src dst) n t

theorem relative_l3 (etype : Nat) : Relative fun buf offset view => decodeL3 buf etype offset view := by
  intro before rest offset view n t
  simp only [decodeL3, map_ite, relative_arp before rest offset view n t, relative_ipv4 before rest offset view n t,
    relative_ipv6 before rest offset view n t]
  rfl

/-- The tags count on from those in front. -/
theorem decodeTagged_after (before rest : List UInt8) (etype offset : Nat) (view : FrameView) (t : Nat) :
    decodeTagged (before ++ rest) etype (before.length + offset) (view.moved before.length t) =
      (decodeTagged rest etype offset view).map fun view => view.moved before.length t := by
  fun_induction decodeTagged rest etype offset view with
  | case1 etype offset view hvlan hshort =>
    have htags : view.vlanTags + t + 1 = view.vlanTags + 1 + t := by omega
    rw [decodeTagged, if_pos hvlan, Nat.add_assoc, if_pos ((short_after before rest _).mpr hshort)]
    simp only [FrameView.moved, htags]
    rfl
  | case2 etype offset view hvlan hshort ih =>
    have htags : (view.moved before.length t).tagged (before.length + (offset + 4)) =
        (view.tagged (offset + 4)).moved before.length t := by
      have hcount : view.vlanTags + t + 1 = view.vlanTags + 1 + t := by omega
      simp only [FrameView.moved, FrameView.tagged, hcount, Nat.add_comm before.length]
    rw [decodeTagged, if_pos hvlan, Nat.add_assoc, if_neg (fun h => hshort ((short_after before rest _).mp h)), map_bind,
      Nat.add_assoc, word_after, htags]
    exact bind_congr fun etype => ih etype
  | case3 etype offset view hvlan =>
    rw [decodeTagged, if_neg hvlan]
    exact relative_l3 etype before rest offset { view with ethertype := some etype } before.length t

/-! ## Every frame -/

/-- A read that stays within the buffer, and gives something of the kind. -/
def Gives {α : Type} (x : Except Fault α) (P : α → Prop) : Prop := ∃ a, x = .ok a ∧ P a

theorem Gives.bind {α β : Type} {x : Except Fault α} {P : α → Prop} {f : α → Except Fault β} {Q : β → Prop}
    (hx : Gives x P) (hf : ∀ a, P a → Gives (f a) Q) : Gives (x >>= f) Q := by
  obtain ⟨a, rfl, ha⟩ := hx
  exact hf a ha

theorem Gives.pure {α : Type} {a : α} {P : α → Prop} (h : P a) : Gives (pure a) P := ⟨a, rfl, h⟩

theorem octet_gives {buf : List UInt8} {i : Nat} (h : i < buf.length) : Gives (octet buf i) fun _ => True :=
  ⟨_, octet_within h, trivial⟩

theorem slice_gives {buf : List UInt8} {start stop : Nat} (h : stop ≤ buf.length) (hstart : start ≤ stop) :
    Gives (slice buf start stop) fun raw => raw.length = stop - start := by
  refine ⟨_, slice_within h, ?_⟩
  change ((buf.drop start).take (stop - start)).length = stop - start
  rw [List.length_take, List.length_drop]
  omega

theorem word_gives {buf : List UInt8} {i : Nat} (h : i + 2 ≤ buf.length) : Gives (word buf i) fun _ => True :=
  ⟨_, word_within h, trivial⟩

theorem tcpOptions_gives {buf : List UInt8} {optEnd : Nat} (h : optEnd ≤ buf.length) (pos : Nat) (mss : Option Nat) :
    Gives (tcpOptions buf optEnd pos mss) fun _ => True := by
  fun_induction tcpOptions buf optEnd pos mss with
  | case1 pos mss hpos ihNop ihSize ihOther =>
    refine (octet_gives (by omega)).bind fun kind _ => ?_
    split
    · exact .pure trivial
    split
    · exact ihNop
    split
    · exact .pure trivial
    refine (octet_gives (by omega)).bind fun olen _ => ?_
    split
    · exact .pure trivial
    rename_i hsize
    split
    · rename_i hmss
      exact (word_gives (by omega)).bind fun size _ => ihSize kind olen hmss size
    · exact ihOther olen hsize
  | case2 pos mss hpos => exact .pure trivial

/-- The second layer of a view is as it was. -/
structure SameLink (view view' : FrameView) : Prop where
  l2HeaderLen : view'.l2HeaderLen = view.l2HeaderLen
  isEtherII : view'.isEtherII = view.isEtherII

theorem decodeL4_gives (buf : List UInt8) (offset : Nat) (view : FrameView) :
    Gives (decodeL4 buf offset view) (SameLink view) := by
  unfold decodeL4
  split
  · split
    · refine (word_gives (by omega)).bind fun sport _ => (word_gives (by omega)).bind fun dport _ => ?_
      refine (word_gives (by omega)).bind fun window _ => (octet_gives (by omega)).bind fun flags _ => ?_
      refine (octet_gives (by omega)).bind fun high _ => (tcpOptions_gives (Nat.min_le_right _ _) _ _).bind fun mss _ => ?_
      exact .pure ⟨rfl, rfl⟩
    · exact .pure ⟨rfl, rfl⟩
  · split
    · refine (word_gives (by omega)).bind fun sport _ => (word_gives (by omega)).bind fun dport _ => ?_
      exact (word_gives (by omega)).bind fun ulen _ => .pure ⟨rfl, rfl⟩
    · exact .pure ⟨rfl, rfl⟩
  · split
    · exact (octet_gives (by omega)).bind fun icmpType _ => .pure ⟨rfl, rfl⟩
    · exact .pure ⟨rfl, rfl⟩
  · split
    · exact (octet_gives (by omega)).bind fun icmpType _ => .pure ⟨rfl, rfl⟩
    · exact .pure ⟨rfl, rfl⟩
  · exact .pure ⟨rfl, rfl⟩
  · exact .pure ⟨rfl, rfl⟩

theorem decodeArp_gives (buf : List UInt8) (offset : Nat) (view : FrameView) :
    Gives (decodeArp buf offset view) (SameLink view) := by
  unfold decodeArp
  split
  · refine (slice_gives (by omega) (by omega)).bind fun sha _ => (slice_gives (by omega) (by omega)).bind fun spa _ => ?_
    refine (slice_gives (by omega) (by omega)).bind fun tha _ => (slice_gives (by omega) (by omega)).bind fun tpa _ => ?_
    exact .pure ⟨rfl, rfl⟩
  · exact .pure ⟨rfl, rfl⟩

theorem decodeIpv4_gives (buf : List UInt8) (offset : Nat) (view : FrameView) :
    Gives (decodeIpv4 buf offset view) (SameLink view) := by
  unfold decodeIpv4
  split
  · exact .pure ⟨rfl, rfl⟩
  refine (slice_gives (by omega) (by omega)).bind fun ip hip => (octet_gives (by omega)).bind fun versionIhl _ => ?_
  split
  · exact .pure ⟨rfl, rfl⟩
  refine (word_gives (by omega)).bind fun totalLen _ => (word_gives (by omega)).bind fun flagsFrag _ => ?_
  refine (octet_gives (by omega)).bind fun ttl _ => (octet_gives (by omega)).bind fun proto _ => ?_
  refine (slice_gives (by omega) (by omega)).bind fun src _ => (slice_gives (by omega) (by omega)).bind fun dst _ => ?_
  split
  · obtain ⟨view', hview', hlink⟩ := decodeL4_gives buf (offset + (versionIhl &&& 0x0F) * 4)
      (view.ipv4Header ((versionIhl &&& 0x0F) * 4) totalLen flagsFrag ttl proto src dst)
    exact ⟨view', hview', hlink.l2HeaderLen, hlink.isEtherII⟩
  · exact .pure ⟨rfl, rfl⟩

theorem ipv6Groups_gives {ip6 : List UInt8} {start : Nat} (h : start + 16 ≤ ip6.length) :
    Gives (ipv6Groups ip6 start) fun _ => True := by
  have hall : ∀ ks : List Nat, (∀ k ∈ ks, k < 8) → Gives (ks.mapM fun k => word ip6 (start + 2 * k)) fun _ => True := by
    intro ks hks
    induction ks with
    | nil => exact .pure trivial
    | cons k ks ih =>
      have hk := hks k (List.mem_cons_self ..)
      rw [List.mapM_cons]
      refine (word_gives (by omega)).bind fun group _ => ?_
      exact (ih fun j hj => hks j (List.mem_cons_of_mem k hj)).bind fun groups _ => .pure trivial
  exact hall _ fun k hk => List.mem_range.mp hk

theorem decodeIpv6_gives (buf : List UInt8) (offset : Nat) (view : FrameView) :
    Gives (decodeIpv6 buf offset view) (SameLink view) := by
  unfold decodeIpv6
  split
  · exact .pure ⟨rfl, rfl⟩
  refine (slice_gives (by omega) (by omega)).bind fun ip6 hip6 => (word_gives (by omega)).bind fun payloadLen _ => ?_
  refine (octet_gives (by omega)).bind fun nextHdr _ => (octet_gives (by omega)).bind fun hopLimit _ => ?_
  refine (ipv6Groups_gives (by omega)).bind fun src _ => (ipv6Groups_gives (by omega)).bind fun dst _ => ?_
  obtain ⟨view', hview', hlink⟩ := decodeL4_gives buf (offset + 40) (view.ipv6Header payloadLen nextHdr hopLimit src dst)
  exact ⟨view', hview', hlink.l2HeaderLen, hlink.isEtherII⟩

theorem decodeL3_gives (buf : List UInt8) (etype offset : Nat) (view : FrameView) :
    Gives (decodeL3 buf etype offset view) (SameLink view) := by
  unfold decodeL3
  split
  · exact decodeArp_gives ..
  split
  · exact decodeIpv4_gives ..
  split
  · exact decodeIpv6_gives ..
  · exact .pure ⟨rfl, rfl⟩

/-- The second layer that was decoded is in the buffer. -/
structure InBuffer (buf : List UInt8) (isEtherII : Bool) (view : FrameView) : Prop where
  fits : view.l2HeaderLen ≤ buf.length
  isEtherII : view.isEtherII = isEtherII

theorem decodeTagged_gives {buf : List UInt8} (etype offset : Nat) (view : FrameView) {isEtherII : Bool}
    (h : InBuffer buf isEtherII view) : Gives (decodeTagged buf etype offset view) (InBuffer buf isEtherII) := by
  fun_induction decodeTagged buf etype offset view with
  | case1 etype offset view hvlan hshort => exact .pure ⟨h.fits, h.isEtherII⟩
  | case2 etype offset view hvlan hshort ih =>
    exact (word_gives (by omega)).bind fun etype _ => ih etype ⟨Nat.not_lt.mp hshort, h.isEtherII⟩
  | case3 etype offset view hvlan =>
    obtain ⟨view', hview', hlink⟩ := decodeL3_gives buf etype offset { view with ethertype := some etype }
    exact ⟨view', hview', hlink.l2HeaderLen ▸ h.fits, hlink.isEtherII.trans h.isEtherII⟩

theorem decodeLengthField_gives {buf : List UInt8} (view : FrameView) (h : InBuffer buf false view) :
    Gives (decodeLengthField buf view) (InBuffer buf false) := by
  unfold decodeLengthField
  split
  · exact .pure h
  refine (octet_gives (by omega)).bind fun dsap _ => (octet_gives (by omega)).bind fun ssap _ => ?_
  refine (octet_gives (by omega)).bind fun control _ => ?_
  split
  · rename_i hsnap
    refine (slice_gives (by omega) (by omega)).bind fun oui _ => (word_gives (by omega)).bind fun snapEtype _ => ?_
    split
    · exact decodeTagged_gives _ _ _ ⟨hsnap.2.2.2, h.isEtherII⟩
    · exact .pure h
  · exact .pure h

theorem payloadLength_nonneg (view : NetworkFeatures.FrameView) : 0 ≤ view.payloadLength := by
  unfold NetworkFeatures.FrameView.payloadLength
  split
  · exact Int.le_refl 0
  · dsimp only
    split <;> exact Int.le_max_left _ _

/-- Every buffer is decoded without a read outside of it. -/
theorem decodeFrame_gives (buf : List UInt8) :
    Gives (decodeFrame buf) fun decoded => ∀ view, decoded = some view →
      view.l2HeaderLen ≤ buf.length ∧ 0 ≤ view.payloadLength := by
  unfold decodeFrame
  split
  · exact .pure (by simp)
  refine (slice_gives (by omega) (by omega)).bind fun dstRaw _ => (slice_gives (by omega) (by omega)).bind fun srcRaw _ => ?_
  refine (word_gives (by omega)).bind fun typeOrLen _ => ?_
  have hfits : 14 ≤ buf.length := by omega
  have hdone : ∀ isEtherII view, InBuffer buf isEtherII view → Gives (pure (some view) : Except Fault (Option FrameView))
      fun decoded => ∀ view, decoded = some view → view.l2HeaderLen ≤ buf.length ∧ 0 ≤ view.payloadLength := by
    intro isEtherII view hview
    refine .pure fun view' hview' => ?_
    rw [← Option.some.inj hview']
    exact ⟨hview.fits, payloadLength_nonneg _⟩
  split
  · exact (decodeLengthField_gives _ ⟨hfits, rfl⟩).bind fun view hview => hdone false view hview
  · exact (decodeTagged_gives typeOrLen 14 _ ⟨hfits, rfl⟩).bind fun view hview => hdone true view hview

/-! ## The first fourteen octets -/

def typeOrLen (buf : List UInt8) : Nat := value .big ((buf.drop 12).take 2)

/-- The view with the two addresses of a frame. -/
def addressed (buf : List UInt8) : FrameView :=
  FrameView.start (formatMac ((buf.drop 6).take 6)) (formatMac (buf.take 6))

theorem decodeFrame_eq {buf : List UInt8} (h : 14 ≤ buf.length) :
    decodeFrame buf = (if typeOrLen buf ≤ 1500 then decodeLengthField buf { addressed buf with isEtherII := false }
      else decodeTagged buf (typeOrLen buf) 14 (addressed buf)).map some := by
  have hdst : slice buf 0 6 = .ok (buf.take 6) := slice_within (by omega)
  have hsrc : slice buf 6 12 = .ok ((buf.drop 6).take 6) := slice_within (by omega)
  have htype : word buf 12 = .ok (typeOrLen buf) := word_within h
  have hsome : ∀ x : Except Fault FrameView, (do let view ← x; return some view) = x.map some := by
    intro x
    cases x <;> rfl
  rw [decodeFrame, if_neg (by omega), hdst, hsrc, htype, map_ite, ← hsome, ← hsome]
  rfl

end FrameDecoder
