import PerchWebrtc.Fec.Decoder

/-!
# RED packets with FEC

`ReceiverFEC` (`receiver_fec.cc`): received RED packets are split into media
and FEC packets, which wait in a list until they are decoded.
`AddReceivedFECPacket` keeps the blocks of a packet intact if and only if it
rejects the packet or the packet has one block that fits into the buffer
(`addReceivedFECPacket_depacketises_iff`): two blocks are never split right.

* `redBlocks`, `IsBlockPacket`, `Depacketised`: what is to become of a RED
  packet;
* `addOneBlock_one`, `not_depacketised_two`: one block and two.
-/

namespace PerchWebrtc.Fec

/-- What is used of the parsed RTP header. -/
structure RtpHeader where
  headerLength : BitVec 16
  sequenceNumber : BitVec 16

/-- The list of recovered packets is part of the decoder. -/
structure ReceiverFEC where
  payloadTypeFec : Int
  receivedPacketList : List ReceivedPacket
  decoder : Decoder

namespace ReceiverFEC

def init : ReceiverFEC := ⟨-1, [], Decoder.init⟩

def setPayloadTypeFEC (payloadType : BitVec 8) (s : ReceiverFEC) : ReceiverFEC :=
  { s with payloadTypeFec := payloadType.toInt }

/-- A copy to a packet's buffer, of a number of bytes that is not negative, has
to stay in the buffer. -/
def memcpy (data : Mem) (d : Nat) (src : Mem) (s : Nat) (n : Int) : Option Mem :=
  if 0 ≤ n ∧ d + n ≤ IP_PACKET_SIZE then some (data.copy d src s n.toNat) else none

/-- The 10 bits of the block length. -/
def redBlockLength (incoming : Mem) (h : Nat) : BitVec 16 :=
  (incoming (h + 2) &&& 0x03) ++ incoming (h + 3)

/-- The header of a packet with more than one block is rejected. -/
def redRejected (incoming : Mem) (h : Nat) (payloadDataLength : BitVec 16) : Bool :=
  be16 incoming (h + 1) >>> 2 ≠ 0 || incoming (h + 4) &&& 0x80 ≠ 0 ||
    decide (((redBlockLength incoming h).toNat : Int) > payloadDataLength.toNat - 4)

/-- The RTP header with the payload type replaced, and behind it `n` bytes of
the packet from `s`. -/
def mediaData (incoming : Mem) (h : Nat) (payloadType : Byte) (s : Nat) (n : Int) : Option Mem :=
  (memcpy (fun _ => 0) 0 incoming 0 h).bind fun data =>
    memcpy (data.set 1 ((data 1 &&& 0x80) + payloadType)) h incoming s n

/-- A packet without length is dropped, and the second one with it. -/
def queue (first : ReceivedPacket) (second : List ReceivedPacket) (s : ReceiverFEC) : ReceiverFEC :=
  if first.pkt.length = 0 then s
  else { s with receivedPacketList := s.receivedPacketList ++ first :: second }

/-- A packet with one block: everything behind a RED header of
`redHeaderLength` bytes. -/
def addOneBlock (received : ReceivedPacket) (h redHeaderLength : Nat) (incoming : Mem)
    (payloadDataLength : BitVec 16) (s : ReceiverFEC) : Option ReceiverFEC :=
  let n : Int := payloadDataLength.toNat - redHeaderLength
  if received.isFec then
    (memcpy (fun _ => 0) 0 incoming (h + redHeaderLength) n).map fun data =>
      s.queue { received with ssrc := be32 incoming 8, pkt := ⟨BitVec.ofInt 16 n, data⟩ } []
  else
    (mediaData incoming h (incoming h &&& 0x7f) (h + redHeaderLength) n).map fun data =>
      s.queue { received with pkt := ⟨BitVec.ofInt 16 (h + n), data⟩ } []

/-- A packet with two blocks. The SSRC of the second packet is not set. -/
def addTwoBlocks (uninit : BitVec 32) (received : ReceivedPacket) (h : Nat) (incoming : Mem)
    (blockLength payloadDataLength : BitVec 16) (s : ReceiverFEC) : Option ReceiverFEC :=
  let n : Int := payloadDataLength.toNat - 5 - blockLength.toNat
  (mediaData incoming h (incoming h &&& 0x7f) (h + 5) blockLength.toNat).bind fun data =>
    (memcpy (fun _ => 0) 0 incoming (h + 5 + blockLength.toNat) n).map fun fecData =>
      s.queue { received with pkt := ⟨blockLength, data⟩ }
        [{ seqNum := received.seqNum, ssrc := uninit, isFec := true
           pkt := ⟨BitVec.ofInt 16 n, fecData⟩ }]

/-- The value that is returned and `FECpacket`, with the state after the call.
The SSRC of a new packet is `uninit` until it is set. Builds without assertions
return an error where the source asserts. -/
def addReceivedFECPacket (uninit : BitVec 32) (rtpHeader : RtpHeader) (incoming : Mem)
    (payloadDataLength : BitVec 16) (fecPacket : Bool) (s : ReceiverFEC) :
    Option (Int × Bool × ReceiverFEC) :=
  let h := rtpHeader.headerLength.toNat
  if s.payloadTypeFec = -1 then some (-1, fecPacket, s)
  else
    let isFec : Bool := s.payloadTypeFec = (incoming h &&& 0x7f).toNat
    let received : ReceivedPacket := ⟨rtpHeader.sequenceNumber, uninit, isFec, ⟨0, fun _ => 0⟩⟩
    if incoming h &&& 0x80 ≠ 0 then
      let blockLength := redBlockLength incoming h
      if redRejected incoming h payloadDataLength then some (-1, isFec, s)
      else if 0 < blockLength.toNat then
        (s.addTwoBlocks uninit received h incoming blockLength payloadDataLength).map (0, isFec, ·)
      else (s.addOneBlock received h 4 incoming payloadDataLength).map (0, isFec, ·)
    else (s.addOneBlock received h 1 incoming payloadDataLength).map (0, isFec, ·)

/-! ## What is to become of a RED packet -/

/-- A block: its payload type, where it starts and how long it is. -/
structure RedBlock where
  payloadType : Byte
  start : Nat
  length : Nat

/-- The blocks of a RED payload of `len` bytes from `h` on: one behind a header
of one byte, or two behind a header of four bytes and one of one byte. -/
def redBlocks (incoming : Mem) (h len : Nat) : Option (List RedBlock) :=
  if incoming h &&& 0x80 = 0 then
    if 1 ≤ len then some [⟨incoming h &&& 0x7f, h + 1, len - 1⟩] else none
  else
    let blockLength := (redBlockLength incoming h).toNat
    if incoming (h + 4) &&& 0x80 = 0 ∧ 5 + blockLength ≤ len then
      some
        [⟨incoming h &&& 0x7f, h + 5, blockLength⟩,
          ⟨incoming (h + 4) &&& 0x7f, h + 5 + blockLength, len - 5 - blockLength⟩]
    else none

/-- The packet of an FEC block has the bytes of the block and the SSRC, that of
a media block the RTP header with the block's payload type before them. -/
def IsBlockPacket (payloadTypeFec : Int) (rtpHeader : RtpHeader) (incoming : Mem) (b : RedBlock)
    (rx : ReceivedPacket) : Prop :=
  let h := rtpHeader.headerLength.toNat
  rx.seqNum = rtpHeader.sequenceNumber ∧ rx.pkt.length.toNat ≤ IP_PACKET_SIZE ∧
    if payloadTypeFec = b.payloadType.toNat then
      rx.isFec = true ∧ rx.ssrc = be32 incoming 8 ∧ rx.pkt.length.toNat = b.length ∧
        ∀ i < b.length, rx.pkt.data i = incoming (b.start + i)
    else
      rx.isFec = false ∧ rx.pkt.length.toNat = h + b.length ∧
        (∀ i < h, i ≠ 1 → rx.pkt.data i = incoming i) ∧
        rx.pkt.data 1 &&& 0x80 = incoming 1 &&& 0x80 ∧ rx.pkt.data 1 &&& 0x7f = b.payloadType ∧
        ∀ i < b.length, rx.pkt.data (h + i) = incoming (b.start + i)

/-- An FEC block without bytes becomes no packet. -/
def isQueued (payloadTypeFec : Int) (b : RedBlock) : Bool :=
  !(decide (payloadTypeFec = b.payloadType.toNat) && b.length == 0)

theorem isQueued_iff {payloadTypeFec : Int} {b : RedBlock} :
    isQueued payloadTypeFec b = true ↔ (payloadTypeFec = b.payloadType.toNat → b.length ≠ 0) := by
  rw [isQueued, Bool.not_eq_true', Bool.and_eq_false_imp, decide_eq_true_iff]
  exact imp_congr_right fun _ => beq_eq_false_iff_ne

/-- The call returns an error and queues nothing, or queues a packet for each
block. -/
def Depacketised (rtpHeader : RtpHeader) (incoming : Mem) (payloadDataLength : BitVec 16)
    (s : ReceiverFEC) (result : Option (Int × Bool × ReceiverFEC)) : Prop :=
  ∃ ret fecPacket s', result = some (ret, fecPacket, s') ∧
    ((ret = -1 ∧ s'.receivedPacketList = s.receivedPacketList) ∨
      (ret = 0 ∧ ∃ blocks queued,
        redBlocks incoming rtpHeader.headerLength.toNat payloadDataLength.toNat = some blocks ∧
        s'.receivedPacketList = s.receivedPacketList ++ queued ∧
        List.Forall₂ (IsBlockPacket s.payloadTypeFec rtpHeader incoming)
          (blocks.filter (isQueued s.payloadTypeFec)) queued))

/-! ## Copies -/

section Copies

variable (data src : Mem) (d s : Nat)

theorem memcpy_of_fits {n : Nat} (h : d + n ≤ IP_PACKET_SIZE) :
    memcpy data d src s n = some (data.copy d src s n) := by
  rw [memcpy, if_pos ⟨by omega, by omega⟩, Int.toNat_natCast]

theorem memcpy_eq_none {n : Int} (h : n < 0 ∨ IP_PACKET_SIZE < d + n) :
    memcpy data d src s n = none := if_neg (by omega)

variable {data src d s}

theorem fits_of_memcpy {n : Int} {m : Mem} (h : memcpy data d src s n = some m) :
    0 ≤ n ∧ d + n ≤ IP_PACKET_SIZE := by
  by_contra hnot
  rw [memcpy_eq_none data src d s (by omega)] at h
  cases h

end Copies

/-- The length of a packet that fits is not truncated. -/
theorem toNat_length {n : Int} (h : 0 ≤ n) (h' : n ≤ IP_PACKET_SIZE) :
    ((BitVec.ofInt 16 n).toNat : Int) = n := by
  unfold IP_PACKET_SIZE at h'
  rw [BitVec.toNat_ofInt]
  omega

theorem ne_zero_of_toNat {x : BitVec 16} {n : Int} (h : (x.toNat : Int) = n) (hn : n ≠ 0) :
    x ≠ 0 := by
  rintro rfl
  exact hn h.symm

/-- The marker bit is kept. -/
theorem replace_payloadType (x y : Byte) :
    ((x &&& 0x80) + (y &&& 0x7f)) &&& 0x80 = x &&& 0x80 ∧
      ((x &&& 0x80) + (y &&& 0x7f)) &&& 0x7f = y &&& 0x7f := by
  have hx : x &&& 0x80 = 0 ∨ x &&& 0x80 = 0x80 := by
    revert x
    decide
  rcases hx with hx | hx <;> rw [hx] <;> revert y <;> decide

section Blocks

variable {incoming : Mem} {h start : Nat}

theorem mediaData_eq_none {payloadType : Byte} {n : Int}
    (hn : n < 0 ∨ IP_PACKET_SIZE < h + n) : mediaData incoming h payloadType start n = none := by
  unfold mediaData
  cases memcpy (fun _ => 0) 0 incoming 0 h with
  | none => rfl
  | some data => exact memcpy_eq_none _ _ _ _ hn

theorem fits_of_mediaData {payloadType : Byte} {n : Int} {m : Mem}
    (hdata : mediaData incoming h payloadType start n = some m) :
    0 ≤ n ∧ h + n ≤ IP_PACKET_SIZE := by
  obtain ⟨_, -, hcopy⟩ := Option.bind_eq_some_iff.mp hdata
  exact fits_of_memcpy hcopy

/-- The header and the bytes of a media block. -/
theorem mediaData_spec (hheader : kRtpHeaderSize ≤ h) {n : Nat} (hn : h + n ≤ IP_PACKET_SIZE) :
    ∃ data, mediaData incoming h (incoming h &&& 0x7f) start n = some data ∧
      (∀ i < h, i ≠ 1 → data i = incoming i) ∧
      data 1 &&& 0x80 = incoming 1 &&& 0x80 ∧ data 1 &&& 0x7f = incoming h &&& 0x7f ∧
      ∀ i < n, data (h + i) = incoming (start + i) := by
  unfold kRtpHeaderSize at hheader
  have heq : mediaData incoming h (incoming h &&& 0x7f) start n =
      some ((Mem.set (Mem.copy (fun _ => 0) 0 incoming 0 h) 1
        ((incoming 1 &&& 0x80) + (incoming h &&& 0x7f))).copy h incoming start n) := by
    rw [mediaData, memcpy_of_fits _ _ _ _ (by omega), Option.bind_some, memcpy_of_fits _ _ _ _ hn,
      Mem.copy_inside _ _ (show 0 ≤ 1 by omega) (by omega)]
  refine ⟨_, heq, fun i hi hi1 => ?_, ?_, ?_, fun i hi => ?_⟩
  · rw [Mem.copy_outside _ _ (by omega), Mem.set_of_ne _ _ hi1,
      Mem.copy_inside _ _ (by omega) (by omega), Nat.sub_zero, Nat.zero_add]
  · rw [Mem.copy_outside _ _ (by omega), Mem.set_self]
    exact (replace_payloadType _ _).1
  · rw [Mem.copy_outside _ _ (by omega), Mem.set_self]
    exact (replace_payloadType _ _).2
  · rw [Mem.copy_inside _ _ (by omega) (by omega), Nat.add_sub_cancel_left]

end Blocks

/-! ## One block -/

/-- A single block of at least no bytes, with which the packet fits into the
buffer. -/
def OneBlockFits (rtpHeader : RtpHeader) (incoming : Mem) (payloadDataLength : BitVec 16)
    (s : ReceiverFEC) : Prop :=
  let h := rtpHeader.headerLength.toNat
  1 ≤ payloadDataLength.toNat ∧
    if s.payloadTypeFec = (incoming h &&& 0x7f).toNat then
      payloadDataLength.toNat - 1 ≤ IP_PACKET_SIZE
    else h + (payloadDataLength.toNat - 1) ≤ IP_PACKET_SIZE

instance (rtpHeader : RtpHeader) (incoming : Mem) (payloadDataLength : BitVec 16)
    (s : ReceiverFEC) : Decidable (OneBlockFits rtpHeader incoming payloadDataLength s) :=
  inferInstanceAs (Decidable (_ ∧ ite _ _ _))

section Spec

variable {uninit : BitVec 32} {rtpHeader : RtpHeader} {incoming : Mem}
  {payloadDataLength : BitVec 16} {fecPacket : Bool} {s : ReceiverFEC} {received : ReceivedPacket}

theorem queue_receivedPacketList (first : ReceivedPacket) (second : List ReceivedPacket) :
    (s.queue first second).receivedPacketList =
      s.receivedPacketList ++ if first.pkt.length = 0 then [] else first :: second := by
  unfold queue
  split
  · exact (List.append_nil _).symm
  · rfl

/-- The only block becomes a packet. -/
theorem addOneBlock_one (hheader : kRtpHeaderSize ≤ rtpHeader.headerLength.toNat)
    (hfits : OneBlockFits rtpHeader incoming payloadDataLength s) {received : ReceivedPacket}
    (hseq : received.seqNum = rtpHeader.sequenceNumber)
    (hfec : received.isFec =
      decide (s.payloadTypeFec = (incoming rtpHeader.headerLength.toNat &&& 0x7f).toNat)) :
    ∃ s' queued,
      s.addOneBlock received rtpHeader.headerLength.toNat 1 incoming payloadDataLength = some s' ∧
      s'.receivedPacketList = s.receivedPacketList ++ queued ∧
      List.Forall₂ (IsBlockPacket s.payloadTypeFec rtpHeader incoming)
        ([⟨incoming rtpHeader.headerLength.toNat &&& 0x7f, rtpHeader.headerLength.toNat + 1,
          payloadDataLength.toNat - 1⟩].filter (isQueued s.payloadTypeFec)) queued := by
  obtain ⟨hpos, hfits⟩ := hfits
  have hlen := payloadDataLength.isLt
  unfold kRtpHeaderSize at hheader
  have hn : (payloadDataLength.toNat : Int) - (1 : Nat) = ((payloadDataLength.toNat - 1 : Nat) : Int) := by
    omega
  unfold addOneBlock
  simp only [hn]
  generalize hn' : payloadDataLength.toNat - 1 = n at hfits
  have hofNat : ∀ m : Nat, m ≤ IP_PACKET_SIZE → (BitVec.ofInt 16 (m : Int)).toNat = m := by
    intro m hm
    unfold IP_PACKET_SIZE at hm
    rw [BitVec.ofInt_natCast, BitVec.toNat_ofNat]
    omega
  by_cases hpt : s.payloadTypeFec = (incoming rtpHeader.headerLength.toNat &&& 0x7f).toNat
  · rw [if_pos hpt] at hfits
    rw [if_pos (by rw [hfec, decide_eq_true hpt]), memcpy_of_fits _ _ _ _ (by omega)]
    refine ⟨_, _, rfl, queue_receivedPacketList _ _, ?_⟩
    have hzero : BitVec.ofInt 16 (n : Int) = 0 ↔ n = 0 := by
      rw [← BitVec.toNat_inj, hofNat n hfits]
      rfl
    simp only [hzero]
    by_cases hn0 : n = 0
    · rw [if_pos hn0, List.filter_cons_of_neg fun hq => isQueued_iff.mp hq hpt hn0]
      exact .nil
    · rw [if_neg hn0, List.filter_cons_of_pos (isQueued_iff.mpr fun _ => hn0)]
      refine .cons ⟨hseq, by rw [hofNat n hfits]; exact hfits, ?_⟩ .nil
      rw [if_pos hpt]
      refine ⟨by rw [hfec, decide_eq_true hpt], rfl, hofNat n hfits, fun i hi => ?_⟩
      replace hi : i < n := hi
      have hcopy : Mem.copy (fun _ => 0) 0 incoming (rtpHeader.headerLength.toNat + 1) n i =
          incoming (rtpHeader.headerLength.toNat + 1 + i) := by
        rw [Mem.copy_inside _ _ (by omega) (by omega), Nat.sub_zero]
      exact hcopy
  · rw [if_neg hpt] at hfits
    obtain ⟨data, hdata, hhdr, hmarker, htype, hpayload⟩ :=
      @mediaData_spec incoming _ (rtpHeader.headerLength.toNat + 1) hheader n hfits
    have hcast : ((rtpHeader.headerLength.toNat : Int) + (n : Int)) =
        ((rtpHeader.headerLength.toNat + n : Nat) : Int) := by omega
    have hne : ¬ BitVec.ofInt 16 ((rtpHeader.headerLength.toNat + n : Nat) : Int) = 0 := by
      intro hzero
      have htoNat := hofNat _ hfits
      rw [hzero] at htoNat
      have hzero' : (0 : BitVec 16).toNat = 0 := rfl
      omega
    rw [if_neg (by rw [hfec, decide_eq_false hpt]; exact Bool.false_ne_true), hdata]
    refine ⟨_, _, rfl, queue_receivedPacketList _ _, ?_⟩
    rw [hcast, if_neg hne, List.filter_cons_of_pos (isQueued_iff.mpr fun e => absurd e hpt)]
    refine .cons ⟨hseq, by rw [hofNat _ hfits]; exact hfits, ?_⟩ .nil
    rw [if_neg hpt]
    exact ⟨by rw [hfec, decide_eq_false hpt], hofNat _ hfits, hhdr, hmarker, htype, hpayload⟩

/-- Without a byte, or beyond the buffer, the copies are undefined. -/
theorem addOneBlock_eq_none (hfits : ¬ OneBlockFits rtpHeader incoming payloadDataLength s)
    (hfec : received.isFec =
      decide (s.payloadTypeFec = (incoming rtpHeader.headerLength.toNat &&& 0x7f).toNat)) :
    s.addOneBlock received rtpHeader.headerLength.toNat 1 incoming payloadDataLength = none := by
  unfold OneBlockFits at hfits
  unfold addOneBlock
  by_cases hpt : s.payloadTypeFec = (incoming rtpHeader.headerLength.toNat &&& 0x7f).toNat
  · simp only [if_pos hpt] at hfits
    rw [if_pos (by rw [hfec, decide_eq_true hpt]), memcpy_eq_none _ _ _ _ (by omega)]
    rfl
  · simp only [if_neg hpt] at hfits
    rw [if_neg (by rw [hfec, decide_eq_false hpt]; exact Bool.false_ne_true),
      mediaData_eq_none (by omega)]
    rfl

/-! ## Two blocks -/

/-- The second packet does not carry the SSRC. -/
theorem not_isBlockPacket_uninit {b : RedBlock} {rx : ReceivedPacket} (hfec : rx.isFec = true)
    (hssrc : rx.ssrc ≠ be32 incoming 8) :
    ¬ IsBlockPacket s.payloadTypeFec rtpHeader incoming b rx := by
  rintro ⟨-, -, hkind⟩
  split at hkind
  · exact hssrc hkind.2.1
  · rw [hfec] at hkind
    cases hkind.1

theorem addTwoBlocks_queued {h : Nat} {blockLength : BitVec 16} (hpos : 0 < blockLength.toNat)
    {s' : ReceiverFEC}
    (hadd : s.addTwoBlocks uninit received h incoming blockLength payloadDataLength = some s') :
    ∃ first second, s'.receivedPacketList = s.receivedPacketList ++ [first, second] ∧
      second.isFec = true ∧ second.ssrc = uninit := by
  unfold addTwoBlocks at hadd
  obtain ⟨data, -, hadd⟩ := Option.bind_eq_some_iff.mp hadd
  obtain ⟨fecData, -, rfl⟩ := Option.map_eq_some_iff.mp hadd
  have hne : blockLength ≠ 0 := fun hzero => by
    rw [hzero] at hpos
    exact absurd hpos (by decide)
  have hlist := @queue_receivedPacketList s { received with pkt := ⟨blockLength, data⟩ }
    [⟨received.seqNum, uninit, true,
      BitVec.ofInt 16 (payloadDataLength.toNat - 5 - blockLength.toNat), fecData⟩]
  rw [if_neg hne] at hlist
  exact ⟨_, _, hlist, rfl, rfl⟩

/-- With an empty first block, the header of the second block is taken for the
first byte of the packet, or the packet ends before it. -/
theorem addOneBlock_four (hheader : kRtpHeaderSize ≤ rtpHeader.headerLength.toNat)
    (hfec : received.isFec =
      decide (s.payloadTypeFec = (incoming rtpHeader.headerLength.toNat &&& 0x7f).toNat))
    (htwo : incoming rtpHeader.headerLength.toNat &&& 0x80 ≠ 0)
    (hempty : (redBlockLength incoming rtpHeader.headerLength.toNat).toNat = 0) {s' : ReceiverFEC}
    {blocks : List RedBlock} {queued : List ReceivedPacket}
    (hadd : s.addOneBlock received rtpHeader.headerLength.toNat 4 incoming payloadDataLength = some s')
    (hblocks : redBlocks incoming rtpHeader.headerLength.toNat payloadDataLength.toNat = some blocks)
    (hqueued : s'.receivedPacketList = s.receivedPacketList ++ queued) :
    ¬ List.Forall₂ (IsBlockPacket s.payloadTypeFec rtpHeader incoming)
      (blocks.filter (isQueued s.payloadTypeFec)) queued := by
  intro hall
  have hlen := payloadDataLength.isLt
  rw [redBlocks, if_neg htwo] at hblocks
  simp only [hempty] at hblocks
  split at hblocks
  swap
  · cases hblocks
  rename_i hfive
  obtain rfl := Option.some.inj hblocks
  unfold addOneBlock at hadd
  by_cases hpt : s.payloadTypeFec = (incoming rtpHeader.headerLength.toNat &&& 0x7f).toNat
  · -- One FEC packet, with a byte too many.
    rw [if_pos (by rw [hfec, decide_eq_true hpt])] at hadd
    obtain ⟨data, hcopy, rfl⟩ := Option.map_eq_some_iff.mp hadd
    obtain ⟨hpos, hle⟩ := fits_of_memcpy hcopy
    have hn := toNat_length hpos (by omega)
    rw [queue_receivedPacketList, if_neg (ne_zero_of_toNat hn (by omega))] at hqueued
    obtain rfl := List.append_cancel_left hqueued
    rw [List.filter_cons_of_neg fun hq => isQueued_iff.mp hq hpt rfl] at hall
    obtain ⟨b, _, ⟨-, -, hkind⟩, -, hb⟩ := List.forall₂_cons_right_iff.mp hall
    obtain rfl : b = _ := List.mem_singleton.mp
      (List.mem_of_mem_filter (hb ▸ List.mem_cons_self))
    split at hkind
    · have hlength : (BitVec.ofInt 16 ((payloadDataLength.toNat : Int) - (4 : Nat))).toNat =
          payloadDataLength.toNat - 5 - 0 := hkind.2.2.1
      omega
    · rw [hfec, decide_eq_true hpt] at hkind
      cases hkind.1
  · -- One media packet, of which the empty block is only the header.
    rw [if_neg (by rw [hfec, decide_eq_false hpt]; exact Bool.false_ne_true)] at hadd
    obtain ⟨data, hcopy, rfl⟩ := Option.map_eq_some_iff.mp hadd
    obtain ⟨hpos, hle⟩ := fits_of_mediaData hcopy
    have hn := toNat_length (show 0 ≤ (rtpHeader.headerLength.toNat : Int) + _ by omega) hle
    rw [queue_receivedPacketList, if_neg (ne_zero_of_toNat hn (by omega))] at hqueued
    obtain rfl := List.append_cancel_left hqueued
    rw [List.filter_cons_of_pos (isQueued_iff.mpr fun e => absurd e hpt)] at hall
    obtain ⟨⟨-, -, hkind⟩, -⟩ := List.forall₂_cons.mp hall
    rw [if_neg hpt] at hkind
    have hlength : (BitVec.ofInt 16 (rtpHeader.headerLength.toNat +
        ((payloadDataLength.toNat : Int) - (4 : Nat)))).toNat = rtpHeader.headerLength.toNat + 0 :=
      hkind.2.1
    omega

/-- Two blocks that are not rejected do not become their packets. -/
theorem not_depacketised_two (hheader : kRtpHeaderSize ≤ rtpHeader.headerLength.toNat)
    (hset : s.payloadTypeFec ≠ -1)
    (htwo : incoming rtpHeader.headerLength.toNat &&& 0x80 ≠ 0)
    (hrejected : redRejected incoming rtpHeader.headerLength.toNat payloadDataLength = false)
    (huninit : uninit ≠ be32 incoming 8) :
    ¬ Depacketised rtpHeader incoming payloadDataLength s
      (addReceivedFECPacket uninit rtpHeader incoming payloadDataLength fecPacket s) := by
  rintro ⟨ret, fec, s', hresult, hdone⟩
  rw [addReceivedFECPacket, if_neg hset] at hresult
  simp only [if_pos htwo, hrejected, Bool.false_eq_true, if_false] at hresult
  have hzero : ret = 0 := by
    split at hresult <;> obtain ⟨_, -, heq⟩ := Option.map_eq_some_iff.mp hresult
    all_goals exact (congrArg Prod.fst heq).symm
  obtain ⟨hret, -⟩ | ⟨-, blocks, queued, hblocks, hqueued, hall⟩ := hdone
  · omega
  split at hresult
  · rename_i hpos
    obtain ⟨s'', hadd, heq⟩ := Option.map_eq_some_iff.mp hresult
    obtain rfl : s'' = s' := congrArg (·.2.2) heq
    obtain ⟨first, second, hlist, hsecond, hssrc⟩ := addTwoBlocks_queued hpos hadd
    obtain rfl := List.append_cancel_left (hlist.symm.trans hqueued)
    obtain ⟨_, _, -, hrest, -⟩ := List.forall₂_cons_right_iff.mp hall
    obtain ⟨b, _, hb, -⟩ := List.forall₂_cons_right_iff.mp hrest
    exact not_isBlockPacket_uninit hsecond (hssrc ▸ huninit) hb
  · rename_i hpos
    obtain ⟨s'', hadd, heq⟩ := Option.map_eq_some_iff.mp hresult
    obtain rfl : s'' = s' := congrArg (·.2.2) heq
    exact addOneBlock_four hheader rfl htwo (by omega) hadd hblocks hqueued hall

/-- The call keeps the blocks of a packet if no FEC payload type is set, if the
packet is rejected, or if it has one block that fits, and in no other case. -/
theorem addReceivedFECPacket_depacketises_iff
    (hheader : kRtpHeaderSize ≤ rtpHeader.headerLength.toNat) :
    (∀ uninit, Depacketised rtpHeader incoming payloadDataLength s
        (addReceivedFECPacket uninit rtpHeader incoming payloadDataLength fecPacket s)) ↔
      s.payloadTypeFec = -1 ∨
        (incoming rtpHeader.headerLength.toNat &&& 0x80 ≠ 0 ∧
          redRejected incoming rtpHeader.headerLength.toNat payloadDataLength = true) ∨
        (incoming rtpHeader.headerLength.toNat &&& 0x80 = 0 ∧
          OneBlockFits rtpHeader incoming payloadDataLength s) := by
  let isFec := decide (s.payloadTypeFec = (incoming rtpHeader.headerLength.toNat &&& 0x7f).toNat)
  by_cases hset : s.payloadTypeFec = -1
  · refine ⟨fun _ => .inl hset, fun _ uninit => ⟨-1, fecPacket, s, ?_, .inl ⟨rfl, rfl⟩⟩⟩
    rw [addReceivedFECPacket, if_pos hset]
  by_cases htwo : incoming rtpHeader.headerLength.toNat &&& 0x80 = 0
  · have hcall : ∀ uninit,
        addReceivedFECPacket uninit rtpHeader incoming payloadDataLength fecPacket s =
          (s.addOneBlock ⟨rtpHeader.sequenceNumber, uninit, isFec, ⟨0, fun _ => 0⟩⟩
            rtpHeader.headerLength.toNat 1 incoming payloadDataLength).map (0, isFec, ·) := by
      intro uninit
      rw [addReceivedFECPacket, if_neg hset]
      exact if_neg fun hne => hne htwo
    by_cases hfits : OneBlockFits rtpHeader incoming payloadDataLength s
    · refine ⟨fun _ => .inr (.inr ⟨htwo, hfits⟩), fun _ uninit => ?_⟩
      obtain ⟨s', queued, hadd, hlist, hall⟩ := @addOneBlock_one _ _ _ _ hheader hfits
        ⟨rtpHeader.sequenceNumber, uninit, isFec, ⟨0, fun _ => 0⟩⟩ rfl rfl
      rw [hcall uninit, hadd]
      refine ⟨0, _, s', rfl, .inr ⟨rfl, _, queued, ?_, hlist, hall⟩⟩
      rw [redBlocks, if_pos htwo, if_pos hfits.1]
    · refine ⟨fun hall => ?_, fun hcond => ?_⟩
      · obtain ⟨_, _, _, hresult, -⟩ := hall 0
        rw [hcall 0, addOneBlock_eq_none hfits rfl] at hresult
        cases hresult
      · rcases hcond with h | h | h
        · exact absurd h hset
        · exact absurd htwo h.1
        · exact absurd h.2 hfits
  · cases hrejected : redRejected incoming rtpHeader.headerLength.toNat payloadDataLength with
    | true =>
      refine ⟨fun _ => .inr (.inl ⟨htwo, rfl⟩), fun _ uninit => ⟨-1, isFec, s, ?_, .inl ⟨rfl, rfl⟩⟩⟩
      rw [addReceivedFECPacket, if_neg hset]
      simp only [if_pos htwo, hrejected, if_true]
      rfl
    | false =>
      refine ⟨fun hall => ?_, fun hcond => ?_⟩
      · have huninit : be32 incoming 8 + 1 ≠ be32 incoming 8 := by grind
        exact absurd (hall _) (not_depacketised_two hheader hset htwo hrejected huninit)
      · rcases hcond with h | h | h
        · exact absurd h hset
        · exact absurd h.2 Bool.false_ne_true
        · exact absurd h.1 htwo

end Spec

/-- An RTP header of 12 bytes with the SSRC 1, and a RED payload behind it. -/
def redPacket (payload : List Byte) : Mem :=
  Mem.ofList ([0x80, 0xe0, 0, 7, 0, 0, 0, 0, 0, 0, 0, 1] ++ payload)

/-- A media block of two bytes with payload type 96. -/
theorem addReceivedFECPacket_single :
    Depacketised ⟨12, 7⟩ (redPacket [0x60, 1, 2]) 3 ⟨97, [], Decoder.init⟩
      (addReceivedFECPacket 1 ⟨12, 7⟩ (redPacket [0x60, 1, 2]) 3 false
        ⟨97, [], Decoder.init⟩) :=
  (addReceivedFECPacket_depacketises_iff (show kRtpHeaderSize ≤ (12 : BitVec 8).toNat by decide)).mpr
    (.inr (.inr (by decide))) 1

/-- A media block and an FEC block of one byte each: the media packet has the
length 1. -/
theorem addReceivedFECPacket_not_depacketises :
    ¬ ∀ (uninit : BitVec 32) (rtpHeader : RtpHeader) (incoming : Mem) (payloadDataLength : BitVec 16)
      (fecPacket : Bool) (s : ReceiverFEC), kRtpHeaderSize ≤ rtpHeader.headerLength.toNat →
      rtpHeader.headerLength.toNat + payloadDataLength.toNat ≤ IP_PACKET_SIZE →
      redBlocks incoming rtpHeader.headerLength.toNat payloadDataLength.toNat ≠ none →
      Depacketised rtpHeader incoming payloadDataLength s
        (addReceivedFECPacket uninit rtpHeader incoming payloadDataLength fecPacket s) := by
  intro h
  obtain ⟨ret, fecPacket, s', hresult, hdone⟩ := h 1 ⟨12, 7⟩
    (redPacket [0xe0, 0, 0, 1, 0x61, 1, 2]) 7 false ⟨97, [], Decoder.init⟩ (by decide) (by decide)
    (fun hnone => absurd (congrArg Option.isSome hnone) (by decide +kernel))
  have hlengths : (addReceivedFECPacket 1 ⟨12, 7⟩ (redPacket [0xe0, 0, 0, 1, 0x61, 1, 2]) 7 false
      ⟨97, [], Decoder.init⟩).map (fun r => (r.1, r.2.2.receivedPacketList.map (·.pkt.length))) =
      some (0, [1, 1]) := by decide +kernel
  rw [hresult, Option.map_some] at hlengths
  obtain ⟨hret, hlist⟩ := Prod.mk.inj (Option.some.inj hlengths)
  obtain ⟨hret', -⟩ | ⟨-, blocks, queued, hblocks, hqueued, hall⟩ := hdone
  · omega
  have hfirst : blocks.head?.map (fun b => (b.payloadType, b.length)) = some (0x60, 1) := by
    obtain rfl := Option.some.inj hblocks
    decide +kernel
  cases blocks with
  | nil => cases hfirst
  | cons b blocks =>
    obtain ⟨htype, hlength⟩ := Prod.mk.inj (Option.some.inj hfirst)
    have hmedia : ¬ (97 : Int) = b.payloadType.toNat := by
      rw [htype]
      decide
    rw [List.filter_cons_of_pos (isQueued_iff.mpr fun e => absurd e hmedia)] at hall
    obtain ⟨rx, _, ⟨-, -, hkind⟩, -, rfl⟩ := List.forall₂_cons_left_iff.mp hall
    rw [if_neg hmedia, hlength] at hkind
    rw [hqueued] at hlist
    have hrx : rx.pkt.length = 1 := (List.cons.inj hlist).1
    rw [hrx] at hkind
    exact absurd hkind.2.1 (by decide)

end ReceiverFEC

end PerchWebrtc.Fec
