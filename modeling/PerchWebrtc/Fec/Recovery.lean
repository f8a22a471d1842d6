import PerchWebrtc.Fec.Decoder
import PerchWebrtc.Framework.Xor

/-!
# What is recovered

`RecoverPacket` XORs the FEC packet with the media packets it is linked to.

* `recoverFrom_eq`: the loop over the protected packets, as one XOR;
* `recoverPacket_eq`: the packet that comes out, byte by byte.
-/

namespace PerchWebrtc.Fec

namespace Packet

/-- Byte `i` of what a media packet gives to the XOR of a packet: it has the
bytes of the RTP header that are protected, and the payload. -/
def xorByte (p : Packet) (i : Nat) : Byte :=
  if i < 2 ∨ (4 ≤ i ∧ i < 8) ∨ (12 ≤ i ∧ i < p.length.toNat) then p.data i else 0#8

/-- The length that is recovered with the packet. -/
def payloadLength (p : Packet) : BitVec 16 := p.length - 12

end Packet

namespace Decoder

open Packet

/-- The media packets that are linked. -/
def linked (l : List ProtectedPacket) : List Packet := l.filterMap (·.pkt)

/-- The protected packets that are not linked. -/
def missing (l : List ProtectedPacket) : List ProtectedPacket := l.filter (·.pkt.isNone)

@[simp]
theorem linked_cons_none (n : BitVec 16) (l : List ProtectedPacket) :
    linked (⟨n, none⟩ :: l) = linked l := rfl

@[simp]
theorem linked_cons_some (n : BitVec 16) (src : Packet) (l : List ProtectedPacket) :
    linked (⟨n, some src⟩ :: l) = src :: linked l := rfl

@[simp]
theorem missing_cons_none (n : BitVec 16) (l : List ProtectedPacket) :
    missing (⟨n, none⟩ :: l) = ⟨n, none⟩ :: missing l := rfl

@[simp]
theorem missing_cons_some (n : BitVec 16) (src : Packet) (l : List ProtectedPacket) :
    missing (⟨n, some src⟩ :: l) = missing l := rfl

theorem xorPackets_eq {src : Packet} (h : src.length.toNat ≤ IP_PACKET_SIZE) (dst : RecoveredPacket) :
    xorPackets src dst =
      some
        { dst with
          lengthRecovery := dst.lengthRecovery ^^^ src.payloadLength
          pkt := ⟨dst.pkt.length, fun i => dst.pkt.data i ^^^ src.xorByte i⟩ } := by
  have hbyte : ∀ i, ((dst.pkt.data.xor 0 src.data 0 2).xor 4 src.data 4 4).xor kRtpHeaderSize
      src.data kRtpHeaderSize (src.length.toNat - kRtpHeaderSize) i =
      dst.pkt.data i ^^^ src.xorByte i := by
    intro i
    have hpos : i < 2 ∨ (2 ≤ i ∧ i < 4) ∨ (4 ≤ i ∧ i < 8) ∨ (8 ≤ i ∧ i < 12) ∨ 12 ≤ i := by omega
    unfold xorByte kRtpHeaderSize
    rcases hpos with hi | hi | hi | hi | hi
    · rw [Mem.xor_outside _ _ (by omega), Mem.xor_outside _ _ (by omega),
        Mem.xor_inside _ _ (by omega) (by omega), if_pos (by omega), Nat.zero_add, Nat.sub_zero]
    · rw [Mem.xor_outside _ _ (by omega), Mem.xor_outside _ _ (by omega),
        Mem.xor_outside _ _ (by omega), if_neg (by omega), BitVec.xor_zero]
    · rw [Mem.xor_outside _ _ (by omega), Mem.xor_inside _ _ (by omega) (by omega),
        Mem.xor_outside _ _ (by omega), if_pos (by omega), Nat.add_sub_cancel' hi.1]
    · rw [Mem.xor_outside _ _ (by omega), Mem.xor_outside _ _ (by omega),
        Mem.xor_outside _ _ (by omega), if_neg (by omega), BitVec.xor_zero]
    · by_cases hlen : i < src.length.toNat
      · rw [Mem.xor_inside _ _ (by omega) (by omega), Mem.xor_outside _ _ (by omega),
          Mem.xor_outside _ _ (by omega), if_pos (by omega), Nat.add_sub_cancel' hi]
      · rw [Mem.xor_outside _ _ (by omega), Mem.xor_outside _ _ (by omega),
          Mem.xor_outside _ _ (by omega), if_neg (by omega), BitVec.xor_zero]
  rw [xorPackets, if_pos h]
  simp only [funext hbyte]
  rfl

/-- The linked packets are in their buffers. -/
def LinkedFit (l : List ProtectedPacket) : Prop :=
  ∀ src ∈ linked l, src.length.toNat ≤ IP_PACKET_SIZE

/-- The loop of `RecoverPacket`, with at most one packet that is not linked. -/
theorem recoverFrom_eq : ∀ {l : List ProtectedPacket} (r : RecoveredPacket), LinkedFit l →
    recoverFrom l r =
      some
        { r with
          seqNum := ((missing l).getLast?.map (·.seqNum)).getD r.seqNum
          lengthRecovery := r.lengthRecovery ^^^ xorAll ((linked l).map payloadLength)
          pkt := ⟨r.pkt.length, fun i => r.pkt.data i ^^^ xorAll ((linked l).map (xorByte · i))⟩ }
  | [], r, _ => by simp [recoverFrom, missing, linked]
  | ⟨n, none⟩ :: l, r, h => by
    have ih := @recoverFrom_eq l { r with seqNum := n } h
    rw [recoverFrom]
    simp only [ih, linked_cons_none, missing_cons_none, List.getLast?_cons, Option.map_some,
      Option.getD_some]
    cases (missing l).getLast? <;> rfl
  | ⟨n, some src⟩ :: l, r, h => by
    have hsrc : src.length.toNat ≤ IP_PACKET_SIZE := h src List.mem_cons_self
    have hl : LinkedFit l := fun q hq => h q (List.mem_cons_of_mem _ hq)
    rw [recoverFrom]
    simp only [xorPackets_eq hsrc, Option.bind_some, recoverFrom_eq _ hl, linked_cons_some,
      missing_cons_some, List.map_cons, xorAll_cons, BitVec.xor_assoc]

/-- The data that recovery starts from: the protected bytes of the FEC packet,
and the SSRC it was received with. -/
def initByte (f : FecPacket) (i : Nat) : Byte :=
  if i < 2 ∨ (4 ≤ i ∧ i < 8) then f.pkt.data i
  else if 8 ≤ i ∧ i < 12 then set32 (fun _ => 0) 8 f.ssrc i
  else if 12 ≤ i ∧ i < 12 + f.pkt.protectionLength then f.pkt.data (f.pkt.payloadStart + (i - 12))
  else 0#8

/-- The copy of the FEC payload is in the buffer. The payload starts behind an
RTP header's length. -/
def PayloadFits (f : FecPacket) : Prop :=
  f.pkt.payloadStart + f.pkt.protectionLength ≤ IP_PACKET_SIZE

theorem initRecovery_eq {f : FecPacket} (h : PayloadFits f) :
    initRecovery f =
      some
        { seqNum := 0, wasRecovered := true, returned := false
          lengthRecovery := be16 f.pkt.data 8
          pkt := ⟨0, initByte f⟩ } := by
  have hstart : kRtpHeaderSize ≤ f.pkt.payloadStart := by
    unfold payloadStart ulpHeaderSize
    split <;> decide
  unfold PayloadFits at h
  rw [initRecovery, if_pos ⟨h, by omega⟩]
  simp only
  congr 3
  funext i
  unfold initByte kRtpHeaderSize
  by_cases hssrc : 8 ≤ i ∧ i < 12
  · rw [if_neg (by omega), if_pos hssrc]
    exact set32_inside _ _ _ _ hssrc.1 hssrc.2
  rw [set32_outside _ _ _ (by omega), if_neg hssrc]
  have hpos : i < 2 ∨ (2 ≤ i ∧ i < 4) ∨ (4 ≤ i ∧ i < 8) ∨ 12 ≤ i := by omega
  rcases hpos with hi | hi | hi | hi
  · rw [Mem.copy_outside _ _ (by omega), Mem.copy_inside _ _ (by omega) (by omega),
      if_pos (by omega), Nat.zero_add, Nat.sub_zero]
  · rw [Mem.copy_outside _ _ (by omega), Mem.copy_outside _ _ (by omega),
      Mem.copy_outside _ _ (by omega), if_neg (by omega), if_neg (by omega)]
    rfl
  · rw [Mem.copy_inside _ _ (by omega) (by omega), if_pos (by omega), Nat.add_sub_cancel' hi.1]
  · rw [Mem.copy_outside _ _ (by omega), Mem.copy_outside _ _ (by omega), if_neg (by omega)]
    rfl

/-- The number of the only packet that is missing. -/
def missingSeqNum (f : FecPacket) : BitVec 16 :=
  ((missing f.protectedPktList).getLast?.map (·.seqNum)).getD 0

/-- The data before the version and the number are set. -/
def xorData (f : FecPacket) (i : Nat) : Byte :=
  initByte f i ^^^ xorAll ((linked f.protectedPktList).map (xorByte · i))

/-- The packet that is recovered with `f`. -/
def recovered (f : FecPacket) : RecoveredPacket :=
  let lengthRecovery :=
    be16 f.pkt.data 8 ^^^ xorAll ((linked f.protectedPktList).map payloadLength)
  let version := Mem.set (xorData f) 0 ((xorData f 0 ||| 0x80) &&& 0xbf)
  { seqNum := missingSeqNum f, wasRecovered := true, returned := false, lengthRecovery
    pkt := ⟨lengthRecovery + 12, set16 version 2 (missingSeqNum f)⟩ }

theorem recoverPacket_eq {f : FecPacket} (h : PayloadFits f) (h' : LinkedFit f.protectedPktList) :
    recoverPacket f = some (recovered f) := by
  rw [recoverPacket, initRecovery_eq h, Option.bind_some, recoverFrom_eq _ h', Option.map_some]
  rfl

end Decoder

end PerchWebrtc.Fec
