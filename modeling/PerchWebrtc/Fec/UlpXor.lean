import PerchWebrtc.Fec.Recovery

/-!
# The XOR of an FEC packet

What an FEC packet says about the media packets it protects: the recovery
fields of its header and its payload are the XOR of theirs, shorter payloads
zero padded (`IsUlpXor`).

* `Same`: packets that are equal up to their length;
* `Originals`: the media packets of one SSRC.
-/

namespace PerchWebrtc.Fec

open Packet

/-- The recovery header and the payload of `fec` are the XOR of the selected
packets. The E and L bits are its own. -/
structure IsUlpXor (selected : List Packet) (fec : Packet) : Prop where
  flags : fec.data 0 &&& 0x3f = xorAll (selected.map (xorByte · 0)) &&& 0x3f
  header : ∀ i, i = 1 ∨ (4 ≤ i ∧ i < 8) → fec.data i = xorAll (selected.map (xorByte · i))
  length : be16 fec.data 8 = xorAll (selected.map payloadLength)
  covers : ∀ p ∈ selected, p.payloadLength.toNat ≤ fec.protectionLength
  payload : ∀ i, 12 ≤ i → i < 12 + fec.protectionLength →
    fec.data (fec.payloadStart + (i - 12)) = xorAll (selected.map (xorByte · i))

/-- Equal in length, and in every byte up to it. -/
def Packet.Same (p q : Packet) : Prop :=
  p.length = q.length ∧ ∀ i < q.length.toNat, p.data i = q.data i

/-- An RTP packet of version 2 with these numbers, in a packet's buffer. -/
structure IsMedia (seqNum : BitVec 16) (ssrc : BitVec 32) (p : Packet) : Prop where
  header : 12 ≤ p.length.toNat
  buffer : p.length.toNat ≤ IP_PACKET_SIZE
  version : p.data 0 &&& 0xc0 = 0x80
  seqNum : be16 p.data 2 = seqNum
  ssrc : be32 p.data 8 = ssrc

/-- Media packets of one SSRC, by their sequence numbers. -/
structure Originals where
  ssrc : BitVec 32
  packet : BitVec 16 → Option Packet
  isMedia : ∀ {n p}, packet n = some p → IsMedia n ssrc p

/-- `pkt` is the XOR of the originals that its mask selects. -/
def Originals.Protects (o : Originals) (pkt : Packet) : Prop :=
  ∃ selected, pkt.maskSeqNums.map o.packet = selected.map some ∧ IsUlpXor selected pkt ∧
    pkt.payloadStart + pkt.protectionLength ≤ IP_PACKET_SIZE

/-- A packet that is received: an original, or an FEC packet of originals. -/
def Originals.Sends (o : Originals) (rx : ReceivedPacket) : Prop :=
  if rx.isFec then rx.ssrc = o.ssrc ∧ o.Protects rx.pkt
  else ∃ p, o.packet rx.seqNum = some p ∧ rx.pkt.Same p

theorem Packet.Same.refl (p : Packet) : p.Same p := ⟨rfl, fun _ _ => rfl⟩

theorem Packet.Same.xorByte {p q : Packet} (h : p.Same q) (hq : 12 ≤ q.length.toNat) (i : Nat) :
    p.xorByte i = q.xorByte i := by
  unfold Packet.xorByte
  rw [h.1]
  split
  · exact h.2 i (by omega)
  · rfl

theorem Packet.Same.payloadLength {p q : Packet} (h : p.Same q) :
    p.payloadLength = q.payloadLength := by
  rw [Packet.payloadLength, Packet.payloadLength, h.1]

theorem payloadLength_toNat {p : Packet} (h : 12 ≤ p.length.toNat) :
    p.payloadLength.toNat = p.length.toNat - 12 :=
  BitVec.toNat_sub_of_le h

namespace Decoder

/-- Every protected packet is one of the originals, and is linked to no
other. -/
def LinksTo (o : Originals) (l : List ProtectedPacket) : Prop :=
  ∀ q ∈ l, ∃ p, o.packet q.seqNum = some p ∧ ∀ src, q.pkt = some src → src.Same p

/-- A XOR of the selected packets is one of those that are linked and one of
those that are missing. -/
theorem xorAll_selected {w : Nat} {o : Originals} (c : Packet → BitVec w)
    (hc : ∀ p q : Packet, p.Same q → 12 ≤ q.length.toNat → c p = c q) :
    ∀ {l : List ProtectedPacket} {selected : List Packet}, LinksTo o l →
      (l.map fun q => o.packet q.seqNum) = selected.map some →
      xorAll (selected.map c) = xorAll ((linked l).map c) ^^^
        xorAll ((missing l).map fun q => ((o.packet q.seqNum).map c).getD 0)
  | [], selected, _, h => by
    obtain rfl := List.map_eq_nil_iff.mp h.symm
    simp [linked, missing]
  | q :: l, [], _, h => by cases h
  | ⟨n, pkt⟩ :: l, p :: selected, hl, h => by
    rw [List.map_cons, List.map_cons] at h
    obtain ⟨hp, hrest⟩ := List.cons.inj h
    have ih := xorAll_selected c hc (fun q hq => hl q (List.mem_cons_of_mem _ hq)) hrest
    obtain ⟨p', hp', hsame⟩ := hl _ List.mem_cons_self
    obtain rfl := Option.some.inj (hp.symm.trans hp')
    rw [List.map_cons, xorAll_cons, ih]
    cases pkt with
    | none =>
      simp only [linked_cons_none, missing_cons_none, List.map_cons, xorAll_cons, hp,
        Option.map_some, Option.getD_some]
      rw [← BitVec.xor_assoc, ← BitVec.xor_assoc, BitVec.xor_comm (c p)]
    | some src =>
      have heq : c src = c p := hc _ _ (hsame src rfl) (o.isMedia hp).header
      simp only [linked_cons_some, missing_cons_some, List.map_cons, xorAll_cons, heq]
      rw [BitVec.xor_assoc]

end Decoder

end PerchWebrtc.Fec
