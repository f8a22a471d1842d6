import PerchWebrtc.Rtcp.Receiver
import PerchWebrtc.Rtcp.Relocation
import PerchWebrtc.Rtcp.Sender

/-!
# Reference picture selection from the sender to the receiver

`BuildRPSI` writes a picture id in groups of seven bits behind the number of
padding bits, `HandleRPSI` reads it back. The item parser goes on behind the
first two bytes of its item only, so that the receiver is given the rest of
the bit string as further items.

* `groupsFrom_eq`, `pictureIdOf_groups`: the code for a picture id;
* `incoming_relocated`, `packets_relocated`: the rest of the packet;
* `incoming_block`, `packets_block`: what the items of a block are taken for;
* `roundTrip_iff`: the picture ids that survive.
-/

namespace PerchWebrtc.Rtcp

/-! ## The code for a picture id -/

section

variable (pictureID : BitVec 64)

/-- The number of groups of seven bits. -/
def numberOfGroups : Nat := pictureID.toNat.log2 / 7 + 1

/-- The bytes of the native bit string, without the padding. -/
def groupBytes (n : Nat) : List Byte :=
  ((List.range' 1 (n - 1)).reverse.map fun i =>
      (0x80 : Byte) ||| (pictureID >>> (i * 7)).setWidth 8) ++ [(pictureID &&& 0x7f).setWidth 8]

theorem lt_numberOfGroups {k : Nat} (hk : 1 ≤ k) :
    pictureID >>> (7 * k) > 0 ↔ k < numberOfGroups pictureID := by
  have hpos : pictureID >>> (7 * k) > 0 ↔ 2 ^ (7 * k) ≤ pictureID.toNat := by
    rw [gt_iff_lt, BitVec.lt_def, BitVec.toNat_ushiftRight, Nat.shiftRight_eq_div_pow]
    exact Nat.div_pos_iff.trans (and_iff_right (Nat.two_pow_pos _))
  rw [hpos, numberOfGroups, Nat.lt_succ_iff, Nat.le_div_iff_mul_le (by decide), Nat.mul_comm 7]
  by_cases h0 : pictureID.toNat = 0
  · rw [h0, Nat.log2_zero]
    have := Nat.two_pow_pos (k * 7)
    omega
  · exact (Nat.le_log2 h0).symm

/-- The loop finds the number of groups, unless a shift is undefined. -/
theorem groupsFrom_eq : ∀ {fuel bytesRequired : Nat}, 1 ≤ bytesRequired →
    10 < fuel + bytesRequired →
    RTCPSender.groupsFrom pictureID fuel bytesRequired =
      if max bytesRequired (numberOfGroups pictureID) ≤ 9 then
        some (max bytesRequired (numberOfGroups pictureID))
      else none
  | 0, bytesRequired, _, hfuel => by
    rw [RTCPSender.groupsFrom, if_neg (by omega)]
  | fuel + 1, bytesRequired, h1, hfuel => by
    rw [RTCPSender.groupsFrom]
    split
    · rw [if_neg (by omega)]
    rename_i hdefined
    split
    · rename_i hmore
      have hlt := (lt_numberOfGroups pictureID h1).mp hmore
      rw [groupsFrom_eq (by omega) (by omega), max_eq_right hlt, max_eq_right hlt.le]
    · rename_i hdone
      have hle := Nat.not_lt.mp (mt (lt_numberOfGroups pictureID h1).mpr hdone)
      rw [max_eq_left hle, if_pos (by omega)]

theorem length_groupBytes {n : Nat} (hn : 1 ≤ n) : (groupBytes pictureID n).length = n := by
  rw [groupBytes, List.length_append, List.length_map, List.length_reverse, List.length_range',
    List.length_singleton]
  omega

/-- The value bits of a byte. -/
theorem groupBytes_value {n k : Nat} (hk : k < n) (rest : List Byte) :
    (((groupBytes pictureID n ++ rest).getD k 0) &&& 0x7f).setWidth 64 =
      (pictureID >>> (7 * (n - 1 - k))) &&& 0x7f := by
  have hlen := @length_groupBytes pictureID n (by omega)
  have hk' : k < (groupBytes pictureID n).length := by omega
  have hmask : ∀ b : Byte, (0x80 ||| b) &&& 0x7f = b &&& 0x7f := by decide +kernel
  have hlow : ∀ x : BitVec 64, ((x.setWidth 8) &&& 0x7f).setWidth 64 = x &&& 0x7f := by
    intro x
    apply BitVec.eq_of_toNat_eq
    rw [BitVec.toNat_setWidth,
      toNat_and_mask _ (0x7f : Byte) (show (0x7f : Byte).toNat = 2 ^ 7 - 1 from rfl),
      toNat_and_mask x (0x7f : BitVec 64) (show (0x7f : BitVec 64).toNat = 2 ^ 7 - 1 from rfl),
      BitVec.toNat_setWidth]
    omega
  rw [List.getD_append _ _ _ _ (by omega), List.getD_eq_getElem _ _ (by omega)]
  by_cases hlast : k = n - 1
  · have hget : (groupBytes pictureID n)[k] = (pictureID &&& 0x7f).setWidth 8 := by
      simp only [groupBytes]
      rw [List.getElem_append_right (by simp; omega)]
      simp
    rw [hget, hlast, Nat.sub_self, Nat.mul_zero, hlow, BitVec.and_assoc, BitVec.and_self]
    rfl
  · have hget : (groupBytes pictureID n)[k] =
        0x80 ||| (pictureID >>> ((n - 1 - k) * 7)).setWidth 8 := by
      simp only [groupBytes]
      rw [List.getElem_append_left (by simp; omega), List.getElem_map, List.getElem_reverse,
        List.getElem_range', List.length_range', show 1 + 1 * (n - 1 - 1 - k) = n - 1 - k by omega]
    rw [hget, hmask, hlow, Nat.mul_comm]

/-- One group more. -/
theorem add_group (x : BitVec 64) : (x >>> 7) <<< 7 + (x &&& 0x7f) = x := by
  apply BitVec.eq_of_toNat_eq
  have hx := x.isLt
  rw [BitVec.toNat_add, BitVec.toNat_shiftLeft, BitVec.toNat_ushiftRight, Nat.shiftLeft_eq,
    Nat.shiftRight_eq_div_pow,
    toNat_and_mask x (0x7f : BitVec 64) (show (0x7f : BitVec 64).toNat = 2 ^ 7 - 1 from rfl)]
  omega

/-- The groups, read back. -/
theorem pictureIdOf_groups {n : Nat} (hn : numberOfGroups pictureID ≤ n) (rest : List Byte) :
    RTCPPacketInformation.pictureIdOf (groupBytes pictureID n ++ rest) n = pictureID := by
  have h1 : 1 ≤ n := (Nat.succ_le_succ (Nat.zero_le _)).trans hn
  -- After `k` groups the accumulator is what lies above the other groups, shifted for the next.
  have hacc : ∀ k ≤ n - 1, (List.range k).foldl (fun id i =>
      (id + (((groupBytes pictureID n ++ rest).getD i 0) &&& 0x7f).setWidth 64) <<< 7) 0 =
      (pictureID >>> (7 * (n - k))) <<< 7 := by
    intro k
    induction k with
    | zero =>
      intro _
      have hzero : pictureID >>> (7 * n) = 0 := by
        have := mt (lt_numberOfGroups pictureID h1).mp (Nat.not_lt.mpr hn)
        exact BitVec.le_zero_iff.mp (BitVec.not_lt.mp this)
      rw [List.range_zero, List.foldl_nil, Nat.sub_zero, hzero]
      rfl
    | succ k ih =>
      intro hk
      rw [List.range_succ, List.foldl_append, ih (by omega), List.foldl_cons, List.foldl_nil,
        groupBytes_value pictureID (by omega), show 7 * (n - k) = 7 * (n - 1 - k) + 7 by omega,
        BitVec.shiftRight_add, add_group, show n - (k + 1) = n - 1 - k by omega]
  have hlast := groupBytes_value pictureID (show n - 1 < n by omega) rest
  rw [RTCPPacketInformation.pictureIdOf]
  dsimp only
  rw [hacc (n - 1) (Nat.le_refl _), hlast, Nat.sub_self, Nat.mul_zero,
    show n - (n - 1) = 1 by omega]
  exact add_group pictureID

end

/-! ## The rest of the packet -/

namespace RTCPReceiver

open RTCPParserV2

/-- The packets that the parser returns, the first of which it has returned. -/
def packets (m : Mem) (dataEnd : Nat) : Nat → RTCPParserV2 → List (RTCPPacketTypes × RTCPPacket)
  | 0, _ => []
  | rounds + 1, p =>
    if p.packetType = .kRtcpNotValidCode then []
    else p.observed :: packets m dataEnd rounds (iterate m dataEnd p)

/-- The rounds that are left are enough: each of them moves the read pointer. -/
def Enough (dataEnd rounds : Nat) (p : RTCPParserV2) : Prop :=
  p.packetType ≠ .kRtcpNotValidCode →
    p.ptrRTCPData ≤ dataEnd + 4 ∧ dataEnd + 4 < p.ptrRTCPData + rounds

/-- A parser between two calls. -/
structure Running (dataEnd : Nat) (p : RTCPParserV2) : Prop where
  valid : p.validPacket = true
  reachable : Reachable dataEnd p

section

variable {m m' : Mem} {base d dataEnd rounds : Nat} {p p' : RTCPParserV2}

theorem packets_notValid (h : p.packetType = .kRtcpNotValidCode) :
    packets m dataEnd rounds p = [] := by
  cases rounds with
  | zero => rfl
  | succ => rw [packets, if_pos h]

theorem incoming_notValid {info : RTCPPacketInformation} (h : p.packetType = .kRtcpNotValidCode) :
    incomingRTCPPacket m dataEnd rounds p info = info := by
  cases rounds with
  | zero => rfl
  | succ => rw [incomingRTCPPacket, if_pos h]

theorem Running.next (h : Running dataEnd p) : Running dataEnd (iterate m dataEnd p) :=
  ⟨(iterate_spec h.reachable h.valid).valid.trans h.valid,
    (iterate_spec h.reachable h.valid).reachable⟩

theorem Running.enough (h : Running dataEnd p)
    (hrounds : dataEnd + 4 < p.ptrRTCPData + (rounds + 1)) :
    Enough dataEnd rounds (iterate m dataEnd p) := by
  intro hty
  have hmoved := (iterate_spec h.reachable h.valid).progress hty
  exact ⟨hmoved.2, by omega⟩

theorem Running.enough_again (h : Running dataEnd p)
    (hrounds : dataEnd + 4 < p.ptrRTCPData + (rounds + 1))
    (hty : (iterate m dataEnd p).packetType ≠ .kRtcpNotValidCode) :
    Enough dataEnd rounds (iterate m dataEnd (iterate m dataEnd p)) := by
  have hmoved := (iterate_spec h.reachable h.valid).progress hty
  intro hty'
  have hmoved' := (iterate_spec (@h.next m).reachable (@h.next m).valid).progress hty'
  exact ⟨hmoved'.2, by omega⟩

theorem Enough.pos (h : Enough dataEnd rounds p) (hty : p.packetType ≠ .kRtcpNotValidCode) :
    ∃ left, rounds = left + 1 ∧ dataEnd + 4 < p.ptrRTCPData + (left + 1) := by
  obtain ⟨hle, hlt⟩ := h hty
  exact ⟨rounds - 1, by omega, by omega⟩

/-- The parser returns the same packets elsewhere, whatever the bounds. -/
theorem packets_relocated (hd : 4 ∣ d) (hm : ∀ i, base ≤ i → m (i + d) = m' i) :
    ∀ {rounds rounds' : Nat} {p p' : RTCPParserV2}, Relocated base d p p' →
    Running (dataEnd + d) p → Running dataEnd p' →
    Enough (dataEnd + d) rounds p → Enough dataEnd rounds' p' →
    packets m (dataEnd + d) rounds p = packets m' dataEnd rounds' p' := by
  intro rounds
  induction rounds with
  | zero =>
    intro rounds' p p' h hp hp' henough henough'
    by_cases hty : p'.packetType = .kRtcpNotValidCode
    · rw [packets_notValid (h.packetType.trans hty), packets_notValid hty]
    · obtain ⟨left, hleft, -⟩ := henough.pos (h.packetType ▸ hty)
      cases hleft
  | succ rounds ih =>
    intro rounds' p p' h hp hp' henough henough'
    by_cases hty : p'.packetType = .kRtcpNotValidCode
    · rw [packets_notValid (h.packetType.trans hty), packets_notValid hty]
    obtain ⟨left, hleft, hrounds⟩ := henough.pos (h.packetType ▸ hty)
    obtain ⟨left', rfl, hrounds'⟩ := henough'.pos hty
    cases hleft
    rw [packets, packets, if_neg (h.packetType ▸ hty), if_neg hty, h.observed,
      ih (iterate_relocated hd hm h hp'.reachable hp'.valid) hp.next hp'.next (hp.enough hrounds)
        (hp'.enough hrounds')]

/-- What a handler has done: the parser goes on with `p`, and the picture ids
were reported. -/
structure Handled (info : RTCPPacketInformation) (r : RTCPParserV2 × RTCPPacketInformation)
    (p : RTCPParserV2) (reports : List (BitVec 64)) : Prop where
  parser : r.1 = p
  reports : r.2.rpsiReports = info.rpsiReports ++ reports

/-- Whether an item is not converted. -/
def unknownBits (rpsi : RTCPPacketPSFBRPSI) : Bool := rpsi.NumberOfValidBits % 8 ≠ 0

/-- The picture id of an item. -/
def pictureId (rpsi : RTCPPacketPSFBRPSI) : BitVec 64 :=
  RTCPPacketInformation.pictureIdOf rpsi.NativeBitString
    ((rpsi.NumberOfValidBits / 8).setWidth 8).toNat

variable {info : RTCPPacketInformation}

theorem handleRPSI_other
    (h : ∀ rpsi, ¬ (iterate m dataEnd p).Returned .kRtcpPsfbRpsiCode (.RPSI rpsi)) :
    Handled info (handleRPSI m dataEnd p info) (iterate m dataEnd p) [] := by
  rw [handleRPSI]
  dsimp only
  split
  · rename_i rpsi hty hpacket
    exact absurd ⟨hty, hpacket⟩ (h rpsi)
  · exact ⟨rfl, (List.append_nil _).symm⟩

theorem handleRPSI_unknown {rpsi : RTCPPacketPSFBRPSI}
    (h : (iterate m dataEnd p).Returned .kRtcpPsfbRpsiCode (.RPSI rpsi))
    (hbits : unknownBits rpsi = true) :
    Handled info (handleRPSI m dataEnd p info) (iterate m dataEnd (iterate m dataEnd p)) [] := by
  rw [handleRPSI]
  dsimp only
  rw [h.packetType, h.packet]
  dsimp only
  rw [if_pos (of_decide_eq_true hbits)]
  exact ⟨rfl, (List.append_nil _).symm⟩

theorem handleRPSI_converted {rpsi : RTCPPacketPSFBRPSI}
    (h : (iterate m dataEnd p).Returned .kRtcpPsfbRpsiCode (.RPSI rpsi))
    (hbits : unknownBits rpsi = false) :
    Handled info (handleRPSI m dataEnd p info) (iterate m dataEnd p) [pictureId rpsi] := by
  rw [handleRPSI]
  dsimp only
  rw [h.packetType, h.packet]
  dsimp only
  rw [if_neg (of_decide_eq_false hbits)]
  exact ⟨rfl, rfl⟩

/-- A handler does the same elsewhere. -/
theorem handled_relocated {info' : RTCPPacketInformation}
    (h : Relocated base d (iterate m (dataEnd + d) p) (iterate m' dataEnd p')) :
    ∃ (again : Bool) (reports : List (BitVec 64)),
      (again = true → (iterate m' dataEnd p').packetType = .kRtcpPsfbRpsiCode) ∧
      Handled info (handleRPSI m (dataEnd + d) p info)
        (if again then iterate m (dataEnd + d) (iterate m (dataEnd + d) p)
          else iterate m (dataEnd + d) p) reports ∧
      Handled info' (handleRPSI m' dataEnd p' info')
        (if again then iterate m' dataEnd (iterate m' dataEnd p') else iterate m' dataEnd p')
        reports := by
  by_cases hret : ∃ rpsi, (iterate m' dataEnd p').Returned .kRtcpPsfbRpsiCode (.RPSI rpsi)
  · obtain ⟨rpsi, hret⟩ := hret
    have hcarries : carriesPacket (iterate m' dataEnd p').packetType = true := by
      rw [hret.packetType]
      rfl
    have hret' : (iterate m (dataEnd + d) p).Returned .kRtcpPsfbRpsiCode (.RPSI rpsi) :=
      ⟨h.packetType.trans hret.packetType, (h.packet hcarries).trans hret.packet⟩
    cases hbits : unknownBits rpsi with
    | true =>
      exact ⟨true, [], fun _ => hret.packetType, handleRPSI_unknown hret' hbits,
        handleRPSI_unknown hret hbits⟩
    | false =>
      exact ⟨false, [pictureId rpsi], fun h => (by cases h), handleRPSI_converted hret' hbits,
        handleRPSI_converted hret hbits⟩
  · refine ⟨false, [], fun h => (by cases h), handleRPSI_other fun rpsi hret' => hret ⟨rpsi, ?_⟩,
      handleRPSI_other fun rpsi hret' => hret ⟨rpsi, hret'⟩⟩
    have hty := h.packetType.symm.trans hret'.packetType
    have hcarries : carriesPacket (iterate m' dataEnd p').packetType = true := by
      rw [hty]
      rfl
    exact ⟨hty, (h.packet hcarries).symm.trans hret'.packet⟩

/-- The receiver reports the same picture ids elsewhere, whatever the bounds. -/
theorem incoming_relocated (hd : 4 ∣ d) (hm : ∀ i, base ≤ i → m (i + d) = m' i) :
    ∀ {rounds rounds' : Nat} {p p' : RTCPParserV2} (info info' : RTCPPacketInformation),
    Relocated base d p p' → Running (dataEnd + d) p → Running dataEnd p' →
    Enough (dataEnd + d) rounds p → Enough dataEnd rounds' p' →
    ∃ reports,
      (incomingRTCPPacket m (dataEnd + d) rounds p info).rpsiReports = info.rpsiReports ++ reports ∧
      (incomingRTCPPacket m' dataEnd rounds' p' info').rpsiReports =
        info'.rpsiReports ++ reports := by
  intro rounds
  induction rounds with
  | zero =>
    intro rounds' p p' info info' h hp hp' henough henough'
    by_cases hty : p'.packetType = .kRtcpNotValidCode
    · rw [incoming_notValid (h.packetType.trans hty), incoming_notValid hty]
      exact ⟨[], (List.append_nil _).symm, (List.append_nil _).symm⟩
    · obtain ⟨left, hleft, -⟩ := henough.pos (h.packetType ▸ hty)
      cases hleft
  | succ rounds ih =>
    intro rounds' p p' info info' h hp hp' henough henough'
    by_cases hty : p'.packetType = .kRtcpNotValidCode
    · rw [incoming_notValid (h.packetType.trans hty), incoming_notValid hty]
      exact ⟨[], (List.append_nil _).symm, (List.append_nil _).symm⟩
    obtain ⟨left, hleft, hrounds⟩ := henough.pos (h.packetType ▸ hty)
    obtain ⟨left', rfl, hrounds'⟩ := henough'.pos hty
    cases hleft
    have hnext := iterate_relocated hd hm h hp'.reachable hp'.valid
    have henough := @hp.enough m _ _ _ hrounds
    have henough' := @hp'.enough m' _ _ _ hrounds'
    rw [incomingRTCPPacket, incomingRTCPPacket, if_neg (h.packetType ▸ hty), if_neg hty,
      h.packetType]
    split
    swap
    · exact ih info info' hnext hp.next hp'.next henough henough'
    obtain ⟨again, reports, hagain, hhandled, hhandled'⟩ :=
      @handled_relocated m m' base d dataEnd p p' info info' hnext
    dsimp only
    rw [hhandled.parser, hhandled'.parser]
    have htail : ∀ {q q' : RTCPParserV2}, Relocated base d q q' → Running (dataEnd + d) q →
        Running dataEnd q' → Enough (dataEnd + d) rounds q → Enough dataEnd left' q' →
        ∃ all, (incomingRTCPPacket m (dataEnd + d) rounds q
            (handleRPSI m (dataEnd + d) p info).2).rpsiReports = info.rpsiReports ++ all ∧
          (incomingRTCPPacket m' dataEnd left' q'
            (handleRPSI m' dataEnd p' info').2).rpsiReports = info'.rpsiReports ++ all := by
      intro q q' hq hrun hrun' hmore hmore'
      obtain ⟨rest, hrest, hrest'⟩ := ih (handleRPSI m (dataEnd + d) p info).2
        (handleRPSI m' dataEnd p' info').2 hq hrun hrun' hmore hmore'
      rw [hhandled.reports, List.append_assoc] at hrest
      rw [hhandled'.reports, List.append_assoc] at hrest'
      exact ⟨reports ++ rest, hrest, hrest'⟩
    cases again with
    | false => exact htail hnext hp.next hp'.next henough henough'
    | true =>
      have hreturned : (iterate m' dataEnd p').packetType ≠ .kRtcpNotValidCode := by
        rw [hagain rfl]
        decide
      exact htail (iterate_relocated hd hm hnext hp'.next.reachable hp'.next.valid) hp.next.next
        hp'.next.next (hp.enough_again hrounds (hnext.packetType ▸ hreturned))
        (hp'.enough_again hrounds' hreturned)

/-! ## The block -/

/-- The picture id that the item at `ptr` is taken for. -/
def itemPictureId (m : Mem) (blockEnd ptr : Nat) : BitVec 64 :=
  RTCPPacketInformation.pictureIdOf (m.bytes (ptr + 2) (blockEnd - ptr - 2))
    (((BitVec.ofNat 16 ((blockEnd - ptr - 2) * 8) - (m ptr).setWidth 16) / 8).setWidth 8).toNat

/-- The picture ids that are reported of the items from `ptr` on. An item whose
first byte is not a number of whole bytes is passed over with the next one. -/
def conversions (m : Mem) (blockEnd : Nat) : Nat → Nat → List (BitVec 64)
  | 0, _ => []
  | fuel + 1, ptr =>
    if blockEnd < ptr + 4 then []
    else if (m ptr).toNat % 8 ≠ 0 then conversions m blockEnd fuel (ptr + 4)
    else itemPictureId m blockEnd ptr :: conversions m blockEnd fuel (ptr + 2)

/-- An item: the parser goes on behind its first two bytes. -/
theorem iterate_rpsiItem {ptr blockEnd : Nat} (hp : p.At .PSFB_RPSIItem ptr blockEnd)
    (hroom : ptr + 4 ≤ blockEnd) (hfits : blockEnd ≤ ptr + 32) :
    (iterate m dataEnd p).At .PSFB_RPSIItem (ptr + 2) blockEnd ∧
      ∃ rpsi, (iterate m dataEnd p).Returned .kRtcpPsfbRpsiCode (.RPSI rpsi) ∧
        unknownBits rpsi = decide ((m ptr).toNat % 8 ≠ 0) ∧
        pictureId rpsi = itemPictureId m blockEnd ptr := by
  have hlength : p.reset.length = blockEnd - ptr := by
    rw [RTCPParserV2.length, hp.reset.ptr, hp.reset.blockEnd]
  obtain ⟨q, hitem, hat, rpsi, hret, hnative, hbits⟩ : ∃ q : RTCPParserV2,
      parseItem m p.reset = (true, q) ∧ q.At .PSFB_RPSIItem (ptr + 2) blockEnd ∧
      ∃ rpsi, q.Returned .kRtcpPsfbRpsiCode (.RPSI rpsi) ∧
        rpsi.NativeBitString = m.bytes (ptr + 2) (blockEnd - ptr - 2) ∧
        rpsi.NumberOfValidBits =
          BitVec.ofNat 16 ((blockEnd - ptr - 2) * 8) - (m ptr).setWidth 16 := by
    rw [parseItem, hp.reset.state]
    dsimp only
    rw [parseRPSIItem]
    dsimp only
    rw [hlength, if_neg (by omega), if_neg (by
      show ¬ blockEnd - ptr > 32
      omega)]
    have hptr : p.reset.ptrRTCPData = ptr := hp.reset.ptr
    refine ⟨_, rfl, ⟨hp.valid, hp.state, ?_, hp.blockEnd⟩, _, ⟨rfl, rfl⟩, ?_, ?_⟩
    · exact congrArg (· + 2) hptr
    · exact congrArg (fun x => m.bytes (x + 2) (blockEnd - ptr - 2)) hptr
    · exact congrArg (fun x => BitVec.ofNat 16 ((blockEnd - ptr - 2) * 8) - (m x).setWidth 16) hptr
  rw [iterate_item hp (by decide) hitem]
  refine ⟨hat, rpsi, hret, ?_, ?_⟩
  · rw [unknownBits, hbits]
    have hmod : (BitVec.ofNat 16 ((blockEnd - ptr - 2) * 8) - (m ptr).setWidth 16) % 8 ≠ 0 ↔
        (m ptr).toNat % 8 ≠ 0 := by
      have hb := (m ptr).isLt
      rw [Ne, ← BitVec.toNat_inj, BitVec.toNat_umod, BitVec.toNat_sub, BitVec.toNat_ofNat,
        BitVec.toNat_setWidth]
      show ¬ (2 ^ 16 - (m ptr).toNat % 2 ^ 16 + (blockEnd - ptr - 2) * 8 % 2 ^ 16) % 2 ^ 16 % 8 = 0 ↔ _
      omega
    exact decide_eq_decide.mpr hmod
  · rw [pictureId, hnative, hbits, itemPictureId]

/-- The end of the items. -/
theorem iterate_rpsiLeft {ptr blockEnd : Nat} (hp : p.At .PSFB_RPSIItem ptr blockEnd)
    (hroom : blockEnd < ptr + 4) :
    ∃ top : RTCPParserV2, top.AtTopLevel blockEnd ∧ iterate m dataEnd p = iterate m dataEnd top := by
  refine ⟨_, iterate_left hp (by decide) ?_⟩
  rw [parseItem, hp.reset.state]
  dsimp only
  rw [parseRPSIItem]
  dsimp only
  rw [if_pos (by
    rw [RTCPParserV2.length, hp.reset.ptr, hp.reset.blockEnd]
    omega)]

/-- What the receiver makes of the items of a block, and where it goes on. -/
theorem incoming_block {blockEnd : Nat} (hend : blockEnd ≤ dataEnd)
    (hnext : ∀ top : RTCPParserV2, top.AtTopLevel blockEnd →
      (iterate m dataEnd top).packetType ≠ .kRtcpPsfbRpsiCode) :
    ∀ {fuel ptr rounds : Nat} {p : RTCPParserV2} (info : RTCPPacketInformation),
    p.At .PSFB_RPSIItem ptr blockEnd → p.packetType = .kRtcpPsfbRpsiCode → Running dataEnd p →
    ptr ≤ blockEnd → blockEnd ≤ ptr + 32 → blockEnd < ptr + fuel →
    dataEnd + 4 < ptr + rounds →
    ∃ (top : RTCPParserV2) (left : Nat) (info' : RTCPPacketInformation),
      top.AtTopLevel blockEnd ∧ Running dataEnd (iterate m dataEnd top) ∧
      Enough dataEnd left (iterate m dataEnd top) ∧
      info'.rpsiReports = info.rpsiReports ++ conversions m blockEnd fuel ptr ∧
      incomingRTCPPacket m dataEnd rounds p info =
        incomingRTCPPacket m dataEnd left (iterate m dataEnd top) info' := by
  intro fuel
  induction fuel with
  | zero =>
    intro ptr rounds p info hp hty hrun hle hfits hfuel
    omega
  | succ fuel ih =>
    intro ptr rounds p info hp hty hrun hle hfits hfuel hrounds
    have hptr := hp.ptr
    obtain ⟨rounds, rfl⟩ : ∃ left, rounds = left + 1 := ⟨rounds - 1, by omega⟩
    have hty' : p.packetType ≠ .kRtcpNotValidCode := by
      rw [hty]
      decide
    rw [incomingRTCPPacket, if_neg hty', if_pos hty, conversions]
    dsimp only
    split
    · rename_i hroom
      obtain ⟨top, htop, hleft⟩ := @iterate_rpsiLeft m dataEnd p _ _ hp hroom
      have hhandled := @handleRPSI_other m dataEnd p info fun rpsi hret =>
        hnext top htop (hleft ▸ hret.packetType)
      rw [hhandled.parser, hleft]
      exact ⟨top, rounds, _, htop, hleft ▸ hrun.next, hleft ▸ hrun.enough (hptr ▸ hrounds),
        hhandled.reports, rfl⟩
    rename_i hroom
    obtain ⟨hat, rpsi, hret, hunknown, hid⟩ :=
      @iterate_rpsiItem m dataEnd p _ _ hp (Nat.not_lt.mp hroom) hfits
    split
    · rename_i hbits
      have hhandled := @handleRPSI_unknown m dataEnd p info rpsi hret
        (hunknown.trans (decide_eq_true hbits))
      rw [hhandled.parser]
      by_cases hroom' : blockEnd < ptr + 2 + 4
      · obtain ⟨top, htop, hleft⟩ := @iterate_rpsiLeft m dataEnd _ _ _ hat hroom'
        have hnone : conversions m blockEnd fuel (ptr + 4) = [] := by
          cases fuel with
          | zero => rfl
          | succ => rw [conversions, if_pos (by omega)]
        rw [hleft, hnone]
        exact ⟨top, rounds, _, htop, hleft ▸ hrun.next.next,
          hleft ▸ hrun.enough_again (hptr ▸ hrounds) (by rw [hret.packetType]; decide),
          hhandled.reports, rfl⟩
      · obtain ⟨hat', rpsi', hret', -⟩ :=
          @iterate_rpsiItem m dataEnd _ _ _ hat (Nat.not_lt.mp hroom') (by omega)
        obtain ⟨top, left, info', htop, hrun', henough, hreports, heq⟩ := @ih (ptr + 4) rounds _
          (handleRPSI m dataEnd p info).2 hat' hret'.packetType hrun.next.next (by omega)
          (by omega) (by omega) (by omega)
        rw [hhandled.reports, List.append_nil] at hreports
        exact ⟨top, left, info', htop, hrun', henough, hreports, heq⟩
    · rename_i hbits
      have hhandled := @handleRPSI_converted m dataEnd p info rpsi hret
        (hunknown.trans (decide_eq_false hbits))
      rw [hhandled.parser]
      obtain ⟨top, left, info', htop, hrun', henough, hreports, heq⟩ := @ih (ptr + 2) rounds _
        (handleRPSI m dataEnd p info).2 hat hret.packetType hrun.next (by omega) (by omega)
        (by omega) (by omega)
      rw [hhandled.reports, hid, List.append_assoc, List.singleton_append] at hreports
      exact ⟨top, left, info', htop, hrun', henough, hreports, heq⟩

/-- The packets that the parser returns of the items of a block, and where it
goes on. -/
theorem packets_block {blockEnd : Nat} (hend : blockEnd ≤ dataEnd) :
    ∀ {fuel ptr rounds : Nat} {p : RTCPParserV2},
    p.At .PSFB_RPSIItem ptr blockEnd → p.packetType = .kRtcpPsfbRpsiCode → Running dataEnd p →
    ptr ≤ blockEnd → blockEnd ≤ ptr + 32 → blockEnd < ptr + fuel → dataEnd + 4 < ptr + rounds →
    ∃ (top : RTCPParserV2) (left : Nat) (items : List (RTCPPacketTypes × RTCPPacket)),
      top.AtTopLevel blockEnd ∧ Running dataEnd (iterate m dataEnd top) ∧
      Enough dataEnd left (iterate m dataEnd top) ∧
      (∀ item ∈ items, item.1 = .kRtcpPsfbRpsiCode) ∧
      packets m dataEnd rounds p = items ++ packets m dataEnd left (iterate m dataEnd top) := by
  intro fuel
  induction fuel with
  | zero =>
    intro ptr rounds p hp hty hrun hle hfits hfuel
    omega
  | succ fuel ih =>
    intro ptr rounds p hp hty hrun hle hfits hfuel hrounds
    obtain ⟨rounds, rfl⟩ : ∃ left, rounds = left + 1 := ⟨rounds - 1, by omega⟩
    have hty' : p.packetType ≠ .kRtcpNotValidCode := by
      rw [hty]
      decide
    have hfirst : p.observed.1 = .kRtcpPsfbRpsiCode := hty
    rw [packets, if_neg hty']
    by_cases hroom : blockEnd < ptr + 4
    · obtain ⟨top, htop, hleft⟩ := @iterate_rpsiLeft m dataEnd p _ _ hp hroom
      rw [hleft]
      exact ⟨top, rounds, [p.observed], htop, hleft ▸ hrun.next,
        hleft ▸ hrun.enough (by rw [hp.ptr]; exact hrounds), List.forall_mem_singleton.mpr hfirst, rfl⟩
    · obtain ⟨hat, rpsi, hret, -⟩ :=
        @iterate_rpsiItem m dataEnd p _ _ hp (Nat.not_lt.mp hroom) hfits
      obtain ⟨top, left, items, htop, hrun', henough, hitems, heq⟩ := @ih (ptr + 2) rounds _ hat
        hret.packetType hrun.next (by omega) (by omega) (by omega) (by omega)
      rw [heq]
      exact ⟨top, left, p.observed :: items, htop, hrun', henough,
        List.forall_mem_cons.mpr ⟨hfirst, hitems⟩, rfl⟩

/-! ## Behind the block -/

/-- A block of `d` bytes that was left goes on as without it. -/
theorem relocated_behind (hd : 4 ∣ d) (hm : ∀ i, base ≤ i → m (i + d) = m' i) (h4 : 4 ∣ base)
    (hp : p.AtTopLevel base) {top : RTCPParserV2} (htop : top.AtTopLevel (base + d)) :
    Relocated base d (iterate m (dataEnd + d) top) (iterate m' dataEnd p) :=
  iterateWithin_sameTop hd hm ⟨htop.valid.trans hp.valid.symm, htop.state, hp.state,
    by rw [htop.ptr, hp.ptr], Nat.le_of_eq hp.ptr.symm⟩ hp.valid (hp.ptr ▸ h4) 1

theorem running_topLevel (h4 : 4 ∣ base) (hp : p.AtTopLevel base) : Running dataEnd p :=
  ⟨hp.valid, by rw [hp.state]; decide, .inr (hp.ptr ▸ h4), fun h => absurd hp.state h⟩

section

variable (hd : 4 ∣ d) (hm : ∀ i, base ≤ i → m (i + d) = m' i) (h4 : 4 ∣ base)
  (hp : p.AtTopLevel base) (hle : base ≤ dataEnd) (hd24 : 12 ≤ d ∧ d ≤ 24)
  (hat : (iterate m (dataEnd + d) p).At .PSFB_RPSIItem (base + 12) (base + d))
  (hty : (iterate m (dataEnd + d) p).packetType = .kRtcpPsfbRpsiCode)

include hd hm h4 hp hle hd24 hat hty

/-- The picture ids that are reported with the block and without it. -/
theorem incoming_behind
    (hnext : (iterate m' dataEnd p).packetType ≠ .kRtcpPsfbRpsiCode) :
    (incomingRTCPPacket m (dataEnd + d) (dataEnd + d + 6) (iterate m (dataEnd + d) p) {}).rpsiReports =
      conversions m (base + d) 13 (base + 12) ++
        (incomingRTCPPacket m' dataEnd (dataEnd + 6) (iterate m' dataEnd p) {}).rpsiReports := by
  have hbehind := fun top htop => @relocated_behind m m' base d dataEnd p hd hm h4 hp top htop
  have hrun := @running_topLevel base (dataEnd + d) p h4 hp
  have hrun' := @running_topLevel base dataEnd p h4 hp
  obtain ⟨top, left, info, htop, htopRun, henough, hreports, heq⟩ :=
    @incoming_block m (dataEnd + d) (base + d) (by omega)
      (fun top htop => (hbehind top htop).packetType ▸ hnext) 13 (base + 12) (dataEnd + d + 6) _ {} hat
      hty hrun.next (by omega) (by omega) (by omega) (by omega)
  obtain ⟨reports, hwith, hwithout⟩ := incoming_relocated hd hm info {} (hbehind top htop) htopRun
    (@hrun'.next m') henough (@hrun'.enough m' _ (dataEnd + 6) _ (by omega))
  rw [heq, hwith, hwithout, hreports]
  rfl

/-- The packets that are returned with the block and without it. -/
theorem packets_behind : ∃ items : List (RTCPPacketTypes × RTCPPacket),
    (∀ item ∈ items, item.1 = RTCPPacketTypes.kRtcpPsfbRpsiCode) ∧
    packets m (dataEnd + d) (dataEnd + d + 6) (iterate m (dataEnd + d) p) =
      items ++ packets m' dataEnd (dataEnd + 6) (iterate m' dataEnd p) := by
  have hrun := @running_topLevel base (dataEnd + d) p h4 hp
  have hrun' := @running_topLevel base dataEnd p h4 hp
  obtain ⟨top, left, items, htop, htopRun, henough, hitems, heq⟩ :=
    @packets_block m (dataEnd + d) (base + d) (by omega) 13 (base + 12) (dataEnd + d + 6) _ hat
      hty hrun.next (by omega) (by omega) (by omega) (by omega)
  refine ⟨items, hitems, ?_⟩
  rw [heq, packets_relocated hd hm (relocated_behind hd hm h4 hp htop) htopRun (@hrun'.next m')
    henough (@hrun'.enough m' _ (dataEnd + 6) _ (by omega))]

end

end

end RTCPReceiver

/-! ## The round trip -/

/-- What `BuildRPSI` appends for this number of groups. -/
def rpsiBytes (SSRC remoteSSRC : BitVec 32) (pictureID : BitVec 64) (payloadType : Byte) (n : Nat) :
    List Byte :=
  let paddingBytes := if 4 - (2 + n) % 4 = 4 then 0 else 4 - (2 + n) % 4
  RTCPParserV2.feedbackBytes 3 PT_PSFB (if n > 6 then 5 else if n > 2 then 4 else 3) SSRC remoteSSRC ++
    ([BitVec.ofNat 8 (paddingBytes * 8), payloadType] ++
      (groupBytes pictureID n ++ List.replicate paddingBytes 0))

theorem buildRPSI_eq (s : RTCPSender) (pictureID : BitVec 64) (payloadType : Byte)
    {buffer : List Byte} (hroom : buffer.length + 24 < IP_PACKET_SIZE) :
    s.buildRPSI pictureID payloadType buffer =
      if numberOfGroups pictureID ≤ 9 then
        some (0, buffer ++ rpsiBytes s.SSRC s.remoteSSRC pictureID payloadType
          (numberOfGroups pictureID))
      else none := by
  have h1 : 1 ≤ numberOfGroups pictureID := Nat.succ_le_succ (Nat.zero_le _)
  rw [RTCPSender.buildRPSI, if_neg (Nat.not_le.mpr hroom), groupsFrom_eq _ (Nat.le_refl 1) (by decide),
    max_eq_right h1]
  split
  · have hsize : ∀ n : Nat, bytes16 (if n > 6 then 5 else if n > 2 then 4 else 3) =
        [0, if n > 6 then 5 else if n > 2 then 4 else 3] := by
      intro n
      split
      · rfl
      · split <;> rfl
    rw [Option.map_some, rpsiBytes, RTCPParserV2.feedbackBytes, groupBytes, hsize]
    simp only [List.append_assoc, List.cons_append, List.nil_append]
    rfl
  · rfl

/-- The low bits of a group of the picture id. -/
def groupBits (pictureID : BitVec 64) (i : Nat) : Nat := pictureID.toNat / 2 ^ (7 * i) % 8

/-- The bytes of the bit string that are taken for the number of padding bits
of an item are not numbers of whole bytes. -/
def Passed (pictureID : BitVec 64) : Prop :=
  let n := numberOfGroups pictureID
  n ≤ 2 ∨ (n ≤ 6 ∧ groupBits pictureID (n - 1) ≠ 0) ∨
    (6 < n ∧ n ≤ 9 ∧ groupBits pictureID (n - 1) ≠ 0 ∧ groupBits pictureID (n - 5) ≠ 0)

instance (pictureID : BitVec 64) : Decidable (Passed pictureID) :=
  inferInstanceAs (Decidable (_ ∨ _))

/-- The first byte of an item further on in the bit string. -/
theorem groupBytes_bits {pictureID : BitVec 64} {n k : Nat} (hk : k < n) (rest : List Byte) :
    ((groupBytes pictureID n ++ rest).getD k 0).toNat % 8 = groupBits pictureID (n - 1 - k) := by
  have h := congrArg BitVec.toNat (groupBytes_value pictureID hk rest)
  rw [BitVec.toNat_setWidth,
    toNat_and_mask _ (0x7f : Byte) (show (0x7f : Byte).toNat = 2 ^ 7 - 1 from rfl),
    toNat_and_mask _ (0x7f : BitVec 64) (show (0x7f : BitVec 64).toNat = 2 ^ 7 - 1 from rfl),
    BitVec.toNat_ushiftRight, Nat.shiftRight_eq_div_pow] at h
  rw [groupBits]
  omega

section

variable {m : Mem} {ptr : Nat} {pictureID : BitVec 64} {payloadType : Byte} {n paddingBytes : Nat}

/-- The item that starts the bit string is taken for the picture id. -/
theorem itemPictureId_first (hn : numberOfGroups pictureID ≤ n) (hn9 : n ≤ 9) (hpad : paddingBytes ≤ 3)
    (hbytes : m.Holds ptr ([BitVec.ofNat 8 (paddingBytes * 8), payloadType] ++
      (groupBytes pictureID n ++ List.replicate paddingBytes 0))) :
    RTCPReceiver.itemPictureId m (ptr + (2 + n + paddingBytes)) ptr = pictureID := by
  have h1 : 1 ≤ n := (Nat.succ_le_succ (Nat.zero_le _)).trans hn
  have hlen : (groupBytes pictureID n ++ List.replicate paddingBytes 0).length = n + paddingBytes := by
    rw [List.length_append, length_groupBytes _ h1, List.length_replicate]
  rw [Mem.holds_append, Mem.holds_cons] at hbytes
  obtain ⟨⟨hpadding, -⟩, hstring⟩ := hbytes
  have hstring : m.Holds (ptr + 2) (groupBytes pictureID n ++ List.replicate paddingBytes 0) := hstring
  have hvalid : (((BitVec.ofNat 16 ((n + paddingBytes) * 8) -
      (BitVec.ofNat 8 (paddingBytes * 8)).setWidth 16) / 8).setWidth 8).toNat = n := by
    rw [BitVec.toNat_setWidth, BitVec.toNat_udiv, BitVec.toNat_sub, BitVec.toNat_ofNat,
      BitVec.toNat_setWidth, BitVec.toNat_ofNat]
    show (2 ^ 16 - paddingBytes * 8 % 2 ^ 8 % 2 ^ 16 + (n + paddingBytes) * 8 % 2 ^ 16) % 2 ^ 16 / 8 %
      2 ^ 8 = n
    omega
  rw [RTCPReceiver.itemPictureId, hpadding,
    show ptr + (2 + n + paddingBytes) - ptr - 2 = n + paddingBytes by omega, hvalid,
    Mem.bytes_of_holds hstring hlen.symm]
  exact pictureIdOf_groups pictureID hn _

theorem conversions_cons {blockEnd fuel : Nat} (hroom : ptr + 4 ≤ blockEnd)
    (hbits : (m ptr).toNat % 8 = 0) :
    RTCPReceiver.conversions m blockEnd (fuel + 1) ptr =
      RTCPReceiver.itemPictureId m blockEnd ptr ::
        RTCPReceiver.conversions m blockEnd fuel (ptr + 2) := by
  rw [RTCPReceiver.conversions, if_neg (Nat.not_lt.mpr hroom), if_neg (not_not.mpr hbits)]

theorem conversions_passed {blockEnd fuel : Nat} (hroom : ptr + 4 ≤ blockEnd)
    (hbits : (m ptr).toNat % 8 ≠ 0) :
    RTCPReceiver.conversions m blockEnd (fuel + 1) ptr =
      RTCPReceiver.conversions m blockEnd fuel (ptr + 4) := by
  rw [RTCPReceiver.conversions, if_neg (Nat.not_lt.mpr hroom), if_pos hbits]

theorem conversions_end {blockEnd fuel : Nat} (hroom : blockEnd < ptr + 4) :
    RTCPReceiver.conversions m blockEnd fuel ptr = [] := by
  cases fuel with
  | zero => rfl
  | succ => rw [RTCPReceiver.conversions, if_pos hroom]

/-- The picture ids that are reported of a block. -/
theorem conversions_rpsi (hn : numberOfGroups pictureID = n) (hn9 : n ≤ 9)
    (hpad : paddingBytes = if 4 - (2 + n) % 4 = 4 then 0 else 4 - (2 + n) % 4)
    (hbytes : m.Holds ptr ([BitVec.ofNat 8 (paddingBytes * 8), payloadType] ++
      (groupBytes pictureID n ++ List.replicate paddingBytes 0))) :
    RTCPReceiver.conversions m (ptr + (2 + n + paddingBytes)) 13 ptr = [pictureID] ↔
      Passed pictureID := by
  have h1 : 1 ≤ n := hn ▸ Nat.succ_le_succ (Nat.zero_le _)
  have hpad3 : paddingBytes ≤ 3 := by
    rw [hpad]
    split <;> omega
  have hfirst := itemPictureId_first (Nat.le_of_eq hn) hn9 hpad3 hbytes
  rw [Mem.holds_append, Mem.holds_cons] at hbytes
  obtain ⟨⟨hpadding, -⟩, hstring⟩ := hbytes
  have hstring : m.Holds (ptr + 2) (groupBytes pictureID n ++ List.replicate paddingBytes 0) := hstring
  have hbits : ∀ k < n, (m (ptr + 2 + k)).toNat % 8 = groupBits pictureID (n - 1 - k) := by
    intro k hk
    rw [Mem.byte_of_holds hstring (by rw [List.length_append, length_groupBytes _ h1]; omega)]
    exact groupBytes_bits hk _
  have hpaddingBits : (m ptr).toNat % 8 = 0 := by
    rw [hpadding, BitVec.toNat_ofNat]
    omega
  have hlen : n ≤ 2 ∧ 2 + n + paddingBytes = 4 ∨ (2 < n ∧ n ≤ 6) ∧ 2 + n + paddingBytes = 8 ∨
      6 < n ∧ 2 + n + paddingBytes = 12 := by
    split at hpad <;> omega
  rw [conversions_cons (by omega) hpaddingBits, hfirst]
  have hcons : ∀ l : List (BitVec 64), pictureID :: l = [pictureID] ↔ l = [] := fun l => by simp
  have hat0 := hbits 0 (by omega)
  rw [hcons, Passed, hn]
  rcases hlen with ⟨hn2, hlen⟩ | ⟨⟨hn2, hn6⟩, hlen⟩ | ⟨hn6, hlen⟩
  · -- One word: nothing is left.
    rw [hlen, conversions_end (by omega)]
    exact iff_of_true rfl (.inl hn2)
  · -- Two words: a second item starts at the first group.
    rw [hlen]
    by_cases hgroup : groupBits pictureID (n - 1) = 0
    · rw [conversions_cons (by omega) (hat0.trans hgroup)]
      refine iff_of_false (List.cons_ne_nil _ _) ?_
      rintro (h | ⟨-, h⟩ | ⟨h, -⟩)
      · omega
      · exact h hgroup
      · omega
    · rw [conversions_passed (by omega) (hat0 ▸ hgroup), conversions_end (by omega)]
      exact iff_of_true rfl (.inr (.inl ⟨hn6, hgroup⟩))
  · -- Three words: a third item starts at the fifth group.
    rw [hlen]
    by_cases hgroup : groupBits pictureID (n - 1) = 0
    · rw [conversions_cons (by omega) (hat0.trans hgroup)]
      refine iff_of_false (List.cons_ne_nil _ _) ?_
      rintro (h | ⟨h, -⟩ | ⟨-, -, h, -⟩)
      · omega
      · omega
      · exact h hgroup
    have hat4 := hbits 4 (by omega)
    rw [show ptr + 2 + 4 = ptr + 6 from rfl, show n - 1 - 4 = n - 5 by omega] at hat4
    rw [conversions_passed (by omega) (hat0 ▸ hgroup), show ptr + 2 + 4 = ptr + 6 from rfl]
    by_cases hgroup' : groupBits pictureID (n - 5) = 0
    · rw [conversions_cons (by omega) (hat4.trans hgroup')]
      refine iff_of_false (List.cons_ne_nil _ _) ?_
      rintro (h | ⟨h, -⟩ | ⟨-, -, -, h⟩)
      · omega
      · omega
      · exact h hgroup'
    · rw [conversions_passed (by omega) (hat4 ▸ hgroup'), conversions_end (by omega)]
      exact iff_of_true rfl (.inr (.inr ⟨hn6, hn9, hgroup, hgroup'⟩))

end

section

open RTCPParserV2

/-- The picture ids that the receiver reports of a packet, with the parser as
`p` in it. -/
def received (packet : List Byte) (p : RTCPParserV2) : List (BitVec 64) :=
  (RTCPReceiver.incomingRTCPPacket (Mem.ofList packet) packet.length (packet.length + 6)
    (iterate (Mem.ofList packet) packet.length p) {}).rpsiReports

/-- The packets that the parser returns, from `p` on. -/
def returned (packet : List Byte) (p : RTCPParserV2) : List (RTCPPacketTypes × RTCPPacket) :=
  RTCPReceiver.packets (Mem.ofList packet) packet.length (packet.length + 6)
    (iterate (Mem.ofList packet) packet.length p)

/-- The block that is built behind `buffer` gives one report of the picture id,
and changes nothing else of a packet that goes on with `post`. -/
def RoundTrip (s : RTCPSender) (pictureID : BitVec 64) (payloadType : Byte)
    (buffer post : List Byte) (p : RTCPParserV2) : Prop :=
  ∃ packet, s.buildRPSI pictureID payloadType buffer = some (0, packet) ∧
    received (packet ++ post) p = pictureID :: received (buffer ++ post) p ∧
    ∃ items, (∀ item ∈ items, item.1 = RTCPPacketTypes.kRtcpPsfbRpsiCode) ∧
      returned (packet ++ post) p = items ++ returned (buffer ++ post) p

theorem roundTrip_of_groups {s : RTCPSender} {pictureID : BitVec 64} {payloadType : Byte}
    {buffer post : List Byte} {p : RTCPParserV2} (hroom : buffer.length + 24 < IP_PACKET_SIZE)
    (h4 : 4 ∣ buffer.length) (hp : p.AtTopLevel buffer.length)
    (hnext : (iterate (Mem.ofList (buffer ++ post)) (buffer ++ post).length p).packetType ≠
      .kRtcpPsfbRpsiCode) (hn9 : numberOfGroups pictureID ≤ 9) :
    RoundTrip s pictureID payloadType buffer post p ↔ Passed pictureID := by
  generalize hn : numberOfGroups pictureID = n at hn9
  have h1 : 1 ≤ n := hn ▸ Nat.succ_le_succ (Nat.zero_le _)
  generalize hpad : (if 4 - (2 + n) % 4 = 4 then 0 else 4 - (2 + n) % 4) = paddingBytes
  generalize hstring : [BitVec.ofNat 8 (paddingBytes * 8), payloadType] ++
    (groupBytes pictureID n ++ List.replicate paddingBytes 0) = string
  have hstringLen : string.length = 2 + n + paddingBytes := by
    rw [← hstring, List.length_append, List.length_append, length_groupBytes _ h1,
      List.length_replicate]
    show 2 + _ = _
    omega
  generalize hwords : (if n > 6 then 5 else if n > 2 then 4 else 3 : BitVec 16) = words
  generalize hmessage : feedbackBytes 3 PT_PSFB words s.SSRC s.remoteSSRC = message
  have hmessageLen : message.length = 12 := hmessage ▸ rfl
  have hwordsLen : 2 ≤ words.toNat ∧ words.toNat + 1 < 2 ^ 14 ∧
      4 * (words.toNat + 1) = 14 + n + paddingBytes := by
    subst hwords hpad
    split
    · rw [show (5 : BitVec 16).toNat = 5 from rfl]
      split <;> omega
    split
    · rw [show (4 : BitVec 16).toNat = 4 from rfl]
      split <;> omega
    · rw [show (3 : BitVec 16).toNat = 3 from rfl]
      split <;> omega
  have hbuild : s.buildRPSI pictureID payloadType buffer = some (0, buffer ++ (message ++ string)) := by
    rw [buildRPSI_eq s pictureID payloadType hroom, if_pos (hn ▸ hn9), hn, rpsiBytes, hwords, hmessage,
      hpad, hstring]
  -- The memories with the block and without it.
  have hholds := Mem.holds_ofList buffer (message ++ string) post
  have hshift := fun i hi => @Mem.ofList_insert buffer (message ++ string) post i hi
  have hblockLen : (message ++ string).length = 14 + n + paddingBytes := by
    rw [List.length_append, hmessageLen, hstringLen]
    omega
  have hdataEnd : (buffer ++ (message ++ string) ++ post).length =
      (buffer ++ post).length + (14 + n + paddingBytes) := by
    rw [List.length_append, List.length_append, hblockLen, List.length_append]
    omega
  have hle : buffer.length ≤ (buffer ++ post).length := by
    rw [List.length_append]
    omega
  rw [hblockLen] at hshift
  rw [Mem.holds_append, hmessageLen] at hholds
  generalize hmem : Mem.ofList (buffer ++ (message ++ string) ++ post) = m at hholds hshift
  obtain ⟨hat, hret⟩ := @iterate_feedback m
    ((buffer ++ post).length + (14 + n + paddingBytes)) p _ 3 PT_PSFB words s.SSRC s.remoteSSRC _ _ _
    hp (hmessage ▸ hholds.1) (by decide) (.inr rfl) ⟨hwordsLen.1, hwordsLen.2.1⟩ (by omega)
    (fun _ => rfl)
  rw [hwordsLen.2.2] at hat
  have hd : 4 ∣ 14 + n + paddingBytes := Dvd.intro _ hwordsLen.2.2
  have hd24 : 12 ≤ 14 + n + paddingBytes ∧ 14 + n + paddingBytes ≤ 24 := by
    subst hpad
    split <;> omega
  have hreceived : received (buffer ++ (message ++ string) ++ post) p = pictureID ::
      received (buffer ++ post) p ↔ Passed pictureID := by
    have hconversions := conversions_rpsi hn hn9 hpad.symm (hstring ▸ hholds.2)
    rw [show buffer.length + 12 + (2 + n + paddingBytes) = buffer.length + (14 + n + paddingBytes) by
      omega] at hconversions
    rw [received, hdataEnd, hmem, RTCPReceiver.incoming_behind hd hshift h4 hp hle hd24 hat
      hret.packetType hnext, received, ← List.singleton_append, List.append_cancel_right_eq,
      ← hconversions]
  have hreturned : ∃ items, (∀ item ∈ items, item.1 = RTCPPacketTypes.kRtcpPsfbRpsiCode) ∧
      returned (buffer ++ (message ++ string) ++ post) p = items ++ returned (buffer ++ post) p := by
    rw [returned, hdataEnd, hmem]
    exact RTCPReceiver.packets_behind hd hshift h4 hp hle hd24 hat hret.packetType
  rw [RoundTrip, hbuild]
  constructor
  · rintro ⟨packet, hpacket, honce, -⟩
    cases hpacket
    exact hreceived.mp honce
  · intro hpassed
    exact ⟨_, rfl, hreceived.mpr hpassed, hreturned⟩

/-- A picture id is reported once, and the rest of the packet is parsed as
without the block, if and only if the bytes of the id that are taken for the
start of an item are passed over. A compound packet has one such block, so
that none follows. -/
theorem roundTrip_iff (s : RTCPSender) (pictureID : BitVec 64) (payloadType : Byte)
    (buffer post : List Byte) (p : RTCPParserV2) (hroom : buffer.length + 24 < IP_PACKET_SIZE)
    (h4 : 4 ∣ buffer.length) (hp : p.AtTopLevel buffer.length)
    (hnext : (iterate (Mem.ofList (buffer ++ post)) (buffer ++ post).length p).packetType ≠
      .kRtcpPsfbRpsiCode) :
    RoundTrip s pictureID payloadType buffer post p ↔ Passed pictureID := by
  by_cases hn9 : numberOfGroups pictureID ≤ 9
  · exact roundTrip_of_groups hroom h4 hp hnext hn9
  · have hbuild : s.buildRPSI pictureID payloadType buffer = none := by
      rw [buildRPSI_eq s pictureID payloadType hroom, if_neg hn9]
    refine iff_of_false ?_ ?_
    · rintro ⟨packet, hpacket, -⟩
      rw [hbuild] at hpacket
      cases hpacket
    · rintro (h | ⟨h, -⟩ | ⟨-, h, -⟩) <;> omega

/-- Two groups, behind a picture loss indication and before a goodbye. -/
theorem roundTrip_two_groups :
    let s : RTCPSender := { SSRC := 1, remoteSSRC := 2 }
    let buffer := (s.buildPLI []).2
    let post := (s.buildBYE []).2
    let p := iterate (Mem.ofList buffer) buffer.length
      (RTCPParserV2.new (Mem.ofList buffer) buffer.length true)
    RoundTrip s 300 96 buffer post p := by
  intro s buffer post p
  exact (roundTrip_iff s 300 96 buffer post p (by decide +kernel) (by decide +kernel)
    ⟨by decide +kernel, by decide +kernel, by decide +kernel⟩ (by decide +kernel)).mpr
    (by decide +kernel)

/-- The first group of `0x20000` is 8, which is taken for whole bytes of
padding: the receiver reports three picture ids. -/
theorem not_roundTrip_0x20000 :
    let s : RTCPSender := { SSRC := 1, remoteSSRC := 2 }
    let buffer := (s.buildPLI []).2
    let p := iterate (Mem.ofList buffer) buffer.length
      (RTCPParserV2.new (Mem.ofList buffer) buffer.length true)
    (s.buildRPSI 0x20000 96 buffer).map (fun r => (received r.2 p).length) = some 3 ∧
    ¬ RoundTrip s 0x20000 96 buffer [] p := by
  intro s buffer p
  have hreports : (s.buildRPSI 0x20000 96 buffer).map (fun r => (received r.2 p).length) = some 3 := by
    decide +kernel
  have hnone : received buffer p = [] := by decide +kernel
  refine ⟨hreports, ?_⟩
  rintro ⟨packet, hpacket, honce, -⟩
  rw [List.append_nil, List.append_nil, hnone] at honce
  rw [hpacket, Option.map_some, honce] at hreports
  cases hreports

end

end PerchWebrtc.Rtcp
