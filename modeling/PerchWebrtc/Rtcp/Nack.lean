import PerchWebrtc.Rtcp.Feedback
import PerchWebrtc.Rtcp.Receiver
import PerchWebrtc.Rtcp.Sender

/-!
# Negative acknowledgements from the sender to the receiver

`BuildNACK` packs sequence numbers into fields of a number and a bitmask, the
receiver expands them again.

* `mem_nackBitmask`, `mem_nackFields`: a field and a list of fields stand for
  the numbers they were made of;
* `handleNACKItem_numbers`, `handleNACKItems_fields`: what the receiver makes of
  them;
* `handleNACK_buildNACK`: the round trip.
-/

namespace PerchWebrtc.Rtcp

/-- The sequence numbers of a field. -/
def nackNumbers (field : BitVec 16 × BitVec 16) : List (BitVec 16) :=
  field.1 :: ((List.range' 1 16).filter fun i => field.2.getLsbD (i - 1)).map
    fun i => field.1 + BitVec.ofNat 16 i

theorem mem_nackNumbers {nack mask x : BitVec 16} : x ∈ nackNumbers (nack, mask) ↔
    x = nack ∨ ∃ j < 16, mask.getLsbD j = true ∧ x = nack + BitVec.ofNat 16 (j + 1) := by
  simp only [nackNumbers, List.mem_cons, List.mem_map, List.mem_filter, List.mem_range'_1]
  constructor
  · rintro (h | ⟨i, ⟨⟨hi, hi'⟩, hbit⟩, rfl⟩)
    · exact .inl h
    · exact .inr ⟨i - 1, by omega, hbit, by rw [Nat.sub_add_cancel hi]⟩
  · rintro (h | ⟨j, hj, hbit, rfl⟩)
    · exact .inl h
    · exact .inr ⟨j + 1, ⟨⟨by omega, by omega⟩, hbit⟩, rfl⟩

theorem length_nackNumbers_le (field : BitVec 16 × BitVec 16) : (nackNumbers field).length ≤ 17 := by
  have h := List.length_filter_le (fun i => field.2.getLsbD (i - 1)) (List.range' 1 16)
  rw [List.length_range'] at h
  rw [nackNumbers, List.length_cons, List.length_map]
  omega

namespace RTCPSender

/-! ## Packing -/

/-- Setting a bit of the mask adds its number. -/
theorem mem_nackNumbers_or {nack mask x y : BitVec 16} {shift : Nat} (hshift : shift < 16)
    (hx : x = nack + BitVec.ofNat 16 (shift + 1)) :
    y ∈ nackNumbers (nack, mask ||| (1 : BitVec 16) <<< shift) ↔ y ∈ nackNumbers (nack, mask) ∨ y = x := by
  have hbit : ∀ j < 16, ((mask ||| (1 : BitVec 16) <<< shift).getLsbD j = true ↔
      mask.getLsbD j = true ∨ j = shift) := by
    intro j hj
    rw [BitVec.getLsbD_or, Bool.or_eq_true, BitVec.getLsbD_shiftLeft]
    have hone : (1 : BitVec 16).getLsbD (j - shift) = decide (j - shift = 0) := by
      rw [show (1 : BitVec 16) = 1#16 from rfl, BitVec.getLsbD_one]
      simp
    rw [hone]
    refine or_congr_right ?_
    simp only [Bool.and_eq_true, decide_eq_true_eq, Bool.not_eq_true', decide_eq_false_iff_not]
    omega
  simp only [mem_nackNumbers]
  constructor
  · rintro (h | ⟨j, hj, hj', rfl⟩)
    · exact .inl (.inl h)
    · rcases (hbit j hj).mp hj' with h | rfl
      · exact .inl (.inr ⟨j, hj, h, rfl⟩)
      · exact .inr hx.symm
  · rintro ((h | ⟨j, hj, hj', rfl⟩) | rfl)
    · exact .inl h
    · exact .inr ⟨j, hj, (hbit j hj).mpr (.inl hj'), rfl⟩
    · exact .inr ⟨shift, hshift, (hbit shift hshift).mpr (.inr rfl), hx⟩

/-- The bitmask takes numbers from the start of the list, and stands for
those. -/
theorem mem_nackBitmask (nack : BitVec 16) : ∀ (nackList : List (BitVec 16)) (mask : BitVec 16),
    ∃ taken, nackList = taken ++ (nackBitmask nack mask nackList).2 ∧
      ∀ y, y ∈ nackNumbers (nack, (nackBitmask nack mask nackList).1) ↔
        y ∈ nackNumbers (nack, mask) ∨ y ∈ taken
  | [], mask => ⟨[], rfl, fun y => by rw [nackBitmask]; simp⟩
  | x :: nackList, mask => by
    rw [nackBitmask]
    split
    · rename_i hshift
      obtain ⟨taken, hlist, hmem⟩ := mem_nackBitmask nack nackList
        (mask ||| (1 : BitVec 16) <<< ((x - nack).toNat - 1 : Int).toNat)
      have hx : x = nack + BitVec.ofNat 16 (((x - nack).toNat - 1 : Int).toNat + 1) := by
        rw [show ((x - nack).toNat - 1 : Int).toNat + 1 = (x - nack).toNat by omega,
          BitVec.ofNat_toNat, BitVec.setWidth_eq, BitVec.add_comm, BitVec.sub_add_cancel]
      refine ⟨x :: taken, congrArg (x :: ·) hlist, fun y => ?_⟩
      rw [hmem, mem_nackNumbers_or (by omega) hx, List.mem_cons, or_assoc]
    · exact ⟨[], rfl, fun y => by simp⟩

/-- The fields take numbers from the start of the list, and stand for those. -/
theorem mem_nackFields : ∀ (maxNackFields : Nat) (nackList : List (BitVec 16)),
    ∃ taken, nackList = taken ++ (nackFields maxNackFields nackList).2 ∧
      ∀ y, y ∈ (nackFields maxNackFields nackList).1.flatMap nackNumbers ↔ y ∈ taken
  | 0, nackList => ⟨[], rfl, fun y => by rw [nackFields]; simp⟩
  | n + 1, [] => ⟨[], rfl, fun y => by rw [nackFields]; simp⟩
  | n + 1, nack :: nackList => by
    obtain ⟨taken, hlist, hmem⟩ := mem_nackBitmask nack nackList 0
    obtain ⟨taken', hlist', hmem'⟩ := mem_nackFields n (nackBitmask nack 0 nackList).2
    have hnone : ∀ y, y ∈ nackNumbers (nack, 0) ↔ y = nack := fun y => by
      simp [mem_nackNumbers]
    rw [nackFields]
    refine ⟨nack :: (taken ++ taken'), ?_, fun y => ?_⟩
    · rw [List.cons_append, List.append_assoc, ← hlist', ← hlist]
    · rw [List.flatMap_cons, List.mem_append, hmem, hnone, hmem', List.mem_cons, List.mem_append,
        or_assoc]

theorem length_nackFields_le : ∀ (maxNackFields : Nat) (nackList : List (BitVec 16)),
    (nackFields maxNackFields nackList).1.length ≤ maxNackFields
  | 0, _ => Nat.le_refl 0
  | _ + 1, [] => Nat.zero_le _
  | n + 1, nack :: nackList => by
    rw [nackFields]
    exact Nat.succ_le_succ (length_nackFields_le n _)

theorem length_nackBitmask_le (nack : BitVec 16) : ∀ (nackList : List (BitVec 16)) (mask : BitVec 16),
    (nackBitmask nack mask nackList).2.length ≤ nackList.length
  | [], _ => Nat.le_refl 0
  | x :: nackList, mask => by
    rw [nackBitmask]
    split
    · exact (length_nackBitmask_le nack nackList _).trans (Nat.le_succ _)
    · exact Nat.le_refl _

/-- The fields of a list without a limit: no number is left after as many
rounds as the list has numbers. -/
def nackItems (nackList : List (BitVec 16)) : List (BitVec 16 × BitVec 16) :=
  (nackFields nackList.length nackList).1

/-- A limit that is not less than the number of fields leaves nothing. -/
theorem nackFields_rest : ∀ (maxNackFields rounds : Nat) (nackList : List (BitVec 16)),
    nackList.length ≤ rounds → (nackFields rounds nackList).1.length ≤ maxNackFields →
    (nackFields maxNackFields nackList).2 = []
  | 0, 0, nackList, hrounds, _ => List.length_eq_zero_iff.mp (Nat.le_zero.mp hrounds)
  | 0, _ + 1, [], _, _ => rfl
  | 0, rounds + 1, nack :: nackList, _, hle => by
    rw [nackFields] at hle
    exact absurd hle (Nat.not_succ_le_zero _)
  | _ + 1, _, [], _, _ => by rw [nackFields]
  | _ + 1, 0, _ :: _, hrounds, _ => absurd hrounds (Nat.not_succ_le_zero _)
  | n + 1, rounds + 1, nack :: nackList, hrounds, hle => by
    rw [nackFields] at hle ⊢
    have hlen := length_nackBitmask_le nack nackList 0
    rw [List.length_cons] at hrounds
    exact nackFields_rest n rounds _ (by omega) (Nat.le_of_succ_le_succ hle)

/-- The numbers that a NACK at `pos` takes. -/
def consumed (pos : Nat) (nackList : List (BitVec 16)) : List (BitVec 16) :=
  nackList.take (nackList.length - (nackFields (maxNackFields pos) nackList).2.length)

theorem mem_consumed {pos : Nat} {nackList : List (BitVec 16)} (y : BitVec 16) :
    y ∈ (nackFields (maxNackFields pos) nackList).1.flatMap nackNumbers ↔
      y ∈ consumed pos nackList := by
  obtain ⟨taken, hlist, hmem⟩ := mem_nackFields (maxNackFields pos) nackList
  have htaken : consumed pos nackList = taken := by
    have hlen := congrArg List.length hlist
    rw [List.length_append] at hlen
    rw [consumed, hlen, Nat.add_sub_cancel]
    conv_lhs => rw [hlist]
    exact List.take_left
  rw [hmem, htaken]

/-- The list is taken whole if its fields fit in the item limit and in the
packet. -/
theorem consumed_eq {pos : Nat} {nackList : List (BitVec 16)}
    (hitems : (nackItems nackList).length ≤ kRtcpMaxNackFields)
    (hroom : pos + 12 + 4 * (nackItems nackList).length ≤ IP_PACKET_SIZE) :
    consumed pos nackList = nackList := by
  have hmax : (nackItems nackList).length ≤ maxNackFields pos := by
    rw [maxNackFields]
    omega
  rw [consumed, nackFields_rest _ nackList.length nackList (Nat.le_refl _) hmax, List.length_nil,
    Nat.sub_zero, List.take_length]

/-- The NACK that is built. -/
theorem buildNACK_of_room (s : RTCPSender) {buffer : List Byte} (nackList : List (BitVec 16))
    (hroom : buffer.length + 16 < IP_PACKET_SIZE) :
    s.buildNACK nackList buffer = (0, buffer ++
      (RTCPParserV2.feedbackBytes 1 PT_RTPFB
        (BitVec.ofNat 16 (2 + (nackFields (maxNackFields buffer.length) nackList).1.length))
        s.SSRC s.remoteSSRC ++
      (nackFields (maxNackFields buffer.length) nackList).1.flatMap
        fun field => bytes16 field.1 ++ bytes16 field.2)) := by
  have hlen := length_nackFields_le (maxNackFields buffer.length) nackList
  have hmax : maxNackFields buffer.length ≤ 253 := Nat.min_le_left _ _
  rw [buildNACK, if_neg (Nat.not_le.mpr hroom), RTCPParserV2.feedbackBytes,
    bytes16_ofNat (by omega)]
  simp only [List.append_assoc, List.cons_append, List.nil_append]

end RTCPSender

/-! ## Expanding -/

namespace RTCPPacketInformation

variable {info : RTCPPacketInformation}

theorem addNACKPacket_numbers {packetID : BitVec 16}
    (h : info.nackSequenceNumbers.length < kSendSideNackListSizeSanity) :
    (info.addNACKPacket packetID).nackSequenceNumbers = info.nackSequenceNumbers ++ [packetID] := by
  rw [addNACKPacket, if_neg (Nat.not_le.mpr h)]

/-- The rounds over the bits of a mask. -/
theorem foldl_addNACKPacket {bit : Nat → Bool} {number : Nat → BitVec 16} :
    ∀ (rounds : List Nat) (info : RTCPPacketInformation),
    info.nackSequenceNumbers.length + rounds.length ≤ kSendSideNackListSizeSanity →
    (rounds.foldl (fun info i => if bit i then info.addNACKPacket (number i) else info)
      info).nackSequenceNumbers = info.nackSequenceNumbers ++ (rounds.filter bit).map number
  | [], info, _ => by simp
  | i :: rounds, info, h => by
    rw [List.length_cons] at h
    rw [List.foldl_cons, List.filter_cons]
    by_cases hi : bit i = true
    · have hadd := @addNACKPacket_numbers info (number i) (by omega)
      rw [if_pos hi, if_pos hi, foldl_addNACKPacket rounds _ (by
        rw [hadd, List.length_append, List.length_singleton]
        omega), hadd, List.map_cons, List.append_assoc]
      rfl
    · rw [if_neg hi, if_neg hi]
      exact foldl_addNACKPacket rounds info (by omega)

theorem handleNACKItem_numbers (field : BitVec 16 × BitVec 16)
    (h : info.nackSequenceNumbers.length + 17 ≤ kSendSideNackListSizeSanity) :
    (info.handleNACKItem field.1 field.2).nackSequenceNumbers =
      info.nackSequenceNumbers ++ nackNumbers field := by
  have hadd := @addNACKPacket_numbers info field.1 (by omega)
  rw [handleNACKItem]
  dsimp only
  rw [foldl_addNACKPacket _ _ (by
    rw [hadd, List.length_append, List.length_singleton, List.length_range']
    omega), hadd, List.append_assoc]
  rfl

end RTCPPacketInformation

namespace RTCPReceiver

open RTCPParserV2

variable {m : Mem} {dataEnd : Nat}

/-- An item of a NACK. -/
theorem iterate_nackItem {p : RTCPParserV2} {field : BitVec 16 × BitVec 16} {ptr blockEnd : Nat}
    (hp : p.At .RTPFB_NACKItem ptr blockEnd) (hroom : ptr + 4 ≤ blockEnd)
    (hbytes : m.Holds ptr (bytes16 field.1 ++ bytes16 field.2)) :
    (iterate m dataEnd p).At .RTPFB_NACKItem (ptr + 4) blockEnd ∧
      (iterate m dataEnd p).Returned .kRtcpRtpfbNackItemCode (.NACKItem field.1 field.2) := by
  rw [Mem.holds_append, Mem.holds_bytes16, Mem.holds_bytes16, length_bytes16] at hbytes
  have hroom' : ¬ p.reset.length < 4 := by
    rw [RTCPParserV2.length, hp.reset.ptr, hp.reset.blockEnd]
    omega
  have hitem : parseItem m p.reset = (true, { p.reset.read 4 with
      packetType := .kRtcpRtpfbNackItemCode, packet := .NACKItem field.1 field.2 }) := by
    rw [parseItem, hp.reset.state]
    dsimp only
    rw [parseNACKItem, parseItemOf, if_neg hroom', hp.reset.ptr, hbytes.1, hbytes.2]
  rw [iterate_item hp (by decide) hitem]
  refine ⟨⟨hp.valid, hp.state, ?_, hp.blockEnd⟩, ⟨rfl, rfl⟩⟩
  show p.ptrRTCPData + 4 = ptr + 4
  rw [hp.ptr]

/-- The items of a NACK, from the first one on. -/
theorem handleNACKItems_fields : ∀ (fields : List (BitVec 16 × BitVec 16)) {fuel ptr : Nat}
    {p : RTCPParserV2} {info : RTCPPacketInformation},
    p.At .RTPFB_NACKItem ptr (ptr + 4 * fields.length) →
    m.Holds ptr (fields.flatMap fun field => bytes16 field.1 ++ bytes16 field.2) →
    fields.length < fuel →
    info.nackSequenceNumbers.length + 17 * fields.length ≤ kSendSideNackListSizeSanity →
    (handleNACKItems m dataEnd fuel (iterate m dataEnd p) info).2.nackSequenceNumbers =
      info.nackSequenceNumbers ++ fields.flatMap nackNumbers
  | _, 0, _, _, _, _, _, hfuel, _ => absurd hfuel (Nat.not_lt_zero _)
  | [], fuel + 1, ptr, p, info, hp, _, _, _ => by
    obtain ⟨htop, hleft⟩ := @iterate_left m dataEnd p _ _ _ hp (by decide) (by
      rw [parseItem, hp.reset.state]
      dsimp only
      rw [parseNACKItem, parseItemOf, if_pos]
      rw [RTCPParserV2.length, hp.reset.ptr, hp.reset.blockEnd, List.length_nil]
      omega)
    have htype := @iterate_packetType m dataEnd _ _ htop
    rw [← hleft] at htype
    rw [handleNACKItems, List.flatMap_nil, List.append_nil]
    split
    · rename_i hitem _
      rw [hitem] at htype
      cases htype
    · rfl
  | field :: fields, fuel + 1, ptr, p, info, hp, hbytes, hfuel, hlen => by
    rw [List.flatMap_cons, Mem.holds_append] at hbytes
    rw [List.length_cons] at hp hfuel hlen
    obtain ⟨hat, hret⟩ := @iterate_nackItem m dataEnd p field _ _ hp (by omega) hbytes.1
    have hnumbers := @RTCPPacketInformation.handleNACKItem_numbers info field (by omega)
    have hle := length_nackNumbers_le field
    rw [handleNACKItems, hret.packetType, hret.packet]
    dsimp only
    rw [show ptr + 4 * (fields.length + 1) = ptr + 4 + 4 * fields.length by omega] at hat
    rw [handleNACKItems_fields fields hat hbytes.2 (by omega) (by
      rw [hnumbers, List.length_append]
      omega), hnumbers, List.flatMap_cons, List.append_assoc]

end RTCPReceiver

/-- The numbers that a receiver gets out of a NACK, which may stand anywhere in
a compound packet, are those that the sender took from its list; these are all
if their fields fit in the item limit and in the packet. A block with one field
that would end at the last byte of the packet is not built. -/
theorem handleNACK_buildNACK (s : RTCPSender) (buffer post : List Byte)
    (nackList : List (BitVec 16)) (p : RTCPParserV2) (info : RTCPPacketInformation)
    (hbuilt : (s.buildNACK nackList buffer).1 = 0) (hp : p.AtTopLevel buffer.length) :
    let packet := (s.buildNACK nackList buffer).2 ++ post
    let nack := RTCPParserV2.iterate (Mem.ofList packet) packet.length p
    nack.Returned .kRtcpRtpfbNackCode (.NACK s.SSRC s.remoteSSRC) ∧
    (∀ x, x ∈ (RTCPReceiver.handleNACK (Mem.ofList packet) packet.length s.remoteSSRC nack
        info).2.nackSequenceNumbers ↔ x ∈ RTCPSender.consumed buffer.length nackList) ∧
    ((RTCPSender.nackItems nackList).length ≤ kRtcpMaxNackFields →
      buffer.length + 12 + 4 * (RTCPSender.nackItems nackList).length ≤ IP_PACKET_SIZE →
      RTCPSender.consumed buffer.length nackList = nackList) := by
  have hroom : buffer.length + 16 < IP_PACKET_SIZE := by
    by_contra h
    rw [RTCPSender.buildNACK, if_pos (Nat.not_lt.mp h)] at hbuilt
    cases hbuilt
  rw [s.buildNACK_of_room nackList hroom]
  generalize hfields :
    (RTCPSender.nackFields (RTCPSender.maxNackFields buffer.length) nackList).1 = fields
  have hlen : fields.length ≤ RTCPSender.maxNackFields buffer.length :=
    hfields ▸ RTCPSender.length_nackFields_le _ nackList
  have hmax : RTCPSender.maxNackFields buffer.length ≤ 253 := Nat.min_le_left _ _
  generalize hmessage : RTCPParserV2.feedbackBytes 1 PT_RTPFB (BitVec.ofNat 16 (2 + fields.length))
    s.SSRC s.remoteSSRC = message
  generalize hitems : fields.flatMap (fun field => bytes16 field.1 ++ bytes16 field.2) = items
  have hitemsLen : items.length = 4 * fields.length :=
    hitems ▸ @length_flatMap_const _ _ 4 (fun field => rfl) fields
  have hmessageLen : message.length = 12 := hmessage ▸ rfl
  have hholds := Mem.holds_ofList buffer (message ++ items) post
  generalize hm : Mem.ofList (buffer ++ (message ++ items) ++ post) = m at hholds
  rw [Mem.holds_append, hmessageLen] at hholds
  have hwords : (BitVec.ofNat 16 (2 + fields.length)).toNat = 2 + fields.length := by
    rw [BitVec.toNat_ofNat]
    omega
  dsimp only
  rw [hm]
  have hdataEnd : (buffer ++ (message ++ items) ++ post).length =
      buffer.length + 12 + 4 * fields.length + post.length := by
    simp only [List.length_append, hmessageLen, hitemsLen]
    omega
  rw [hdataEnd]
  generalize hd : buffer.length + 12 + 4 * fields.length + post.length = dataEnd
  obtain ⟨hat, hret⟩ := @RTCPParserV2.iterate_feedback m dataEnd p _ 1 PT_RTPFB _ _ _ _ _ _ hp
    (hmessage ▸ hholds.1) (by decide) (.inl rfl) (by omega) (by omega) (fun _ => rfl)
  refine ⟨hret, fun x => ?_, RTCPSender.consumed_eq⟩
  have hend : buffer.length + 4 * (2 + fields.length + 1) =
      buffer.length + 12 + 4 * fields.length := by omega
  rw [hwords, hend] at hat
  rw [RTCPReceiver.handleNACK, hret.packet]
  dsimp only
  rw [if_neg (not_not.mpr rfl), RTCPReceiver.handleNACKItems_fields fields hat
    (hitems ▸ hholds.2) (by omega) (by
      show 0 + 17 * fields.length ≤ 20000
      omega), ← RTCPSender.mem_consumed, hfields]
  rfl

/-- A list that is not sorted, repeats a number and wraps, alone in its
packet. -/
theorem handleNACK_buildNACK_unsorted :
    let nackList : List (BitVec 16) := [65535, 0, 0, 14, 40, 7]
    let packet := (RTCPSender.buildNACK { SSRC := 1, remoteSSRC := 2 } nackList []).2 ++ []
    let nack := RTCPParserV2.iterate (Mem.ofList packet) packet.length
      (RTCPParserV2.new (Mem.ofList packet) packet.length true)
    ∀ x, x ∈ (RTCPReceiver.handleNACK (Mem.ofList packet) packet.length 2 nack
      {}).2.nackSequenceNumbers ↔ x ∈ nackList := by
  intro nackList packet nack x
  obtain ⟨-, hmem, hall⟩ := handleNACK_buildNACK { SSRC := 1, remoteSSRC := 2 } [] [] nackList
    (RTCPParserV2.new (Mem.ofList packet) packet.length true) {} (by decide +kernel)
    ⟨by decide +kernel, rfl, rfl⟩
  rw [← hall (by decide +kernel) (by decide +kernel)]
  exact hmem x

end PerchWebrtc.Rtcp
