import PerchWebrtc.Fec.RecoveredList

/-!
# Translated sequence numbers

The decoder compares sequence numbers by their differences, so that adding the
same number to the sequence numbers of all media and FEC packets, and to the
bases of the FEC packets, only translates what it does (`attemptRecover_shift`,
`insertPackets_shift`). The exception is the test for a big gap, which
subtracts the numbers as integers: the runs agree as long as that test does
(`run_shift`).
-/

namespace PerchWebrtc.Fec

open Circular

variable (k : BitVec 16)

/-- The number in bytes 2 and 3 is a media packet's own, and an FEC packet's
base. -/
def Packet.shift (p : Packet) : Packet := { p with data := set16 p.data 2 (p.seqNumBase + k) }

namespace Packet

variable (p : Packet)

@[simp]
theorem shift_length : (p.shift k).length = p.length := rfl

theorem shift_data {i : Nat} (h : i < 2 ∨ 4 ≤ i) : (p.shift k).data i = p.data i :=
  set16_outside _ _ _ (by omega)

theorem shift_be16 {i : Nat} (h : 4 ≤ i) : be16 (p.shift k).data i = be16 p.data i :=
  be16_congr fun _ _ => p.shift_data k (by omega)

@[simp]
theorem shift_seqNumBase : (p.shift k).seqNumBase = p.seqNumBase + k := be16_set16 _ _ _

@[simp]
theorem shift_lBit : (p.shift k).lBit = p.lBit := by
  rw [lBit, lBit, p.shift_data k (by omega)]

@[simp]
theorem shift_payloadStart : (p.shift k).payloadStart = p.payloadStart := by
  simp only [payloadStart, ulpHeaderSize, shift_lBit]

@[simp]
theorem shift_protectionLength : (p.shift k).protectionLength = p.protectionLength := by
  rw [protectionLength, protectionLength, p.shift_be16 k (by omega)]

theorem shift_maskSeqNums : (p.shift k).maskSeqNums = p.maskSeqNums.map (· + k) := by
  have hbit : (p.shift k).maskBit = p.maskBit := by
    funext i
    rw [maskBit, maskBit, p.shift_data k (by omega)]
  simp only [maskSeqNums, maskSizeBytes, shift_lBit, hbit, List.map_map, shift_seqNumBase]
  refine List.map_congr_left fun i _ => ?_
  show p.seqNumBase + k + _ = p.seqNumBase + _ + k
  rw [BitVec.add_assoc, BitVec.add_comm k, BitVec.add_assoc]

end Packet

theorem lessThan_shift (a b : BitVec 16) : lessThan (a + k) (b + k) = lessThan a b := by
  rw [Bool.eq_iff_iff, lessThan_iff, lessThan_iff, precedes_add]

def ReceivedPacket.shift (rx : ReceivedPacket) : ReceivedPacket :=
  { rx with seqNum := rx.seqNum + k, pkt := rx.pkt.shift k }

def RecoveredPacket.shift (r : RecoveredPacket) : RecoveredPacket :=
  { r with seqNum := r.seqNum + k, pkt := r.pkt.shift k }

def ProtectedPacket.shift (p : ProtectedPacket) : ProtectedPacket :=
  ⟨p.seqNum + k, p.pkt.map (·.shift k)⟩

def FecPacket.shift (f : FecPacket) : FecPacket :=
  { f with
    seqNum := f.seqNum + k, protectedPktList := f.protectedPktList.map (·.shift k)
    pkt := f.pkt.shift k }

namespace Decoder

def shift (d : Decoder) : Decoder :=
  ⟨d.fecPacketList.map (·.shift k), d.recoveredPacketList.map (·.shift k)⟩

@[simp]
theorem shift_fecPacketList (d : Decoder) :
    (d.shift k).fecPacketList = d.fecPacketList.map (·.shift k) := rfl

@[simp]
theorem shift_recoveredPacketList (d : Decoder) :
    (d.shift k).recoveredPacketList = d.recoveredPacketList.map (·.shift k) := rfl

/-! ## Insertion -/

theorem linkProtected_shift (r : RecoveredPacket) (l : List ProtectedPacket) :
    linkProtected (r.shift k) (l.map (·.shift k)) = (linkProtected r l).map (·.shift k) := by
  have hless : (fun p => lessThan p.seqNum (r.shift k).seqNum) ∘ ProtectedPacket.shift k =
      fun p => lessThan p.seqNum r.seqNum := funext fun p => lessThan_shift k _ _
  simp only [linkProtected, List.dropWhile_map, List.takeWhile_map, hless]
  cases l.dropWhile fun p => lessThan p.seqNum r.seqNum with
  | nil => rfl
  | cons p rest =>
    simp only [List.map_cons, ProtectedPacket.shift, RecoveredPacket.shift, BitVec.add_left_inj]
    split
    · rw [List.map_append]
      rfl
    · rfl

theorem searchFrom_shift (r : RecoveredPacket) : ∀ l : List ProtectedPacket,
    searchFrom (r.shift k) (l.map (·.shift k)) =
      (searchFrom r l).map fun found => (found.1.map (·.shift k), found.2.map (·.shift k))
  | [] => rfl
  | p :: l => by
    have ih := searchFrom_shift r l
    have hseq : (p.shift k).seqNum = (r.shift k).seqNum ↔ p.seqNum = r.seqNum := by
      rw [ProtectedPacket.shift, RecoveredPacket.shift, BitVec.add_left_inj]
    simp only [List.map_cons, searchFrom, hseq, ih]
    split
    · rfl
    · cases searchFrom r l <;> rfl

theorem assignFrom_shift : ∀ (rs : List RecoveredPacket) (l : List ProtectedPacket),
    assignFrom (rs.map (·.shift k)) (l.map (·.shift k)) =
      (assignFrom rs l).map (List.map (·.shift k))
  | [], _ => rfl
  | r :: rs, l => by
    simp only [List.map_cons, assignFrom, searchFrom_shift]
    cases searchFrom r l with
    | none => rfl
    | some found =>
      simp only [Option.map_some, Option.bind_some, assignFrom_shift rs found.2]
      cases assignFrom rs found.2 with
      | none => rfl
      | some l' => simp only [Option.map_some, List.map_append]

theorem assignRecoveredPackets_shift (f : FecPacket) (recovered : List RecoveredPacket) :
    assignRecoveredPackets (f.shift k) (recovered.map (·.shift k)) =
      (assignRecoveredPackets f recovered).map (·.shift k) := by
  have hinter := @map_setIntersection _ _ _ (RecoveredPacket.seqNum) (ProtectedPacket.seqNum)
    (RecoveredPacket.shift k) (ProtectedPacket.shift k) k (fun _ => rfl) (fun _ => rfl)
    recovered f.protectedPktList
  simp only [assignRecoveredPackets, FecPacket.shift, ← hinter, assignFrom_shift, Option.map_map]
  rfl

theorem discardOldPackets_shift (d : Decoder) :
    (d.shift k).discardOldPackets = d.discardOldPackets.shift k := by
  simp only [discardOldPackets, shift, List.length_map, List.map_drop]

theorem addRecovered_shift (r : RecoveredPacket) (d : Decoder) :
    (d.shift k).addRecovered (r.shift k) = (d.addRecovered r).shift k := by
  have hsort := @map_sort _ _ RecoveredPacket.seqNum (RecoveredPacket.shift k) k (fun _ => rfl)
    (d.recoveredPacketList ++ [r])
  have hlink : updateCoveringFECPackets (r.shift k) (d.fecPacketList.map (·.shift k)) =
      (updateCoveringFECPackets r d.fecPacketList).map (·.shift k) := by
    simp only [updateCoveringFECPackets, List.map_map]
    refine List.map_congr_left fun f _ => ?_
    simp only [Function.comp, FecPacket.shift, linkProtected_shift]
  simp only [addRecovered, shift, hlink, hsort, List.map_append, List.map_cons, List.map_nil]

theorem mem_seqNums_shift (d : Decoder) (n : BitVec 16) :
    n + k ∈ (d.shift k).seqNums ↔ n ∈ d.seqNums := by
  have hmap : (d.shift k).seqNums = d.seqNums.map (· + k) := by
    simp only [seqNums, shift, List.map_map]
    rfl
  rw [hmap, List.mem_map]
  simp only [BitVec.add_left_inj, exists_eq_right]

theorem insertMediaPacket_shift (rx : ReceivedPacket) (d : Decoder) :
    (d.shift k).insertMediaPacket (rx.shift k) = (d.insertMediaPacket rx).shift k := by
  have hmem : (rx.shift k).seqNum ∈ (d.shift k).seqNums ↔ rx.seqNum ∈ d.seqNums :=
    mem_seqNums_shift k d rx.seqNum
  simp only [insertMediaPacket, hmem]
  split
  · rfl
  · exact addRecovered_shift k ⟨rx.seqNum, false, true, 0, rx.pkt⟩ d

theorem newFecPacket_shift (rx : ReceivedPacket) :
    newFecPacket (rx.shift k) = (newFecPacket rx).shift k := by
  simp only [newFecPacket, ReceivedPacket.shift, FecPacket.shift, Packet.shift_maskSeqNums,
    List.map_map]
  rfl

theorem pushFecPacket_shift (f : FecPacket) (d : Decoder) :
    (d.shift k).pushFecPacket (f.shift k) = (d.pushFecPacket f).shift k := by
  have hsort := @map_sort _ _ FecPacket.seqNum (FecPacket.shift k) k (fun _ => rfl)
    (d.fecPacketList ++ [f])
  simp only [List.map_append, List.map_cons, List.map_nil] at hsort
  simp only [pushFecPacket, shift, ← hsort, List.length_map]
  split
  · rw [List.map_tail]
  · rfl

theorem insertFECPacket_shift (rx : ReceivedPacket) (d : Decoder) :
    (d.shift k).insertFECPacket (rx.shift k) = (d.insertFECPacket rx).map (shift k) := by
  have hmem : (rx.shift k).seqNum ∈ (d.shift k).fecPacketList.map (·.seqNum) ↔
      rx.seqNum ∈ d.fecPacketList.map (·.seqNum) := by
    simp only [shift, List.map_map, List.mem_map, Function.comp, FecPacket.shift,
      ReceivedPacket.shift, BitVec.add_left_inj]
  have hempty : ((newFecPacket rx).shift k).protectedPktList.isEmpty =
      (newFecPacket rx).protectedPktList.isEmpty := List.isEmpty_map
  simp only [insertFECPacket, hmem, newFecPacket_shift, hempty, shift_recoveredPacketList,
    assignRecoveredPackets_shift]
  split
  · rfl
  split
  · rfl
  cases assignRecoveredPackets (newFecPacket rx) d.recoveredPacketList with
  | none => rfl
  | some f => simp only [Option.map_some, pushFecPacket_shift]

theorem insertPacket_shift (rx : ReceivedPacket) (d : Decoder) :
    (d.shift k).insertPacket (rx.shift k) = (d.insertPacket rx).map (shift k) := by
  show (if rx.isFec then _ else _) = Option.map _ (if rx.isFec then _ else _)
  split
  · exact insertFECPacket_shift k rx d
  · rw [insertMediaPacket_shift]
    rfl

theorem insertPacketsFrom_shift : ∀ (received : List ReceivedPacket) (d : Decoder),
    insertPacketsFrom (received.map (·.shift k)) (d.shift k) =
      (insertPacketsFrom received d).map (shift k)
  | [], _ => rfl
  | rx :: received, d => by
    simp only [List.map_cons, insertPacketsFrom, insertPacket_shift]
    cases d.insertPacket rx with
    | none => rfl
    | some d' => exact insertPacketsFrom_shift received d'

theorem insertPackets_shift (received : List ReceivedPacket) (d : Decoder) :
    (d.shift k).insertPackets (received.map (·.shift k)) =
      (d.insertPackets received).map (shift k) := by
  rw [insertPackets, insertPackets, insertPacketsFrom_shift]
  cases insertPacketsFrom received d with
  | none => rfl
  | some d' => simp only [Option.map_some, discardOldPackets_shift]

/-! ## Recovery -/

/-- Bytes 2 and 3 of the FEC packet are not copied. -/
theorem initRecovery_shift (f : FecPacket) : initRecovery (f.shift k) = initRecovery f := by
  have hcopy : ∀ (m : Mem) (d s n : Nat), (s + n ≤ 2 ∨ 4 ≤ s) →
      m.copy d (f.pkt.shift k).data s n = m.copy d f.pkt.data s n := by
    intro m d s n h
    funext i
    unfold Mem.copy
    split
    · exact f.pkt.shift_data k (by omega)
    · rfl
  have hstart : 4 ≤ f.pkt.payloadStart := by
    unfold Packet.payloadStart kFecHeaderSize
    omega
  have hpkt : (f.shift k).pkt = f.pkt.shift k := rfl
  have hssrc : (f.shift k).ssrc = f.ssrc := rfl
  simp only [initRecovery, hpkt, hssrc, Packet.shift_protectionLength, Packet.shift_payloadStart,
    hcopy _ _ _ _ (.inr hstart), hcopy _ 0 0 2 (.inl (by omega)), hcopy _ 4 4 4 (.inr (by omega)),
    f.pkt.shift_be16 k (show 4 ≤ 8 by omega)]

/-- Bytes 2 and 3 of the media packets are not XORed. -/
theorem xorPackets_shift (src : Packet) (dst : RecoveredPacket) :
    xorPackets (src.shift k) dst = xorPackets src dst := by
  have hxor : ∀ (m : Mem) (d n : Nat), (d + n ≤ 2 ∨ 4 ≤ d) →
      m.xor d (src.shift k).data d n = m.xor d src.data d n := by
    intro m d n h
    funext i
    unfold Mem.xor
    split
    · rw [src.shift_data k (by omega)]
    · rfl
  simp only [xorPackets, Packet.shift_length, hxor _ 0 2 (.inl (by omega)),
    hxor _ 4 4 (.inr (by omega)), hxor _ kRtpHeaderSize _ (.inr (by unfold kRtpHeaderSize; omega))]

/-- The number is not looked at. -/
theorem xorPackets_seqNum (src : Packet) (r : RecoveredPacket) (n : BitVec 16) :
    xorPackets src { r with seqNum := n } =
      (xorPackets src r).map fun r => { r with seqNum := n } := by
  unfold xorPackets
  split <;> rfl

/-- The number is the only thing that the loop translates. -/
theorem recoverFrom_shift : ∀ (l : List ProtectedPacket) (r : RecoveredPacket),
    recoverFrom (l.map (·.shift k)) { r with seqNum := r.seqNum + k } =
      (recoverFrom l r).map fun r => { r with seqNum := r.seqNum + k }
  | [], _ => rfl
  | ⟨n, none⟩ :: l, r => recoverFrom_shift l { r with seqNum := n }
  | ⟨n, some src⟩ :: l, r => by
    have hhead : (ProtectedPacket.mk n (some src)).shift k = ⟨n + k, some (src.shift k)⟩ := rfl
    rw [List.map_cons, hhead]
    simp only [recoverFrom, xorPackets_shift, xorPackets_seqNum]
    cases hxor : xorPackets src r with
    | none => rfl
    | some r' =>
      have hseq : r.seqNum = r'.seqNum := by
        unfold xorPackets at hxor
        split at hxor
        · rw [← Option.some.inj hxor]
        · cases hxor
      rw [hseq]
      exact recoverFrom_shift l r'

/-- The first number does not matter if one packet is missing. -/
theorem recoverFrom_of_missing : ∀ {l : List ProtectedPacket} (r : RecoveredPacket)
    (n : BitVec 16), (∃ p ∈ l, p.pkt = none) →
    recoverFrom l { r with seqNum := n } = recoverFrom l r
  | ⟨_, none⟩ :: _, _, _, _ => rfl
  | ⟨m, some src⟩ :: l, r, n, h => by
    have hl : ∃ p ∈ l, p.pkt = none := by
      obtain ⟨p, hp, hnone⟩ := h
      rcases List.mem_cons.mp hp with rfl | hp
      · cases hnone
      · exact ⟨p, hp, hnone⟩
    simp only [recoverFrom, xorPackets_seqNum]
    cases xorPackets src r with
    | none => rfl
    | some r' => exact recoverFrom_of_missing r' n hl

theorem finishRecovery_shift (r : RecoveredPacket) :
    finishRecovery { r with seqNum := r.seqNum + k } = (finishRecovery r).shift k := by
  have hset : ∀ (m : Mem) (v v' : BitVec 16), set16 (set16 m 2 v) 2 v' = set16 m 2 v' := by
    intro m v v'
    funext i
    simp only [set16, Mem.set]
    split
    · rfl
    split
    · rfl
    · rfl
  have hbase : ∀ (m : Mem) (v : BitVec 16), be16 (set16 m 2 v) 2 = v := fun m v => be16_set16 m 2 v
  simp only [finishRecovery, RecoveredPacket.shift, Packet.shift, Packet.seqNumBase, hbase, hset]

theorem recoverPacket_shift {f : FecPacket} (h : ∃ p ∈ f.protectedPktList, p.pkt = none) :
    recoverPacket (f.shift k) = (recoverPacket f).map (·.shift k) := by
  have hlist : (f.shift k).protectedPktList = f.protectedPktList.map (·.shift k) := rfl
  have h' : ∃ p ∈ f.protectedPktList.map (·.shift k), p.pkt = none := by
    obtain ⟨p, hp, hnone⟩ := h
    exact ⟨p.shift k, List.mem_map_of_mem hp, by rw [ProtectedPacket.shift, hnone]; rfl⟩
  rw [recoverPacket, recoverPacket, initRecovery_shift, hlist]
  cases initRecovery f with
  | none => rfl
  | some r =>
    rw [Option.bind_some, Option.bind_some, ← recoverFrom_of_missing r (r.seqNum + k) h',
      recoverFrom_shift]
    cases recoverFrom f.protectedPktList r with
    | none => rfl
    | some r' => simp only [Option.map_some, finishRecovery_shift]

theorem numCoveredPacketsMissing_shift (f : FecPacket) :
    numCoveredPacketsMissing (f.shift k) = numCoveredPacketsMissing f := by
  simp only [numCoveredPacketsMissing, FecPacket.shift, List.countP_map]
  congr 2
  funext p
  cases p with
  | mk n pkt => cases pkt <;> rfl

theorem scan_shift : ∀ l : List FecPacket,
    scan (l.map (·.shift k)) = ((scan l).1.map (·.shift k), (scan l).2.map (·.shift k))
  | [] => rfl
  | f :: l => by
    have ih := scan_shift l
    rw [List.map_cons, scan, scan, numCoveredPacketsMissing_shift]
    split
    · exact ih
    · rfl
    · rw [ih]
      rfl

theorem attemptRecoverFrom_shift : ∀ (n : Nat) (d : Decoder),
    attemptRecoverFrom n (d.shift k) = (attemptRecoverFrom n d).map (shift k)
  | 0, _ => rfl
  | n + 1, d => by
    rw [attemptRecoverFrom, attemptRecoverFrom, shift_fecPacketList, scan_shift]
    rcases hscan : scan d.fecPacketList with ⟨rest, _ | f⟩
    · rfl
    · obtain ⟨-, hmissing⟩ := (scan_subset hscan).2 f rfl
      obtain ⟨p, hp, hnone, -⟩ := exists_missing hmissing
      have hrec : (d.shift k).recoverWith (f.shift k) (rest.map (·.shift k)) =
          (d.recoverWith f rest).map (shift k) := by
        rw [recoverWith, recoverWith, recoverPacket_shift k ⟨p, hp, hnone⟩]
        cases recoverPacket f with
        | none => rfl
        | some r =>
          have hadd := addRecovered_shift k r { d with fecPacketList := rest }
          simp only [Option.map_some, ← discardOldPackets_shift, ← hadd]
          rfl
      simp only [Option.map_some, hrec]
      cases d.recoverWith f rest with
      | none => rfl
      | some d' => exact attemptRecoverFrom_shift n d'

theorem attemptRecover_shift (d : Decoder) :
    (d.shift k).attemptRecover = d.attemptRecover.map (shift k) := by
  rw [attemptRecover, attemptRecover, shift_fecPacketList, List.length_map,
    attemptRecoverFrom_shift]

/-! ## The test for a big gap -/

/-- A call with a full list makes the same decision with translated numbers. -/
def SameGap : Event → Decoder → Prop
  | .call received, d =>
    d.recoveredPacketList.length = kMaxMediaPackets →
      ∀ rx, received.head? = some rx → ∀ last, d.recoveredPacketList.getLast? = some last →
        bigGap (rx.seqNum + k) (last.seqNum + k) = bigGap rx.seqNum last.seqNum
  | .insert _, _ => True
  | .recover _, _ => True

instance : ∀ (e : Event) (d : Decoder), Decidable (SameGap k e d)
  | .call _, _ => inferInstanceAs (Decidable (_ → ∀ _, _ → ∀ _, _ → _))
  | .insert _, _ => inferInstanceAs (Decidable True)
  | .recover _, _ => inferInstanceAs (Decidable True)

variable {k}

theorem resetOnGap_shift {received : List ReceivedPacket} {d : Decoder}
    (h : SameGap k (.call received) d) :
    (d.shift k).resetOnGap (received.map (·.shift k)) = (d.resetOnGap received).map (shift k) := by
  rw [resetOnGap, resetOnGap, shift_recoveredPacketList, List.length_map]
  split
  · rename_i hfull
    have hgap := h hfull
    rw [List.head?_map, List.getLast?_map]
    cases hhead : received.head? with
    | none => rfl
    | some rx =>
      cases hlast : d.recoveredPacketList.getLast? with
      | none => rfl
      | some last =>
        show some (if bigGap (rx.seqNum + k) (last.seqNum + k) then _ else _) = _
        rw [hgap rx hhead last hlast]
        simp only [Option.map_some]
        split <;> rfl
  · rfl

theorem decodeFEC_shift {received : List ReceivedPacket} {d : Decoder}
    (h : SameGap k (.call received) d) :
    (d.shift k).decodeFEC (received.map (·.shift k)) = (d.decodeFEC received).map (shift k) := by
  rw [decodeFEC, decodeFEC, resetOnGap_shift h]
  cases d.resetOnGap received with
  | none => rfl
  | some d₁ =>
    simp only [Option.map_some, Option.bind_some, insertPackets_shift]
    cases d₁.insertPackets received with
    | none => rfl
    | some d₂ => exact attemptRecover_shift k d₂

/-! ## Runs -/

theorem run_shift_from : ∀ {calls : List (List ReceivedPacket)} {d : Decoder},
    Along (SameGap k) calls d →
    run (calls.map (List.map (·.shift k))) (d.shift k) = (run calls d).map (shift k)
  | [], _, _ => rfl
  | received :: calls, d, ⟨hcall, hrest⟩ => by
    rw [List.map_cons, run, run, decodeFEC_shift hcall.1]
    cases hdec : d.decodeFEC received with
    | none => rfl
    | some d' => exact run_shift_from (hrest d' hdec)

/-- After every call of a run whose tests for a gap agree, the recovered packets
are those of the other run, translated. -/
theorem run_shift {calls : List (List ReceivedPacket)} (h : Along (SameGap k) calls init) (n : Nat) :
    (run ((calls.map (List.map (·.shift k))).take n) init).map (·.recoveredPacketList) =
      (run (calls.take n) init).map fun d => d.recoveredPacketList.map (·.shift k) := by
  have hrun := run_shift_from (h.take n)
  rw [List.map_take] at hrun
  rw [show init = init.shift k from rfl, hrun, Option.map_map]
  rfl

/-- The packet `0xffff` is recovered; translated by 1, it is packet 0. -/
theorem run_shift_single :
    (run (([[emptyMediaPacket 0], [emptyFecPacket 0xffff]].map (List.map (·.shift 1))).take 2)
        init).map (·.recoveredPacketList) =
      (run ([[emptyMediaPacket 0], [emptyFecPacket 0xffff]].take 2) init).map fun d =>
        d.recoveredPacketList.map (·.shift 1) :=
  run_shift (by decide +kernel) 2

/-- A full list that lacks packet 47, then an FEC packet for 46 and 47. -/
def fullThenFec : List (List ReceivedPacket) :=
  [(List.range 47).map (fun n => emptyMediaPacket (BitVec.ofNat 16 n)) ++ [emptyMediaPacket 48],
    [{ seqNum := 49, ssrc := 1, isFec := true
       pkt := ⟨14, set16 (Mem.ofList [0, 0, 0, 0, 0, 0, 0, 0, 0, 0, 0, 0, 0xc0, 0]) 2 46⟩ }]]

theorem fullThenFec_inHalf : ∀ received ∈ fullThenFec, ∀ rx ∈ received, InHalf 0 rx.seqNum ∧
    (rx.isFec = true → ∀ n ∈ rx.pkt.maskSeqNums, InHalf 0 n) := by
  have hall : ∀ received ∈ fullThenFec, ∀ rx ∈ received, InHalf 0 rx.seqNum ∧
      (rx.isFec = true → rx.pkt.maskSeqNums.all (fun n => InHalf 0 n) = true) := by decide +kernel
  simpa only [List.all_eq_true, decide_eq_true_eq] using hall

/-- The number 47 is recovered; translated to `0xfffe`, it is not, because the
number of the FEC packet is then 0. -/
theorem run_not_shift :
    ¬ ∀ (k : BitVec 16) (calls : List (List ReceivedPacket)),
      (∀ received ∈ calls, received ≠ []) →
      (∃ base, ∀ received ∈ calls, ∀ rx ∈ received, InHalf base rx.seqNum ∧
        (rx.isFec = true → ∀ n ∈ rx.pkt.maskSeqNums, InHalf base n)) →
      (run (calls.map (List.map (·.shift k))) init).map (·.recoveredPacketList) =
        (run calls init).map fun d => d.recoveredPacketList.map (·.shift k) := by
  intro h
  have hshift := h 0xffcf fullThenFec (by simp [fullThenFec]) ⟨0, fullThenFec_inHalf⟩
  have htranslated : (run (fullThenFec.map (List.map (·.shift 0xffcf))) init).map
      (·.recoveredPacketList.length) = some 0 := by decide +kernel
  have hrun : (run fullThenFec init).map (·.recoveredPacketList.length) = some 48 := by
    decide +kernel
  cases hd : run fullThenFec init with
  | none =>
    rw [hd] at hrun
    cases hrun
  | some d =>
    cases hd' : run (fullThenFec.map (List.map (·.shift 0xffcf))) init with
    | none =>
      rw [hd'] at htranslated
      cases htranslated
    | some d' =>
      rw [hd, hd'] at hshift
      rw [hd] at hrun
      rw [hd'] at htranslated
      have hlist : d'.recoveredPacketList = d.recoveredPacketList.map (·.shift 0xffcf) :=
        Option.some.inj hshift
      have hlength : d'.recoveredPacketList.length = d.recoveredPacketList.length := by
        rw [hlist, List.length_map]
      have hzero : d'.recoveredPacketList.length = 0 := Option.some.inj htranslated
      have hfull : d.recoveredPacketList.length = 48 := Option.some.inj hrun
      omega

end Decoder

end PerchWebrtc.Fec
