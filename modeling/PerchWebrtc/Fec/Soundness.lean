import Mathlib
import PerchWebrtc.Fec.RecoveredList
import PerchWebrtc.Fec.UlpXor

/-!
# Recovered packets are the originals

The received packets are originals, in any order and with any losses, and FEC
packets that are the XOR of originals (`Originals.Sends`).

* `recovered_same`: the packet that is recovered is the original;
* `Sound`: the invariant; `keeps_sound`;
* `attemptRecoverFrom_settled`: no FEC packet is left that misses one packet;
* `run_recovers`: both, after every call.
-/

namespace PerchWebrtc.Fec

open Circular Packet

namespace Decoder

/-! ## One recovery -/

/-- The version bits are the ones of RTP, the others those of the XOR. -/
theorem setVersion_eq {x y b : Byte} (hflags : x &&& 0x3f = (y ^^^ b) &&& 0x3f)
    (hversion : b &&& 0xc0 = 0x80) : ((x ^^^ y) ||| 0x80) &&& 0xbf = b := by
  apply BitVec.eq_of_getLsbD_eq
  intro i hi
  have hf := congrArg (BitVec.getLsbD · i) hflags
  have hv := congrArg (BitVec.getLsbD · i) hversion
  simp only [BitVec.getLsbD_and, BitVec.getLsbD_xor, BitVec.getLsbD_or] at hf hv ⊢
  interval_cases i <;> simp at hf hv ⊢ <;> grind

variable {o : Originals} {d : Decoder}

/-- The packet that is recovered from an FEC packet is the original. -/
theorem recovered_same {f : FecPacket} (hssrc : f.ssrc = o.ssrc) (hprotects : o.Protects f.pkt)
    (hmasks : f.protectedPktList.map (·.seqNum) = f.pkt.maskSeqNums)
    (hlinks : LinksTo o f.protectedPktList) (hone : (missing f.protectedPktList).length = 1) :
    ∃ p, o.packet (recovered f).seqNum = some p ∧ (recovered f).pkt.Same p := by
  obtain ⟨selected, hselected, hxor, -⟩ := hprotects
  obtain ⟨q, hq, -, hseq, hmissing⟩ := exists_missing hone
  obtain ⟨p, hp, -⟩ := hlinks q hq
  have hp' : o.packet (missingSeqNum f) = some p := hseq ▸ hp
  have hmedia := o.isMedia hp'
  have hseqs : (f.protectedPktList.map fun q => o.packet q.seqNum) = selected.map some := by
    rw [← hselected, ← hmasks, List.map_map]
    rfl
  -- Of a XOR over the selected packets, the missing one is left.
  have hleft : ∀ {w : Nat} (c : Packet → BitVec w),
      (∀ p q : Packet, p.Same q → 12 ≤ q.length.toNat → c p = c q) →
      xorAll (selected.map c) = xorAll ((linked f.protectedPktList).map c) ^^^ c p := by
    intro w c hc
    rw [xorAll_selected c hc hlinks hseqs, hmissing, List.map_singleton, hp, xorAll_cons,
      xorAll_nil, BitVec.xor_zero]
    rfl
  have hbyte : ∀ i, xorAll (selected.map (xorByte · i)) =
      xorAll ((linked f.protectedPktList).map (xorByte · i)) ^^^ p.xorByte i := fun i =>
    hleft (xorByte · i) fun _ _ hsame hq => hsame.xorByte hq i
  have hlength : (recovered f).pkt.length = p.length := by
    show (be16 f.pkt.data 8 ^^^ xorAll ((linked f.protectedPktList).map payloadLength)) + 12 = _
    rw [hxor.length, hleft payloadLength fun _ _ hsame _ => hsame.payloadLength, xor_xor_cancel,
      payloadLength]
    grind
  refine ⟨p, hp', hlength, fun i hi => ?_⟩
  show set16 (Mem.set (xorData f) 0 ((xorData f 0 ||| 0x80) &&& 0xbf)) 2 (missingSeqNum f) i = _
  have hpos : i = 0 ∨ (i = 1 ∨ (4 ≤ i ∧ i < 8)) ∨ (2 ≤ i ∧ i < 4) ∨ (8 ≤ i ∧ i < 12) ∨ 12 ≤ i := by
    omega
  rcases hpos with rfl | hpos | hpos | hpos | hpos
  · rw [set16_outside _ _ _ (by omega), Mem.set_self, xorData, initByte, if_pos (by omega)]
    refine setVersion_eq ?_ hmedia.version
    rw [hxor.flags, hbyte 0, xorByte, if_pos (by omega)]
  · rw [set16_outside _ _ _ (by omega), Mem.set_of_ne _ _ (by omega), xorData, initByte,
      if_pos (by omega), hxor.header i hpos, hbyte i, xor_xor_cancel, xorByte, if_pos (by omega)]
  · refine be16_inj ?_ hpos.1 (by omega)
    rw [be16_set16, hmedia.seqNum]
  · rw [set16_outside _ _ _ (by omega), Mem.set_of_ne _ _ (by omega), xorData, initByte,
      if_neg (by omega), if_pos hpos, xorAll_eq_zero, BitVec.xor_zero]
    · refine be32_inj ?_ hpos.1 hpos.2
      rw [be32_set32, hmedia.ssrc, hssrc]
    · intro x hx
      obtain ⟨src, -, rfl⟩ := List.mem_map.mp hx
      exact if_neg (by omega)
  · have hlen := payloadLength_toNat hmedia.header
    have hmem : p ∈ selected := by
      have hsome : some p ∈ selected.map some := hseqs ▸ hp ▸ List.mem_map_of_mem hq
      exact (List.mem_map_of_injective (Option.some_injective _)).mp hsome
    have hcovers : i < 12 + f.pkt.protectionLength := by
      have := hxor.covers p hmem
      omega
    rw [set16_outside _ _ _ (by omega), Mem.set_of_ne _ _ (by omega), xorData, initByte,
      if_neg (by omega), if_neg (by omega), if_pos ⟨hpos, hcovers⟩, hxor.payload i hpos hcovers,
      hbyte i, xor_xor_cancel, xorByte, if_pos (by omega)]

/-! ## The invariant -/

/-- Everything that is kept is one of the originals. -/
structure Sound (o : Originals) (d : Decoder) : Prop where
  recovered : ∀ r ∈ d.recoveredPacketList, ∃ p, o.packet r.seqNum = some p ∧ r.pkt.Same p
  ssrc : ∀ f ∈ d.fecPacketList, f.ssrc = o.ssrc
  protects : ∀ f ∈ d.fecPacketList, o.Protects f.pkt
  links : ∀ f ∈ d.fecPacketList, LinksTo o f.protectedPktList
  listed : ∀ f ∈ d.fecPacketList, ∀ q ∈ f.protectedPktList, q.pkt ≠ none → q.seqNum ∈ d.seqNums

theorem Sound.init (o : Originals) : Sound o init := ⟨nofun, nofun, nofun, nofun, nofun⟩

theorem Sound.of_subset (h : Sound o d) {l : List FecPacket} (hl : ∀ f ∈ l, f ∈ d.fecPacketList) :
    Sound o { d with fecPacketList := l } :=
  ⟨h.recovered, fun f hf => h.ssrc f (hl f hf), fun f hf => h.protects f (hl f hf),
    fun f hf => h.links f (hl f hf), fun f hf => h.listed f (hl f hf)⟩

theorem LinksTo.link {l : List ProtectedPacket} (h : LinksTo o l) {r : RecoveredPacket} {p : Packet}
    (hp : o.packet r.seqNum = some p) (hsame : r.pkt.Same p) : LinksTo o (l.map (link r)) := by
  intro q' hq'
  obtain ⟨q, hq, rfl⟩ := List.mem_map.mp hq'
  obtain ⟨p', hp', hlink⟩ := h q hq
  refine ⟨p', by rw [link_seqNum, hp'], fun src hsrc => ?_⟩
  unfold Decoder.link at hsrc
  split at hsrc
  · rename_i heq
    obtain rfl := Option.some.inj hsrc
    rw [heq, hp] at hp'
    exact Option.some.inj hp' ▸ hsame
  · exact hlink src hsrc

theorem Sound.addRecovered {o : Originals} {d : Decoder} (h : Sound o d) (hsorted : SortedList d)
    {r : RecoveredPacket} {p : Packet} (hp : o.packet r.seqNum = some p) (hsame : r.pkt.Same p) :
    Sound o (d.addRecovered r) := by
  refine ⟨fun r' hr' => ?_, fun f hf => ?_, fun f hf => ?_, fun f hf => ?_, fun f hf => ?_⟩
  · have hmem := (sort_perm (·.seqNum) (d.recoveredPacketList ++ [r])).mem_iff.mp hr'
    rcases List.mem_append.mp hmem with hmem | hmem
    · exact h.recovered r' hmem
    · obtain rfl := List.mem_singleton.mp hmem
      exact ⟨p, hp, hsame⟩
  all_goals
    obtain ⟨g, hg, rfl⟩ := List.mem_map.mp hf
  · exact h.ssrc g hg
  · exact h.protects g hg
  · show LinksTo o (linkProtected r g.protectedPktList)
    rw [linkProtected_eq (ordered_of_map_eq (hsorted.masks g hg))]
    exact (h.links g hg).link hp hsame
  · intro q' hq' hlinked
    replace hq' : q' ∈ linkProtected r g.protectedPktList := hq'
    rw [linkProtected_eq (ordered_of_map_eq (hsorted.masks g hg))] at hq'
    obtain ⟨q, hq, rfl⟩ := List.mem_map.mp hq'
    rw [link_seqNum, mem_seqNums_addRecovered]
    by_cases heq : q.seqNum = r.seqNum
    · exact .inl heq
    · rw [link, if_neg heq] at hlinked
      exact .inr (h.listed g hg q hq hlinked)

/-- The links of a new FEC packet. -/
theorem Sound.assigned (h : Sound o d) {rx : ReceivedPacket} (hprotects : o.Protects rx.pkt) :
    LinksTo o (assigned rx d).protectedPktList ∧
      ∀ q ∈ (assigned rx d).protectedPktList, q.pkt ≠ none → q.seqNum ∈ d.seqNums := by
  obtain ⟨selected, hselected, -, -⟩ := hprotects
  have hpacket : ∀ n ∈ rx.pkt.maskSeqNums, ∃ p, o.packet n = some p := by
    intro n hn
    have hmem : o.packet n ∈ selected.map some := hselected ▸ List.mem_map_of_mem hn
    obtain ⟨p, -, hp⟩ := List.mem_map.mp hmem
    exact ⟨p, hp.symm⟩
  have hcases : ∀ q' ∈ (Decoder.assigned rx d).protectedPktList, ∃ p, o.packet q'.seqNum = some p ∧
      (q'.pkt = none ∨ ∃ r ∈ d.recoveredPacketList, r.seqNum = q'.seqNum ∧ q'.pkt = some r.pkt) := by
    intro q' hq'
    obtain ⟨q, hq, rfl⟩ := List.mem_map.mp hq'
    obtain ⟨n, hn, rfl⟩ := List.mem_map.mp hq
    obtain ⟨p, hp⟩ := hpacket n hn
    refine ⟨p, by rw [assign_seqNum]; exact hp, ?_⟩
    rw [assign_seqNum]
    unfold assign
    split
    · rename_i r hfind
      have hseq := List.find?_some hfind
      exact .inr ⟨r, List.mem_of_find?_eq_some hfind, of_decide_eq_true hseq, rfl⟩
    · exact .inl rfl
  refine ⟨fun q' hq' => ?_, fun q' hq' hlinked => ?_⟩
  · obtain ⟨p, hp, hnone | ⟨r, hr, hseq, hpkt⟩⟩ := hcases q' hq'
    · exact ⟨p, hp, fun src hsrc => by rw [hnone] at hsrc; cases hsrc⟩
    · obtain ⟨p', hp', hsame⟩ := h.recovered r hr
      refine ⟨p', hseq ▸ hp', fun src hsrc => ?_⟩
      rw [hpkt] at hsrc
      exact Option.some.inj hsrc ▸ hsame
  · obtain ⟨p, -, hnone | ⟨r, hr, hseq, -⟩⟩ := hcases q' hq'
    · exact absurd hnone hlinked
    · exact hseq ▸ List.mem_map_of_mem hr

theorem Sound.pushFecPacket (h : Sound o d) {rx : ReceivedPacket} (hssrc : rx.ssrc = o.ssrc)
    (hprotects : o.Protects rx.pkt) : Sound o (d.pushFecPacket (Decoder.assigned rx d)) := by
  obtain ⟨hlinks, hlisted⟩ := h.assigned hprotects
  refine ⟨h.recovered, fun f hf => ?_, fun f hf => ?_, fun f hf => ?_, fun f hf => ?_⟩
  all_goals rcases mem_pushFecPacket hf with rfl | hf
  · exact hssrc
  · exact h.ssrc f hf
  · exact hprotects
  · exact h.protects f hf
  · exact hlinks
  · exact h.links f hf
  · exact hlisted
  · exact h.listed f hf

/-! ## Runs in one window -/

/-- A full list is kept: there is a received packet, and its number is not far
from the last one of the list. -/
def keepsList (received : List ReceivedPacket) (d : Decoder) : Bool :=
  match received.head?, d.recoveredPacketList.getLast? with
  | some rx, some last => !bigGap rx.seqNum last.seqNum
  | _, _ => false

/-- No call resets the lists, and no packet is added to a full list. -/
def Live : Event → Decoder → Prop
  | .call received, d =>
    d.recoveredPacketList.length = kMaxMediaPackets → keepsList received d = true
  | .insert rx, d =>
    rx.isFec = true ∨ rx.seqNum ∈ d.seqNums ∨ d.recoveredPacketList.length < kMaxMediaPackets
  | .recover _, d => d.recoveredPacketList.length < kMaxMediaPackets

instance : ∀ (e : Event) (d : Decoder), Decidable (Live e d)
  | .call _, _ => inferInstanceAs (Decidable (_ → _))
  | .insert _, _ => inferInstanceAs (Decidable (_ ∨ _ ∨ _))
  | .recover _, _ => inferInstanceAs (Decidable (_ < _))

theorem Live.resetOnGap {received : List ReceivedPacket} (h : Live (.call received) d) :
    d.resetOnGap received = some d := by
  rw [Decoder.resetOnGap]
  split
  · rename_i hfull
    have hkeeps := h hfull
    unfold keepsList at hkeeps
    cases hrx : received.head? with
    | none => rw [hrx] at hkeeps; cases hkeeps
    | some rx =>
      cases hlast : d.recoveredPacketList.getLast? with
      | none => rw [hrx, hlast] at hkeeps; cases hkeeps
      | some last =>
        rw [hrx, hlast] at hkeeps
        simp only [Bool.not_eq_true'] at hkeeps
        simp only [hkeeps, Bool.false_eq_true, if_false]
  · rfl

theorem discardOldPackets_eq (h : d.recoveredPacketList.length ≤ kMaxMediaPackets) :
    d.discardOldPackets = d := by
  rw [discardOldPackets, Nat.sub_eq_zero_of_le h, List.drop_zero]

/-- The decoder has only originals, in its list and in its links. -/
structure InvSound (o : Originals) (d : Decoder) : Prop where
  sorted : SortedList d
  sound : Sound o d
  length : d.recoveredPacketList.length ≤ kMaxMediaPackets

/-- A recovery stays in the buffers, as those of the originals do. -/
theorem Sound.inBuffers (h : Sound o d) {f : FecPacket} (hf : f ∈ d.fecPacketList) :
    InBuffers (.recover f) d := by
  obtain ⟨selected, -, -, hpayload⟩ := h.protects f hf
  refine ⟨hpayload, fun src hsrc => ?_⟩
  obtain ⟨q, hq, hqsrc⟩ := List.mem_filterMap.mp hsrc
  obtain ⟨p, hp, hlink⟩ := h.links f hf q hq
  rw [(hlink src hqsrc).1]
  exact (o.isMedia hp).buffer

theorem keeps_sound (o : Originals) :
    Keeps (fun e d => Live e d ∧ InWindow e d) o.Sends (InvSound o) (InvSound o) where
  reset := fun hd h => ⟨_, h.1.resetOnGap, hd⟩
  insert := by
    rintro rx d ⟨hsorted, hsound, hlen⟩ hsends ⟨hlive, hwindow⟩
    rw [insertPacket]
    simp only [InWindow, Originals.Sends] at hwindow hsends
    split
    · rename_i hfec
      rw [if_pos hfec] at hwindow hsends
      rcases insertFECPacket_cases hsorted hwindow with h | h
      · exact ⟨d, h, hsorted, hsound, hlen⟩
      · exact ⟨_, h, hsorted.pushFecPacket rx, hsound.pushFecPacket hsends.1 hsends.2, hlen⟩
    · rename_i hmedia
      rw [if_neg hmedia] at hwindow hsends
      obtain ⟨p, hp, hsame⟩ := hsends
      refine ⟨_, rfl, ?_⟩
      rw [insertMediaPacket]
      split
      · exact ⟨hsorted, hsound, hlen⟩
      · rename_i hnew
        have hfree := (hlive.resolve_left hmedia).resolve_left hnew
        refine ⟨hsorted.addRecovered hnew hwindow, hsound.addRecovered hsorted hp hsame, ?_⟩
        rw [length_addRecovered]
        exact hfree
  discard := fun hd => by
    rw [discardOldPackets_eq hd.length]
    exact hd
  recover := by
    rintro d f rest ⟨hsorted, hsound, -⟩ hscan ⟨hlive, hwindow⟩
    obtain ⟨hrest, hf⟩ := scan_subset hscan
    obtain ⟨hmem, hone⟩ := hf f rfl
    obtain ⟨heq, hsorted'⟩ := hsorted.recoverWith hscan ⟨hwindow, hsound.inBuffers hmem⟩
    obtain ⟨p, hp, hsame⟩ := recovered_same (hsound.ssrc f hmem) (hsound.protects f hmem)
      (hsorted.masks f hmem) (hsound.links f hmem) hone
    have hsound' := (hsound.of_subset hrest).addRecovered (hsorted.of_subset hrest) hp hsame
    refine ⟨_, heq, hsorted', ?_, length_discardOldPackets _⟩
    rw [discardOldPackets_eq (by rw [length_addRecovered]; exact hlive)]
    exact hsound'
  scan := by
    rintro d rest ⟨hsorted, hsound, hlen⟩ hscan
    have hrest := (scan_subset hscan).1
    exact ⟨hsorted.of_subset hrest, hsound.of_subset hrest, hlen⟩

/-! ## The fixed point -/

/-- Every FEC packet that is kept misses two packets or more. -/
def Settled (d : Decoder) : Prop :=
  ∀ f ∈ d.fecPacketList, 2 ≤ (missing f.protectedPktList).length

theorem scan_settled : ∀ {l rest : List FecPacket}, scan l = (rest, none) →
    ∀ f ∈ rest, 2 ≤ (missing f.protectedPktList).length
  | [], rest, h => by
    obtain ⟨rfl, -⟩ := Prod.mk.inj h
    exact nofun
  | f :: l, rest, h => by
    rw [scan] at h
    split at h
    · exact scan_settled h
    · cases h
    · rename_i hne hne'
      obtain ⟨rfl, hnone⟩ := Prod.mk.inj h
      intro g hg
      rcases List.mem_cons.mp hg with rfl | hg
      · rw [missing, ← List.countP_eq_length_filter]
        replace hne : numCoveredPacketsMissing g ≠ 0 := hne
        replace hne' : numCoveredPacketsMissing g ≠ 1 := hne'
        unfold numCoveredPacketsMissing at hne hne'
        omega
      · exact scan_settled (Prod.ext rfl hnone) g hg

theorem scan_length : ∀ {l rest : List FecPacket} {f : FecPacket}, scan l = (rest, some f) →
    rest.length < l.length
  | [], _, _, h => by cases h
  | g :: l, rest, f, h => by
    rw [scan] at h
    split at h
    · exact (scan_length h).trans (Nat.lt_succ_self _)
    · obtain ⟨rfl, -⟩ := Prod.mk.inj h
      exact Nat.lt_succ_self _
    · obtain ⟨rfl, hsome⟩ := Prod.mk.inj h
      exact Nat.succ_lt_succ (scan_length (Prod.ext rfl hsome))

theorem attemptRecoverFrom_settled : ∀ {n : Nat} {d d' : Decoder}, d.fecPacketList.length ≤ n →
    attemptRecoverFrom n d = some d' → Settled d'
  | 0, d, d', hlen, h => by
    obtain rfl := Option.some.inj h
    intro f hf
    rw [List.eq_nil_of_length_eq_zero (Nat.le_zero.mp hlen)] at hf
    cases hf
  | n + 1, d, d', hlen, h => by
    rw [attemptRecoverFrom] at h
    split at h <;> rename_i hscan
    · obtain rfl := Option.some.inj h
      exact scan_settled hscan
    · obtain ⟨d₁, hrec, hfrom⟩ := Option.bind_eq_some_iff.mp h
      refine attemptRecoverFrom_settled ?_ hfrom
      obtain ⟨r, -, rfl⟩ := Option.map_eq_some_iff.mp hrec
      have hlt := scan_length hscan
      show ((updateCoveringFECPackets r _).length) ≤ n
      rw [updateCoveringFECPackets, List.length_map]
      exact Nat.le_of_lt_succ (hlt.trans_le hlen)

theorem run_settled : ∀ {calls : List (List ReceivedPacket)} {d d' : Decoder}, Settled d →
    run calls d = some d' → Settled d'
  | [], d, d', hd, h => Option.some.inj h ▸ hd
  | received :: calls, d, d', _, h => by
    obtain ⟨d₁, hdec, hrun⟩ := Option.bind_eq_some_iff.mp h
    obtain ⟨d₂, -, hins⟩ := Option.bind_eq_some_iff.mp hdec
    obtain ⟨d₃, -, hattempt⟩ := Option.bind_eq_some_iff.mp hins
    exact run_settled (attemptRecoverFrom_settled (Nat.le_refl _) hattempt) hrun

/-- The numbers that an FEC packet protects and that are in no packet of the
list. -/
def missingNums (d : Decoder) (f : FecPacket) : List (BitVec 16) :=
  f.pkt.maskSeqNums.filter fun n => !d.seqNums.contains n

theorem length_missingNums (h : InvSound o d) {f : FecPacket} (hf : f ∈ d.fecPacketList) :
    (missingNums d f).length = (missing f.protectedPktList).length := by
  rw [missingNums, ← h.sorted.masks f hf, List.filter_map, List.length_map, missing]
  refine congrArg _ (List.filter_congr fun q hq => ?_)
  rw [Bool.eq_iff_iff]
  simp only [Function.comp, Bool.not_eq_true', ← Bool.not_eq_true, List.contains_iff_mem,
    Option.isNone_iff_eq_none]
  exact ⟨fun hnot => by_contra fun hne => hnot (h.sound.listed f hf q hq hne),
    fun hnone => h.sorted.missing f hf q hq hnone⟩

/-- After every call of a run in one window, every packet in the list is the
original with its number, and no FEC packet misses exactly one packet. -/
theorem run_recovers {o : Originals} {calls : List (List ReceivedPacket)}
    (hsends : ∀ received ∈ calls, ∀ rx ∈ received, o.Sends rx)
    (halong : Along (fun e d => Live e d ∧ InWindow e d) calls init) (n : Nat) :
    ∃ d, run (calls.take n) init = some d ∧
      (∀ r ∈ d.recoveredPacketList, ∃ p, o.packet r.seqNum = some p ∧ r.pkt.Same p) ∧
      ∀ f ∈ d.fecPacketList, (missingNums d f).length ≠ 1 := by
  have hinit : InvSound o init := ⟨SortedList.init, Sound.init o, Nat.zero_le _⟩
  obtain ⟨d, hrun, hd⟩ := (keeps_sound o).run hinit
    (fun received hr => hsends received (List.mem_of_mem_take hr)) (halong.take n)
  refine ⟨d, hrun, hd.sound.recovered, fun f hf => ?_⟩
  have hsettled := @run_settled _ init _ nofun hrun f hf
  rw [length_missingNums hd hf]
  omega

/-- A media packet without payload for every number. -/
def emptyOriginals : Originals where
  ssrc := 1
  packet n := some (emptyMediaPacket n).pkt
  isMedia := by
    intro n p h
    obtain rfl := Option.some.inj h
    refine ⟨Nat.le_refl _, by show 12 ≤ 1500; omega, ?_, ?_, be32_set32 _ _ _⟩
    · show (0x80 : Byte) &&& 0xc0 = 0x80
      decide
    · refine Eq.trans ?_ (be16_set16 (Mem.ofList [0x80]) 2 n)
      exact be16_congr fun i hi => set32_outside _ _ _ (by omega)

theorem emptyOriginals_media (n : BitVec 16) : emptyOriginals.Sends (emptyMediaPacket n) :=
  ⟨_, rfl, Packet.Same.refl _⟩

theorem emptyOriginals_fec {base : BitVec 16} (hbase : base = 0 ∨ base = 0xffff) :
    emptyOriginals.Sends (emptyFecPacket base) := by
  have hmask : (emptyFecPacket base).pkt.maskSeqNums = [base] := by
    rcases hbase with rfl | rfl <;> decide
  have hlen : (emptyFecPacket base).pkt.protectionLength = 0 := by
    rcases hbase with rfl | rfl <;> decide
  refine ⟨rfl, [(emptyMediaPacket base).pkt], by rw [hmask]; rfl,
    ⟨?_, fun i hi => ?_, ?_, fun p hp => ?_, fun i hi hi' => ?_⟩, ?_⟩
  · rcases hbase with rfl | rfl <;> decide
  · have hi' : i = 1 ∨ i = 4 ∨ i = 5 ∨ i = 6 ∨ i = 7 := by omega
    rcases hbase with rfl | rfl <;> rcases hi' with rfl | rfl | rfl | rfl | rfl <;> decide
  · rcases hbase with rfl | rfl <;> decide
  · obtain rfl := List.mem_singleton.mp hp
    show (12#16 - 12#16).toNat ≤ _
    rw [BitVec.sub_self]
    exact Nat.zero_le _
  · rw [hlen] at hi'
    omega
  · rcases hbase with rfl | rfl <;> decide

/-- The packet `0xffff` is recovered from its FEC packet. -/
theorem run_recovers_single :
    ∃ d, run ([[emptyMediaPacket 0], [emptyFecPacket 0xffff]].take 2) init = some d ∧
      (∀ r ∈ d.recoveredPacketList, ∃ p, emptyOriginals.packet r.seqNum = some p ∧ r.pkt.Same p) ∧
      ∀ f ∈ d.fecPacketList, (missingNums d f).length ≠ 1 := by
  refine @run_recovers emptyOriginals _ ?_ (by decide +kernel) 2
  simp only [List.forall_mem_cons]
  exact ⟨⟨emptyOriginals_media 0, nofun⟩, ⟨emptyOriginals_fec (.inr rfl), nofun⟩, nofun⟩

/-- Where packets half of the number space apart are in one window, the FEC
packet of the one is compared with the other, for which it has no place. -/
theorem run_not_recovers :
    ¬ ∀ (o : Originals) (calls : List (List ReceivedPacket)),
      (∀ received ∈ calls, ∀ rx ∈ received, o.Sends rx) → Along Live calls init → ∀ n,
      ∃ d, run (calls.take n) init = some d ∧
        (∀ r ∈ d.recoveredPacketList, ∃ p, o.packet r.seqNum = some p ∧ r.pkt.Same p) ∧
        ∀ f ∈ d.fecPacketList, (missingNums d f).length ≠ 1 := by
  intro h
  have hsends : ∀ received ∈ [[emptyMediaPacket 0x8000], [emptyFecPacket 0]],
      ∀ rx ∈ received, emptyOriginals.Sends rx := by
    simp only [List.forall_mem_cons]
    exact ⟨⟨emptyOriginals_media _, nofun⟩, ⟨emptyOriginals_fec (.inl rfl), nofun⟩, nofun⟩
  obtain ⟨d, hd, -⟩ := h emptyOriginals _ hsends (by decide +kernel) 2
  cases hd

end Decoder

end PerchWebrtc.Fec
