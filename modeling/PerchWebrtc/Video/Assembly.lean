import PerchWebrtc.Video.FrameBuffer

/-!
# The assembly of a frame

The packets of one frame are inserted into a frame buffer in any order. A
packet with a start code is copied together with the four bytes behind its
payload, over the first bytes of the packets behind it.

* `write_behind_iff`: the bytes behind a packet, after it was written;
* `insert_assembled_iff`: one insertion;
* `run_assembled_iff`: a run of insertions.
-/

namespace PerchWebrtc.Video

open Circular VCMSessionInfo

namespace VCMPacket

variable (p : VCMPacket Mem)

def payload : List Byte :=
  match p.dataPtr with
  | none => []
  | some data => data.bytes 0 p.sizeBytes

/-- The bytes of a packet in the frame. -/
def content : List Byte := (if p.insertStartCode then startCode else []) ++ p.payload

variable {p} {data : Mem}

theorem content_null (hptr : p.dataPtr = none) (hstart : p.insertStartCode = false) :
    p.content = [] := by
  rw [content, payload, hptr, hstart]
  rfl

theorem content_plain (hptr : p.dataPtr = some data) (hstart : p.insertStartCode = false) :
    p.content = data.bytes 0 p.sizeBytes := by
  rw [content, payload, hptr, hstart]
  rfl

theorem content_startCode (hptr : p.dataPtr = some data) (hstart : p.insertStartCode = true) :
    p.content = startCode ++ data.bytes 0 p.sizeBytes := by
  rw [content, payload, hptr, hstart]
  rfl

theorem storedSize_plain (hstart : p.insertStartCode = false) : p.storedSize = p.sizeBytes := by
  rw [storedSize, hstart]
  rfl

theorem storedSize_startCode (hstart : p.insertStartCode = true) :
    p.storedSize = p.sizeBytes + 4 := by
  rw [storedSize, hstart]
  rfl

theorem HasData.noStartCode (hdata : HasData p) (hptr : p.dataPtr = none) :
    p.insertStartCode = false := by
  by_contra hstart
  have hsize := storedSize_startCode (Bool.eq_true_of_not_eq_false hstart)
  rw [hdata hptr] at hsize
  omega

theorem content_length (hdata : HasData p) : p.content.length = p.storedSize := by
  cases hptr : p.dataPtr with
  | none =>
    rw [content_null hptr (hdata.noStartCode hptr), hdata hptr]
    rfl
  | some data =>
    cases hstart : p.insertStartCode with
    | false => rw [content_plain hptr hstart, Mem.bytes_length, storedSize_plain hstart]
    | true =>
      rw [content_startCode hptr hstart, List.length_append, Mem.bytes_length,
        storedSize_startCode hstart]
      exact Nat.add_comm _ _

end VCMPacket

open VCMPacket

/-! ## Writing a packet -/

section Write

variable {m : Mem} {p : VCMPacket Mem} {data : Mem} {offset behind : Nat}

theorem copyPacket_null (hptr : p.dataPtr = none) (hstart : p.insertStartCode = false) :
    copyPacket m p offset = m := by
  rw [copyPacket, hptr, hstart]
  rfl

theorem copyPacket_plain (hptr : p.dataPtr = some data) (hstart : p.insertStartCode = false) :
    copyPacket m p offset = m.copy offset data 0 p.sizeBytes := by
  rw [copyPacket, hptr, storedSize, hstart]
  rfl

/-- The second copy is as long as start code and payload together. -/
theorem copyPacket_startCode (hptr : p.dataPtr = some data) (hstart : p.insertStartCode = true) :
    copyPacket m p offset =
      (m.copy offset (Mem.ofList startCode) 0 4).copy (offset + 4) data 0 (p.sizeBytes + 4) := by
  rw [copyPacket, hptr, storedSize, hstart]
  rfl

theorem write_before (hdata : HasData p) {i : Nat} (hi : i < offset) :
    write m p offset behind i = m i := by
  rw [write, ← Mem.copy_outside m m (d := offset + p.storedSize) (s := offset) (n := behind)
    (i := i) (.inl (by omega))]
  generalize m.copy (offset + p.storedSize) m offset behind = m'
  cases hptr : p.dataPtr with
  | none => rw [copyPacket_null hptr (hdata.noStartCode hptr)]
  | some data =>
    cases hstart : p.insertStartCode with
    | false => rw [copyPacket_plain hptr hstart, Mem.copy_outside _ _ (.inl hi)]
    | true =>
      rw [copyPacket_startCode hptr hstart, Mem.copy_outside _ _ (.inl (by omega)),
        Mem.copy_outside _ _ (.inl hi)]

theorem write_content (hdata : HasData p) :
    (write m p offset behind).bytes offset p.storedSize = p.content := by
  rw [write]
  generalize m.copy (offset + p.storedSize) m offset behind = m'
  cases hptr : p.dataPtr with
  | none =>
    rw [content_null hptr (hdata.noStartCode hptr), hdata hptr]
    rfl
  | some data =>
    cases hstart : p.insertStartCode with
    | false =>
      rw [copyPacket_plain hptr hstart, content_plain hptr hstart, storedSize_plain hstart,
        Mem.bytes_eq_iff]
      intro i hi
      rw [Mem.copy_inside _ _ (by omega) (by omega), Nat.add_sub_cancel_left]
    | true =>
      rw [copyPacket_startCode hptr hstart, content_startCode hptr hstart,
        storedSize_startCode hstart, Nat.add_comm p.sizeBytes, Mem.bytes_add]
      congr 1
      · show _ = (Mem.ofList startCode).bytes 0 4
        rw [Mem.bytes_eq_iff]
        intro i hi
        rw [Mem.copy_outside _ _ (.inl (by omega)), Mem.copy_inside _ _ (by omega) (by omega),
          Nat.add_sub_cancel_left]
      · rw [Mem.bytes_eq_iff]
        intro i hi
        rw [Mem.copy_inside _ _ (by omega) (by omega), Nat.add_sub_cancel_left]

/-- The bytes behind the packet are those of `behind` unless it has a start
code, in which case the first four are what lies behind its payload. -/
theorem write_behind (hdata : HasData p) {i : Nat} (hi : i < behind) :
    write m p offset behind (offset + p.storedSize + i) =
      match p.dataPtr with
      | none => m (offset + i)
      | some data =>
        if p.insertStartCode ∧ i < 4 then data (p.sizeBytes + i) else m (offset + i) := by
  have hmoved : m.copy (offset + p.storedSize) m offset behind (offset + p.storedSize + i) =
      m (offset + i) := by
    rw [Mem.copy_inside _ _ (by omega) (by omega), Nat.add_sub_cancel_left]
  rw [write]
  cases hptr : p.dataPtr with
  | none => rw [copyPacket_null hptr (hdata.noStartCode hptr), hmoved]
  | some data =>
    cases hstart : p.insertStartCode with
    | false =>
      rw [copyPacket_plain hptr hstart, ← storedSize_plain hstart,
        Mem.copy_outside _ _ (.inr (by omega)), hmoved]
      rfl
    | true =>
      rw [copyPacket_startCode hptr hstart]
      have hsize := storedSize_startCode hstart
      by_cases h4 : i < 4
      · rw [Mem.copy_inside _ _ (by omega) (by omega)]
        show _ = if _ then _ else _
        rw [if_pos ⟨rfl, h4⟩]
        congr 1
        omega
      · rw [Mem.copy_outside _ _ (.inr (by omega)), Mem.copy_outside _ _ (.inr (by omega)), hmoved]
        show _ = if _ then _ else _
        rw [if_neg fun h => h4 h.2]

/-- The four bytes behind the payload, which are copied with a start code,
agree with the bytes they are copied over. -/
def SpillAgrees (m : Mem) (p : VCMPacket Mem) (offset behind : Nat) : Prop :=
  ∀ data ∈ p.dataPtr, p.insertStartCode = true →
    ∀ i < min 4 behind, data (p.sizeBytes + i) = m (offset + i)

theorem write_behind_iff (hdata : HasData p) :
    (write m p offset behind).bytes (offset + p.storedSize) behind = m.bytes offset behind ↔
      SpillAgrees m p offset behind := by
  rw [Mem.bytes_eq_iff, SpillAgrees]
  cases hptr : p.dataPtr with
  | none =>
    refine iff_of_true (fun i hi => ?_) nofun
    rw [write_behind hdata hi, hptr]
  | some data =>
    have hbyte : ∀ i < behind, write m p offset behind (offset + p.storedSize + i) =
        if p.insertStartCode ∧ i < 4 then data (p.sizeBytes + i) else m (offset + i) := by
      intro i hi
      rw [write_behind hdata hi, hptr]
    constructor
    · intro h data' hdata' hstart i hi
      cases hdata'
      have := hbyte i (by omega)
      rw [if_pos ⟨hstart, by omega⟩, h i (by omega)] at this
      exact this.symm
    · intro h i hi
      rw [hbyte i hi]
      split
      · rename_i hs
        exact h data rfl hs.1 i (by omega)
      · rfl

end Write

/-! ## What is to be shown -/

/-- The packets of a frame, in the order in which they are inserted. A packet
that is inserted again has the same number. -/
structure OneFrame (timestamp : BitVec 32) (ps : List (VCMPacket Mem)) : Prop where
  media : ∀ p ∈ ps, p.frameType ≠ .kFrameEmpty
  timestamp_eq : ∀ p ∈ ps, p.timestamp = timestamp
  window : HalfWindow (ps.map VCMPacket.seqNum)
  unique : ∀ p ∈ ps, ∀ q ∈ ps, p.seqNum = q.seqNum → p = q
  hasData : ∀ p ∈ ps, p.HasData

/-- The frame buffer holds the bytes of the packets `ps` in the order of their
sequence numbers, and each packet of the session points to its own. -/
def Assembled (ps : List (VCMPacket Mem)) (fb : VCMFrameBuffer) : Prop :=
  ∃ os, InOrder os ∧ (∀ p, p ∈ os ↔ p ∈ ps) ∧
    fb.sessionInfo.packets = layout 0 os ∧
    fb.sessionInfo.sessionLength = (os.flatMap content).length ∧
    fb.buffer.bytes 0 fb.sessionInfo.sessionLength = os.flatMap content

/-- A call of `InsertPacket`, and what new memory holds if it allocates. -/
structure Insertion where
  fresh : Mem
  mode : VCMDecodeErrorMode
  frameData : FrameData
  packet : VCMPacket Mem

namespace VCMFrameBuffer

def insert (fb : VCMFrameBuffer) (i : Insertion) : VCMFrameBuffer :=
  (fb.insertPacket i.fresh i.mode i.frameData i.packet).2

def run (fb : VCMFrameBuffer) (is : List Insertion) : VCMFrameBuffer := is.foldl insert fb

/-- A packet that is there already, or one for which there is room, and whose
start code does not make it overwrite other bytes behind it. -/
def Intact (packet : VCMPacket Mem) (fb : VCMFrameBuffer) : Prop :=
  packet.seqNum ∈ fb.sessionInfo.packets.map VCMPacket.seqNum ∨
    fb.HasRoom packet ∧ fb.sessionInfo.packets.length ≠ kMaxPacketsInSession ∧
      SpillAgrees fb.buffer packet
        ((fb.sessionInfo.packetsBefore packet.seqNum).map VCMPacket.sizeBytes).sum
        ((fb.sessionInfo.packetsBehind packet.seqNum).map VCMPacket.sizeBytes).sum

end VCMFrameBuffer

/-! ## The bytes of the packets -/

section Content

variable {before behind os : List (VCMPacket Mem)}

theorem flatMap_content_length : ∀ {os : List (VCMPacket Mem)}, (∀ q ∈ os, q.HasData) →
    (os.flatMap content).length = totalSize os
  | [], _ => rfl
  | q :: os, h => by
    have ih := flatMap_content_length fun r hr => h r (List.mem_cons_of_mem _ hr)
    rw [List.flatMap_cons, List.length_append, ih, content_length (h q List.mem_cons_self)]
    rfl

/-- A buffer that holds the bytes of the packets before and behind. -/
theorem bytes_split {m : Mem} (hdata : ∀ q ∈ before ++ behind, q.HasData)
    (hbytes : m.bytes 0 (totalSize (before ++ behind)) = (before ++ behind).flatMap content) :
    m.bytes 0 (totalSize before) = before.flatMap content ∧
      m.bytes (totalSize before) (totalSize behind) = behind.flatMap content := by
  rw [totalSize_append, Mem.bytes_add, Nat.zero_add, List.flatMap_append] at hbytes
  refine List.append_inj hbytes ?_
  rw [Mem.bytes_length, flatMap_content_length fun q hq => hdata q (List.mem_append_left _ hq)]

/-- After a packet was written between others, the buffer holds all of them if
the bytes behind it agree. -/
theorem write_bytes_iff {m : Mem} {p : VCMPacket Mem} (hp : p.HasData)
    (hdata : ∀ q ∈ before ++ behind, q.HasData)
    (hbytes : m.bytes 0 (totalSize (before ++ behind)) = (before ++ behind).flatMap content) :
    (write m p (totalSize before) (totalSize behind)).bytes 0 (totalSize (before ++ p :: behind)) =
        (before ++ p :: behind).flatMap content ↔
      SpillAgrees m p (totalSize before) (totalSize behind) := by
  obtain ⟨hbefore, hbehind⟩ := bytes_split hdata hbytes
  rw [← write_behind_iff hp, hbehind]
  rw [totalSize_append, totalSize_cons, Mem.bytes_add, Mem.bytes_add, Nat.zero_add, write_content hp,
    List.flatMap_append, List.flatMap_cons]
  have hfirst : (write m p (totalSize before) (totalSize behind)).bytes 0 (totalSize before) =
      before.flatMap content := by
    rw [← hbefore, Mem.bytes_eq_iff]
    intro i hi
    exact write_before hp (by omega)
  rw [hfirst, List.append_cancel_left_eq, List.append_cancel_left_eq]

end Content

/-! ## One insertion -/

theorem sessionLength_layout {s : VCMSessionInfo} {os : List (VCMPacket Mem)}
    (hs : s.packets = layout 0 os) : s.sessionLength = totalSize os := by
  rw [sessionLength, hs, layout_sizes]

/-- What holds of the frame buffer of a frame between two insertions. -/
structure Ready (timestamp : BitVec 32) (fb : VCMFrameBuffer) : Prop where
  timeStamp : fb.timeStamp = 0 ∨ fb.timeStamp = timestamp
  length : fb.length = fb.sessionInfo.sessionLength
  size : fb.length ≤ fb.size
  packets : ∃ os, fb.sessionInfo.packets = layout 0 os

namespace VCMFrameBuffer

section Insertion

variable {timestamp : BitVec 32} {ps qs os : List (VCMPacket Mem)} {fb : VCMFrameBuffer}
  {i : Insertion} {behind : List (VCMPacket Mem)} {before : List (VCMPacket Mem)}
  {p : VCMPacket Mem}

/-- The packet is refused, or is there already. -/
structure LeftOut (packet : VCMPacket Mem) (before behind : List (VCMPacket Mem))
    (fb fb' : VCMFrameBuffer) : Prop where
  reason : ¬ fb.HasRoom packet ∨ (before ++ behind).length = kMaxPacketsInSession ∨
    ∃ q ∈ before.getLast?, q.seqNum = packet.seqNum ∧ 0 < q.storedSize
  packets : fb'.sessionInfo.packets = layout 0 (before ++ behind)
  buffer : ∀ j < fb.size, fb'.buffer j = fb.buffer j

/-- The packet is written between the packets of the session. -/
structure Written (packet : VCMPacket Mem) (before behind : List (VCMPacket Mem))
    (fb fb' : VCMFrameBuffer) : Prop where
  hasRoom : fb.HasRoom packet
  notFull : (before ++ behind).length ≠ kMaxPacketsInSession
  last : ∀ q ∈ before.getLast?, q.seqNum = packet.seqNum → q.storedSize = 0
  packets : fb'.sessionInfo.packets = layout 0 (before ++ packet :: behind)
  buffer : ∃ m : Mem, (∀ j < fb.size, m j = fb.buffer j) ∧
    fb'.buffer = write m packet (totalSize before) (totalSize behind)

/-- The place of the packet among those of the session. -/
structure Place (packet : VCMPacket Mem) (os before behind : List (VCMPacket Mem))
    (fb : VCMFrameBuffer) : Prop where
  split : os = before ++ behind
  splits : Splits packet.seqNum before behind
  packetsBefore : fb.sessionInfo.packetsBefore packet.seqNum = layout 0 before
  packetsBehind : fb.sessionInfo.packetsBehind packet.seqNum = layout (totalSize before) behind

theorem insert_cases (hframe : OneFrame timestamp ps) (hi : i.packet ∈ ps)
    (hready : Ready timestamp fb) (hos : fb.sessionInfo.packets = layout 0 os) :
    Ready timestamp (fb.insert i) ∧
      ∃ before behind, Place i.packet os before behind fb ∧
        (LeftOut i.packet before behind fb (fb.insert i) ∨
          Written i.packet before behind fb (fb.insert i)) := by
  have htime := hready.timeStamp
  rw [← hframe.timestamp_eq _ hi] at htime
  have hlength := hready.length
  have hsize := hready.size
  have hmedia := hframe.media _ hi
  obtain ⟨htime', hcases⟩ :=
    insertPacket_cases (hframe.hasData _ hi) htime i.fresh i.mode i.frameData
  rw [hframe.timestamp_eq _ hi] at htime'
  rcases hcases with ⟨hroom, hsession, hbuffer, hlength', hsize'⟩ |
    ⟨hroom, buffer, hbuffer, hsession, hbuffer', hlength', hsize'⟩
  · obtain ⟨before, behind, rfl, hsplits, hbefore, hbehind, -⟩ :=
      insertPacket_layout hos hmedia i.mode i.frameData fb.buffer
    have hpackets : (fb.insert i).sessionInfo = fb.sessionInfo := hsession
    refine ⟨⟨htime', ?_, ?_, before ++ behind, ?_⟩, before, behind,
      ⟨rfl, hsplits, hbefore, hbehind⟩, .inl ⟨.inl hroom, ?_, fun j _ => congrFun hbuffer j⟩⟩
    · rw [hpackets]
      exact hlength'.trans hlength
    · exact (hlength'.trans_le hsize).trans hsize'.ge
    · rw [hpackets, hos]
    · rw [hpackets, hos]
  · obtain ⟨before, behind, rfl, hsplits, hbefore, hbehind, hinsert⟩ :=
      insertPacket_layout hos hmedia i.mode i.frameData buffer
    have hplace : Place i.packet (before ++ behind) before behind fb :=
      ⟨rfl, hsplits, hbefore, hbehind⟩
    have hlen : fb.sessionInfo.sessionLength = totalSize (before ++ behind) :=
      sessionLength_layout hos
    -- The session returns -1 or -2.
    have hleft : ((before ++ behind).length = kMaxPacketsInSession ∨
          ∃ q ∈ before.getLast?, q.seqNum = i.packet.seqNum ∧ 0 < q.storedSize) →
        (∃ retVal : Int, retVal.toNat = 0 ∧
          fb.sessionInfo.insertPacket i.mode i.frameData i.packet buffer =
            (retVal, buffer, fb.sessionInfo.updateFrameType i.packet)) →
        Ready timestamp (fb.insert i) ∧ LeftOut i.packet before behind fb (fb.insert i) := by
      rintro hreason ⟨retVal, hret, heq⟩
      rw [heq] at hsession hbuffer' hlength'
      have hpackets : (fb.insert i).sessionInfo.packets = layout 0 (before ++ behind) :=
        (congrArg packets hsession).trans ((updateFrameType_packets _ _).trans hos)
      have hlength'' : (fb.insert i).length = fb.length := by
        refine hlength'.trans ?_
        rw [hret, Nat.add_zero]
      refine ⟨⟨htime', ?_, ?_, _, hpackets⟩,
        ⟨.inr hreason, hpackets, fun j hj => (congrFun hbuffer' j).trans (hbuffer j hj)⟩⟩
      · rw [hlength'', hlength, hlen, sessionLength_layout hpackets]
      · rw [hlength'']
        exact le_trans (Nat.le_add_right _ _) hsize'
    rcases hinsert with ⟨hfull, heq⟩ | ⟨-, hdup, heq⟩ | ⟨hfull, hnodup, heq⟩
    · obtain ⟨hready', hout⟩ := hleft (.inl hfull) ⟨-1, rfl, heq⟩
      exact ⟨hready', before, behind, hplace, .inl hout⟩
    · obtain ⟨hready', hout⟩ := hleft (.inr hdup) ⟨-2, rfl, heq⟩
      exact ⟨hready', before, behind, hplace, .inl hout⟩
    · rw [heq] at hsession hbuffer' hlength'
      have hpackets : (fb.insert i).sessionInfo.packets =
          layout 0 (before ++ i.packet :: behind) := by
        refine (congrArg packets hsession).trans ?_
        rw [updateDecodable_packets, updateCompleteSession_packets]
      refine ⟨⟨htime', ?_, hlength'.trans_le hsize', _, hpackets⟩, before, behind, hplace,
        .inr ⟨hroom, hfull, hnodup, hpackets, buffer, hbuffer, hbuffer'⟩⟩
      rw [sessionLength_layout hpackets, totalSize_append, totalSize_cons]
      rw [hlen, totalSize_append] at hlength
      have htotal : (fb.insert i).length = fb.length + i.packet.storedSize := hlength'
      omega

theorem spillAgrees_congr {m m' : Mem} {offset behind : Nat} (h : ∀ j < offset + behind, m j = m' j) :
    SpillAgrees m p offset behind ↔ SpillAgrees m' p offset behind := by
  have hbyte : ∀ i < min 4 behind, m (offset + i) = m' (offset + i) :=
    fun i hi => h _ (by omega)
  refine forall₄_congr fun data _ _ i => forall_congr' fun hi => ?_
  rw [hbyte i hi]

theorem intact_iff (hos : fb.sessionInfo.packets = layout 0 (before ++ behind))
    (hplace : Place p (before ++ behind) before behind fb) :
    fb.Intact p ↔ p.seqNum ∈ (before ++ behind).map VCMPacket.seqNum ∨
      fb.HasRoom p ∧ (before ++ behind).length ≠ kMaxPacketsInSession ∧
        SpillAgrees fb.buffer p (totalSize before) (totalSize behind) := by
  rw [Intact, hplace.packetsBefore, hplace.packetsBehind, hos, layout_seqNums, layout_sizes,
    layout_sizes, layout_length]

theorem mem_insert_iff {q : VCMPacket Mem} :
    q ∈ before ++ p :: behind ↔ q = p ∨ q ∈ before ++ behind := by
  rw [List.mem_append, List.mem_cons, or_left_comm, ← List.mem_append]

theorem Written.bytes_iff {fb' : VCMFrameBuffer} (h : Written p before behind fb fb')
    (hdata : ∀ q ∈ before ++ p :: behind, q.HasData)
    (hbytes : fb.buffer.bytes 0 (totalSize (before ++ behind)) = (before ++ behind).flatMap content)
    (hsize : totalSize (before ++ behind) ≤ fb.size) :
    fb'.buffer.bytes 0 (totalSize (before ++ p :: behind)) =
        (before ++ p :: behind).flatMap content ↔
      SpillAgrees fb.buffer p (totalSize before) (totalSize behind) := by
  obtain ⟨m, hm, hwrite⟩ := h.buffer
  have hbytes' : m.bytes 0 (totalSize (before ++ behind)) = (before ++ behind).flatMap content := by
    rw [← hbytes, Mem.bytes_eq_iff]
    exact fun j hj => hm _ (by omega)
  rw [hwrite, write_bytes_iff (hdata p (mem_insert_iff.mpr (.inl rfl)))
    (fun q hq => hdata q (mem_insert_iff.mpr (.inr hq))) hbytes']
  rw [totalSize_append] at hsize
  exact spillAgrees_congr fun j hj => hm j (by omega)

/-- A frame stays assembled when a packet is written that keeps the bytes
behind it. -/
theorem Written.assembled {base : BitVec 16} {p : VCMPacket Mem}
    {before behind : List (VCMPacket Mem)} {fb' : VCMFrameBuffer}
    (hbase : ∀ q ∈ before ++ p :: behind, InHalf base q.seqNum)
    (hdata : ∀ q ∈ before ++ p :: behind, q.HasData)
    (horder : InOrder (before ++ behind)) (hmem : ∀ q, q ∈ before ++ behind ↔ q ∈ qs)
    (hbytes : fb.buffer.bytes 0 (totalSize (before ++ behind)) = (before ++ behind).flatMap content)
    (hsize : totalSize (before ++ behind) ≤ fb.size) (hsplits : Splits p.seqNum before behind)
    (hunique : ∀ q ∈ before, q.seqNum = p.seqNum → q = p)
    (hspill : SpillAgrees fb.buffer p (totalSize before) (totalSize behind))
    (h : Written p before behind fb fb') : Assembled (qs ++ [p]) fb' := by
  have hp : p ∈ before ++ p :: behind := mem_insert_iff.mpr (.inl rfl)
  have hsub : ∀ q ∈ before ++ behind, q ∈ before ++ p :: behind :=
    fun q hq => mem_insert_iff.mpr (.inr hq)
  have hlast : ∀ q ∈ before.getLast?, q.seqNum = p.seqNum → q = p ∧ q.storedSize = 0 :=
    fun q hq hseq => ⟨hunique q (List.mem_of_getLast? hq) hseq, h.last q hq hseq⟩
  refine ⟨before ++ p :: behind, ?_, ?_, h.packets, ?_, ?_⟩
  · exact horder.insert (fun q hq => hbase q (hsub q hq)) (hbase p hp) hsplits hlast
  · intro q
    rw [mem_insert_iff, hmem q, or_comm, List.mem_append, List.mem_singleton]
  · rw [sessionLength_layout h.packets, flatMap_content_length hdata]
  · rw [sessionLength_layout h.packets]
    exact (h.bytes_iff hdata hbytes hsize).mpr hspill

/-- After an insertion the frame is assembled as before, if that step is
intact, and only then. -/
theorem insert_assembled_iff (hframe : OneFrame timestamp ps) (hqs : ∀ q ∈ qs, q ∈ ps)
    (hi : i.packet ∈ ps) (hready : Ready timestamp fb) (hassembled : Assembled qs fb) :
    Assembled (qs ++ [i.packet]) (fb.insert i) ↔ fb.Intact i.packet := by
  obtain ⟨os, horder, hmem, hos, -, hbytes⟩ := hassembled
  obtain ⟨base, hbase⟩ := hframe.window
  obtain ⟨-, before, behind, hplace, hcases⟩ := insert_cases hframe hi hready hos
  obtain rfl := hplace.split
  have hin : ∀ q ∈ before ++ i.packet :: behind, q ∈ ps := by
    intro q hq
    rcases mem_insert_iff.mp hq with rfl | hq
    · exact hi
    · exact hqs q ((hmem q).mp hq)
  have hbase' : ∀ q ∈ before ++ i.packet :: behind, InHalf base q.seqNum :=
    fun q hq => hbase _ (List.mem_map_of_mem (hin q hq))
  have hdata : ∀ q ∈ before ++ i.packet :: behind, q.HasData :=
    fun q hq => hframe.hasData q (hin q hq)
  have hsub : ∀ q ∈ before ++ behind, q ∈ before ++ i.packet :: behind :=
    fun q hq => mem_insert_iff.mpr (.inr hq)
  have hsize : totalSize (before ++ behind) ≤ fb.size := by
    rw [← sessionLength_layout hos, ← hready.length]
    exact hready.size
  rw [sessionLength_layout hos] at hbytes
  have hunique : ∀ q ∈ before, q.seqNum = i.packet.seqNum → q = i.packet :=
    fun q hq => hframe.unique q (hin q (List.mem_append_left _ hq)) _ hi
  have hwritten := fun hspill => @Written.assembled qs fb base i.packet before behind (fb.insert i)
    hbase' hdata horder hmem hbytes hsize hplace.splits hunique hspill
  rw [intact_iff hos hplace]
  by_cases hthere : i.packet.seqNum ∈ (before ++ behind).map VCMPacket.seqNum
  · refine iff_of_true ?_ (.inl hthere)
    obtain ⟨q, hq, hseq⟩ := last_of_mem (fun q hq => hbase' q (hsub q hq))
      (hbase _ (List.mem_map_of_mem hi)) horder hplace.splits hthere
    have hqp := hunique q (List.mem_of_getLast? hq) hseq
    rcases hcases with hout | hwrite
    · refine ⟨before ++ behind, horder, ?_, hout.packets, ?_, ?_⟩
      · intro r
        rw [hmem r, List.mem_append, List.mem_singleton]
        refine ⟨.inl, fun h => h.elim id fun hr => ?_⟩
        rw [hr, ← hmem, ← hqp]
        exact List.mem_append_left _ (List.mem_of_getLast? hq)
      · rw [sessionLength_layout hout.packets, flatMap_content_length fun q hq => hdata q (hsub q hq)]
      · rw [sessionLength_layout hout.packets, ← hbytes, Mem.bytes_eq_iff]
        intro j hj
        exact hout.buffer _ (by omega)
    · refine hwritten (fun data _ hstart => absurd ?_ (Nat.succ_ne_zero 3)) hwrite
      have hzero := hwrite.last q hq hseq
      rw [hqp, storedSize_startCode hstart] at hzero
      omega
  · constructor
    · rintro ⟨os', horder', hmem', hos', hlength', hbytes'⟩
      refine .inr ?_
      have hpos' : i.packet ∈ os' := (hmem' _).mpr (List.mem_append_right _ List.mem_cons_self)
      have hseqs' : ∀ {packets}, (fb.insert i).sessionInfo.packets = layout 0 packets →
          os'.map VCMPacket.seqNum = packets.map VCMPacket.seqNum := by
        intro packets hpackets
        rw [← layout_seqNums 0 os', ← layout_seqNums 0 packets, ← hos', hpackets]
      rcases hcases with hout | hwrite
      · refine absurd ?_ hthere
        rw [← hseqs' hout.packets]
        exact List.mem_map_of_mem hpos'
      · have hos'' : os' = before ++ i.packet :: behind := by
          refine eq_of_seqNums hframe.unique (fun q hq => ?_) hin (hseqs' hwrite.packets)
          rcases List.mem_append.mp ((hmem' q).mp hq) with hq | hq
          · exact hqs q hq
          · rw [List.mem_singleton.mp hq]
            exact hi
        refine ⟨hwrite.hasRoom, hwrite.notFull, (hwrite.bytes_iff hdata hbytes hsize).mp ?_⟩
        rw [← sessionLength_layout hwrite.packets, hbytes', hos'']
    · rintro (h | ⟨hroom, hfull, hspill⟩)
      · exact absurd h hthere
      · rcases hcases with hout | hwrite
        · rcases hout.reason with h | h | ⟨q, hq, hseq, -⟩
          · exact absurd hroom h
          · exact absurd h hfull
          · refine absurd ?_ hthere
            rw [← hseq]
            exact List.mem_map_of_mem (List.mem_append_left _ (List.mem_of_getLast? hq))
        · exact hwritten hspill hwrite

end Insertion

/-! ## A run -/

section Run

variable {timestamp : BitVec 32}

theorem run_append (fb : VCMFrameBuffer) (is : List Insertion) (i : Insertion) :
    fb.run (is ++ [i]) = (fb.run is).insert i := by
  simp only [run, List.foldl_append, List.foldl_cons, List.foldl_nil]

theorem reset_ready (fb : VCMFrameBuffer) : Ready timestamp fb.reset :=
  ⟨.inl rfl, rfl, Nat.zero_le _, [], rfl⟩

theorem reset_assembled (fb : VCMFrameBuffer) : Assembled [] fb.reset :=
  ⟨[], List.Pairwise.nil, fun _ => Iff.rfl, rfl, rfl, rfl⟩

theorem run_ready {ps : List (VCMPacket Mem)} (hframe : OneFrame timestamp ps)
    (fb : VCMFrameBuffer) (is : List Insertion) (his : ∀ i ∈ is, i.packet ∈ ps) :
    Ready timestamp (fb.reset.run is) := by
  induction is using List.reverseRecOn with
  | nil => exact reset_ready fb
  | append_singleton is i ih =>
    have hready := ih fun j hj => his j (List.mem_append_left _ hj)
    obtain ⟨os, hos⟩ := hready.packets
    rw [run_append]
    have hi := his i (List.mem_append_right _ List.mem_cons_self)
    exact (insert_cases hframe hi hready hos).1

/-- Whatever the order in which the packets of a frame are inserted, the frame
is assembled after each insertion exactly if each of them is intact. -/
theorem run_assembled_iff {is : List Insertion}
    (hframe : OneFrame timestamp (is.map Insertion.packet)) (fb : VCMFrameBuffer) :
    (∀ done, done <+: is → Assembled (done.map Insertion.packet) (fb.reset.run done)) ↔
      ∀ done i, done ++ [i] <+: is → (fb.reset.run done).Intact i.packet := by
  have hmem : ∀ done, done <+: is → ∀ i ∈ done, i.packet ∈ is.map Insertion.packet :=
    fun done hdone i hi => List.mem_map_of_mem (hdone.subset hi)
  have hready := fun done hdone => run_ready hframe fb done (hmem done hdone)
  have hstep : ∀ done i, done ++ [i] <+: is → Assembled (done.map Insertion.packet)
      (fb.reset.run done) → (Assembled ((done ++ [i]).map Insertion.packet)
        (fb.reset.run (done ++ [i])) ↔ (fb.reset.run done).Intact i.packet) := by
    intro done i hps hassembled
    have hdone : done <+: is := (List.prefix_append _ _).trans hps
    have hi := hmem _ hps i (List.mem_append_right _ List.mem_cons_self)
    rw [run_append, List.map_append]
    refine insert_assembled_iff hframe (fun q hq => ?_) hi (hready done hdone) hassembled
    obtain ⟨j, hj, rfl⟩ := List.mem_map.mp hq
    exact hmem done hdone j hj
  constructor
  · intro h done i hps
    refine (hstep done i hps (h done ?_)).mp (h _ hps)
    exact (List.prefix_append _ _).trans hps
  · intro h done
    induction done using List.reverseRecOn with
    | nil => exact fun _ => reset_assembled fb
    | append_singleton done i ih =>
      intro hps
      have hassembled := ih ((List.prefix_append _ _).trans hps)
      exact (hstep done i hps hassembled).mpr (h done i hps)

end Run

def secondPacket : VCMPacket Mem :=
  { seqNum := 1, dataPtr := some (Mem.ofList [7]), sizeBytes := 1, frameType := .kVideoFrameDelta }

/-- A packet of one byte with a start code, behind whose payload there is
a 9. -/
def firstPacket : VCMPacket Mem :=
  { seqNum := 0, dataPtr := some (Mem.ofList [5, 9]), sizeBytes := 1,
    frameType := .kVideoFrameDelta, insertStartCode := true }

def lateInsertions : List Insertion :=
  [secondPacket, firstPacket].map fun p => ⟨Mem.ofList [], .kNoErrors, ⟨0, fun _ => false⟩, p⟩

def emptyFrame : VCMFrameBuffer := { buffer := Mem.ofList [] }

theorem lateInsertions_oneFrame : OneFrame 0 (lateInsertions.map Insertion.packet) := by
  have hpair : ∀ p ∈ lateInsertions.map Insertion.packet, p = secondPacket ∨ p = firstPacket :=
    fun p hp => List.mem_pair.mp hp
  refine ⟨?_, ?_, by decide, ?_, ?_⟩
  · intro p hp
    rcases hpair p hp with rfl | rfl <;> decide
  · intro p hp
    rcases hpair p hp with rfl | rfl <;> rfl
  · intro p hp q hq hseq
    rcases hpair p hp with rfl | rfl <;> rcases hpair q hq with rfl | rfl
    · rfl
    · exact absurd hseq (by decide)
    · exact absurd hseq (by decide)
    · rfl
  · intro p hp
    rcases hpair p hp with rfl | rfl <;> exact nofun

theorem run_assembled_late :
    (∀ done, done <+: lateInsertions →
        Assembled (done.map Insertion.packet) (emptyFrame.reset.run done)) ↔
      ∀ done i, done ++ [i] <+: lateInsertions → (emptyFrame.reset.run done).Intact i.packet :=
  run_assembled_iff lateInsertions_oneFrame emptyFrame

/-- The 7 of the second packet is overwritten. -/
theorem run_not_assembled :
    ¬ ∀ (timestamp : BitVec 32) (is : List Insertion) (fb : VCMFrameBuffer),
      OneFrame timestamp (is.map Insertion.packet) →
        Assembled (is.map Insertion.packet) (fb.reset.run is) := by
  intro h
  obtain ⟨os, -, hmem, -, -, hbytes⟩ := h 0 lateInsertions emptyFrame lateInsertions_oneFrame
  have hsecond : secondPacket ∈ os := (hmem _).mpr List.mem_cons_self
  have hseven : (7 : Byte) ∈ os.flatMap content :=
    List.mem_flatMap.mpr ⟨_, hsecond, by decide⟩
  rw [← hbytes] at hseven
  revert hseven
  decide +kernel

end VCMFrameBuffer

end PerchWebrtc.Video
