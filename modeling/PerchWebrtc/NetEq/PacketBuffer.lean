import PerchWebrtc.Framework.Circular
import PerchWebrtc.Framework.Machine
import PerchWebrtc.Framework.Ordered
import PerchWebrtc.NetEq.DecoderDatabase

/-!
# The packet buffer of NetEq

`PacketBuffer` (`packet_buffer.cc`): packets in the order of their timestamps, with
limits on their number and on the bytes of their payloads.

* `InOrder`: the order that wraps around; `operator<` is that order except at the
  largest distance (`lt_iff`, `rank_lt_of_far`);
* `Sound.place`: where a packet is inserted;
* `Sound.getsNext`: the packets with the timestamp of the first one go with it;
* `always_valid`: in every run whose insertions meet `Fits`, every state is `Valid`.
-/

namespace PerchWebrtc.NetEq

open Circular

namespace PacketBuffer

inductive BufferReturnCode where
  | kOK
  | kFlushed
  | kNotFound
  | kBufferEmpty
  | kInvalidPacket
  | kInvalidPointer
  | kOversizePacket
  deriving DecidableEq

end PacketBuffer

open PacketBuffer

structure PacketBuffer where
  maxNumberOfPackets : Nat
  maxMemoryBytes : Nat
  currentMemoryBytes : Int := 0
  buffer : List Packet := []

/-- The payload types that the caller of `InsertPacketList` keeps. -/
structure CurrentTypes where
  rtpPayloadType : Byte := 0xFF
  cngRtpPayloadType : Byte := 0xFF

namespace PacketBuffer

def flush (s : PacketBuffer) : PacketBuffer := { s with buffer := [], currentMemoryBytes := 0 }

/-! ## Insertion -/

/-- There is no room for a packet. -/
def isFull (packet : Packet) (s : PacketBuffer) : Bool :=
  s.maxNumberOfPackets ≤ s.buffer.length ||
    int32 s.maxMemoryBytes < int32 (s.currentMemoryBytes + packet.payloadLength)

/-- The end of `InsertPacket`: the packet goes into the list. -/
def place (packet : Packet) (s : PacketBuffer) : PacketBuffer :=
  { s with
    buffer := Ordered.insertBack Packet.lt packet s.buffer
    currentMemoryBytes := int32 (s.currentMemoryBytes + packet.payloadLength) }

/-- A packet is `none` for a null pointer. -/
def insertPacket (packet : Option Packet) (s : PacketBuffer) : BufferReturnCode × PacketBuffer :=
  match packet with
  | none => (.kInvalidPacket, s)
  | some packet =>
    if packet.payload.isNone then (.kInvalidPacket, s)
    else if s.isFull packet then
      if s.flush.isFull packet then (.kOversizePacket, s.flush)
      else (.kFlushed, s.flush.place packet)
    else (.kOK, s.place packet)

/-- The part of the loop of `InsertPacketList` before `InsertPacket`: whether the
buffer is flushed for a new payload type. -/
def changeType (db : DecoderDatabase) (packet : Packet) (types : CurrentTypes) :
    Bool × CurrentTypes :=
  let payloadType := packet.header.payloadType
  if db.isComfortNoise payloadType then
    if types.cngRtpPayloadType ≠ 0xFF ∧ types.cngRtpPayloadType ≠ payloadType then
      (true, { rtpPayloadType := 0xFF, cngRtpPayloadType := payloadType })
    else (false, { types with cngRtpPayloadType := payloadType })
  else if ¬ db.isDtmf payloadType then
    if types.rtpPayloadType ≠ 0xFF ∧ types.rtpPayloadType ≠ payloadType then
      (true, { rtpPayloadType := payloadType, cngRtpPayloadType := 0xFF })
    else (false, { types with rtpPayloadType := payloadType })
  else (false, types)

/-- The buffer as `InsertPacket` finds it. -/
def beforeInsert (db : DecoderDatabase) (packet : Packet) (types : CurrentTypes)
    (s : PacketBuffer) : PacketBuffer :=
  if (changeType db packet types).1 then s.flush else s

/-- The loop, with what it has flushed so far. -/
def insertPackets (db : DecoderDatabase) :
    List Packet → Bool → CurrentTypes → PacketBuffer →
      BufferReturnCode × CurrentTypes × PacketBuffer
  | [], flushed, types, s => (if flushed then .kFlushed else .kOK, types, s)
  | packet :: packetList, flushed, types, s =>
    let changed := changeType db packet types
    match (s.beforeInsert db packet types).insertPacket (some packet) with
    | (.kOK, s) => insertPackets db packetList (flushed || changed.1) changed.2 s
    | (.kFlushed, s) => insertPackets db packetList true changed.2 s
    | (returnVal, s) => (returnVal, changed.2, s)

def insertPacketList (packetList : List Packet) (db : DecoderDatabase) (types : CurrentTypes)
    (s : PacketBuffer) : BufferReturnCode × CurrentTypes × PacketBuffer :=
  insertPackets db packetList false types s

/-! ## Extraction -/

def discardNextPacket (s : PacketBuffer) : BufferReturnCode × PacketBuffer :=
  match s.buffer with
  | [] => (.kBufferEmpty, s)
  | packet :: buffer =>
    (.kOK, { s with
      buffer := buffer
      currentMemoryBytes := int32 (s.currentMemoryBytes - packet.payloadLength) })

/-- A loop that calls `DiscardNextPacket` while the first packet meets a condition:
how many are discarded, the memory and the rest of the list. -/
def discardWhile (cond : Packet → Bool) : List Packet → Int → Nat → Nat × Int × List Packet
  | [], memory, count => (count, memory, [])
  | packet :: buffer, memory, count =>
    if cond packet then
      discardWhile cond buffer (int32 (memory - packet.payloadLength)) (count + 1)
    else (count, memory, packet :: buffer)

/-- The packet, and how many others are discarded. -/
def getNextPacket (s : PacketBuffer) : Option (Packet × Nat) × PacketBuffer :=
  match s.buffer with
  | [] => (none, s)
  | packet :: buffer =>
    let discarded := discardWhile (fun other => other.timestamp = packet.timestamp) buffer
      (int32 (s.currentMemoryBytes - packet.payloadLength)) 0
    (some (packet, discarded.1),
      { s with currentMemoryBytes := discarded.2.1, buffer := discarded.2.2 })

/-- Strictly older than a timestamp. -/
def isOld (timestampLimit : BitVec 32) (packet : Packet) : Bool :=
  timestampLimit ≠ packet.timestamp ∧
    (timestampLimit - packet.timestamp).toNat < 0xFFFFFFFF / 2

/-- The number that is counted is not the value that is returned. -/
def discardOldPackets (timestampLimit : BitVec 32) (s : PacketBuffer) : Int × PacketBuffer :=
  let discarded := discardWhile (isOld timestampLimit) s.buffer s.currentMemoryBytes 0
  (0, { s with currentMemoryBytes := discarded.2.1, buffer := discarded.2.2 })

/-! ## Calls -/

inductive Call where
  | insertPacket (packet : Option Packet)
  | insertPacketList (packetList : List Packet) (db : DecoderDatabase) (types : CurrentTypes)
  | getNextPacket
  | discardNextPacket
  | discardOldPackets (timestampLimit : BitVec 32)
  | flush

def step (s : PacketBuffer) : Call → PacketBuffer
  | .insertPacket packet => (s.insertPacket packet).2
  | .insertPacketList packetList db types => (s.insertPacketList packetList db types).2.2
  | .getNextPacket => s.getNextPacket.2
  | .discardNextPacket => s.discardNextPacket.2
  | .discardOldPackets timestampLimit => (s.discardOldPackets timestampLimit).2
  | .flush => s.flush

end PacketBuffer

/-! ## The order of packets -/

/-- A packet may stand before another: by timestamp, then by sequence number, then
primary before redundant. -/
def InOrder (p q : Packet) : Prop :=
  Precedes p.timestamp q.timestamp ∨
    p.timestamp = q.timestamp ∧
      (Precedes p.sequenceNumber q.sequenceNumber ∨
        p.sequenceNumber = q.sequenceNumber ∧ (p.primary ∨ ¬ q.primary))

instance (p q : Packet) : Decidable (InOrder p q) := inferInstanceAs (Decidable (_ ∨ _))

/-- The packets are within half of the range of timestamps and of sequence numbers
of each other. -/
def Close (packets : List Packet) : Prop :=
  HalfWindow (packets.map (·.timestamp)) ∧ HalfWindow (packets.map (·.sequenceNumber))

instance (packets : List Packet) : Decidable (Close packets) := inferInstanceAs (Decidable (_ ∧ _))

/-- The second packet follows the first at the largest distance of one half, of the
timestamps or of the sequence numbers of one timestamp. -/
def Far (p q : Packet) : Prop :=
  (q.timestamp - p.timestamp).toNat = 2 ^ 31 - 1 ∨
    p.timestamp = q.timestamp ∧ (q.sequenceNumber - p.sequenceNumber).toNat = 2 ^ 15 - 1

instance (p q : Packet) : Decidable (Far p q) := inferInstanceAs (Decidable (_ ∨ _))

section Rank

variable (timestampBase : BitVec 32) (sequenceBase : BitVec 16)

/-- The place of a packet in one half of both ranges. -/
def rank (p : Packet) : Nat :=
  (p.timestamp - timestampBase).toNat * 2 ^ 17 + (p.sequenceNumber - sequenceBase).toNat * 2 +
    if p.primary then 0 else 1

structure Inside (p : Packet) : Prop where
  timestamp : InHalf timestampBase p.timestamp
  sequenceNumber : InHalf sequenceBase p.sequenceNumber

variable {timestampBase sequenceBase} {p q : Packet}

theorem close_iff {packets : List Packet} : Close packets ↔
    ∃ timestampBase sequenceBase, ∀ p ∈ packets, Inside timestampBase sequenceBase p := by
  constructor
  · rintro ⟨⟨tb, ht⟩, ⟨sb, hs⟩⟩
    exact ⟨tb, sb, fun p hp => ⟨ht _ (List.mem_map_of_mem hp), hs _ (List.mem_map_of_mem hp)⟩⟩
  · rintro ⟨tb, sb, h⟩
    refine ⟨⟨tb, fun t ht => ?_⟩, ⟨sb, fun n hn => ?_⟩⟩
    · obtain ⟨p, hp, rfl⟩ := List.mem_map.mp ht
      exact (h p hp).timestamp
    · obtain ⟨p, hp, rfl⟩ := List.mem_map.mp hn
      exact (h p hp).sequenceNumber

theorem sub_toNat_mod {w : Nat} (base a b : BitVec w) :
    (b - a).toNat = (2 ^ w - (a - base).toNat + (b - base).toNat) % 2 ^ w := by
  have hsub : b - a = (b - base) - (a - base) := by grind
  rw [hsub, BitVec.toNat_sub]

theorem eq_iff_sub_eq {w : Nat} (base : BitVec w) {a b : BitVec w} :
    a = b ↔ (a - base).toNat = (b - base).toNat :=
  ⟨fun heq => by rw [heq], eq_of_sub_eq⟩

theorem inOrder_iff (hp : Inside timestampBase sequenceBase p)
    (hq : Inside timestampBase sequenceBase q) :
    InOrder p q ↔ rank timestampBase sequenceBase p ≤ rank timestampBase sequenceBase q := by
  obtain ⟨hpt, hps⟩ := hp
  obtain ⟨hqt, hqs⟩ := hq
  unfold InOrder rank
  rw [precedes_iff hpt hqt, precedes_iff hps hqs, eq_iff_sub_eq timestampBase,
    eq_iff_sub_eq sequenceBase]
  unfold InHalf at hps hqs
  generalize (p.timestamp - timestampBase).toNat = tp
  generalize (q.timestamp - timestampBase).toNat = tq
  generalize (p.sequenceNumber - sequenceBase).toNat = sp at hps
  generalize (q.sequenceNumber - sequenceBase).toNat = sq at hqs
  cases p.primary <;> cases q.primary <;> simp <;> omega

theorem timestamp_le_of_inOrder (hp : Inside timestampBase sequenceBase p)
    (hq : Inside timestampBase sequenceBase q) (h : InOrder p q) :
    (p.timestamp - timestampBase).toNat ≤ (q.timestamp - timestampBase).toNat := by
  rcases h with h | ⟨h, -⟩
  · exact le_of_lt ((precedes_iff hp.timestamp hq.timestamp).mp h)
  · rw [h]

/-- `operator<` by the places of the two packets. -/
theorem lt_iff (hp : Inside timestampBase sequenceBase p)
    (hq : Inside timestampBase sequenceBase q) :
    p.lt q = true ↔
      rank timestampBase sequenceBase p < rank timestampBase sequenceBase q ∧ ¬ Far p q := by
  obtain ⟨hpt, hps⟩ := hp
  obtain ⟨hqt, hqs⟩ := hq
  have ht := sub_toNat_mod timestampBase p.timestamp q.timestamp
  have hs := sub_toNat_mod sequenceBase p.sequenceNumber q.sequenceNumber
  unfold Packet.lt rank Far
  unfold InHalf at hpt hqt hps hqs
  simp only [eq_iff_sub_eq timestampBase (a := p.timestamp),
    eq_iff_sub_eq sequenceBase (a := p.sequenceNumber), ht, hs]
  generalize (p.timestamp - timestampBase).toNat = tp at hpt
  generalize (q.timestamp - timestampBase).toNat = tq at hqt
  generalize (p.sequenceNumber - sequenceBase).toNat = sp at hps
  generalize (q.sequenceNumber - sequenceBase).toNat = sq at hqs
  split
  · split
    · cases p.primary <;> cases q.primary <;> simp <;> omega
    · rw [decide_eq_true_eq]
      split <;> split <;> omega
  · rw [decide_eq_true_eq]
    split <;> split <;> omega

theorem rank_lt_of_far (hp : Inside timestampBase sequenceBase p)
    (hq : Inside timestampBase sequenceBase q) (h : Far p q) :
    rank timestampBase sequenceBase p < rank timestampBase sequenceBase q := by
  obtain ⟨hpt, hps⟩ := hp
  obtain ⟨hqt, hqs⟩ := hq
  unfold Far at h
  unfold rank
  unfold InHalf at hpt hqt hps hqs
  rw [eq_iff_sub_eq timestampBase, sub_toNat_mod timestampBase, sub_toNat_mod sequenceBase] at h
  generalize (p.timestamp - timestampBase).toNat = tp at hpt h
  generalize (q.timestamp - timestampBase).toNat = tq at hqt h
  generalize (p.sequenceNumber - sequenceBase).toNat = sp at hps h
  generalize (q.sequenceNumber - sequenceBase).toNat = sq at hqs h
  split <;> split <;> omega

end Rank

theorem Close.mono {l l' : List Packet} (h : Close l) (hsub : ∀ p ∈ l', p ∈ l) : Close l' := by
  obtain ⟨tb, sb, hinside⟩ := close_iff.mp h
  exact close_iff.mpr ⟨tb, sb, fun p hp => hinside p (hsub p hp)⟩

theorem pairwise_inOrder_iff {timestampBase : BitVec 32} {sequenceBase : BitVec 16}
    {l : List Packet} (h : ∀ p ∈ l, Inside timestampBase sequenceBase p) :
    l.Pairwise InOrder ↔ l.Pairwise fun p q =>
      rank timestampBase sequenceBase p ≤ rank timestampBase sequenceBase q := by
  constructor
  · exact fun hl => hl.imp_of_mem fun hp hq hpq => (inOrder_iff (h _ hp) (h _ hq)).mp hpq
  · exact fun hl => hl.imp_of_mem fun hp hq hpq => (inOrder_iff (h _ hp) (h _ hq)).mpr hpq

/-- A packet that is inserted finds its place if and only if none is at the largest
distance in front of it. -/
theorem insertBack_ordered_iff {packet : Packet} {l : List Packet} (hl : l.Pairwise InOrder)
    (hclose : Close (packet :: l)) :
    (Ordered.insertBack Packet.lt packet l).Pairwise InOrder ↔ ∀ q ∈ l, ¬ Far packet q := by
  obtain ⟨tb, sb, hinside⟩ := close_iff.mp hclose
  have hpacket := hinside packet List.mem_cons_self
  have hmem : ∀ q ∈ l, Inside tb sb q := fun q hq => hinside q (List.mem_cons_of_mem _ hq)
  have hperm := @Ordered.insertBack_perm _ Packet.lt packet l
  rw [pairwise_inOrder_iff fun q hq => hinside q (hperm.mem_iff.mp hq),
    Ordered.pairwise_insertBack_iff (rank tb sb) ((pairwise_inOrder_iff hmem).mp hl)
      fun q hq hlt => le_of_lt ((lt_iff hpacket (hmem q hq)).mp hlt).1]
  constructor
  · intro h q hq hfar
    have hlt := h q hq (rank_lt_of_far hpacket (hmem q hq) hfar)
    exact ((lt_iff hpacket (hmem q hq)).mp hlt).2 hfar
  · exact fun h q hq hlt => (lt_iff hpacket (hmem q hq)).mpr ⟨hlt, h q hq⟩

/-! ## Valid buffers -/

def payloadBytes (buffer : List Packet) : Int := (buffer.map (·.payloadLength)).sum

namespace PacketBuffer

/-- `GetNextPacket` returns the first packet and removes the others with its timestamp,
and no more. -/
def GetsNext (s : PacketBuffer) : Prop :=
  (s.buffer = [] → s.getNextPacket = (none, s)) ∧
    ∀ packet buffer, s.buffer = packet :: buffer →
      s.getNextPacket =
        (some (packet, buffer.countP fun other => other.timestamp = packet.timestamp),
          { s with
            currentMemoryBytes :=
              payloadBytes (buffer.filter fun other => other.timestamp ≠ packet.timestamp)
            buffer := buffer.filter fun other => other.timestamp ≠ packet.timestamp })

structure Valid (s : PacketBuffer) : Prop where
  ordered : s.buffer.IsChain InOrder
  memory : s.currentMemoryBytes = payloadBytes s.buffer
  memory_le : s.currentMemoryBytes ≤ s.maxMemoryBytes
  length_le : s.buffer.length ≤ s.maxNumberOfPackets
  getsNext : s.GetsNext

/-- What the calls keep. -/
structure Sound (s : PacketBuffer) : Prop where
  ordered : s.buffer.Pairwise InOrder
  close : Close s.buffer
  lengths : ∀ packet ∈ s.buffer, 0 ≤ packet.payloadLength
  memory : s.currentMemoryBytes = payloadBytes s.buffer
  memory_lt : s.currentMemoryBytes < 2 ^ 31
  memory_le : s.currentMemoryBytes ≤ s.maxMemoryBytes
  length_le : s.buffer.length ≤ s.maxNumberOfPackets

theorem payloadBytes_nonneg {l : List Packet} (h : ∀ packet ∈ l, 0 ≤ packet.payloadLength) :
    0 ≤ payloadBytes l := by
  refine List.sum_nonneg fun n hn => ?_
  obtain ⟨packet, hpacket, rfl⟩ := List.mem_map.mp hn
  exact h packet hpacket

@[simp] theorem payloadBytes_cons (packet : Packet) (l : List Packet) :
    payloadBytes (packet :: l) = packet.payloadLength + payloadBytes l := List.sum_cons

/-! ### Extraction -/

theorem discardWhile_eq (cond : Packet → Bool) : ∀ {l : List Packet},
    (∀ packet ∈ l, 0 ≤ packet.payloadLength) → payloadBytes l < 2 ^ 31 → ∀ count : Nat,
    discardWhile cond l (payloadBytes l) count =
      (count + (l.takeWhile cond).length, payloadBytes (l.dropWhile cond), l.dropWhile cond)
  | [], _, _, _ => rfl
  | packet :: l, hlengths, hfits, count => by
    have hpacket := hlengths packet List.mem_cons_self
    have hrest : ∀ q ∈ l, 0 ≤ q.payloadLength := fun q hq =>
      hlengths q (List.mem_cons_of_mem _ hq)
    have hnonneg := payloadBytes_nonneg hrest
    rw [payloadBytes_cons] at hfits
    unfold discardWhile
    cases hcond : cond packet with
    | true =>
      rw [if_pos rfl, List.takeWhile_cons_of_pos hcond, List.dropWhile_cons_of_pos hcond,
        payloadBytes_cons, add_sub_cancel_left, int32_of_fits (by omega) (by omega),
        discardWhile_eq cond hrest (by omega), List.length_cons, Nat.add_right_comm,
        Nat.add_assoc]
    | false =>
      rw [if_neg Bool.false_ne_true, List.takeWhile_cons_of_neg (by rw [hcond]; decide),
        List.dropWhile_cons_of_neg (by rw [hcond]; decide)]
      rfl

variable {s : PacketBuffer} {packet : Packet}

/-- The end of the list remains. -/
theorem Sound.suffix (h : s.Sound) {l : List Packet} (hl : l <:+ s.buffer) :
    Sound { s with buffer := l, currentMemoryBytes := payloadBytes l } := by
  obtain ⟨front, hfront⟩ := hl
  have hsub : ∀ packet ∈ l, packet ∈ s.buffer := fun packet hpacket => by
    rw [← hfront]
    exact List.mem_append_right _ hpacket
  have hle : payloadBytes l ≤ s.currentMemoryBytes := by
    have hnonneg : 0 ≤ payloadBytes front := payloadBytes_nonneg fun packet hpacket =>
      h.lengths packet (by rw [← hfront]; exact List.mem_append_left _ hpacket)
    have hsum : payloadBytes s.buffer = payloadBytes front + payloadBytes l := by
      rw [← hfront, payloadBytes, List.map_append, List.sum_append]
      rfl
    rw [h.memory, hsum]
    omega
  have hordered := h.ordered
  rw [← hfront] at hordered
  exact
    { ordered := (List.pairwise_append.mp hordered).2.1
      close := h.close.mono hsub
      lengths := fun packet hpacket => h.lengths packet (hsub packet hpacket)
      memory := rfl
      memory_lt := lt_of_le_of_lt hle h.memory_lt
      memory_le := le_trans hle h.memory_le
      length_le := by
        refine le_trans ?_ h.length_le
        rw [← hfront, List.length_append]
        exact Nat.le_add_left _ _ }

/-- The packets with the timestamp of the first one follow it. -/
theorem filter_timestamp : ∀ {l : List Packet},
    (packet :: l).Pairwise InOrder → Close (packet :: l) →
    l.dropWhile (fun other => other.timestamp = packet.timestamp) =
        l.filter (fun other => other.timestamp ≠ packet.timestamp) ∧
      (l.takeWhile fun other => other.timestamp = packet.timestamp).length =
        l.countP fun other => other.timestamp = packet.timestamp
  | [], _, _ => ⟨rfl, rfl⟩
  | other :: l, hordered, hclose => by
    by_cases hsame : other.timestamp = packet.timestamp
    · have hrest : (packet :: l).Pairwise InOrder :=
        hordered.sublist ((List.sublist_cons_self other l).cons_cons packet)
      have hcloseRest : Close (packet :: l) := hclose.mono fun q hq => by
        rcases List.mem_cons.mp hq with rfl | hq
        · exact List.mem_cons_self
        · exact List.mem_cons_of_mem _ (List.mem_cons_of_mem _ hq)
      obtain ⟨hdrop, htake⟩ := filter_timestamp hrest hcloseRest
      rw [List.dropWhile_cons_of_pos (by simpa using hsame),
        List.takeWhile_cons_of_pos (by simpa using hsame),
        List.filter_cons_of_neg (by simpa using hsame),
        List.countP_cons_of_pos (by simpa using hsame), List.length_cons, htake]
      exact ⟨hdrop, rfl⟩
    · obtain ⟨tb, sb, hinside⟩ := close_iff.mp hclose
      obtain ⟨hfirst, htail⟩ := List.pairwise_cons.mp hordered
      -- No later packet can have the timestamp again.
      have hlater : ∀ q ∈ other :: l, q.timestamp ≠ packet.timestamp := by
        intro q hq heq
        rcases List.mem_cons.mp hq with rfl | hq'
        · exact hsame heq
        · have hother := hinside other (List.mem_cons_of_mem _ List.mem_cons_self)
          have hle := timestamp_le_of_inOrder (hinside packet List.mem_cons_self) hother
            (hfirst other List.mem_cons_self)
          have hle' := timestamp_le_of_inOrder hother (hinside q (List.mem_cons_of_mem _ hq))
            ((List.pairwise_cons.mp htail).1 q hq')
          rw [heq] at hle'
          exact hsame (eq_of_sub_eq (le_antisymm hle' hle))
      rw [List.dropWhile_cons_of_neg (by simpa using hsame),
        List.takeWhile_cons_of_neg (by simpa using hsame), eq_comm]
      refine ⟨List.filter_eq_self.mpr fun q hq => by simpa using hlater q hq, ?_⟩
      exact (List.countP_eq_zero.mpr fun q hq => by simpa using hlater q hq).symm

theorem Sound.getsNext (h : s.Sound) : s.GetsNext := by
  constructor
  · intro hempty
    unfold getNextPacket
    rw [hempty]
  · intro packet buffer hbuffer
    have hlengths := h.lengths
    have hordered := h.ordered
    have hclose := h.close
    have hmemory := h.memory
    have hfits := h.memory_lt
    rw [hbuffer] at hlengths hordered hclose hmemory
    rw [payloadBytes_cons] at hmemory
    have hrest : ∀ q ∈ buffer, 0 ≤ q.payloadLength := fun q hq =>
      hlengths q (List.mem_cons_of_mem _ hq)
    have hnonneg := payloadBytes_nonneg hrest
    have hpacket := hlengths packet List.mem_cons_self
    obtain ⟨hdrop, htake⟩ := filter_timestamp hordered hclose
    unfold getNextPacket
    rw [hbuffer]
    dsimp only
    rw [hmemory, add_sub_cancel_left, int32_of_fits (by omega) (by omega),
      discardWhile_eq _ hrest (by omega), hdrop, htake, Nat.zero_add]

theorem Sound.valid (h : s.Sound) : s.Valid where
  ordered := h.ordered.isChain
  memory := h.memory
  memory_le := h.memory_le
  length_le := h.length_le
  getsNext := h.getsNext

/-! ### Insertion -/

/-- What an insertion asks of the buffer: there is no overflow of an `int`, and where
the packet goes in, it is close to the packets there and none is at the largest
distance in front of it. -/
structure Fits (s : PacketBuffer) (packet : Packet) : Prop where
  length_nonneg : 0 ≤ packet.payloadLength
  length_lt : packet.payloadLength < 2 ^ 31
  memory_lt : s.buffer.length < s.maxNumberOfPackets →
    s.currentMemoryBytes + packet.payloadLength < 2 ^ 31
  close : s.isFull packet = false → Close (packet :: s.buffer)
  notFar : s.isFull packet = false → ∀ q ∈ s.buffer, ¬ Far packet q

theorem int32_natCast_le (n : Nat) : int32 n ≤ n := by
  unfold int32
  rw [Int.bmod_eq_emod]
  split <;> omega

theorem isFull_eq_false :
    s.isFull packet = false ↔ s.buffer.length < s.maxNumberOfPackets ∧
      int32 (s.currentMemoryBytes + packet.payloadLength) ≤ int32 s.maxMemoryBytes := by
  unfold isFull
  rw [Bool.or_eq_false_iff, decide_eq_false_iff_not, decide_eq_false_iff_not, not_le, not_lt]

theorem sound_empty (maxNumberOfPackets maxMemoryBytes : Nat) :
    Sound { maxNumberOfPackets := maxNumberOfPackets, maxMemoryBytes := maxMemoryBytes } where
  ordered := List.Pairwise.nil
  close := ⟨⟨0, fun _ h => absurd h List.not_mem_nil⟩, ⟨0, fun _ h => absurd h List.not_mem_nil⟩⟩
  lengths := fun _ h => absurd h List.not_mem_nil
  memory := rfl
  memory_lt := Int.pow_pos (by decide)
  memory_le := Int.natCast_nonneg _
  length_le := Nat.zero_le _

theorem sound_flush (s : PacketBuffer) : s.flush.Sound :=
  sound_empty s.maxNumberOfPackets s.maxMemoryBytes

theorem Sound.place (h : s.Sound) (hfits : s.Fits packet) (hfull : s.isFull packet = false) :
    (s.place packet).Sound := by
  obtain ⟨hroom, hmemory⟩ := isFull_eq_false.mp hfull
  have hsum := hfits.memory_lt hroom
  have hnonneg := payloadBytes_nonneg h.lengths
  have hlength := hfits.length_nonneg
  have hold := h.memory
  have hperm := @Ordered.insertBack_perm _ Packet.lt packet s.buffer
  have hnew : (s.place packet).currentMemoryBytes = s.currentMemoryBytes + packet.payloadLength :=
    int32_of_fits (by omega) hsum
  rw [int32_of_fits (by omega) hsum] at hmemory
  exact
    { ordered := (insertBack_ordered_iff h.ordered (hfits.close hfull)).mpr (hfits.notFar hfull)
      close := (hfits.close hfull).mono fun q hq => hperm.mem_iff.mp hq
      lengths := fun q hq => by
        rcases List.mem_cons.mp (hperm.mem_iff.mp hq) with rfl | hq
        · exact hfits.length_nonneg
        · exact h.lengths q hq
      memory := by
        rw [hnew, h.memory, Int.add_comm, ← payloadBytes_cons]
        exact ((hperm.map _).sum_eq).symm
      memory_lt := by
        rw [hnew]
        exact hsum
      memory_le := by
        rw [hnew]
        exact hmemory.trans (int32_natCast_le _)
      length_le := by
        refine le_of_eq_of_le hperm.length_eq ?_
        exact hroom }

theorem fits_flush (hfits : s.Fits packet) :
    s.flush.Fits packet where
  length_nonneg := hfits.length_nonneg
  length_lt := hfits.length_lt
  memory_lt := fun _ => by
    show 0 + packet.payloadLength < 2 ^ 31
    rw [Int.zero_add]
    exact hfits.length_lt
  close := fun _ => close_iff.mpr ⟨packet.timestamp, packet.sequenceNumber, fun q hq => by
    rw [List.mem_singleton.mp hq]
    exact ⟨inHalf_self _, inHalf_self _⟩⟩
  notFar := fun _ _ hq => absurd hq List.not_mem_nil

theorem Sound.insertPacket (h : s.Sound) {packet : Option Packet}
    (hfits : ∀ p, packet = some p → p.payload.isSome → s.Fits p) :
    (s.insertPacket packet).2.Sound := by
  unfold PacketBuffer.insertPacket
  cases packet with
  | none => exact h
  | some packet =>
    dsimp only
    by_cases hpayload : packet.payload.isNone
    · rw [if_pos hpayload]
      exact h
    · have hfitsPacket := hfits packet rfl (Option.isNone_eq_false_iff.mp (Bool.eq_false_iff.mpr hpayload))
      rw [if_neg hpayload]
      split
      · split
        · exact sound_flush s
        · rename_i hfull
          exact (sound_flush s).place (fits_flush hfitsPacket) (Bool.eq_false_iff.mpr hfull)
      · rename_i hfull
        exact h.place hfitsPacket (Bool.eq_false_iff.mpr hfull)

/-! ### Runs -/

/-- `P` holds of every packet of a list and the buffer that `InsertPacket` finds for
it, until one is refused. -/
def EachInserted (P : PacketBuffer → Packet → Prop) (db : DecoderDatabase) :
    List Packet → CurrentTypes → PacketBuffer → Prop
  | [], _, _ => True
  | packet :: packetList, types, s =>
    let before := s.beforeInsert db packet types
    (packet.payload.isSome → P before packet) ∧
      ((before.insertPacket (some packet)).1 = .kOK ∨
          (before.insertPacket (some packet)).1 = .kFlushed →
        EachInserted P db packetList (changeType db packet types).2
          (before.insertPacket (some packet)).2)

/-- The same of every packet that a call inserts. -/
def Inserts (P : PacketBuffer → Packet → Prop) (s : PacketBuffer) : Call → Prop
  | .insertPacket packet => ∀ p, packet = some p → p.payload.isSome → P s p
  | .insertPacketList packetList db types => EachInserted P db packetList types s
  | .getNextPacket => True
  | .discardNextPacket => True
  | .discardOldPackets _ => True
  | .flush => True

theorem Sound.insertPackets {db : DecoderDatabase} : ∀ {packetList : List Packet}
    {types : CurrentTypes} {s : PacketBuffer} (flushed : Bool), s.Sound →
    EachInserted Fits db packetList types s →
    (PacketBuffer.insertPackets db packetList flushed types s).2.2.Sound
  | [], _, _, _, h, _ => h
  | packet :: packetList, types, s, flushed, h, hfits => by
    have hbefore : (s.beforeInsert db packet types).Sound := by
      unfold beforeInsert
      split
      · exact sound_flush s
      · exact h
    have hinsert : ((s.beforeInsert db packet types).insertPacket (some packet)).2.Sound :=
      hbefore.insertPacket fun p hp hpayload => by
        cases hp
        exact hfits.1 hpayload
    have hrest := hfits.2
    unfold PacketBuffer.insertPackets
    dsimp only
    generalize (s.beforeInsert db packet types).insertPacket (some packet) = inserted
      at hinsert hrest
    obtain ⟨returnVal, s'⟩ := inserted
    cases returnVal with
    | kOK => exact Sound.insertPackets _ hinsert (hrest (.inl rfl))
    | kFlushed => exact Sound.insertPackets _ hinsert (hrest (.inr rfl))
    | kNotFound => exact hinsert
    | kBufferEmpty => exact hinsert
    | kInvalidPacket => exact hinsert
    | kInvalidPointer => exact hinsert
    | kOversizePacket => exact hinsert

theorem Sound.discardWhile (h : s.Sound) (cond : Packet → Bool) :
    Sound { s with
      currentMemoryBytes :=
        (PacketBuffer.discardWhile cond s.buffer s.currentMemoryBytes 0).2.1
      buffer := (PacketBuffer.discardWhile cond s.buffer s.currentMemoryBytes 0).2.2 } := by
  have hfits := h.memory_lt
  rw [h.memory] at hfits ⊢
  rw [discardWhile_eq cond h.lengths hfits]
  exact h.suffix (List.dropWhile_suffix cond)

theorem Sound.step {s : PacketBuffer} (h : s.Sound) (c : Call) (hfits : s.Inserts Fits c) :
    (s.step c).Sound := by
  cases c with
  | insertPacket packet => exact h.insertPacket hfits
  | insertPacketList packetList db types => exact Sound.insertPackets false h hfits
  | getNextPacket =>
    cases hbuffer : s.buffer with
    | nil =>
      have hnone := h.getsNext.1 hbuffer
      show s.getNextPacket.2.Sound
      rw [hnone]
      exact h
    | cons packet buffer =>
      have hsome := h.getsNext.2 packet buffer hbuffer
      show s.getNextPacket.2.Sound
      rw [hsome]
      refine h.suffix ?_
      have hordered := h.ordered
      have hclose := h.close
      rw [hbuffer] at hordered hclose ⊢
      rw [← (filter_timestamp hordered hclose).1]
      exact (List.dropWhile_suffix _).trans (List.suffix_cons _ _)
  | discardNextPacket =>
    show s.discardNextPacket.2.Sound
    unfold discardNextPacket
    split
    · exact h
    · rename_i packet buffer hbuffer
      have hsuffix := h.suffix (l := buffer) (by rw [hbuffer]; exact List.suffix_cons _ _)
      have hmemory := h.memory
      have hfits := hsuffix.memory_lt
      rw [hbuffer, payloadBytes_cons] at hmemory
      dsimp only at hfits ⊢
      rw [hmemory, add_sub_cancel_left, int32_of_fits ?_ hfits]
      · exact hsuffix
      · exact le_trans (by decide) (payloadBytes_nonneg hsuffix.lengths)
  | discardOldPackets timestampLimit => exact h.discardWhile (isOld timestampLimit)
  | flush => exact sound_flush s

/-- In every run of a new buffer whose insertions fit, every state is valid. -/
theorem always_valid (maxNumberOfPackets maxMemoryBytes : Nat) (calls : List Call)
    (hfits : Machine.Along step (Inserts Fits)
      { maxNumberOfPackets := maxNumberOfPackets, maxMemoryBytes := maxMemoryBytes } calls) :
    Machine.Always step Valid
      { maxNumberOfPackets := maxNumberOfPackets, maxMemoryBytes := maxMemoryBytes } calls := by
  have hsound := Machine.always_of_along (I := Sound) (fun _ c h hc => h.step c hc)
    (sound_empty maxNumberOfPackets maxMemoryBytes) hfits
  exact hsound.imp fun _ h => h.valid

/-- One byte of payload at a timestamp. -/
def packetAt (timestamp : BitVec 32) : Packet where
  header := { timestamp := timestamp }
  payload := some fun _ => 0
  payloadLength := 1

/-- Two packets with one timestamp, of which one is extracted. -/
theorem always_valid_duplicate :
    Machine.Always step Valid { maxNumberOfPackets := 10, maxMemoryBytes := 1000 }
      [.insertPacket (some (packetAt 7)), .insertPacket (some (packetAt 7)), .getNextPacket] := by
  refine always_valid 10 1000 _ ⟨fun p hp _ => ?_, fun p hp _ => ?_, trivial, trivial⟩
  · cases hp
    exact ⟨by decide, by decide, by decide, by decide, by decide⟩
  · cases hp
    exact ⟨by decide, by decide, by decide, by decide, by decide⟩

/-- No `int` overflows, and the packet is within half of both ranges of those in the
buffer. -/
def InRange (s : PacketBuffer) (packet : Packet) : Prop :=
  0 ≤ packet.payloadLength ∧ s.currentMemoryBytes + packet.payloadLength < 2 ^ 31 ∧
    Close (packet :: s.buffer)

/-- A packet that comes late, by the largest distance. -/
theorem not_always_valid : ¬ ∀ (maxNumberOfPackets maxMemoryBytes : Nat) (calls : List Call),
    Machine.Along step (Inserts InRange)
        { maxNumberOfPackets := maxNumberOfPackets, maxMemoryBytes := maxMemoryBytes } calls →
      Machine.Always step Valid
        { maxNumberOfPackets := maxNumberOfPackets, maxMemoryBytes := maxMemoryBytes } calls := by
  intro h
  have hvalid := h 10 1000
    [.insertPacket (some (packetAt 0x7FFFFFFF)), .insertPacket (some (packetAt 0))]
    ⟨fun p hp _ => by cases hp; exact ⟨by decide, by decide, by decide⟩,
      fun p hp _ => by cases hp; exact ⟨by decide, by decide, by decide⟩, trivial⟩
  have hordered := hvalid.2.2.ordered
  exact absurd hordered (by decide)

end PacketBuffer

end PerchWebrtc.NetEq
