import PerchWebrtc.NetEq.PacketBuffer

/-!
# Queries of the packet buffer

What is asked of the packet buffer of NetEq by timestamp: the next one that is not older, and to
discard the older ones. Older is meant on the circle of timestamps (`Precedes`).

* `discardOldPackets_shift`: on the circle, adding a number to all timestamps changes nothing;
* `answers_iff`: when both queries do what they are there for.
-/

namespace PerchWebrtc.NetEq

open Circular

namespace PacketBuffer

variable {s : PacketBuffer} {t : BitVec 32}

/-- A pointer to the result is `none` if it is null. -/
def nextHigherTimestamp (timestamp : BitVec 32) (nextTimestamp : Option (BitVec 32))
    (s : PacketBuffer) : BufferReturnCode × Option (BitVec 32) :=
  if s.buffer.isEmpty then (.kBufferEmpty, nextTimestamp)
  else if nextTimestamp.isNone then (.kInvalidPointer, nextTimestamp)
  else
    match s.buffer.find? fun packet => timestamp ≤ packet.timestamp with
    | some packet => (.kOK, some packet.timestamp)
    | none => (.kNotFound, nextTimestamp)

/-! ## What they are there for -/

/-- The nearest timestamp in the buffer that is not older. -/
structure IsNextHigher (s : PacketBuffer) (timestamp x : BitVec 32) : Prop where
  mem : x ∈ s.buffer.map (·.timestamp)
  notOlder : ¬ Precedes x timestamp
  nearest : ∀ packet ∈ s.buffer, ¬ Precedes packet.timestamp timestamp →
    (x - timestamp).toNat ≤ (packet.timestamp - timestamp).toNat

/-- The nearest timestamp is found, or there is none. -/
def FindsNextHigher (s : PacketBuffer) (timestamp : BitVec 32) : Prop :=
  ∀ old, (∃ x, s.IsNextHigher timestamp x ∧
      s.nextHigherTimestamp timestamp (some old) = (.kOK, some x)) ∨
    (∀ packet ∈ s.buffer, Precedes packet.timestamp timestamp) ∧
      s.nextHigherTimestamp timestamp (some old) =
        (if s.buffer.isEmpty then .kBufferEmpty else .kNotFound, some old)

def DiscardsOlder (s : PacketBuffer) (timestampLimit : BitVec 32) : Prop :=
  (s.discardOldPackets timestampLimit).2.buffer =
      s.buffer.filter (fun packet => ¬ Precedes packet.timestamp timestampLimit) ∧
    (s.discardOldPackets timestampLimit).1 =
      s.buffer.countP fun packet => Precedes packet.timestamp timestampLimit

/-- A number is added to every timestamp. -/
def shift (k : BitVec 32) (s : PacketBuffer) : PacketBuffer :=
  { s with
    buffer := s.buffer.map fun packet =>
      { packet with header := { packet.header with timestamp := packet.timestamp + k } } }

/-- The answers are the same if a number is added to all timestamps. -/
def AnswersAlike (s : PacketBuffer) (timestamp k : BitVec 32) : Prop :=
  (∀ old, (s.shift k).nextHigherTimestamp (timestamp + k) (some (old + k)) =
      ((s.nextHigherTimestamp timestamp (some old)).1,
        (s.nextHigherTimestamp timestamp (some old)).2.map (· + k))) ∧
    (s.shift k).discardOldPackets (timestamp + k) =
      ((s.discardOldPackets timestamp).1, (s.discardOldPackets timestamp).2.shift k)

structure Answers (s : PacketBuffer) (timestamp : BitVec 32) : Prop where
  findsNextHigher : s.FindsNextHigher timestamp
  discardsOlder : s.DiscardsOlder timestamp
  alike : ∀ k, s.AnswersAlike timestamp k

/-! ## Older packets -/

theorem isOld_iff {packet : Packet} : isOld t packet = true ↔
    Precedes packet.timestamp t ∧ (t - packet.timestamp).toNat ≠ 2 ^ 31 - 1 := by
  unfold isOld Precedes
  rw [decide_eq_true_iff, and_assoc]
  refine and_congr_right fun _ => ?_
  omega

theorem discardWhile_buffer (cond : Packet → Bool) : ∀ (l : List Packet) (memory : Int) (count : Nat),
    (discardWhile cond l memory count).2.2 = l.dropWhile cond
  | [], _, _ => rfl
  | packet :: l, memory, count => by
    have ih := discardWhile_buffer cond l
    unfold discardWhile
    cases hcond : cond packet with
    | true => rw [if_pos rfl, List.dropWhile_cons_of_pos hcond, ih]
    | false => rw [if_neg Bool.false_ne_true, List.dropWhile_cons_of_neg (by rw [hcond]; decide)]

theorem discardOldPackets_buffer :
    (s.discardOldPackets t).2.buffer = s.buffer.dropWhile (isOld t) :=
  discardWhile_buffer (isOld t) _ _ _

theorem dropWhile_eq_filter {α : Type*} {p : α → Bool} : ∀ {l : List α},
    l.Pairwise (fun x y => p y = true → p x = true) → l.dropWhile p = l.filter fun x => !p x
  | [], _ => rfl
  | x :: l, hl => by
    cases hx : p x with
    | true =>
      rw [List.dropWhile_cons_of_pos hx, List.filter_cons_of_neg (by simp [hx])]
      exact dropWhile_eq_filter hl.of_cons
    | false =>
      have hrest : ∀ y ∈ x :: l, (!p y) = true := by
        intro y hy
        rcases List.mem_cons.mp hy with rfl | hy
        · simp [hx]
        · have := List.rel_of_pairwise_cons hl hy
          simpa [hx] using this
      rw [List.dropWhile_cons_of_neg (by simp [hx]), List.filter_eq_self.mpr hrest]

/-- Exactly the older packets go if they are in front of the others, and none of them is at the
largest distance. -/
theorem discardOldPackets_exact
    (hfront : s.buffer.Pairwise fun p q => Precedes q.timestamp t → Precedes p.timestamp t)
    (hfar : ∀ packet ∈ s.buffer, (t - packet.timestamp).toNat ≠ 2 ^ 31 - 1) :
    (s.discardOldPackets t).2.buffer = s.buffer.filter fun packet => ¬ Precedes packet.timestamp t := by
  have hold : ∀ packet ∈ s.buffer, isOld t packet = decide (Precedes packet.timestamp t) := by
    intro packet hpacket
    rw [Bool.eq_iff_iff, isOld_iff, decide_eq_true_iff]
    exact and_iff_left (hfar packet hpacket)
  rw [discardOldPackets_buffer, dropWhile_eq_filter]
  · refine List.filter_congr fun packet hpacket => ?_
    rw [hold packet hpacket, decide_not]
  · refine hfront.imp_of_mem fun {p q} hp hq hpq => ?_
    rw [hold p hp, hold q hq, decide_eq_true_iff, decide_eq_true_iff]
    exact hpq

theorem discardWhile_map {cond cond' : Packet → Bool} {f : Packet → Packet}
    (hcond : ∀ packet, cond' (f packet) = cond packet)
    (hlength : ∀ packet, (f packet).payloadLength = packet.payloadLength) :
    ∀ (l : List Packet) (memory : Int) (count : Nat),
      discardWhile cond' (l.map f) memory count =
        ((discardWhile cond l memory count).1, (discardWhile cond l memory count).2.1,
          (discardWhile cond l memory count).2.2.map f)
  | [], _, _ => rfl
  | packet :: l, memory, count => by
    have ih := discardWhile_map hcond hlength l
    rw [List.map_cons, discardWhile, discardWhile, hcond, hlength]
    cases cond packet with
    | true => exact ih _ _
    | false => rfl

theorem discardOldPackets_shift (k : BitVec 32) :
    (s.shift k).discardOldPackets (t + k) =
      ((s.discardOldPackets t).1, (s.discardOldPackets t).2.shift k) := by
  have hold : ∀ packet : Packet,
      isOld (t + k) { packet with header := { packet.header with timestamp := packet.timestamp + k } } =
        isOld t packet := by
    intro packet
    unfold isOld
    simp only [Packet.timestamp, add_sub_add_right, ne_eq, BitVec.add_left_inj]
  unfold discardOldPackets shift
  dsimp only
  rw [discardWhile_map hold fun _ => rfl]

/-! ## The next timestamp -/

theorem nextHigherTimestamp_ok {old x : BitVec 32}
    (h : s.nextHigherTimestamp t (some old) = (.kOK, some x)) : t ≤ x := by
  unfold nextHigherTimestamp at h
  cases hempty : s.buffer.isEmpty with
  | true => simp [hempty] at h
  | false =>
    cases hfind : s.buffer.find? fun packet => t ≤ packet.timestamp with
    | none => simp [hempty, hfind] at h
    | some packet =>
      have hx : packet.timestamp = x := by simpa [hempty, hfind] using h
      have hle := List.find?_some hfind
      rw [← hx]
      exact of_decide_eq_true hle

/-- A first timestamp that is not lower is the answer. -/
theorem nextHigherTimestamp_head {packet : Packet} {buffer : List Packet}
    (hbuffer : s.buffer = packet :: buffer) (hle : t ≤ packet.timestamp) (old : BitVec 32) :
    s.nextHigherTimestamp t (some old) = (.kOK, some packet.timestamp) := by
  have hfind : s.buffer.find? (fun packet => t ≤ packet.timestamp) = some packet := by
    rw [hbuffer]
    exact List.find?_cons_of_pos (decide_eq_true hle)
  unfold nextHigherTimestamp
  rw [hfind, hbuffer]
  rfl

theorem nextHigherTimestamp_self (hhead : ∀ packet ∈ s.buffer.head?, packet.timestamp = t)
    (old : BitVec 32) : s.nextHigherTimestamp t (some old) =
      if s.buffer.isEmpty then (.kBufferEmpty, some old) else (.kOK, some t) := by
  cases hbuffer : s.buffer with
  | nil =>
    unfold nextHigherTimestamp
    rw [hbuffer]
    rfl
  | cons packet buffer =>
    have hpacket : packet.timestamp = t := hhead packet (by rw [hbuffer]; rfl)
    rw [nextHigherTimestamp_head hbuffer (by rw [hpacket]; exact BitVec.le_refl t), hpacket]
    rfl

theorem head_shift {k : BitVec 32} (hhead : ∀ packet ∈ s.buffer.head?, packet.timestamp = t) :
    ∀ packet ∈ (s.shift k).buffer.head?, packet.timestamp = t + k := by
  intro packet hpacket
  unfold shift at hpacket
  rw [List.head?_map] at hpacket
  obtain ⟨first, hfirst, rfl⟩ := Option.map_eq_some_iff.mp hpacket
  show first.timestamp + k = t + k
  rw [hhead first hfirst]

/-- Both queries give their answers for a timestamp if and only if no packet is older than it, and
the first one is as old. -/
theorem answers_iff : s.Answers t ↔
    (∀ packet ∈ s.buffer, ¬ Precedes packet.timestamp t) ∧
      ∀ packet ∈ s.buffer.head?, packet.timestamp = t := by
  constructor
  · intro h
    have hnone : ∀ packet ∈ s.buffer, ¬ Precedes packet.timestamp t := by
      have hcount : ((0 : Int) = s.buffer.countP fun packet => Precedes packet.timestamp t) :=
        h.discardsOlder.2
      have hzero := List.countP_eq_zero.mp (Int.natCast_eq_zero.mp hcount.symm)
      exact fun packet hpacket hold => hzero packet hpacket (decide_eq_true hold)
    refine ⟨hnone, fun packet hpacket => ?_⟩
    obtain ⟨buffer, hbuffer⟩ := List.head?_eq_some_iff.mp hpacket
    have hmem : packet ∈ s.buffer := by
      rw [hbuffer]
      exact List.mem_cons_self
    obtain ⟨x, -, hx⟩ : ∃ x, s.IsNextHigher t x ∧
        s.nextHigherTimestamp t (some 0) = (.kOK, some x) :=
      (h.findsNextHigher 0).resolve_right fun hold => hnone packet hmem (hold.1 packet hmem)
    have hshift : ∀ k, (s.shift k).nextHigherTimestamp (t + k) (some (0 + k)) =
        (.kOK, some (x + k)) := by
      intro k
      rw [(h.alike k).1 0, hx]
      rfl
    -- Where the timestamp that is asked for becomes 0, the first packet is the answer.
    have hfirst : x = packet.timestamp := by
      have hzero : t + -t ≤ packet.timestamp + -t := by
        rw [add_neg_cancel]
        exact BitVec.le_def.mpr (Nat.zero_le _)
      have hhead := @nextHigherTimestamp_head (s.shift (-t)) (t + -t) _ _
        (congrArg (List.map _) hbuffer) hzero (0 + -t)
      have hsame := congrArg Prod.snd ((hshift (-t)).symm.trans hhead)
      exact add_right_cancel (Option.some.inj hsame)
    -- Where that packet becomes 0, it is still the answer.
    have hle := nextHigherTimestamp_ok (hshift (-x))
    rw [add_neg_cancel] at hle
    have hzero : t + -x = 0 := BitVec.le_antisymm hle (BitVec.le_def.mpr (Nat.zero_le _))
    rw [← hfirst]
    exact (add_neg_eq_zero.mp hzero).symm
  · rintro ⟨hnone, hhead⟩
    refine ⟨fun old => ?_, ⟨?_, ?_⟩, fun k => ⟨fun old => ?_, discardOldPackets_shift k⟩⟩
    · rw [nextHigherTimestamp_self hhead]
      cases hbuffer : s.buffer with
      | nil => exact Or.inr ⟨fun packet hpacket => absurd hpacket List.not_mem_nil, rfl⟩
      | cons packet buffer =>
        refine Or.inl ⟨t, ⟨?_, precedes_irrefl t, fun other _ _ => ?_⟩, rfl⟩
        · rw [← hhead packet (by rw [hbuffer]; rfl), hbuffer]
          exact List.mem_cons_self
        · rw [BitVec.sub_self]
          exact Nat.zero_le _
    · refine discardOldPackets_exact ?_ fun packet hpacket hfar => hnone packet hpacket ?_
      · exact List.pairwise_of_forall_mem_list fun _ _ q hq hold => absurd hold (hnone q hq)
      · refine ⟨fun hsame => ?_, by omega⟩
        rw [hsame, BitVec.sub_self] at hfar
        exact absurd hfar (by decide)
    · have hzero : s.buffer.countP (fun packet => Precedes packet.timestamp t) = 0 :=
        List.countP_eq_zero.mpr fun packet hpacket => by simpa using hnone packet hpacket
      rw [hzero]
      rfl
    · rw [nextHigherTimestamp_self hhead, nextHigherTimestamp_self (head_shift hhead)]
      unfold shift
      rw [List.isEmpty_map]
      cases s.buffer.isEmpty with
      | true => rfl
      | false => rfl

def packetsAroundWrap : PacketBuffer :=
  { maxNumberOfPackets := 10
    maxMemoryBytes := 1000
    currentMemoryBytes := 2
    buffer := [packetAt 0xFFFFFFF0, packetAt 0x10] }

/-- The timestamp 0x10 comes next after 0xFFFFFFF8, and is not found. -/
theorem not_answers : ¬ packetsAroundWrap.Answers 0xFFFFFFF8 := by
  intro h
  rcases h.findsNextHigher 0 with ⟨x, -, hx⟩ | ⟨hold, -⟩
  · have hcode : (packetsAroundWrap.nextHigherTimestamp 0xFFFFFFF8 (some 0)).1 = .kOK :=
      congrArg Prod.fst hx
    exact absurd hcode (by decide)
  · have hlast := hold (packetAt 0x10) (List.mem_cons_of_mem _ List.mem_cons_self)
    exact absurd hlast (by decide)

end PacketBuffer

end PerchWebrtc.NetEq
