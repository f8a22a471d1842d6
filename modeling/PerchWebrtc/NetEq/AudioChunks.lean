import PerchWebrtc.NetEq.AudioSplitting

/-!
# Audio payloads and their chunks

`SplitBySamples` halves the length of a payload until a chunk is shorter than 40 ms. Half
of a number of samples need not be a number of samples.

* `halve_eq`: the split size is the length, halved a number of times;
* `makeChunks_content`, `makeChunks_whole`, `makeChunks_timestamps`: what the chunks are
  for any split size;
* `preservesAudio_iff`: the chunks are the audio of the packet if and only if the split size
  is a number of samples.
-/

namespace PerchWebrtc.NetEq

/-- The bytes of a payload. -/
def Packet.content (p : Packet) : List Byte := p.bytes.bytes 0 p.payloadLength.toNat

namespace PayloadSplitter

/-- A whole number of samples of all channels takes this number of bytes. -/
def WholeSamples (bytesPerMs timestampsPerMs count : Int) : Prop :=
  bytesPerMs ∣ count * timestampsPerMs

instance (bytesPerMs timestampsPerMs count : Int) :
    Decidable (WholeSamples bytesPerMs timestampsPerMs count) :=
  inferInstanceAs (Decidable (_ ∣ _))

/-- The chunks are the packet: its bytes, whole samples in each, and timestamps that count
the samples of a channel that are before. -/
structure IsAudioOf (bytesPerMs timestampsPerMs : Int) (packet : Packet)
    (newPackets : List Packet) : Prop where
  content : newPackets.flatMap Packet.content = packet.content
  whole : ∀ chunk ∈ newPackets, WholeSamples bytesPerMs timestampsPerMs chunk.payloadLength
  timestamps : ∀ before chunk after, newPackets = before ++ chunk :: after →
    ∃ samples : Int, samples * bytesPerMs = (before.map (·.payloadLength)).sum * timestampsPerMs ∧
      chunk.timestamp = packet.timestamp + BitVec.ofInt 32 samples

/-- The length, halved until it is less than 40 ms, is a number of samples. -/
def HalvesToSamples (bytesPerMs timestampsPerMs len : Int) : Prop :=
  ∃ k, len / 2 ^ k < 2 * (bytesPerMs * 20) ∧ (∀ i < k, 2 * (bytesPerMs * 20) ≤ len / 2 ^ i) ∧
    WholeSamples bytesPerMs timestampsPerMs (len / 2 ^ k)

/-! ## The split size -/

theorem halve_eq {minChunkSize : Int} : ∀ {fuel : Nat} {size splitSizeBytes : Int},
    halve minChunkSize fuel size = some splitSizeBytes →
    ∃ k, splitSizeBytes = size / 2 ^ k ∧ splitSizeBytes < 2 * minChunkSize ∧
      ∀ i < k, 2 * minChunkSize ≤ size / 2 ^ i
  | 0, _, _, h => by cases h
  | fuel + 1, size, splitSizeBytes, h => by
    unfold halve at h
    split at h
    · rename_i hlarge
      obtain ⟨k, heq, hsmall, hbefore⟩ := halve_eq h
      have hhalf : ∀ i, size / 2 / 2 ^ i = size / 2 ^ (i + 1) := fun i => by
        rw [Int.ediv_ediv_of_nonneg (by decide), pow_succ, mul_comm]
      refine ⟨k + 1, heq.trans (hhalf k), hsmall, fun i hi => ?_⟩
      cases i with
      | zero =>
        rw [pow_zero, Int.ediv_one]
        exact hlarge
      | succ i =>
        rw [← hhalf]
        exact hbefore i (Nat.lt_of_succ_lt_succ hi)
    · cases h
      exact ⟨0, by rw [pow_zero, Int.ediv_one], by omega, fun i hi => absurd hi (Nat.not_lt_zero i)⟩

/-- There is one number of halvings. -/
theorem halvings_unique {len limit : Int} {k k' : Nat} (h : len / 2 ^ k < limit)
    (hbefore : ∀ i < k, limit ≤ len / 2 ^ i) (h' : len / 2 ^ k' < limit)
    (hbefore' : ∀ i < k', limit ≤ len / 2 ^ i) : k = k' := by
  rcases Nat.lt_trichotomy k k' with hlt | heq | hlt
  · exact absurd (hbefore' k hlt) (not_le.mpr h)
  · exact heq
  · exact absurd (hbefore k' hlt) (not_le.mpr h')

/-! ## Chunks -/

section Chunks

variable {packet : Packet} {splitSizeBytes timestampsPerChunk : Int}

theorem chunk_content (timestamp : BitVec 32) (p count : Int) :
    (chunk packet timestamp p count).content = packet.bytes.bytes p.toNat count.toNat := by
  show (Mem.copy (fun _ => 0) 0 packet.bytes p.toNat count.toNat).bytes 0 count.toNat = _
  refine Mem.bytes_eq_iff.mpr fun i hi => ?_
  rw [Mem.copy_inside _ _ (Nat.zero_le _) (by omega)]
  simp

theorem makeChunks_content (hsplit : 0 ≤ splitSizeBytes) : ∀ {fuel : Nat}
    {timestamp : BitVec 32} {p len : Int} {newPackets : List Packet}, 0 ≤ p → 0 ≤ len →
    makeChunks packet splitSizeBytes timestampsPerChunk fuel timestamp p len = some newPackets →
    newPackets.flatMap Packet.content = packet.bytes.bytes p.toNat len.toNat
  | 0, _, _, _, _, _, _, h => by cases h
  | fuel + 1, timestamp, p, len, newPackets, hp, hlen, h => by
    unfold makeChunks at h
    split at h
    · obtain ⟨rest, hrest, rfl⟩ := Option.map_eq_some_iff.mp h
      have ih := makeChunks_content hsplit (by omega) (by omega) hrest
      rw [List.flatMap_cons, chunk_content, ih,
        show (p + splitSizeBytes).toNat = p.toNat + splitSizeBytes.toNat by omega,
        ← Mem.bytes_add]
      exact congrArg _ (by omega)
    · split at h
      · cases h
        rw [List.flatMap_singleton, chunk_content]
      · cases h
        rw [show len.toNat = 0 by omega]
        rfl

theorem makeChunks_whole {bytesPerMs timestampsPerMs : Int}
    (hwhole : WholeSamples bytesPerMs timestampsPerMs splitSizeBytes) : ∀ {fuel : Nat}
    {timestamp : BitVec 32} {p len : Int} {newPackets : List Packet},
    WholeSamples bytesPerMs timestampsPerMs len →
    makeChunks packet splitSizeBytes timestampsPerChunk fuel timestamp p len = some newPackets →
    ∀ chunk ∈ newPackets, WholeSamples bytesPerMs timestampsPerMs chunk.payloadLength
  | 0, _, _, _, _, _, h => by cases h
  | fuel + 1, timestamp, p, len, newPackets, hlen, h => by
    unfold makeChunks at h
    split at h
    · obtain ⟨rest, hrest, rfl⟩ := Option.map_eq_some_iff.mp h
      intro chunk hchunk
      rcases List.mem_cons.mp hchunk with rfl | hchunk
      · exact hwhole
      · have hless : WholeSamples bytesPerMs timestampsPerMs (len - splitSizeBytes) := by
          show bytesPerMs ∣ (len - splitSizeBytes) * timestampsPerMs
          rw [Int.sub_mul]
          exact dvd_sub hlen hwhole
        exact makeChunks_whole hwhole hless hrest chunk hchunk
    · split at h
      · cases h
        intro chunk hchunk
        rw [List.mem_singleton.mp hchunk]
        exact hlen
      · cases h
        exact fun chunk hchunk => absurd hchunk List.not_mem_nil

/-- Every chunk before another has the split size, and moves the timestamp on. -/
theorem makeChunks_timestamps : ∀ {fuel : Nat} {timestamp : BitVec 32} {p len : Int}
    {newPackets : List Packet},
    makeChunks packet splitSizeBytes timestampsPerChunk fuel timestamp p len = some newPackets →
    ∀ before chunk after, newPackets = before ++ chunk :: after →
      (before.map (·.payloadLength)).sum = before.length * splitSizeBytes ∧
        chunk.timestamp = timestamp + BitVec.ofInt 32 (before.length * timestampsPerChunk)
  | 0, _, _, _, _, h => by cases h
  | fuel + 1, timestamp, p, len, newPackets, h => by
    have hfirst : ∀ {made : Packet}, made.timestamp = timestamp →
        (([] : List Packet).map (·.payloadLength)).sum =
            (([] : List Packet).length : Int) * splitSizeBytes ∧
          made.timestamp = timestamp +
            BitVec.ofInt 32 ((([] : List Packet).length : Int) * timestampsPerChunk) := by
      intro made hmade
      simp [hmade]
    intro before made after hsplit
    unfold makeChunks at h
    split at h
    · obtain ⟨rest, hrest, rfl⟩ := Option.map_eq_some_iff.mp h
      cases before with
      | nil =>
        cases hsplit
        exact hfirst rfl
      | cons first before =>
        obtain ⟨rfl, hrestSplit⟩ := List.cons_eq_cons.mp hsplit
        obtain ⟨hsum, htime⟩ := makeChunks_timestamps hrest before made after hrestSplit
        constructor
        · rw [List.map_cons, List.sum_cons, hsum, List.length_cons]
          show splitSizeBytes + _ = _
          push_cast
          ring
        · rw [htime, List.length_cons, BitVec.add_assoc, ← BitVec.ofInt_add]
          refine congrArg (fun n => timestamp + BitVec.ofInt 32 n) ?_
          push_cast
          ring
    · split at h
      · cases h
        cases before with
        | nil =>
          cases hsplit
          exact hfirst rfl
        | cons first before =>
          cases before with
          | nil => cases hsplit
          | cons second before => cases hsplit
      · cases h
        cases before with
        | nil => cases hsplit
        | cons first before => cases hsplit

end Chunks

/-! ## Packets -/

/-- Splitting a packet comes to an end, with the audio of the packet. -/
def PreservesAudio (codecType : NetEqDecoder) (bytesPerMs timestampsPerMs : Int)
    (packet : Packet) : Prop :=
  (∃ fuel, (splitPacket fuel codecType packet).isSome = true) ∧
    ∀ fuel newPackets, splitPacket fuel codecType packet = some (.ok newPackets) →
      IsAudioOf bytesPerMs timestampsPerMs packet newPackets

section Packets

variable {codecType : NetEqDecoder} {bytesPerMs timestampsPerMs : Int} {packet : Packet}
  {newPackets : List Packet}

/-- The loops that a packet goes through. -/
theorem splitPacket_samples (h : samplesPerMs codecType = some (bytesPerMs, timestampsPerMs))
    {fuel : Nat} (hsplit : splitPacket fuel codecType packet = some (.ok newPackets)) :
    ∃ splitSizeBytes, halve (bytesPerMs * 20) fuel packet.payloadLength = some splitSizeBytes ∧
      makeChunks packet splitSizeBytes ((splitSizeBytes * timestampsPerMs).tdiv bytesPerMs) fuel
        packet.timestamp 0 packet.payloadLength = some newPackets := by
  unfold splitPacket splitBySamples at hsplit
  rw [h] at hsplit
  dsimp only at hsplit
  obtain ⟨made, hmade, heq⟩ := Option.map_eq_some_iff.mp hsplit
  cases heq
  split at hmade
  · cases hmade
  · exact ⟨_, ‹_›, hmade⟩

theorem isAudioOf_of_whole {splitSizeBytes : Int} (hpos : 0 < packet.payloadLength)
    (hsize : 0 < splitSizeBytes)
    (hlen : WholeSamples bytesPerMs timestampsPerMs packet.payloadLength)
    (hwhole : WholeSamples bytesPerMs timestampsPerMs splitSizeBytes) {fuel : Nat}
    (h : makeChunks packet splitSizeBytes ((splitSizeBytes * timestampsPerMs).tdiv bytesPerMs) fuel
      packet.timestamp 0 packet.payloadLength = some newPackets) :
    IsAudioOf bytesPerMs timestampsPerMs packet newPackets := by
  refine ⟨makeChunks_content (le_of_lt hsize) le_rfl (le_of_lt hpos) h,
    makeChunks_whole hwhole hlen h, fun before made after hsplit => ?_⟩
  obtain ⟨hsum, htime⟩ := makeChunks_timestamps h before made after hsplit
  refine ⟨_, ?_, htime⟩
  rw [hsum, mul_assoc, Int.tdiv_mul_cancel hwhole, mul_assoc]

/-- A first chunk that is not the whole packet has the split size. -/
theorem whole_of_isAudioOf {splitSizeBytes : Int} {timestampsPerChunk : Int}
    (hsplit : 2 * splitSizeBytes ≤ packet.payloadLength) {fuel : Nat}
    (h : makeChunks packet splitSizeBytes timestampsPerChunk fuel packet.timestamp 0
      packet.payloadLength = some newPackets)
    (haudio : IsAudioOf bytesPerMs timestampsPerMs packet newPackets) :
    WholeSamples bytesPerMs timestampsPerMs splitSizeBytes := by
  cases fuel with
  | zero => cases h
  | succ fuel =>
    unfold makeChunks at h
    rw [if_pos hsplit] at h
    obtain ⟨rest, -, rfl⟩ := Option.map_eq_some_iff.mp h
    exact haudio.whole _ List.mem_cons_self

/-- Half of a length, or less, is doubled within it. -/
theorem two_mul_halved_le {len : Int} (hlen : 0 ≤ len) (k : Nat) :
    2 * (len / 2 ^ (k + 1)) ≤ len := by
  have hpow : (0 : Int) < 2 ^ (k + 1) := by positivity
  have hle : len / 2 ^ (k + 1) * 2 ^ (k + 1) ≤ len := Int.ediv_mul_le _ (ne_of_gt hpow)
  have hnonneg : 0 ≤ len / 2 ^ (k + 1) := Int.ediv_nonneg hlen (le_of_lt hpow)
  have htwo : (2 : Int) ≤ 2 ^ (k + 1) := by
    rw [pow_succ]
    have hone : (1 : Int) ≤ 2 ^ k := one_le_pow₀ (by decide)
    omega
  calc 2 * (len / 2 ^ (k + 1)) = len / 2 ^ (k + 1) * 2 := mul_comm _ _
    _ ≤ len / 2 ^ (k + 1) * 2 ^ (k + 1) := mul_le_mul_of_nonneg_left htwo hnonneg
    _ ≤ len := hle

/-- For a codec that is split by samples, and a payload that is a positive number of
samples: the chunks are its audio if and only if its length, halved until it is less than
40 ms, is a number of samples. -/
theorem preservesAudio_iff (codecType : NetEqDecoder) (bytesPerMs timestampsPerMs : Int)
    (packet : Packet) (h : samplesPerMs codecType = some (bytesPerMs, timestampsPerMs))
    (hpos : 0 < packet.payloadLength)
    (hlen : WholeSamples bytesPerMs timestampsPerMs packet.payloadLength) :
    PreservesAudio codecType bytesPerMs timestampsPerMs packet ↔
      HalvesToSamples bytesPerMs timestampsPerMs packet.payloadLength := by
  have hbytes := samplesPerMs_pos h
  have hmin : 0 < bytesPerMs * 20 := by omega
  have hsome : ∃ fuel, (splitPacket fuel codecType packet).isSome = true :=
    ⟨_, splitPacket_isSome (fun hempty => absurd hempty.2 (not_le.mpr hpos))
      (Nat.lt_succ_self _)⟩
  have hok : ∀ fuel result, splitPacket fuel codecType packet = some result →
      ∃ newPackets, result = .ok newPackets := by
    intro fuel result hresult
    obtain ⟨⟨herror, -⟩, -⟩ | ⟨-, newPackets, rfl, -⟩ := splitPacket_result hresult
    · rw [herror] at h
      cases h
    · exact ⟨newPackets, rfl⟩
  constructor
  · rintro ⟨⟨fuel, hfuel⟩, haudio⟩
    obtain ⟨result, hresult⟩ := Option.isSome_iff_exists.mp hfuel
    obtain ⟨newPackets, rfl⟩ := hok fuel result hresult
    obtain ⟨splitSizeBytes, hhalve, hchunks⟩ := splitPacket_samples h hresult
    obtain ⟨k, rfl, hsmall, hbefore⟩ := halve_eq hhalve
    refine ⟨k, hsmall, hbefore, ?_⟩
    cases k with
    | zero =>
      rw [pow_zero, Int.ediv_one]
      exact hlen
    | succ k =>
      exact whole_of_isAudioOf (two_mul_halved_le (le_of_lt hpos) k) hchunks
        (haudio fuel newPackets hresult)
  · rintro ⟨k, hsmall, hbefore, hwhole⟩
    refine ⟨hsome, fun fuel newPackets hresult => ?_⟩
    obtain ⟨splitSizeBytes, hhalve, hchunks⟩ := splitPacket_samples h hresult
    have hsize := (halve_some hmin hhalve).1 hpos
    obtain ⟨k', rfl, hsmall', hbefore'⟩ := halve_eq hhalve
    rw [halvings_unique hsmall hbefore hsmall' hbefore'] at hwhole
    exact isAudioOf_of_whole hpos hsize hlen hwhole hchunks

theorem preservesAudio_40ms :
    samplesPerMs .kDecoderPCM16B = some (16, 8) ∧ WholeSamples 16 8 640 ∧
      (PreservesAudio .kDecoderPCM16B 16 8 { payload := some fun _ => 0, payloadLength := 640 } ↔
        HalvesToSamples 16 8 640) :=
  ⟨rfl, by decide, preservesAudio_iff .kDecoderPCM16B 16 8
    { payload := some fun _ => 0, payloadLength := 640 } rfl (by decide) (by decide)⟩

/-- 335 samples of 16 bits: half of the bytes are no number of samples. -/
theorem not_preservesAudio : ¬ ∀ (codecType : NetEqDecoder) (bytesPerMs timestampsPerMs : Int)
    (packet : Packet), samplesPerMs codecType = some (bytesPerMs, timestampsPerMs) →
      0 < packet.payloadLength →
      WholeSamples bytesPerMs timestampsPerMs packet.payloadLength →
      PreservesAudio codecType bytesPerMs timestampsPerMs packet := by
  intro h
  let packet : Packet := { payload := some fun _ => 0, payloadLength := 670 }
  have hsplit : splitPacket 3 .kDecoderPCM16B packet =
      some (.ok [chunk packet 0 0 335, chunk packet 167 335 335]) := rfl
  have haudio := (h .kDecoderPCM16B 16 8 packet rfl (by decide) (by decide)).2 3 _ hsplit
  have hwhole : WholeSamples 16 8 335 := haudio.whole (chunk packet 0 0 335) List.mem_cons_self
  exact absurd hwhole (by decide)

end Packets

end PayloadSplitter

end PerchWebrtc.NetEq
