import PerchWebrtc.NetEq.PayloadSplitter

/-!
# Splitting audio payloads comes to an end

* `halve_isSome`, `makeChunks_isSome`, `makeFrames_isSome`: each loop ends for sizes that
  are positive;
* `makeChunks_none`: chunks without bytes are made for ever;
* `splitPacket_result`: errors, and packets that are dropped;
* `splitAudio_isSome_iff`: a list is split in finitely many steps if and only if no empty
  packet of a codec that is split by samples is reached.
-/

namespace PerchWebrtc.NetEq

namespace PayloadSplitter

/-! ## Loops -/

theorem samplesPerMs_pos {codecType : NetEqDecoder} {bytesPerMs timestampsPerMs : Int}
    (h : samplesPerMs codecType = some (bytesPerMs, timestampsPerMs)) : 0 < bytesPerMs := by
  cases codecType <;> cases h <;> decide

theorem halve_isSome {minChunkSize : Int} (hmin : 0 < minChunkSize) : ∀ {fuel : Nat} {size : Int},
    size < fuel → 0 < fuel → (halve minChunkSize fuel size).isSome = true
  | 0, _, _, hfuel => absurd hfuel (lt_irrefl 0)
  | fuel + 1, size, hsize, _ => by
    unfold halve
    split
    · exact halve_isSome hmin (by omega) (by omega)
    · rfl

/-- The split size is positive for a payload, and stays as it is without one. -/
theorem halve_some {minChunkSize : Int} (hmin : 0 < minChunkSize) : ∀ {fuel : Nat}
    {size splitSizeBytes : Int}, halve minChunkSize fuel size = some splitSizeBytes →
    (0 < size → 0 < splitSizeBytes) ∧ (size ≤ 0 → splitSizeBytes = size)
  | 0, _, _, h => by cases h
  | fuel + 1, size, splitSizeBytes, h => by
    unfold halve at h
    split at h
    · have ih := halve_some hmin h
      exact ⟨fun _ => ih.1 (by omega), fun _ => by omega⟩
    · cases h
      exact ⟨fun hpos => hpos, fun _ => rfl⟩

section Chunks

variable {packet : Packet} {splitSizeBytes timestampsPerChunk : Int}

theorem makeChunks_isSome (hsplit : 0 < splitSizeBytes) : ∀ {fuel : Nat} {timestamp : BitVec 32}
    {p len : Int}, len < fuel → 0 < fuel →
    (makeChunks packet splitSizeBytes timestampsPerChunk fuel timestamp p len).isSome = true
  | 0, _, _, _, _, hfuel => absurd hfuel (lt_irrefl 0)
  | fuel + 1, timestamp, p, len, hlen, _ => by
    unfold makeChunks
    split
    · rw [Option.isSome_map]
      exact makeChunks_isSome hsplit (by omega) (by omega)
    · split
      · rfl
      · rfl

theorem makeChunks_nil (hsplit : 0 < splitSizeBytes) {fuel : Nat} {timestamp : BitVec 32}
    {p len : Int} {newPackets : List Packet}
    (h : makeChunks packet splitSizeBytes timestampsPerChunk fuel timestamp p len =
      some newPackets) : newPackets = [] ↔ len ≤ 0 := by
  cases fuel with
  | zero => cases h
  | succ fuel =>
    unfold makeChunks at h
    split at h
    · obtain ⟨rest, -, rfl⟩ := Option.map_eq_some_iff.mp h
      exact iff_of_false (List.cons_ne_nil _ _) (by omega)
    · split at h
      · cases h
        exact iff_of_false (List.cons_ne_nil _ _) (by omega)
      · cases h
        exact iff_of_true rfl (by omega)

/-- Chunks of no bytes do not use up the length. -/
theorem makeChunks_none (hsplit : splitSizeBytes ≤ 0) : ∀ {fuel : Nat} {timestamp : BitVec 32}
    {p len : Int}, 2 * splitSizeBytes ≤ len →
    makeChunks packet splitSizeBytes timestampsPerChunk fuel timestamp p len = none
  | 0, _, _, _, _ => rfl
  | fuel + 1, timestamp, p, len, hlen => by
    unfold makeChunks
    rw [if_pos hlen, makeChunks_none hsplit (by omega)]
    rfl

theorem makeFrames_isSome {bytesPerFrame timestampsPerFrame : Int} (hbytes : 0 < bytesPerFrame) :
    ∀ {fuel : Nat} {timestamp : BitVec 32} {p len : Int}, len < fuel → 0 < fuel →
    (makeFrames packet bytesPerFrame timestampsPerFrame fuel timestamp p len).isSome = true
  | 0, _, _, _, _, hfuel => absurd hfuel (lt_irrefl 0)
  | fuel + 1, timestamp, p, len, hlen, _ => by
    unfold makeFrames
    split
    · rw [Option.isSome_map]
      exact makeFrames_isSome hbytes (by omega) (by omega)
    · rfl

theorem makeFrames_nil {bytesPerFrame timestampsPerFrame : Int} {fuel : Nat}
    {timestamp : BitVec 32} {p len : Int} {newPackets : List Packet}
    (h : makeFrames packet bytesPerFrame timestampsPerFrame fuel timestamp p len =
      some newPackets) : newPackets = [] ↔ len ≤ 0 := by
  cases fuel with
  | zero => cases h
  | succ fuel =>
    unfold makeFrames at h
    split at h
    · obtain ⟨rest, -, rfl⟩ := Option.map_eq_some_iff.mp h
      exact iff_of_false (List.cons_ne_nil _ _) (by omega)
    · cases h
      exact iff_of_true rfl (by omega)

end Chunks

/-! ## Packets -/

section Packets

variable {packet : Packet} {codecType : NetEqDecoder}

/-- A packet without bytes, of a codec that is split by samples. -/
def EmptySamples (codecType : NetEqDecoder) (packet : Packet) : Prop :=
  (samplesPerMs codecType).isSome = true ∧ packet.payloadLength ≤ 0

/-- An iLBC packet that is too large, or not a number of frames. -/
def SplitError (codecType : NetEqDecoder) (packet : Packet) : Prop :=
  codecType = .kDecoderILBC ∧
    (packet.payloadLength ≥ 950 ∨
      packet.payloadLength.tmod 38 ≠ 0 ∧ packet.payloadLength.tmod 50 ≠ 0)

instance : Decidable (EmptySamples codecType packet) := inferInstanceAs (Decidable (_ ∧ _))
instance : Decidable (SplitError codecType packet) := inferInstanceAs (Decidable (_ ∧ _))

theorem splitPacket_none (h : EmptySamples codecType packet) (fuel : Nat) :
    splitPacket fuel codecType packet = none := by
  obtain ⟨⟨bytesPerMs, timestampsPerMs⟩, hsamples⟩ := Option.isSome_iff_exists.mp h.1
  have hmin : 0 < bytesPerMs * 20 := by
    have hbytes := samplesPerMs_pos hsamples
    omega
  unfold splitPacket splitBySamples
  rw [hsamples]
  dsimp only
  cases hhalve : halve (bytesPerMs * 20) fuel packet.payloadLength with
  | none => rfl
  | some splitSizeBytes =>
    have hsplit := (halve_some hmin hhalve).2 h.2
    have hempty := h.2
    dsimp only
    rw [makeChunks_none (by omega) (by omega)]
    rfl

/-- What the case of iLBC does with the return value. -/
def ilbcResult (packet : Packet) : SplitterReturnCode × List Packet →
    Except SplitterReturnCode (List Packet)
  | (.kOK, newPackets) => .ok newPackets
  | (.kNoSplit, _) => .ok [packet]
  | (ret, _) => .error ret

theorem splitPacket_ilbc (fuel : Nat) :
    splitPacket fuel .kDecoderILBC packet = (splitIlbc fuel packet).map (ilbcResult packet) :=
  rfl

theorem splitByFrames_result {bytesPerFrame timestampsPerFrame : Int} {fuel : Nat}
    {result : SplitterReturnCode × List Packet}
    (hmod : packet.payloadLength.tmod bytesPerFrame = 0) (hbytes : 0 < bytesPerFrame)
    (h : splitByFrames fuel packet bytesPerFrame timestampsPerFrame = some result) :
    ∃ newPackets, ilbcResult packet result = .ok newPackets ∧
      (newPackets = [] ↔ packet.payloadLength ≤ 0) := by
  unfold splitByFrames at h
  rw [if_neg (not_not.mpr hmod)] at h
  split at h
  · rename_i hone
    cases h
    have hdivide := Int.tmod_add_mul_tdiv packet.payloadLength bytesPerFrame
    rw [hmod, hone] at hdivide
    exact ⟨[packet], rfl, iff_of_false (List.cons_ne_nil _ _) (by omega)⟩
  · obtain ⟨newPackets, hframes, rfl⟩ := Option.map_eq_some_iff.mp h
    exact ⟨newPackets, rfl, makeFrames_nil hframes⟩

/-- Whatever the fuel, a result is an error for iLBC only, and no packets for an empty
iLBC packet only. -/
theorem splitPacket_result {fuel : Nat} {result : Except SplitterReturnCode (List Packet)}
    (h : splitPacket fuel codecType packet = some result) :
    SplitError codecType packet ∧ (∃ ret, result = .error ret) ∨
      ¬ SplitError codecType packet ∧ ∃ newPackets, result = .ok newPackets ∧
        (newPackets = [] ↔ codecType = .kDecoderILBC ∧ packet.payloadLength ≤ 0) := by
  have hempty : ¬ EmptySamples codecType packet := fun hempty => by
    rw [splitPacket_none hempty] at h
    cases h
  by_cases hilbc : codecType = .kDecoderILBC
  · subst hilbc
    rw [splitPacket_ilbc] at h
    obtain ⟨split, hsplit, rfl⟩ := Option.map_eq_some_iff.mp h
    rw [and_iff_right rfl]
    unfold splitIlbc at hsplit
    unfold SplitError
    by_cases hlarge : packet.payloadLength ≥ 950
    · rw [if_pos hlarge] at hsplit
      cases hsplit
      exact .inl ⟨⟨rfl, .inl hlarge⟩, _, rfl⟩
    · rw [if_neg hlarge] at hsplit
      by_cases h38 : packet.payloadLength.tmod 38 = 0
      · rw [if_pos h38] at hsplit
        exact .inr ⟨fun herror => herror.2.elim hlarge fun h => h.1 h38,
          splitByFrames_result h38 (by decide) hsplit⟩
      · rw [if_neg h38] at hsplit
        by_cases h50 : packet.payloadLength.tmod 50 = 0
        · rw [if_pos h50] at hsplit
          exact .inr ⟨fun herror => herror.2.elim hlarge fun h => h.2 h50,
            splitByFrames_result h50 (by decide) hsplit⟩
        · rw [if_neg h50] at hsplit
          cases hsplit
          exact .inl ⟨⟨rfl, .inr ⟨h38, h50⟩⟩, _, rfl⟩
  · refine .inr ⟨fun herror => hilbc herror.1, ?_⟩
    unfold splitPacket at h
    split at h
    · rename_i bytesPerMs timestampsPerMs hsamples
      obtain ⟨newPackets, hsplit, rfl⟩ := Option.map_eq_some_iff.mp h
      have hpos : 0 < packet.payloadLength := by
        refine not_le.mp fun hle => hempty ⟨?_, hle⟩
        rw [hsamples]
        rfl
      unfold splitBySamples at hsplit
      split at hsplit
      · cases hsplit
      · rename_i splitSizeBytes hhalve
        have hbytes := samplesPerMs_pos hsamples
        have hnil := makeChunks_nil ((halve_some (by omega) hhalve).1 hpos) hsplit
        exact ⟨newPackets, rfl, iff_of_false (fun heq => by have := hnil.mp heq; omega)
          fun h => hilbc h.1⟩
    · rw [if_neg hilbc] at h
      cases h
      exact ⟨[packet], rfl, iff_of_false (List.cons_ne_nil _ _) fun h => hilbc h.1⟩

theorem splitByFrames_isSome {bytesPerFrame timestampsPerFrame : Int} (hbytes : 0 < bytesPerFrame)
    {fuel : Nat} (hfuel : packet.payloadLength.toNat < fuel) :
    (splitByFrames fuel packet bytesPerFrame timestampsPerFrame).isSome = true := by
  unfold splitByFrames
  split
  · rfl
  · split
    · rfl
    · rw [Option.isSome_map]
      exact makeFrames_isSome hbytes (by omega) (by omega)

theorem splitPacket_isSome (h : ¬ EmptySamples codecType packet) {fuel : Nat}
    (hfuel : packet.payloadLength.toNat < fuel) :
    (splitPacket fuel codecType packet).isSome = true := by
  unfold splitPacket
  split
  · rename_i bytesPerMs timestampsPerMs hsamples
    have hbytes := samplesPerMs_pos hsamples
    have hpos : 0 < packet.payloadLength := by
      refine not_le.mp fun hle => h ⟨?_, hle⟩
      rw [hsamples]
      rfl
    obtain ⟨splitSizeBytes, hhalve⟩ := Option.isSome_iff_exists.mp
      (halve_isSome (by omega : 0 < bytesPerMs * 20) (by omega : packet.payloadLength < fuel)
        (by omega))
    rw [Option.isSome_map]
    unfold splitBySamples
    rw [hhalve]
    exact makeChunks_isSome ((halve_some (by omega) hhalve).1 hpos) (by omega) (by omega)
  · split
    · rw [Option.isSome_map]
      unfold splitIlbc
      split
      · rfl
      · split
        · exact splitByFrames_isSome (by decide) hfuel
        · split
          · exact splitByFrames_isSome (by decide) hfuel
          · rfl
    · rfl

end Packets

/-! ## Lists -/

/-- An empty packet of a codec that is split by samples, with no error before it. -/
def ReachesEmpty (db : DecoderDatabase) : List Packet → Prop
  | [] => False
  | packet :: packetList =>
    ∃ info, db.decoders packet.header.payloadType = some info ∧
      (EmptySamples info.codecType packet ∨
        ¬ SplitError info.codecType packet ∧ ReachesEmpty db packetList)

/-- The bytes of all payloads, as fuel. -/
def enoughFuel (packetList : List Packet) : Nat :=
  (packetList.map fun packet => packet.payloadLength.toNat).sum + 1

section Lists

variable {db : DecoderDatabase} {packetList : List Packet}

theorem splitAudio_none (h : ReachesEmpty db packetList) (fuel : Nat) :
    splitAudio fuel db packetList = none := by
  induction packetList with
  | nil => cases h
  | cons packet packetList ih =>
    obtain ⟨info, hinfo, hrest⟩ := h
    unfold splitAudio DecoderDatabase.getDecoderInfo
    rw [hinfo]
    dsimp only
    rcases hrest with hempty | ⟨herror, hrest⟩
    · rw [splitPacket_none hempty]
    · cases hsplit : splitPacket fuel info.codecType packet with
      | none => rfl
      | some result =>
        obtain ⟨hbad, -⟩ | ⟨-, newPackets, rfl, -⟩ := splitPacket_result hsplit
        · exact absurd hbad herror
        · dsimp only
          rw [ih hrest]
          rfl

theorem splitAudio_isSome (h : ¬ ReachesEmpty db packetList) {fuel : Nat}
    (hfuel : enoughFuel packetList ≤ fuel) : (splitAudio fuel db packetList).isSome = true := by
  induction packetList with
  | nil => rfl
  | cons packet packetList ih =>
    have hbytes : enoughFuel (packet :: packetList) =
        packet.payloadLength.toNat + enoughFuel packetList := by
      unfold enoughFuel
      rw [List.map_cons, List.sum_cons, Nat.add_assoc]
    have hone : 1 ≤ enoughFuel packetList := Nat.le_add_left _ _
    unfold splitAudio DecoderDatabase.getDecoderInfo
    cases hinfo : db.decoders packet.header.payloadType with
    | none => rfl
    | some info =>
      have hempty : ¬ EmptySamples info.codecType packet := fun hempty =>
        h ⟨info, hinfo, .inl hempty⟩
      obtain ⟨result, hsplit⟩ := Option.isSome_iff_exists.mp
        (splitPacket_isSome hempty (by omega : packet.payloadLength.toNat < fuel))
      dsimp only
      rw [hsplit]
      obtain ⟨-, ret, rfl⟩ | ⟨herror, newPackets, rfl, -⟩ := splitPacket_result hsplit
      · rfl
      · dsimp only
        rw [Option.isSome_map]
        exact ih (fun hrest => h ⟨info, hinfo, .inr ⟨herror, hrest⟩⟩) (by omega)

/-- A packet that is split without an error. -/
def Splittable (db : DecoderDatabase) (packet : Packet) : Prop :=
  ∃ info, db.decoders packet.header.payloadType = some info ∧
    ¬ EmptySamples info.codecType packet ∧ ¬ SplitError info.codecType packet

/-- An empty iLBC packet, which is split into nothing. -/
def Dropped (db : DecoderDatabase) (packet : Packet) : Prop :=
  ∃ info, db.decoders packet.header.payloadType = some info ∧
    info.codecType = .kDecoderILBC ∧ packet.payloadLength ≤ 0

theorem not_reachesEmpty (h : ∀ packet ∈ packetList, Splittable db packet) :
    ¬ ReachesEmpty db packetList := by
  induction packetList with
  | nil => exact id
  | cons packet packetList ih =>
    rintro ⟨info, hinfo, hreaches⟩
    obtain ⟨info', hinfo', hempty, -⟩ := h packet List.mem_cons_self
    cases hinfo.symm.trans hinfo'
    rcases hreaches with hbad | ⟨-, hrest⟩
    · exact hempty hbad
    · exact ih (fun other hother => h other (List.mem_cons_of_mem _ hother)) hrest

/-- A list is split without an error if every packet of it is. -/
theorem splitAudio_splittable {fuel : Nat} {newList : List Packet}
    (h : splitAudio fuel db packetList = some (.ok newList)) :
    (∀ packet ∈ packetList, Splittable db packet) ∧
      (newList = [] ↔ ∀ packet ∈ packetList, Dropped db packet) := by
  induction packetList generalizing newList with
  | nil =>
    cases h
    exact ⟨fun _ hmem => absurd hmem List.not_mem_nil,
      iff_of_true rfl fun _ hmem => absurd hmem List.not_mem_nil⟩
  | cons packet packetList ih =>
    unfold splitAudio DecoderDatabase.getDecoderInfo at h
    cases hinfo : db.decoders packet.header.payloadType with
    | none =>
      rw [hinfo] at h
      cases h
    | some info =>
      rw [hinfo] at h
      dsimp only at h
      cases hsplit : splitPacket fuel info.codecType packet with
      | none =>
        rw [hsplit] at h
        cases h
      | some result =>
        have hempty : ¬ EmptySamples info.codecType packet := fun hempty => by
          rw [splitPacket_none hempty] at hsplit
          cases hsplit
        rw [hsplit] at h
        obtain ⟨-, ret, rfl⟩ | ⟨herror, newPackets, rfl, hnil⟩ := splitPacket_result hsplit
        · cases h
        · obtain ⟨rest, hrest, heq⟩ := Option.map_eq_some_iff.mp h
          cases rest with
          | error ret => cases heq
          | ok rest =>
            cases heq
            obtain ⟨hall, hrestNil⟩ := ih hrest
            have hdropped : Dropped db packet ↔ newPackets = [] := by
              rw [hnil]
              constructor
              · rintro ⟨info', hinfo', hbad⟩
                cases hinfo.symm.trans hinfo'
                exact hbad
              · exact fun hbad => ⟨info, hinfo, hbad⟩
            rw [List.forall_mem_cons, List.forall_mem_cons, List.append_eq_nil_iff, hdropped,
              hrestNil]
            exact ⟨⟨⟨info, hinfo, hempty, herror⟩, hall⟩, Iff.rfl⟩

theorem splitAudio_of_splittable (h : ∀ packet ∈ packetList, Splittable db packet) {fuel : Nat}
    (hfuel : enoughFuel packetList ≤ fuel) :
    ∃ newList, splitAudio fuel db packetList = some (.ok newList) := by
  obtain ⟨result, hresult⟩ := Option.isSome_iff_exists.mp
    (splitAudio_isSome (not_reachesEmpty h) hfuel)
  rw [hresult]
  cases result with
  | ok newList => exact ⟨newList, rfl⟩
  | error ret =>
    exfalso
    clear hfuel
    induction packetList with
    | nil => cases hresult
    | cons packet packetList ih =>
      obtain ⟨info, hinfo, -, herror⟩ := h packet List.mem_cons_self
      unfold splitAudio DecoderDatabase.getDecoderInfo at hresult
      rw [hinfo] at hresult
      dsimp only at hresult
      cases hsplit : splitPacket fuel info.codecType packet with
      | none =>
        rw [hsplit] at hresult
        cases hresult
      | some split =>
        rw [hsplit] at hresult
        obtain ⟨hbad, -⟩ | ⟨-, newPackets, rfl, -⟩ := splitPacket_result hsplit
        · exact herror hbad
        · obtain ⟨rest, hrest, heq⟩ := Option.map_eq_some_iff.mp hresult
          cases rest with
          | ok newList => cases heq
          | error ret' =>
            cases heq
            exact ih (fun other hother => h other (List.mem_cons_of_mem _ hother)) hrest

end Lists

/-- A list of packets, of any lengths and registered types, is split in finitely many
steps if and only if no empty packet of a codec that is split by samples is reached. -/
theorem splitAudio_isSome_iff (db : DecoderDatabase) (packetList : List Packet) :
    (∃ fuel, (splitAudio fuel db packetList).isSome = true) ↔ ¬ ReachesEmpty db packetList := by
  constructor
  · rintro ⟨fuel, hsome⟩ hreaches
    rw [splitAudio_none hreaches] at hsome
    cases hsome
  · exact fun h => ⟨enoughFuel packetList, splitAudio_isSome h le_rfl⟩

/-- Every payload type registered as PCMU. -/
def onlyPcmu : DecoderDatabase where
  decoders := fun _ => some ⟨.kDecoderPCMu, 8000, none, false⟩

/-- A packet without payload bytes. -/
theorem not_splitAudio_isSome : ¬ ∀ (db : DecoderDatabase) (packetList : List Packet),
    (∀ packet ∈ packetList, 0 ≤ packet.payloadLength) →
      ∃ fuel, (splitAudio fuel db packetList).isSome = true := by
  intro h
  obtain ⟨fuel, hsome⟩ := h onlyPcmu [{ payload := some fun _ => 0 }] (by decide)
  have hreaches : ReachesEmpty onlyPcmu [{ payload := some fun _ => 0 }] :=
    ⟨_, rfl, .inl (by decide)⟩
  rw [splitAudio_none hreaches] at hsome
  cases hsome

end PayloadSplitter

end PerchWebrtc.NetEq
