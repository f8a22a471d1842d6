import PerchWebrtc.NetEq.AudioSplitting
import PerchWebrtc.NetEq.DtmfBuffer
import PerchWebrtc.NetEq.PacketBuffer
import PerchWebrtc.NetEq.TimestampScaler

/-!
# Insertion of a packet into NetEq

`NetEqImpl::InsertPacketInternal` (`neteq_impl.cc`), with the pointers to decoders and to
their information that it dereferences.

* `processDtmf_ok`, `prepare_ok_iff`: which packets get through the stages before a decoder
  is looked up;
* `getDecoder_null_iff`: the types for which there is no decoder;
* `insertPacketInternal_null_iff`: a null pointer is dereferenced if and only if packets
  get through, and the first of them is of such a type.
-/

namespace PerchWebrtc.NetEq

open PayloadSplitter

inductive ErrorCode where
  | kNoError
  | kOtherError
  | kUnknownRtpPayloadType
  | kInvalidPointer
  | kDtmfParsingError
  | kDtmfInsertError
  | kFrameSplitError
  | kRedundancySplitError
  | kOversizePacket
  deriving DecidableEq

/-- A pointer that is dereferenced. -/
inductive Pointer where
  | decoder (object : Option AudioDecoder)
  | decInfo (info : Option DecoderInfo)

def Pointer.IsNull : Pointer → Prop
  | .decoder object => object = none
  | .decInfo info => info = none

structure NetEqImpl where
  decoderDatabase : DecoderDatabase
  dtmfBuffer : DtmfBuffer
  packetBuffer : PacketBuffer
  timestampScaler : TimestampScaler := {}
  newCodec : Bool := false
  timestamp : BitVec 32 := 0
  currentTypes : CurrentTypes := {}
  ssrc : BitVec 32 := 0
  firstPacket : Bool := true

namespace NetEqImpl

structure Outcome where
  log : List Pointer := []
  /-- `none` if the fuel is used up. -/
  returnValue : Option ErrorCode
  state : NetEqImpl

/-- The packet that is made from what is received. The bytes behind its length stand for
what follows the copy in memory. -/
def received (rtpHeader : RTPHeader) (payload : Option Mem) (lengthBytes : Int) : Packet where
  header := rtpHeader
  payload := payload
  payloadLength := lengthBytes
  primary := true

/-- For a changed SSRC or the first call. -/
def reinitialize (mainHeader : RTPHeader) (s : NetEqImpl) : NetEqImpl :=
  if mainHeader.ssrc ≠ s.ssrc ∨ s.firstPacket then
    { s with
      firstPacket := false
      packetBuffer := s.packetBuffer.flush
      dtmfBuffer := s.dtmfBuffer.flush
      ssrc := mainHeader.ssrc
      timestamp := mainHeader.timestamp
      currentTypes := { s.currentTypes with rtpPayloadType := mainHeader.payloadType }
      newCodec := true
      timestampScaler := s.timestampScaler.reset }
  else s

/-- The packets of a RED payload, and the header of the first one; another payload is left
as it is. -/
def separate (fuel : Nat) (db : DecoderDatabase) (packet : Packet) :
    Option (Except ErrorCode (RTPHeader × List Packet)) :=
  if db.isRed packet.header.payloadType then
    match (splitRed fuel [packet]).2 with
    | none => none
    | some (returnCode, packetList) =>
      if returnCode ≠ .kOK then some (.error .kRedundancySplitError)
      else
        match checkRedPayloads db packetList with
        | [] => some (.ok (packet.header, []))
        | front :: packetList => some (.ok (front.header, front :: packetList))
  else some (.ok (packet.header, [packet]))

/-- The loop that picks out DTMF payloads. -/
def processDtmf (db : DecoderDatabase) :
    List Packet → DtmfBuffer → Except ErrorCode (List Packet) × DtmfBuffer
  | [], dtmfBuffer => (.ok [], dtmfBuffer)
  | packet :: packetList, dtmfBuffer =>
    if db.isDtmf packet.header.payloadType then
      match DtmfBuffer.parseEvent packet.timestamp packet.payload packet.payloadLength with
      | .error _ => (.error .kDtmfParsingError, dtmfBuffer)
      | .ok event =>
        let inserted := dtmfBuffer.insertEvent event
        if inserted.1 ≠ .kOK then (.error .kDtmfInsertError, inserted.2)
        else processDtmf db packetList inserted.2
    else
      let rest := processDtmf db packetList dtmfBuffer
      (rest.1.map (packet :: ·), rest.2)

def splitError : SplitterReturnCode → ErrorCode
  | .kUnknownPayloadType => .kUnknownRtpPayloadType
  | .kFrameSplitError => .kFrameSplitError
  | _ => .kOtherError

/-- From the check of the payload types to the split of the audio payloads. -/
def prepare (fuel : Nat) (packetList : List Packet) (s : NetEqImpl) :
    Option (Except ErrorCode (List Packet)) × NetEqImpl :=
  if ¬ s.decoderDatabase.checkPayloadTypes packetList then
    (some (.error .kUnknownRtpPayloadType), s)
  else
    let scaled := s.timestampScaler.toInternalList s.decoderDatabase packetList
    let processed := processDtmf s.decoderDatabase scaled.1 s.dtmfBuffer
    let s := { s with timestampScaler := scaled.2, dtmfBuffer := processed.2 }
    match processed.1 with
    | .error code => (some (.error code), s)
    | .ok packetList =>
      ((splitAudio fuel s.decoderDatabase packetList).map (·.mapError splitError), s)

/-- The update of the bandwidth estimate: the decoder gets the first packet. -/
def incomingPacket (payloadType : Byte) (packetList : List Packet) (s : NetEqImpl) :
    List Pointer × NetEqImpl :=
  match packetList with
  | [] => ([], s)
  | _ :: _ =>
    let got := s.decoderDatabase.getDecoder payloadType
    (got.1.map .decoder ++ [.decoder got.2.1], { s with decoderDatabase := got.2.2 })

/-- From the insertion into the packet buffer on. -/
def insertInBuffer (payloadType : Byte) (packetList : List Packet) (s : NetEqImpl) : Outcome :=
  let inserted := s.packetBuffer.insertPacketList packetList s.decoderDatabase s.currentTypes
  let s := { s with currentTypes := inserted.2.1, packetBuffer := inserted.2.2 }
  let decInfo := s.decoderDatabase.getDecoderInfo payloadType
  match inserted.1 with
  | .kOK => { log := [.decInfo decInfo], returnValue := some .kNoError, state := s }
  | .kFlushed =>
    { log := [.decInfo decInfo]
      returnValue := some .kNoError
      state := { s with newCodec := true } }
  | .kOversizePacket => { returnValue := some .kOversizePacket, state := s }
  | _ => { returnValue := some .kOtherError, state := s }

/-- The fuel is for the headers of a RED payload and for the parts of audio payloads. -/
def insertPacketInternal (redFuel audioFuel : Nat) (rtpHeader : RTPHeader)
    (payload : Option Mem) (lengthBytes : Int) (s : NetEqImpl) : Outcome :=
  if payload = none then { returnValue := some .kInvalidPointer, state := s }
  else
    let packet := received rtpHeader payload lengthBytes
    let s := s.reinitialize packet.header
    match separate redFuel s.decoderDatabase packet with
    | none => { returnValue := none, state := s }
    | some (.error code) => { returnValue := some code, state := s }
    | some (.ok (mainHeader, packetList)) =>
      match s.prepare audioFuel packetList with
      | (none, s) => { returnValue := none, state := s }
      | (some (.error code), s) => { returnValue := some code, state := s }
      | (some (.ok packetList), s) =>
        let incoming := s.incomingPacket mainHeader.payloadType packetList
        let inserted := incoming.2.insertInBuffer mainHeader.payloadType packetList
        { inserted with log := incoming.1 ++ inserted.log }

/-! ## Decoders -/

section Decoders

variable {db : DecoderDatabase} {payloadType : Byte}

/-- A registered type for which `GetDecoder` has no decoder: DTMF, RED, and codecs without
a class whose decoder was not given from outside. -/
def LacksDecoder (db : DecoderDatabase) (payloadType : Byte) : Prop :=
  db.isDtmf payloadType = true ∨ db.isRed payloadType = true ∨
    ∃ info, db.decoders payloadType = some info ∧ info.decoder = none ∧
      createAudioDecoder info.codecType = none

theorem getDecoder_null_iff {info : DecoderInfo} (hinfo : db.decoders payloadType = some info) :
    (∃ pointer ∈ (db.getDecoder payloadType).1 ++ [(db.getDecoder payloadType).2.1],
      pointer = none) ↔ LacksDecoder db payloadType := by
  unfold DecoderDatabase.getDecoder LacksDecoder
  by_cases hreal : (db.isDtmf payloadType || db.isRed payloadType) = true
  · rw [if_pos hreal]
    rw [Bool.or_eq_true] at hreal
    exact iff_of_true ⟨none, List.mem_singleton_self none, rfl⟩
      (hreal.imp id .inl)
  · rw [if_neg hreal, hinfo]
    rw [Bool.or_eq_true, not_or] at hreal
    rw [or_iff_right hreal.1, or_iff_right hreal.2]
    cases hdecoder : info.decoder with
    | some object =>
      simp only [hdecoder]
      refine iff_of_false ?_ ?_
      · rintro ⟨pointer, hmem, rfl⟩
        cases List.mem_singleton.mp hmem
      · rintro ⟨info', hinfo', hnone, -⟩
        cases hinfo'
        rw [hdecoder] at hnone
        cases hnone
    | none =>
      simp only [hdecoder]
      constructor
      · rintro ⟨pointer, hmem, rfl⟩
        refine ⟨info, rfl, hdecoder, ?_⟩
        rcases List.mem_cons.mp hmem with hcreated | hreturned
        · exact hcreated.symm
        · exact (List.mem_singleton.mp hreturned).symm
      · rintro ⟨info', hinfo', -, hcreated⟩
        cases hinfo'
        exact ⟨none, List.mem_cons.mpr (.inl hcreated.symm), rfl⟩

/-- Looking up a decoder does not remove a registration. -/
theorem getDecoder_registered (payloadType other : Byte) :
    ((db.getDecoder payloadType).2.2.decoders other).isSome = (db.decoders other).isSome := by
  unfold DecoderDatabase.getDecoder
  split
  · rfl
  · cases hinfo : db.decoders payloadType with
    | none => rfl
    | some info =>
      cases hdecoder : info.decoder with
      | some object => simp only [hdecoder]
      | none =>
        simp only [hdecoder]
        split
        · rename_i heq
          rw [heq, hinfo]
          rfl
        · rfl

end Decoders

/-! ## Stages -/

section Stages

variable {db : DecoderDatabase} {packet : Packet} {packetList : List Packet} {newList : List Packet}

theorem readHeaders_ne_nil : ∀ {fuel p : Nat} {sumLength : Int} {blocks : List Packet} {last : Nat},
    (readHeaders packet fuel p sumLength).2 = some (blocks, last) → blocks ≠ []
  | 0, _, _, _, _, h => by cases h
  | fuel + 1, p, sumLength, blocks, last, h => by
    unfold readHeaders at h
    split at h
    · cases h
      exact List.cons_ne_nil _ _
    · obtain ⟨rest, -, heq⟩ := Option.map_eq_some_iff.mp h
      cases heq
      exact List.cons_ne_nil _ _

theorem populate_ne_nil {blocks : List Packet} {p : Int} (hblocks : blocks ≠ [])
    (h : (populate packet blocks p).mismatch = false) :
    (populate packet blocks p).packets ≠ [] := by
  cases blocks with
  | nil => exact absurd rfl hblocks
  | cons block blocks =>
    unfold populate at h ⊢
    split
    · rename_i hlarge
      rw [if_pos hlarge] at h
      cases h
    · exact List.cons_ne_nil _ _

theorem splitRed_ne_nil {fuel : Nat} (h : (splitRed fuel [packet]).2 = some (.kOK, newList)) :
    newList ≠ [] := by
  unfold splitRed splitRedPacket at h
  cases hheaders : (readHeaders packet fuel 0 0).2 with
  | none =>
    simp only [hheaders] at h
    cases h
  | some blocks =>
    simp only [hheaders] at h
    cases hmismatch : (populate packet blocks.1 blocks.2).mismatch with
    | true =>
      rw [hmismatch] at h
      cases h
    | false =>
      rw [hmismatch] at h
      cases h
      rw [List.append_nil, List.reverse_ne_nil_iff]
      exact populate_ne_nil (readHeaders_ne_nil hheaders) hmismatch

theorem checkRedPayloads_ne_nil (h : packetList ≠ []) : checkRedPayloads db packetList ≠ [] := by
  cases packetList with
  | nil => exact absurd rfl h
  | cons packet packetList =>
    unfold checkRedPayloads checkRedPayloadsFrom
    dsimp only
    split
    · exact List.cons_ne_nil _ _
    · exact List.cons_ne_nil _ _

/-- The header that is kept is the one of the first packet. -/
theorem separate_front {fuel : Nat} {mainHeader : RTPHeader}
    (h : separate fuel db packet = some (.ok (mainHeader, packetList))) :
    ∃ front ∈ packetList, mainHeader = front.header := by
  unfold separate at h
  split at h
  · cases hsplit : (splitRed fuel [packet]).2 with
    | none =>
      rw [hsplit] at h
      cases h
    | some result =>
      rw [hsplit] at h
      dsimp only at h
      split at h
      · cases h
      · rename_i hok
        have hne : checkRedPayloads db result.2 ≠ [] := by
          refine checkRedPayloads_ne_nil (splitRed_ne_nil (hsplit.trans ?_))
          rw [← not_not.mp hok]
        cases hcheck : checkRedPayloads db result.2 with
        | nil => exact absurd hcheck hne
        | cons front rest =>
          rw [hcheck] at h
          cases h
          exact ⟨front, List.mem_cons_self, rfl⟩
  · cases h
    exact ⟨packet, List.mem_cons_self, rfl⟩

/-- A property of packets that does not depend on timestamps holds after scaling as
before. -/
theorem forall_toInternalList {P : Packet → Prop}
    (hP : ∀ (packet : Packet) (timestamp : BitVec 32),
      P { packet with header := { packet.header with timestamp := timestamp } } ↔ P packet)
    (s : TimestampScaler) :
    (∀ packet ∈ (s.toInternalList db packetList).1, P packet) ↔
      ∀ packet ∈ packetList, P packet := by
  induction packetList generalizing s with
  | nil => exact Iff.rfl
  | cons packet packetList ih =>
    unfold TimestampScaler.toInternalList
    dsimp only
    rw [List.forall_mem_cons, List.forall_mem_cons, ih]
    exact and_congr_left' (hP packet _)

/-- The payload is a telephone event that is inserted into the buffer. -/
def HasEvent (packet : Packet) : Prop :=
  ∃ event, DtmfBuffer.parseEvent packet.timestamp packet.payload packet.payloadLength = .ok event ∧
    DtmfBuffer.validParameters event = true

theorem hasEvent_restamp (packet : Packet) (timestamp : BitVec 32) :
    HasEvent { packet with header := { packet.header with timestamp := timestamp } } ↔
      HasEvent packet := by
  unfold HasEvent DtmfBuffer.parseEvent
  dsimp only
  cases packet.payload with
  | none =>
    refine iff_of_false ?_ ?_
    · rintro ⟨event, hparse, -⟩
      cases hparse
    · rintro ⟨event, hparse, -⟩
      cases hparse
  | some payload =>
    dsimp only
    split
    · refine iff_of_false ?_ ?_
      · rintro ⟨event, hparse, -⟩
        cases hparse
      · rintro ⟨event, hparse, -⟩
        cases hparse
    · constructor
      · rintro ⟨event, hparse, hvalid⟩
        cases hparse
        exact ⟨_, rfl, hvalid⟩
      · rintro ⟨event, hparse, hvalid⟩
        cases hparse
        exact ⟨_, rfl, hvalid⟩

theorem insertEvent_ok {event : DtmfEvent} {s : DtmfBuffer} :
    (s.insertEvent event).1 = .kOK ↔ DtmfBuffer.validParameters event = true := by
  unfold DtmfBuffer.insertEvent
  split
  · rename_i hinvalid
    exact iff_of_false (fun h => by cases h) hinvalid
  · rename_i hvalid
    refine iff_of_true ?_ (not_not.mp hvalid)
    split
    · rfl
    · rfl

/-- The payloads that stay when every event is inserted. -/
theorem processDtmf_ok {newList : List Packet} {dtmfBuffer : DtmfBuffer} :
    (processDtmf db packetList dtmfBuffer).1 = .ok newList ↔
      (∀ packet ∈ packetList, db.isDtmf packet.header.payloadType = true → HasEvent packet) ∧
        newList = packetList.filter fun packet => ¬ db.isDtmf packet.header.payloadType := by
  induction packetList generalizing newList dtmfBuffer with
  | nil =>
    unfold processDtmf
    rw [Except.ok.injEq, eq_comm]
    exact ⟨fun h => ⟨fun _ hmem => absurd hmem List.not_mem_nil, h⟩, fun h => h.2⟩
  | cons packet packetList ih =>
    unfold processDtmf
    rw [List.forall_mem_cons]
    by_cases hdtmf : db.isDtmf packet.header.payloadType = true
    · rw [if_pos hdtmf, List.filter_cons_of_neg (by rw [hdtmf]; decide)]
      cases hparse : DtmfBuffer.parseEvent packet.timestamp packet.payload packet.payloadLength with
      | error code =>
        refine iff_of_false (fun h => by cases h) ?_
        rintro ⟨⟨hevent, -⟩, -⟩
        obtain ⟨event, hok, -⟩ := hevent hdtmf
        rw [hparse] at hok
        cases hok
      | ok event =>
        dsimp only
        have hevent : HasEvent packet ↔ (dtmfBuffer.insertEvent event).1 = .kOK := by
          unfold HasEvent
          rw [hparse, insertEvent_ok]
          constructor
          · rintro ⟨event', heq, hvalid⟩
            cases heq
            exact hvalid
          · exact fun hvalid => ⟨event, rfl, hvalid⟩
        split
        · rename_i herror
          refine iff_of_false (fun h => by cases h) ?_
          exact fun h => herror (hevent.mp (h.1.1 hdtmf))
        · rename_i hok
          rw [ih]
          exact and_congr_left' (iff_and_self.mpr fun _ _ => hevent.mpr (not_not.mp hok))
    · rw [if_neg hdtmf, List.filter_cons_of_pos (by simpa using hdtmf)]
      dsimp only
      cases hrest : (processDtmf db packetList dtmfBuffer).1 with
      | error code =>
        refine iff_of_false (fun h => by cases h) ?_
        rintro ⟨⟨-, hall⟩, -⟩
        have hok : (processDtmf db packetList dtmfBuffer).1 = .ok _ := ih.mpr ⟨hall, rfl⟩
        rw [hrest] at hok
        cases hok
      | ok rest =>
        obtain ⟨hall, rfl⟩ := ih.mp hrest
        constructor
        · intro h
          cases h
          exact ⟨⟨fun h => absurd h hdtmf, hall⟩, rfl⟩
        · rintro ⟨-, rfl⟩
          rfl

/-- Packets that get through to the look-up of a decoder. -/
structure GetsThrough (db : DecoderDatabase) (packetList : List Packet) : Prop where
  registered : ∀ packet ∈ packetList, (db.decoders packet.header.payloadType).isSome = true
  events : ∀ packet ∈ packetList, db.isDtmf packet.header.payloadType = true → HasEvent packet
  splittable : ∀ packet ∈ packetList, ¬ db.isDtmf packet.header.payloadType = true →
    Splittable db packet
  remains : ¬ ∀ packet ∈ packetList, ¬ db.isDtmf packet.header.payloadType = true →
    Dropped db packet

theorem checkPayloadTypes_iff : db.checkPayloadTypes packetList = true ↔
    ∀ packet ∈ packetList, (db.decoders packet.header.payloadType).isSome = true := by
  unfold DecoderDatabase.checkPayloadTypes
  rw [List.all_eq_true]

theorem mapError_ok {result : Except SplitterReturnCode (List Packet)}
    (h : result.mapError splitError = .ok newList) : result = .ok newList := by
  cases result with
  | error code => cases h
  | ok list =>
    cases h
    rfl

/-- The list after the loop that picks out DTMF payloads. -/
def audioPackets (packetList : List Packet) (s : NetEqImpl) : List Packet :=
  (s.timestampScaler.toInternalList s.decoderDatabase packetList).1.filter fun packet =>
    ¬ s.decoderDatabase.isDtmf packet.header.payloadType

theorem forall_audioPackets {P : Packet → Prop}
    (hP : ∀ (packet : Packet) (timestamp : BitVec 32),
      P { packet with header := { packet.header with timestamp := timestamp } } ↔ P packet)
    (s : NetEqImpl) :
    (∀ packet ∈ s.audioPackets packetList, P packet) ↔
      ∀ packet ∈ packetList, ¬ s.decoderDatabase.isDtmf packet.header.payloadType = true →
        P packet := by
  unfold audioPackets
  simp only [List.mem_filter, decide_eq_true_eq, and_imp]
  exact @forall_toInternalList s.decoderDatabase packetList
    (fun packet => ¬ s.decoderDatabase.isDtmf packet.header.payloadType = true → P packet)
    (fun packet timestamp => imp_congr_right fun _ => hP packet timestamp) s.timestampScaler

theorem prepare_eq_ok {s : NetEqImpl} {fuel : Nat} :
    (s.prepare fuel packetList).1 = some (.ok newList) ↔
      (∀ packet ∈ packetList,
        (s.decoderDatabase.decoders packet.header.payloadType).isSome = true) ∧
      (∀ packet ∈ packetList,
        s.decoderDatabase.isDtmf packet.header.payloadType = true → HasEvent packet) ∧
      splitAudio fuel s.decoderDatabase (s.audioPackets packetList) = some (.ok newList) := by
  have hevents := @forall_toInternalList s.decoderDatabase packetList
    (fun packet => s.decoderDatabase.isDtmf packet.header.payloadType = true → HasEvent packet)
    (fun packet timestamp => imp_congr_right fun _ => hasEvent_restamp packet timestamp)
    s.timestampScaler
  rw [← checkPayloadTypes_iff, ← hevents]
  unfold prepare
  by_cases hregistered : s.decoderDatabase.checkPayloadTypes packetList = true
  · rw [if_neg (not_not.mpr hregistered), and_iff_right hregistered]
    dsimp only
    cases hprocessed : (processDtmf s.decoderDatabase
        (s.timestampScaler.toInternalList s.decoderDatabase packetList).1 s.dtmfBuffer).1 with
    | error code =>
      refine iff_of_false (fun h => by cases h) ?_
      rintro ⟨hall, -⟩
      have hok := (@processDtmf_ok _ _ _ s.dtmfBuffer).mpr ⟨hall, rfl⟩
      rw [hprocessed] at hok
      cases hok
    | ok audio =>
      obtain ⟨hall, rfl⟩ := processDtmf_ok.mp hprocessed
      rw [and_iff_right hall]
      dsimp only
      rw [Option.map_eq_some_iff]
      constructor
      · rintro ⟨result, hsplit, hok⟩
        rw [mapError_ok hok] at hsplit
        exact hsplit
      · exact fun hsplit => ⟨_, hsplit, rfl⟩
  · rw [if_pos hregistered]
    exact iff_of_false (fun h => by cases h) fun h => hregistered h.1

/-- There is fuel with which packets are left to be inserted if and only if the packets
get through. -/
theorem prepare_ok_iff {s : NetEqImpl} :
    (∃ fuel newList, (s.prepare fuel packetList).1 = some (.ok newList) ∧ newList ≠ []) ↔
      GetsThrough s.decoderDatabase packetList := by
  have hsplittable := @forall_audioPackets packetList (Splittable s.decoderDatabase)
    (fun _ _ => Iff.rfl) s
  have hdropped := @forall_audioPackets packetList (Dropped s.decoderDatabase)
    (fun _ _ => Iff.rfl) s
  constructor
  · rintro ⟨fuel, newList, hok, hne⟩
    obtain ⟨hregistered, hevents, hsplit⟩ := prepare_eq_ok.mp hok
    obtain ⟨hall, hnil⟩ := splitAudio_splittable hsplit
    exact
      { registered := hregistered
        events := hevents
        splittable := hsplittable.mp hall
        remains := fun h => hne (hnil.mpr (hdropped.mpr h)) }
  · intro h
    obtain ⟨newList, hsplit⟩ := splitAudio_of_splittable (hsplittable.mpr h.splittable) le_rfl
    refine ⟨_, newList, prepare_eq_ok.mpr ⟨h.registered, h.events, hsplit⟩, fun hnil => ?_⟩
    exact h.remains (hdropped.mp ((splitAudio_splittable hsplit).2.mp hnil))

theorem prepare_decoderDatabase (fuel : Nat) (packetList : List Packet) (s : NetEqImpl) :
    (s.prepare fuel packetList).2.decoderDatabase = s.decoderDatabase := by
  unfold prepare
  split
  · rfl
  · dsimp only
    split
    · rfl
    · rfl

end Stages

/-! ## Null pointers -/

section NullPointers

variable {s : NetEqImpl} {mainHeader : RTPHeader} {packetList newList : List Packet}

theorem reinitialize_decoderDatabase (mainHeader : RTPHeader) (s : NetEqImpl) :
    (s.reinitialize mainHeader).decoderDatabase = s.decoderDatabase := by
  unfold reinitialize
  split
  · rfl
  · rfl

theorem incomingPacket_null_iff (payloadType : Byte)
    (hregistered : (s.decoderDatabase.decoders payloadType).isSome = true) :
    (∃ pointer ∈ (s.incomingPacket payloadType packetList).1, pointer.IsNull) ↔
      packetList ≠ [] ∧ LacksDecoder s.decoderDatabase payloadType := by
  obtain ⟨info, hinfo⟩ := Option.isSome_iff_exists.mp hregistered
  unfold incomingPacket
  cases packetList with
  | nil =>
    refine iff_of_false ?_ fun h => h.1 rfl
    rintro ⟨pointer, hmem, -⟩
    cases hmem
  | cons packet packetList =>
    rw [and_iff_right (List.cons_ne_nil _ _), ← getDecoder_null_iff hinfo]
    have hlog : (s.decoderDatabase.getDecoder payloadType).1.map Pointer.decoder ++
        [.decoder (s.decoderDatabase.getDecoder payloadType).2.1] =
          ((s.decoderDatabase.getDecoder payloadType).1 ++
            [(s.decoderDatabase.getDecoder payloadType).2.1]).map .decoder := by
      rw [List.map_append]
      rfl
    dsimp only
    rw [hlog]
    constructor
    · rintro ⟨pointer, hmem, hnull⟩
      obtain ⟨object, hobject, rfl⟩ := List.mem_map.mp hmem
      exact ⟨object, hobject, hnull⟩
    · rintro ⟨object, hobject, hnull⟩
      exact ⟨.decoder object, List.mem_map_of_mem hobject, hnull⟩

theorem incomingPacket_registered (payloadType other : Byte) (packetList : List Packet) :
    ((s.incomingPacket payloadType packetList).2.decoderDatabase.decoders other).isSome =
      (s.decoderDatabase.decoders other).isSome := by
  unfold incomingPacket
  split
  · rfl
  · exact getDecoder_registered payloadType other

theorem insertInBuffer_not_null {payloadType : Byte}
    (hregistered : (s.decoderDatabase.decoders payloadType).isSome = true)
    (packetList : List Packet) :
    ∀ pointer ∈ (s.insertInBuffer payloadType packetList).log, ¬ pointer.IsNull := by
  have hinfo : ¬ (Pointer.decInfo (s.decoderDatabase.getDecoderInfo payloadType)).IsNull := by
    intro hnull
    unfold DecoderDatabase.getDecoderInfo Pointer.IsNull at hnull
    rw [hnull] at hregistered
    cases hregistered
  unfold insertInBuffer
  dsimp only
  intro pointer hmem
  split at hmem
  · cases List.mem_singleton.mp hmem
    exact hinfo
  · cases List.mem_singleton.mp hmem
    exact hinfo
  · cases hmem
  · cases hmem

/-- A RED payload, or the payload itself, is made of these packets, with the header that
the first of them has. -/
def Separated (db : DecoderDatabase) (packet : Packet) (mainHeader : RTPHeader)
    (packetList : List Packet) : Prop :=
  ∃ fuel, separate fuel db packet = some (.ok (mainHeader, packetList))

section Fuel

variable {redFuel audioFuel : Nat} {rtpHeader : RTPHeader} {payload : Option Mem}
  {lengthBytes : Int}

/-- With its fuel, a call comes to the insertion of a list of packets. -/
structure Inserts (redFuel audioFuel : Nat) (packet : Packet) (s : NetEqImpl)
    (mainHeader : RTPHeader) (newList : List Packet) : Prop where
  payload : packet.payload ≠ none
  prepared : ∃ packetList,
    separate redFuel s.decoderDatabase packet = some (.ok (mainHeader, packetList)) ∧
      ((s.reinitialize packet.header).prepare audioFuel packetList).1 = some (.ok newList)

theorem log_of_inserts
    (h : Inserts redFuel audioFuel (received rtpHeader payload lengthBytes) s mainHeader newList) :
    ∃ s' : NetEqImpl, s'.decoderDatabase = s.decoderDatabase ∧
      (s.insertPacketInternal redFuel audioFuel rtpHeader payload lengthBytes).log =
        (s'.incomingPacket mainHeader.payloadType newList).1 ++
          ((s'.incomingPacket mainHeader.payloadType newList).2.insertInBuffer
            mainHeader.payloadType newList).log := by
  obtain ⟨packetList, hseparate, hok⟩ := h.prepared
  have hpayload : payload ≠ none := h.payload
  have hpair : (s.reinitialize rtpHeader).prepare audioFuel packetList =
      (some (.ok newList), ((s.reinitialize rtpHeader).prepare audioFuel packetList).2) :=
    Prod.ext hok rfl
  rw [← reinitialize_decoderDatabase rtpHeader s] at hseparate
  refine ⟨((s.reinitialize rtpHeader).prepare audioFuel packetList).2, ?_, ?_⟩
  · rw [prepare_decoderDatabase, reinitialize_decoderDatabase]
  · unfold insertPacketInternal
    rw [if_neg hpayload]
    dsimp only
    have hheader : (received rtpHeader payload lengthBytes).header = rtpHeader := rfl
    rw [hheader, hseparate]
    dsimp only
    rw [hpair]

theorem log_of_not_inserts
    (h : ¬ ∃ mainHeader newList,
      Inserts redFuel audioFuel (received rtpHeader payload lengthBytes) s mainHeader newList) :
    (s.insertPacketInternal redFuel audioFuel rtpHeader payload lengthBytes).log = [] := by
  unfold insertPacketInternal
  split
  · rfl
  · rename_i hpayload
    dsimp only
    split
    · rfl
    · rfl
    · rename_i mainHeader packetList hseparate
      rw [reinitialize_decoderDatabase] at hseparate
      split
      · rfl
      · rfl
      · rename_i newList s' hprepare
        refine absurd ⟨mainHeader, newList, hpayload, packetList, hseparate, ?_⟩ h
        rw [hprepare]

end Fuel

end NullPointers

/-- For every state and every received packet: a null pointer is dereferenced if and only
if what the payload is made of gets through the stages, and the first packet of it is of a
type without a decoder. -/
theorem insertPacketInternal_null_iff (s : NetEqImpl) (rtpHeader : RTPHeader)
    (payload : Option Mem) (lengthBytes : Int) :
    (∀ redFuel audioFuel,
      ∀ pointer ∈ (s.insertPacketInternal redFuel audioFuel rtpHeader payload lengthBytes).log,
        ¬ pointer.IsNull) ↔
      ¬ (payload.isSome = true ∧ ∃ mainHeader packetList,
        Separated s.decoderDatabase (received rtpHeader payload lengthBytes) mainHeader
          packetList ∧
        GetsThrough s.decoderDatabase packetList ∧
        LacksDecoder s.decoderDatabase mainHeader.payloadType) := by
  constructor
  · rintro hall ⟨hpayload, mainHeader, packetList, ⟨redFuel, hseparate⟩, hthrough, hlacks⟩
    rw [← reinitialize_decoderDatabase rtpHeader s] at hthrough
    obtain ⟨audioFuel, newList, hok, hne⟩ := prepare_ok_iff.mpr hthrough
    obtain ⟨front, hfront, rfl⟩ := separate_front hseparate
    have hregistered := hthrough.registered front hfront
    rw [reinitialize_decoderDatabase] at hregistered
    obtain ⟨s', hs', hlog⟩ := log_of_inserts (s := s)
      ⟨Option.isSome_iff_ne_none.mp hpayload, packetList, hseparate, hok⟩
    rw [← hs'] at hregistered hlacks
    obtain ⟨pointer, hmem, hnull⟩ :=
      (incomingPacket_null_iff front.header.payloadType hregistered).mpr ⟨hne, hlacks⟩
    refine hall redFuel audioFuel pointer ?_ hnull
    rw [hlog]
    exact List.mem_append_left _ hmem
  · intro hnot redFuel audioFuel pointer hmem hnull
    by_cases hinserts : ∃ mainHeader newList,
      Inserts redFuel audioFuel (received rtpHeader payload lengthBytes) s mainHeader newList
    · obtain ⟨mainHeader, newList, hinserts⟩ := hinserts
      obtain ⟨packetList, hseparate, hok⟩ := hinserts.prepared
      obtain ⟨front, hfront, rfl⟩ := separate_front hseparate
      have hregistered := (prepare_eq_ok.mp hok).1 front hfront
      obtain ⟨s', hs', hlog⟩ := log_of_inserts hinserts
      rw [reinitialize_decoderDatabase, ← hs'] at hregistered
      rw [hlog, List.mem_append] at hmem
      rcases hmem with hmem | hmem
      · obtain ⟨hne, hlacks⟩ :=
          (incomingPacket_null_iff front.header.payloadType hregistered).mp ⟨pointer, hmem, hnull⟩
        rw [hs'] at hlacks
        have hthrough := prepare_ok_iff.mp ⟨audioFuel, newList, hok, hne⟩
        rw [reinitialize_decoderDatabase] at hthrough
        exact hnot ⟨Option.isSome_iff_ne_none.mpr hinserts.payload, front.header, packetList,
          ⟨redFuel, hseparate⟩, hthrough, hlacks⟩
      · refine insertInBuffer_not_null ?_ newList pointer hmem hnull
        rw [incomingPacket_registered]
        exact hregistered
    · rw [log_of_not_inserts hinserts] at hmem
      cases hmem

/-- As the constructor leaves it, for 8 kHz. -/
def narrowband (db : DecoderDatabase) : NetEqImpl where
  decoderDatabase := db
  dtmfBuffer := { maxExtrapolationSamples := 7 * 8000 / 100, frameLenSamples := 80 }
  packetBuffer := { maxNumberOfPackets := 240, maxMemoryBytes := 113280 }

/-- A RED payload whose only block is RED again: `GetDecoder` has nothing for that type, and
`IncomingPacket` is called on a null pointer. -/
theorem not_insertPacketInternal_null : ¬ ∀ (s : NetEqImpl) (rtpHeader : RTPHeader)
    (payload : Option Mem) (lengthBytes : Int) (redFuel audioFuel : Nat), 0 ≤ lengthBytes →
    ∀ pointer ∈ (s.insertPacketInternal redFuel audioFuel rtpHeader payload lengthBytes).log,
      ¬ pointer.IsNull := by
  intro h
  have hlog : Pointer.decoder none ∈
      ((narrowband (DecoderDatabase.registerPayload {} 100 .kDecoderRED).2)
        |>.insertPacketInternal 1 1 { payloadType := 100 } (some fun _ => 100) 1).log :=
    List.mem_cons_self
  exact h _ _ _ _ _ _ Int.one_nonneg _ hlog rfl

end NetEqImpl

end PerchWebrtc.NetEq
