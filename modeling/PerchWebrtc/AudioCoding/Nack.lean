import PerchWebrtc.Framework.Arrivals
import PerchWebrtc.Framework.Ordered

/-!
# The audio NACK list

`Nack` (`audio_coding/main/source/nack.cc`): the numbers of the packets that are missing or late,
with an estimate of the time that is left until they are played. `nack_list_` is a `std::map` that
is ordered by `IsNewerSequenceNumber`. Milliseconds and samples are `int` and `uint32_t`: what is
computed from timestamps is taken modulo 2^32. Sampling rates are at least 1 kHz.
-/

namespace PerchWebrtc.AudioCoding

open Circular

def kDefaultSampleRateKhz : Nat := 48
def kDefaultPacketSizeMs : Nat := 20
def kNackListSizeLimit : Nat := 500

structure NackElement where
  timeToPlayMs : Int
  estimatedTimestamp : BitVec 32
  isMissing : Bool

abbrev NackList := List (BitVec 16 × NackElement)

structure Nack where
  nackThresholdPackets : Nat
  sequenceNumLastReceivedRtp : BitVec 16 := 0
  timestampLastReceivedRtp : BitVec 32 := 0
  anyRtpReceived : Bool := false
  sequenceNumLastDecodedRtp : BitVec 16 := 0
  timestampLastDecodedRtp : BitVec 32 := 0
  anyRtpDecoded : Bool := false
  sampleRateKhz : Nat := kDefaultSampleRateKhz
  samplesPerPacket : BitVec 32 := BitVec.ofNat 32 (kDefaultSampleRateKhz * kDefaultPacketSizeMs)
  nackList : NackList := []
  maxNackListSize : Nat := kNackListSizeLimit

namespace NackList

/-- The elements before the `lower_bound` of the number are missing. -/
def markMissing (sequenceNumber : BitVec 16) (l : NackList) : NackList :=
  (l.takeWhile fun e => Precedes e.1 sequenceNumber).map (fun e => (e.1, { e.2 with isMissing := true }))
    ++ l.dropWhile fun e => Precedes e.1 sequenceNumber

def setTimeToPlay (timeToPlay : NackElement → Int) (l : NackList) : NackList :=
  l.map fun e => (e.1, { e.2 with timeToPlayMs := timeToPlay e.2 })

/-- The elements that `UpdateEstimatedPlayoutTimeBy10ms` erases. -/
def playedOut (l : NackList) : NackList := l.takeWhile fun e => e.2.timeToPlayMs ≤ 10

end NackList

namespace Nack

variable (s : Nack)

/-- The constructor. -/
def create (nackThresholdPackets : Nat) : Nack where
  nackThresholdPackets := nackThresholdPackets

def updateSampleRate (sampleRateHz : Nat) : Nack :=
  { s with sampleRateKhz := sampleRateHz / 1000 }

def timeToPlay (timestamp : BitVec 32) : Int :=
  ((timestamp - s.timestampLastDecodedRtp) / BitVec.ofNat 32 s.sampleRateKhz).toInt

def estimateTimestamp (sequenceNum : BitVec 16) : BitVec 32 :=
  (sequenceNum - s.sequenceNumLastReceivedRtp).setWidth 32 * s.samplesPerPacket +
    s.timestampLastReceivedRtp

def updateSamplesPerPacket (sequenceNumber : BitVec 16) (timestamp : BitVec 32) : Nack :=
  { s with
    samplesPerPacket := (timestamp - s.timestampLastReceivedRtp) /
      (sequenceNumber - s.sequenceNumLastReceivedRtp).setWidth 32 }

def changeFromLateToMissing (sequenceNumber : BitVec 16) : Nack :=
  { s with
    nackList :=
      s.nackList.markMissing (sequenceNumber - BitVec.ofNat 16 s.nackThresholdPackets) }

/-- The loop of `AddToList`, for the numbers from `n` on, at most `fuel` of
them. -/
def addToListFrom (sequenceNumber : BitVec 16) : Nat → BitVec 16 → NackList → NackList
  | 0, _, l => l
  | fuel + 1, n, l =>
    if Precedes n sequenceNumber then
      let upperBoundMissing := sequenceNumber - BitVec.ofNat 16 s.nackThresholdPackets
      let timestamp := s.estimateTimestamp n
      let nackElement := ⟨s.timeToPlay timestamp, timestamp, Precedes n upperBoundMissing⟩
      addToListFrom sequenceNumber fuel (n + 1) (Ordered.insertAtEnd Precedes Prod.fst (n, nackElement) l)
    else l

def addToList (sequenceNumber : BitVec 16) : Nack :=
  { s with
    nackList := s.addToListFrom sequenceNumber
      (sequenceNumber - s.sequenceNumLastReceivedRtp).toNat (s.sequenceNumLastReceivedRtp + 1)
      s.nackList }

def updateList (sequenceNumber : BitVec 16) : Nack :=
  let s := s.changeFromLateToMissing sequenceNumber
  if Precedes (s.sequenceNumLastReceivedRtp + 1) sequenceNumber then s.addToList sequenceNumber
  else s

def limitNackListSize : Nack :=
  let limit := s.sequenceNumLastReceivedRtp - BitVec.ofNat 16 s.maxNackListSize - 1
  { s with nackList := Ordered.above Precedes Prod.fst limit s.nackList }

def updateLastReceivedPacket (sequenceNumber : BitVec 16) (timestamp : BitVec 32) : Nack :=
  if !s.anyRtpReceived then
    let s := { s with
      sequenceNumLastReceivedRtp := sequenceNumber
      timestampLastReceivedRtp := timestamp
      anyRtpReceived := true }
    if !s.anyRtpDecoded then
      { s with
        sequenceNumLastDecodedRtp := sequenceNumber
        timestampLastDecodedRtp := timestamp }
    else s
  else if sequenceNumber = s.sequenceNumLastReceivedRtp then s
  else
    let s := { s with nackList := Ordered.erase Precedes Prod.fst sequenceNumber s.nackList }
    if Precedes sequenceNumber s.sequenceNumLastReceivedRtp then s
    else
      { (s.updateSamplesPerPacket sequenceNumber timestamp).updateList sequenceNumber with
        sequenceNumLastReceivedRtp := sequenceNumber
        timestampLastReceivedRtp := timestamp }.limitNackListSize

def updateEstimatedPlayoutTimeBy10ms : Nack :=
  { s with
    nackList :=
      NackList.setTimeToPlay (fun e => e.timeToPlayMs - 10)
        (s.nackList.dropWhile fun e => e.2.timeToPlayMs ≤ 10) }

def updateLastDecodedPacket (sequenceNumber : BitVec 16) (timestamp : BitVec 32) : Nack :=
  let decoded :=
    if Precedes s.sequenceNumLastDecodedRtp sequenceNumber ∨ !s.anyRtpDecoded then
      let s := { s with
        sequenceNumLastDecodedRtp := sequenceNumber
        timestampLastDecodedRtp := timestamp }
      { s with
        nackList :=
          NackList.setTimeToPlay (fun e => s.timeToPlay e.estimatedTimestamp)
            (Ordered.above Precedes Prod.fst sequenceNumber s.nackList) }
    else
      { s.updateEstimatedPlayoutTimeBy10ms with
        timestampLastDecodedRtp :=
          s.timestampLastDecodedRtp + BitVec.ofNat 32 (s.sampleRateKhz * 10) }
  { decoded with anyRtpDecoded := true }

def reset : Nack :=
  { create s.nackThresholdPackets with maxNackListSize := s.maxNackListSize }

def setMaxNackListSize (maxNackListSize : Nat) : Int × Nack :=
  if maxNackListSize = 0 ∨ maxNackListSize > kNackListSizeLimit then (-1, s)
  else (0, { s with maxNackListSize := maxNackListSize }.limitNackListSize)

/-- The numbers of the missing packets that are played later than a
retransmission takes. -/
def getNackList (roundTripTimeMs : Int) : List (BitVec 16) :=
  (s.nackList.filter fun e => e.2.isMissing && roundTripTimeMs < e.2.timeToPlayMs).map Prod.fst

end Nack

end PerchWebrtc.AudioCoding
