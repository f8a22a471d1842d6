import PerchWebrtc.NetEq.Packet

/-!
# Registered decoders

`DecoderDatabase` (`decoder_database.cc`) and the codecs of `audio_decoder.cc`, built
with every codec of `engine_configurations.h` and with Opus.
-/

namespace PerchWebrtc.NetEq

inductive NetEqDecoder where
  | kDecoderPCMu
  | kDecoderPCMa
  | kDecoderPCMu_2ch
  | kDecoderPCMa_2ch
  | kDecoderILBC
  | kDecoderISAC
  | kDecoderISACswb
  | kDecoderISACfb
  | kDecoderPCM16B
  | kDecoderPCM16Bwb
  | kDecoderPCM16Bswb32kHz
  | kDecoderPCM16Bswb48kHz
  | kDecoderPCM16B_2ch
  | kDecoderPCM16Bwb_2ch
  | kDecoderPCM16Bswb32kHz_2ch
  | kDecoderPCM16Bswb48kHz_2ch
  | kDecoderPCM16B_5ch
  | kDecoderG722
  | kDecoderG722_2ch
  | kDecoderRED
  | kDecoderAVT
  | kDecoderCNGnb
  | kDecoderCNGwb
  | kDecoderCNGswb32kHz
  | kDecoderCNGswb48kHz
  | kDecoderArbitrary
  | kDecoderOpus
  | kDecoderOpus_2ch
  | kDecoderCELT_32
  | kDecoderCELT_32_2ch
  deriving DecidableEq

/-- An object of the class. -/
structure AudioDecoder where
  codecType : NetEqDecoder
  deriving DecidableEq

def codecSupported : NetEqDecoder → Bool
  | .kDecoderCELT_32 => false
  | .kDecoderCELT_32_2ch => false
  | _ => true

def codecSampleRateHz : NetEqDecoder → Int
  | .kDecoderPCMu | .kDecoderPCMa | .kDecoderPCMu_2ch | .kDecoderPCMa_2ch | .kDecoderILBC
  | .kDecoderPCM16B | .kDecoderPCM16B_2ch | .kDecoderPCM16B_5ch | .kDecoderCNGnb => 8000
  | .kDecoderISAC | .kDecoderPCM16Bwb | .kDecoderPCM16Bwb_2ch | .kDecoderG722
  | .kDecoderG722_2ch | .kDecoderCNGwb => 16000
  | .kDecoderISACswb | .kDecoderISACfb | .kDecoderPCM16Bswb32kHz | .kDecoderPCM16Bswb32kHz_2ch
  | .kDecoderCNGswb32kHz => 32000
  | .kDecoderPCM16Bswb48kHz | .kDecoderPCM16Bswb48kHz_2ch => 48000
  | .kDecoderOpus | .kDecoderOpus_2ch => 32000
  | .kDecoderCNGswb48kHz => 32000
  | _ => -1

def createAudioDecoder (codecType : NetEqDecoder) : Option AudioDecoder :=
  if ¬ codecSupported codecType then none
  else
    match codecType with
    | .kDecoderRED => none
    | .kDecoderAVT => none
    | .kDecoderArbitrary => none
    | codecType => some ⟨codecType⟩

structure DecoderInfo where
  codecType : NetEqDecoder
  fsHz : Int
  decoder : Option AudioDecoder
  isExternal : Bool

namespace DecoderDatabase

inductive DatabaseReturnCode where
  | kOK
  | kInvalidRtpPayloadType
  | kCodecNotSupported
  | kDecoderExists
  deriving DecidableEq

end DecoderDatabase

open DecoderDatabase

/-- The map from payload types. -/
structure DecoderDatabase where
  decoders : Byte → Option DecoderInfo := fun _ => none

namespace DecoderDatabase

variable (db : DecoderDatabase)

/-- A codec without a decoder so far, where the payload type is free. -/
def registerPayload (rtpPayloadType : Byte) (codecType : NetEqDecoder) :
    DatabaseReturnCode × DecoderDatabase :=
  if rtpPayloadType > 0x7F then (.kInvalidRtpPayloadType, db)
  else if ¬ codecSupported codecType then (.kCodecNotSupported, db)
  else
    match db.decoders rtpPayloadType with
    | some _ => (.kDecoderExists, db)
    | none =>
      (.kOK,
        { decoders := fun other =>
            if other = rtpPayloadType then
              some
                { codecType := codecType
                  fsHz := codecSampleRateHz codecType
                  decoder := none
                  isExternal := false }
            else db.decoders other })

def getDecoderInfo (rtpPayloadType : Byte) : Option DecoderInfo := db.decoders rtpPayloadType

def isType (rtpPayloadType : Byte) (codecType : NetEqDecoder) : Bool :=
  match db.decoders rtpPayloadType with
  | none => false
  | some info => info.codecType = codecType

def isComfortNoise (rtpPayloadType : Byte) : Bool :=
  db.isType rtpPayloadType .kDecoderCNGnb || db.isType rtpPayloadType .kDecoderCNGwb ||
    db.isType rtpPayloadType .kDecoderCNGswb32kHz ||
    db.isType rtpPayloadType .kDecoderCNGswb48kHz

def isDtmf (rtpPayloadType : Byte) : Bool := db.isType rtpPayloadType .kDecoderAVT

def isRed (rtpPayloadType : Byte) : Bool := db.isType rtpPayloadType .kDecoderRED

/-- The decoder of a payload type, which is created if there is none. A new one is
initialized: the first component lists the pointer that is used for that. -/
def getDecoder (rtpPayloadType : Byte) :
    List (Option AudioDecoder) × Option AudioDecoder × DecoderDatabase :=
  if db.isDtmf rtpPayloadType || db.isRed rtpPayloadType then ([], none, db)
  else
    match db.decoders rtpPayloadType with
    | none => ([], none, db)
    | some info =>
      match info.decoder with
      | some decoder => ([], some decoder, db)
      | none =>
        let decoder := createAudioDecoder info.codecType
        ([decoder], decoder,
          { decoders := fun other =>
              if other = rtpPayloadType then some { info with decoder := decoder }
              else db.decoders other })

/-- `CheckPayloadTypes` returns `kOK`. -/
def checkPayloadTypes (packetList : List Packet) : Bool :=
  packetList.all fun packet => (db.decoders packet.header.payloadType).isSome

end DecoderDatabase

end PerchWebrtc.NetEq
