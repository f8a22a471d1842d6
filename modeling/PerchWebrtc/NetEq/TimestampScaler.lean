import PerchWebrtc.Framework.Machine
import PerchWebrtc.NetEq.DecoderDatabase

/-!
# Scaling of timestamps

`TimestampScaler` (`timestamp_scaler.cc`): codecs whose RTP clock is not their sample
rate get timestamps of an internal scale, each computed from the one before.

* `Trace`: a run with the difference to the first packet, unwrapped;
* `Tracks`: what a run keeps; the error of the internal difference is the sum of what
  each conversion adds (`Tracks.next`), a remainder and an overflow (`roundingError_eq`);
* `accurate_iff`: in every run the internal differences are exact to within one unit if
  and only if these errors do not add up, and the conversion back is always exact.
-/

namespace PerchWebrtc.NetEq

structure TimestampScaler where
  firstPacketReceived : Bool := false
  numerator : Int := 1
  denominator : Int := 1
  externalRef : BitVec 32 := 0
  internalRef : BitVec 32 := 0
  deriving DecidableEq

/-- What a codec sets the ratio to; `none` where the settings are not changed. The case
of Opus falls through to the one that changes nothing. -/
def scaling : NetEqDecoder → Option (Int × Int)
  | .kDecoderG722 | .kDecoderG722_2ch => some (2, 1)
  | .kDecoderOpus | .kDecoderOpus_2ch | .kDecoderISACfb | .kDecoderCNGswb48kHz => some (2, 3)
  | .kDecoderAVT | .kDecoderCNGnb | .kDecoderCNGwb | .kDecoderCNGswb32kHz => none
  | _ => some (1, 1)

namespace TimestampScaler

def reset (s : TimestampScaler) : TimestampScaler := { s with firstPacketReceived := false }

/-- The switch over the codec. -/
def setRatio (codecType : NetEqDecoder) (s : TimestampScaler) : TimestampScaler :=
  match scaling codecType with
  | none => s
  | some (numerator, denominator) =>
    { s with numerator := numerator, denominator := denominator }

/-- The references start with the first packet. -/
def receiveFirst (externalTimestamp : BitVec 32) (s : TimestampScaler) : TimestampScaler :=
  if s.firstPacketReceived then s
  else
    { s with
      externalRef := externalTimestamp
      internalRef := externalTimestamp
      firstPacketReceived := true }

/-- An `int32_t` times the numerator, divided by the denominator. -/
def scale (numerator denominator diff : Int) : Int := (int32 (diff * numerator)).tdiv denominator

/-- The references move to a timestamp. -/
def advance (externalTimestamp : BitVec 32) (s : TimestampScaler) : TimestampScaler :=
  { s with
    externalRef := externalTimestamp
    internalRef := s.internalRef +
      BitVec.ofInt 32
        (scale s.numerator s.denominator (externalTimestamp - s.externalRef).toInt) }

def toInternal (db : DecoderDatabase) (externalTimestamp : BitVec 32) (rtpPayloadType : Byte)
    (s : TimestampScaler) : BitVec 32 × TimestampScaler :=
  match db.getDecoderInfo rtpPayloadType with
  | none => (externalTimestamp, s)
  | some info =>
    let s := s.setRatio info.codecType
    if ¬ (s.numerator = 1 ∧ s.denominator = 1) then
      let s := (s.receiveFirst externalTimestamp).advance externalTimestamp
      (s.internalRef, s)
    else (externalTimestamp, s)

def toExternal (internalTimestamp : BitVec 32) (s : TimestampScaler) : BitVec 32 :=
  if ¬ s.firstPacketReceived ∨ s.numerator = 1 ∧ s.denominator = 1 then internalTimestamp
  else
    s.externalRef +
      BitVec.ofInt 32 (scale s.denominator s.numerator (internalTimestamp - s.internalRef).toInt)

/-- `ToInternal` of a packet. -/
def toInternalPacket (db : DecoderDatabase) (packet : Packet) (s : TimestampScaler) :
    Packet × TimestampScaler :=
  let scaled := s.toInternal db packet.timestamp packet.header.payloadType
  ({ packet with header := { packet.header with timestamp := scaled.1 } }, scaled.2)

/-- `ToInternal` of a list of packets. -/
def toInternalList (db : DecoderDatabase) :
    List Packet → TimestampScaler → List Packet × TimestampScaler
  | [], s => ([], s)
  | packet :: packetList, s =>
    let scaled := s.toInternalPacket db packet
    let rest := toInternalList db packetList scaled.2
    (scaled.1 :: rest.1, rest.2)

end TimestampScaler

/-! ## Runs -/

/-- What is scaled: a timestamp and its payload type. -/
structure Stamp where
  timestamp : BitVec 32
  payloadType : Byte

/-- A run since its first packet. -/
structure Trace where
  scaler : TimestampScaler
  /-- The timestamps of the last packet. -/
  external : BitVec 32
  internal : BitVec 32
  firstInternal : BitVec 32
  /-- The external difference to the first packet, the sum of the signed differences
  between packets. -/
  difference : Int

namespace Trace

variable (db : DecoderDatabase)

def start (s : TimestampScaler) (p : Stamp) : Trace :=
  let scaled := s.toInternal db p.timestamp p.payloadType
  { scaler := scaled.2
    external := p.timestamp
    internal := scaled.1
    firstInternal := scaled.1
    difference := 0 }

def next (t : Trace) (p : Stamp) : Trace :=
  let scaled := t.scaler.toInternal db p.timestamp p.payloadType
  { t with
    scaler := scaled.2
    external := p.timestamp
    internal := scaled.1
    difference := t.difference + (p.timestamp - t.external).toInt }

/-- The internal difference to the first packet is the external one times the ratio, to
within one unit, and the internal timestamp is scaled back to the external one. -/
def Accurate (numerator denominator : Int) (t : Trace) : Prop :=
  (∃ internalDifference : Int,
      BitVec.ofInt 32 internalDifference = t.internal - t.firstInternal ∧
      |denominator * internalDifference - numerator * t.difference| ≤ denominator) ∧
    t.scaler.toExternal t.internal = t.external

end Trace

/-- A codec sets the ratio. -/
def DecoderDatabase.setsRatio (db : DecoderDatabase) (payloadType : Byte) : Bool :=
  match db.decoders payloadType with
  | none => false
  | some info => (scaling info.codecType).isSome

/-- The registered codecs that set a ratio, of which there are some, set the same one. -/
structure DecoderDatabase.Mix (db : DecoderDatabase) (numerator denominator : Int) : Prop where
  some : ∃ payloadType info, db.decoders payloadType = some info ∧
    scaling info.codecType = some (numerator, denominator)
  same : ∀ payloadType info ratio, db.decoders payloadType = Option.some info →
    scaling info.codecType = Option.some ratio → ratio = (numerator, denominator)

/-- A scaler that starts over, perhaps with the ratio of earlier packets. -/
structure TimestampScaler.Fresh (s : TimestampScaler) (numerator denominator : Int) : Prop where
  first : s.firstPacketReceived = false
  ratio : s.numerator = 1 ∧ s.denominator = 1 ∨
    s.numerator = numerator ∧ s.denominator = denominator

/-- What is added to a product that 32 bits do not hold. -/
def overflow (product : Int) : Int :=
  if 2 ^ 31 ≤ product then -2 ^ 32 else if product < -2 ^ 31 then 2 ^ 32 else 0

/-- What a packet loses: the remainder of the division, which has the sign of the product,
and an overflow of the product; before the ratio is set, what scaling would take away. -/
def roundingError (numerator denominator : Int) (scaled : Bool) (diff : Int) : Int :=
  if scaled then
    let product := numerator * diff
    overflow product - (product + overflow product).tmod denominator
  else (denominator - numerator) * diff

/-- The errors stay within the denominator of a multiple of what the range of internal
timestamps is worth. Timestamps are scaled after a packet that sets the ratio. -/
def RoundsWell (db : DecoderDatabase) (numerator denominator : Int) :
    Bool → BitVec 32 → Int → List Stamp → Prop
  | _, _, _, [] => True
  | scaled, external, error, p :: packets =>
    let error := error +
      roundingError numerator denominator scaled (p.timestamp - external).toInt
    (∃ k : Int, |error + k * (denominator * 2 ^ 32)| ≤ denominator) ∧
      RoundsWell db numerator denominator (scaled || db.setsRatio p.payloadType) p.timestamp
        error packets

/-! ## One conversion -/

section Conversion

variable {db : DecoderDatabase} {numerator denominator : Int} {s : TimestampScaler}
  {scaled : Bool}

def ratioOf (numerator denominator : Int) (scaled : Bool) : Int × Int :=
  if scaled then (numerator, denominator) else (1, 1)

/-- The ratio is that of the mix once a packet has set it; the references are those of
the last packet where timestamps are scaled. -/
structure Scales (numerator denominator : Int) (scaled : Bool) (external internal : BitVec 32)
    (s : TimestampScaler) : Prop where
  ratio : (s.numerator, s.denominator) = ratioOf numerator denominator scaled
  identity : ratioOf numerator denominator scaled = (1, 1) →
    internal = external ∧ s.firstPacketReceived = false
  refs : ratioOf numerator denominator scaled ≠ (1, 1) →
    s.firstPacketReceived = true ∧ s.externalRef = external ∧ s.internalRef = internal

theorem setRatio_ratio (hmix : db.Mix numerator denominator) {payloadType : Byte}
    {info : DecoderInfo} (hinfo : db.decoders payloadType = some info)
    (hratio : (s.numerator, s.denominator) = ratioOf numerator denominator scaled) :
    let s' := s.setRatio info.codecType
    (s'.numerator, s'.denominator) =
        ratioOf numerator denominator (scaled || db.setsRatio payloadType) ∧
      s'.firstPacketReceived = s.firstPacketReceived ∧ s'.externalRef = s.externalRef ∧
      s'.internalRef = s.internalRef := by
  unfold TimestampScaler.setRatio DecoderDatabase.setsRatio
  rw [hinfo]
  dsimp only
  cases hscaling : scaling info.codecType with
  | none =>
    rw [Option.isSome_none, Bool.or_false]
    exact ⟨hratio, rfl, rfl, rfl⟩
  | some ratio =>
    rw [Option.isSome_some, Bool.or_true]
    exact ⟨hmix.same payloadType info ratio hinfo hscaling, rfl, rfl, rfl⟩

theorem scale_zero (numerator denominator : Int) :
    TimestampScaler.scale numerator denominator 0 = 0 := by
  unfold TimestampScaler.scale
  rw [Int.zero_mul]
  exact Int.zero_tdiv denominator

/-- A conversion: the first one that scales starts at the timestamp itself. -/
theorem toInternal_scales (hmix : db.Mix numerator denominator) {payloadType : Byte}
    {info : DecoderInfo} (hinfo : db.decoders payloadType = some info)
    (hratio : (s.numerator, s.denominator) = ratioOf numerator denominator scaled)
    (hfirst : ratioOf numerator denominator (scaled || db.setsRatio payloadType) = (1, 1) →
      s.firstPacketReceived = false) (timestamp : BitVec 32) :
    Scales numerator denominator (scaled || db.setsRatio payloadType) timestamp
        (s.toInternal db timestamp payloadType).1 (s.toInternal db timestamp payloadType).2 ∧
      (ratioOf numerator denominator (scaled || db.setsRatio payloadType) ≠ (1, 1) →
        (s.toInternal db timestamp payloadType).1 =
          if s.firstPacketReceived then
            s.internalRef + BitVec.ofInt 32
              (TimestampScaler.scale numerator denominator (timestamp - s.externalRef).toInt)
          else timestamp) := by
  obtain ⟨hratio', hreceived, hexternal, hinternal⟩ := setRatio_ratio hmix hinfo hratio
  unfold TimestampScaler.toInternal DecoderDatabase.getDecoderInfo
  rw [hinfo]
  dsimp only at hratio' hreceived hexternal hinternal ⊢
  generalize s.setRatio info.codecType = s' at hratio' hreceived hexternal hinternal
  generalize hscaled : (scaled || db.setsRatio payloadType) = scaled' at hratio' hfirst
  have hone : s'.numerator = 1 ∧ s'.denominator = 1 ↔
      ratioOf numerator denominator scaled' = (1, 1) := by
    rw [← hratio', Prod.mk.injEq]
  by_cases hidentity : ratioOf numerator denominator scaled' = (1, 1)
  · rw [if_neg (not_not.mpr (hone.mpr hidentity))]
    refine ⟨⟨hratio', fun _ => ⟨rfl, ?_⟩, fun hne => absurd hidentity hne⟩,
      fun hne => absurd hidentity hne⟩
    rw [hreceived, hfirst hidentity]
  · rw [if_pos (mt hone.mp hidentity)]
    have hpair : s'.numerator = numerator ∧ s'.denominator = denominator := by
      unfold ratioOf at hratio' hidentity
      cases scaled' with
      | true => exact ⟨congrArg Prod.fst hratio', congrArg Prod.snd hratio'⟩
      | false => exact absurd rfl hidentity
    unfold TimestampScaler.receiveFirst TimestampScaler.advance
    rw [hreceived]
    cases hold : s.firstPacketReceived with
    | true =>
      rw [if_pos rfl, if_pos rfl]
      refine ⟨⟨hratio', fun heq => absurd heq hidentity,
        fun _ => ⟨hreceived.trans hold, rfl, rfl⟩⟩, fun _ => ?_⟩
      dsimp only
      rw [hpair.1, hpair.2, hinternal, hexternal]
    | false =>
      rw [if_neg Bool.false_ne_true, if_neg Bool.false_ne_true]
      refine ⟨⟨hratio', fun heq => absurd heq hidentity, fun _ => ⟨rfl, rfl, rfl⟩⟩, fun _ => ?_⟩
      dsimp only
      rw [BitVec.sub_self]
      show timestamp + BitVec.ofInt 32 (TimestampScaler.scale _ _ 0) = timestamp
      rw [scale_zero]
      exact BitVec.add_zero timestamp

/-- The conversion back. -/
theorem Scales.toExternal {external internal : BitVec 32}
    (h : Scales numerator denominator scaled external internal s) :
    s.toExternal internal = external := by
  unfold TimestampScaler.toExternal
  by_cases hidentity : ratioOf numerator denominator scaled = (1, 1)
  · have hone : s.numerator = 1 ∧ s.denominator = 1 := Prod.mk.inj (h.ratio.trans hidentity)
    rw [if_pos (.inr hone)]
    exact (h.identity hidentity).1
  · obtain ⟨hfirst, hexternal, hinternal⟩ := h.refs hidentity
    have hone : ¬ (s.numerator = 1 ∧ s.denominator = 1) := fun hone =>
      hidentity (h.ratio.symm.trans (Prod.ext hone.1 hone.2))
    rw [if_neg (not_or.mpr ⟨not_not.mpr hfirst, hone⟩), hinternal, BitVec.sub_self]
    show s.externalRef + BitVec.ofInt 32 (TimestampScaler.scale _ _ 0) = external
    rw [scale_zero, hexternal]
    exact BitVec.add_zero external

end Conversion

/-! ## The error of a run -/

section Errors

variable {db : DecoderDatabase} {numerator denominator : Int}

/-- The scaler follows the run, and the internal difference is off by the error. -/
structure Tracks (numerator denominator : Int) (scaled : Bool) (error : Int) (t : Trace) :
    Prop where
  scales : Scales numerator denominator scaled t.external t.internal t.scaler
  sum : ∃ internalDifference : Int,
    BitVec.ofInt 32 internalDifference = t.internal - t.firstInternal ∧
      denominator * internalDifference - numerator * t.difference = error

/-- What the internal timestamp advances by. -/
def increment (numerator denominator : Int) (scaled : Bool) (diff : Int) : Int :=
  if scaled then TimestampScaler.scale numerator denominator diff else diff

theorem DecoderDatabase.Mix.denominator_pos (hmix : db.Mix numerator denominator) :
    0 < denominator := by
  obtain ⟨-, info, -, hscaling⟩ := hmix.some
  generalize info.codecType = codecType at hscaling
  cases codecType <;> cases hscaling <;> decide

theorem DecoderDatabase.Mix.numerator_eq (hmix : db.Mix numerator denominator) :
    numerator = 1 ∨ numerator = 2 := by
  obtain ⟨-, info, -, hscaling⟩ := hmix.some
  generalize info.codecType = codecType at hscaling
  cases codecType <;> cases hscaling <;> decide

/-- Twice a signed difference wraps at most once. -/
theorem int32_eq_overflow {product : Int} (hlow : -2 ^ 32 ≤ product) (hhigh : product < 2 ^ 32) :
    int32 product = product + overflow product := by
  have hwrap (k : Int) : int32 product = int32 (product + k * 2 ^ 32) :=
    (Int.add_mul_bmod_self_right product k (2 ^ 32)).symm
  unfold overflow
  split
  · rw [hwrap (-1), int32_of_fits (by omega) (by omega)]
    omega
  · split
    · rw [hwrap 1, int32_of_fits (by omega) (by omega)]
      omega
    · rw [int32_of_fits (by omega) (by omega)]
      omega

theorem roundingError_eq (hmix : db.Mix numerator denominator) (scaled : Bool) (x : BitVec 32) :
    roundingError numerator denominator scaled x.toInt =
      denominator * increment numerator denominator scaled x.toInt - numerator * x.toInt := by
  unfold roundingError increment
  cases scaled with
  | true =>
    have hlow := BitVec.le_toInt x
    have hhigh := @BitVec.toInt_lt _ x
    have hfits : -2 ^ 32 ≤ numerator * x.toInt ∧ numerator * x.toInt < 2 ^ 32 := by
      obtain rfl | rfl := hmix.numerator_eq <;> omega
    rw [if_pos rfl, if_pos rfl, TimestampScaler.scale, Int.mul_comm x.toInt,
      int32_eq_overflow hfits.1 hfits.2, Int.mul_tdiv_self]
    dsimp only
    omega
  | false =>
    rw [if_neg Bool.false_ne_true, if_neg Bool.false_ne_true]
    exact Int.sub_mul _ _ _

theorem scale_one (x : BitVec 32) : TimestampScaler.scale 1 1 x.toInt = x.toInt := by
  unfold TimestampScaler.scale
  rw [Int.mul_one, Int.tdiv_one]
  exact int32_of_fits (BitVec.le_toInt x) BitVec.toInt_lt

theorem next_internal (hmix : db.Mix numerator denominator) {t : Trace} {p : Stamp}
    {info : DecoderInfo} (hinfo : db.decoders p.payloadType = some info) {scaled : Bool}
    (h : Scales numerator denominator scaled t.external t.internal t.scaler) :
    Scales numerator denominator (scaled || db.setsRatio p.payloadType) (t.next db p).external
        (t.next db p).internal (t.next db p).scaler ∧
      (t.next db p).internal = t.internal +
        BitVec.ofInt 32
          (increment numerator denominator scaled (p.timestamp - t.external).toInt) := by
  have hkeep : ratioOf numerator denominator (scaled || db.setsRatio p.payloadType) = (1, 1) →
      ratioOf numerator denominator scaled = (1, 1) := by
    cases scaled with
    | true => exact fun heq => heq
    | false => exact fun _ => rfl
  have hdiff : t.external + BitVec.ofInt 32 (p.timestamp - t.external).toInt = p.timestamp := by
    rw [BitVec.ofInt_toInt]
    grind
  obtain ⟨hscales, hvalue⟩ := toInternal_scales hmix hinfo h.ratio
    (fun heq => (h.identity (hkeep heq)).2) p.timestamp
  refine ⟨hscales, ?_⟩
  show (t.scaler.toInternal db p.timestamp p.payloadType).1 = _
  by_cases hidentity : ratioOf numerator denominator scaled = (1, 1)
  · -- So far timestamps have not been changed, and this one is not either.
    obtain ⟨hinternal, hfirst⟩ := h.identity hidentity
    have hincrement : increment numerator denominator scaled (p.timestamp - t.external).toInt =
        (p.timestamp - t.external).toInt := by
      unfold increment
      cases scaled with
      | true =>
        obtain ⟨hn, hd⟩ := Prod.mk.inj hidentity
        rw [if_pos rfl, hn, hd]
        exact scale_one _
      | false => rfl
    rw [hincrement, hinternal, hdiff]
    by_cases hnext : ratioOf numerator denominator (scaled || db.setsRatio p.payloadType) = (1, 1)
    · exact (hscales.identity hnext).1
    · rw [hvalue hnext, hfirst, if_neg Bool.false_ne_true]
  · obtain ⟨hfirst, hexternal, hinternal⟩ := h.refs hidentity
    have hscaled : scaled = true := by
      cases scaled with
      | true => rfl
      | false => exact absurd rfl hidentity
    rw [hvalue (mt hkeep hidentity), hfirst, if_pos rfl, hexternal, hinternal, hscaled]
    rfl

theorem Tracks.next (hmix : db.Mix numerator denominator) {t : Trace} {p : Stamp}
    {info : DecoderInfo} (hinfo : db.decoders p.payloadType = some info) {scaled : Bool}
    {error : Int} (h : Tracks numerator denominator scaled error t) :
    Tracks numerator denominator (scaled || db.setsRatio p.payloadType)
      (error + roundingError numerator denominator scaled (p.timestamp - t.external).toInt)
      (t.next db p) := by
  obtain ⟨internalDifference, hinternal, herror⟩ := h.sum
  obtain ⟨hscales, hnext⟩ := next_internal hmix hinfo h.scales
  refine ⟨hscales, internalDifference +
    increment numerator denominator scaled (p.timestamp - t.external).toInt, ?_, ?_⟩
  · rw [BitVec.ofInt_add, hinternal, hnext]
    show _ = t.internal + _ - t.firstInternal
    grind
  · rw [roundingError_eq hmix, ← herror]
    show _ - numerator * (t.difference + (p.timestamp - t.external).toInt) = _
    ring

theorem ofInt_eq_iff (x y : Int) :
    BitVec.ofInt 32 x = BitVec.ofInt 32 y ↔ ∃ k : Int, x = y + k * 2 ^ 32 := by
  rw [← BitVec.toInt_inj, BitVec.toInt_ofInt, BitVec.toInt_ofInt,
    Int.bmod_eq_bmod_iff_bmod_sub_eq_zero, ← Int.dvd_iff_bmod_eq_zero]
  constructor
  · rintro ⟨k, hk⟩
    exact ⟨k, by omega⟩
  · rintro ⟨k, hk⟩
    exact ⟨k, by omega⟩

/-- An internal difference is known up to the range of timestamps. -/
theorem Tracks.accurate_iff_error {scaled : Bool} {error : Int} {t : Trace}
    (h : Tracks numerator denominator scaled error t) :
    t.Accurate numerator denominator ↔
      ∃ k : Int, |error + k * (denominator * 2 ^ 32)| ≤ denominator := by
  obtain ⟨internalDifference, hinternal, herror⟩ := h.sum
  unfold Trace.Accurate
  rw [and_iff_left h.scales.toExternal, ← hinternal, ← herror]
  constructor
  · rintro ⟨other, hother, hclose⟩
    obtain ⟨k, hk⟩ := (ofInt_eq_iff other internalDifference).mp hother
    refine ⟨k, ?_⟩
    rw [hk] at hclose
    convert hclose using 2
    ring
  · rintro ⟨k, hclose⟩
    refine ⟨internalDifference + k * 2 ^ 32, (ofInt_eq_iff _ _).mpr ⟨k, rfl⟩, ?_⟩
    convert hclose using 2
    ring

theorem Tracks.always_iff (hmix : db.Mix numerator denominator) {packets : List Stamp}
    (hregistered : ∀ p ∈ packets, (db.decoders p.payloadType).isSome) {scaled : Bool}
    {error : Int} {t : Trace} (h : Tracks numerator denominator scaled error t)
    (hstart : ∃ k : Int, |error + k * (denominator * 2 ^ 32)| ≤ denominator) :
    Machine.Always (Trace.next db) (Trace.Accurate numerator denominator) t packets ↔
      RoundsWell db numerator denominator scaled t.external error packets := by
  induction packets generalizing scaled error t with
  | nil => exact iff_of_true (h.accurate_iff_error.mpr hstart) trivial
  | cons p packets ih =>
    obtain ⟨info, hinfo⟩ := Option.isSome_iff_exists.mp (hregistered p List.mem_cons_self)
    have hnext := h.next hmix hinfo
    have hrest := fun hnear => ih (fun q hq => hregistered q (List.mem_cons_of_mem _ hq)) hnext hnear
    constructor
    · intro halways
      have hnear := hnext.accurate_iff_error.mp halways.2.start
      exact ⟨hnear, (hrest hnear).mp halways.2⟩
    · intro hwell
      exact ⟨h.accurate_iff_error.mpr hstart, (hrest hwell.1).mpr hwell.2⟩

/-- In every run of registered codecs with one ratio, every internal timestamp is
accurate and scaled back to its external one if and only if the errors stay small. -/
theorem accurate_iff (db : DecoderDatabase) (numerator denominator : Int)
    (hmix : db.Mix numerator denominator) (s : TimestampScaler)
    (hfresh : s.Fresh numerator denominator) (first : Stamp) (packets : List Stamp)
    (hregistered : ∀ p ∈ first :: packets, (db.decoders p.payloadType).isSome) :
    Machine.Always (Trace.next db) (Trace.Accurate numerator denominator)
        (Trace.start db s first) packets ↔
      RoundsWell db numerator denominator
        (decide (s.numerator = numerator ∧ s.denominator = denominator) ||
          db.setsRatio first.payloadType) first.timestamp 0 packets := by
  obtain ⟨info, hinfo⟩ := Option.isSome_iff_exists.mp (hregistered first List.mem_cons_self)
  have hratio : (s.numerator, s.denominator) = ratioOf numerator denominator
      (decide (s.numerator = numerator ∧ s.denominator = denominator)) := by
    unfold ratioOf
    by_cases hsame : s.numerator = numerator ∧ s.denominator = denominator
    · rw [if_pos (decide_eq_true hsame), hsame.1, hsame.2]
    · obtain ⟨hn, hd⟩ := hfresh.ratio.resolve_right hsame
      rw [if_neg (by rw [decide_eq_false hsame]; decide), hn, hd]
  obtain ⟨hscales, -⟩ := toInternal_scales hmix hinfo hratio (fun _ => hfresh.first)
    first.timestamp
  have hdenominator := hmix.denominator_pos
  refine Tracks.always_iff (t := Trace.start db s first) hmix
    (fun p hp => hregistered p (List.mem_cons_of_mem _ hp)) ⟨hscales, 0, ?_, ?_⟩ ⟨0, ?_⟩
  · exact (BitVec.sub_self _).symm
  · show denominator * 0 - numerator * 0 = 0
    ring
  · rw [Int.zero_mul, Int.add_zero, abs_zero]
    exact le_of_lt hdenominator

/-- A database with one codec under one payload type. -/
def registered (payloadType : Byte) (codecType : NetEqDecoder) : DecoderDatabase where
  decoders := fun other =>
    if other = payloadType then some ⟨codecType, codecSampleRateHz codecType, none, false⟩
    else none

theorem registered_mix (payloadType : Byte) {codecType : NetEqDecoder} {ratio : Int × Int}
    (h : scaling codecType = some ratio) : (registered payloadType codecType).Mix ratio.1 ratio.2 where
  some := ⟨payloadType, _, if_pos rfl, h⟩
  same := by
    intro other info ratio' hinfo hratio'
    unfold registered at hinfo
    dsimp only at hinfo
    split at hinfo
    · cases hinfo
      exact Option.some.inj (hratio'.symm.trans h)
    · cases hinfo

/-- Opus frames of 20 ms. -/
theorem accurate_frames : Machine.Always (Trace.next (registered 111 .kDecoderOpus))
    (Trace.Accurate 2 3) (Trace.start (registered 111 .kDecoderOpus) {} ⟨0, 111⟩)
    [⟨960, 111⟩, ⟨1920, 111⟩] :=
  (accurate_iff (registered 111 .kDecoderOpus) 2 3 (@registered_mix 111 _ (2, 3) rfl) {}
    ⟨rfl, .inl ⟨rfl, rfl⟩⟩ ⟨0, 111⟩ [⟨960, 111⟩, ⟨1920, 111⟩] (by decide)).mpr
    ⟨⟨0, by decide⟩, ⟨0, by decide⟩, trivial⟩

/-- Opus timestamps that advance by one unit, which is always rounded down. -/
theorem not_accurate : ¬ ∀ (db : DecoderDatabase) (numerator denominator : Int),
    db.Mix numerator denominator → ∀ s : TimestampScaler, s.Fresh numerator denominator →
    ∀ (first : Stamp) (packets : List Stamp),
      (∀ p ∈ first :: packets, (db.decoders p.payloadType).isSome) →
      Machine.Always (Trace.next db) (Trace.Accurate numerator denominator)
        (Trace.start db s first) packets := by
  intro h
  have halways := h (registered 111 .kDecoderOpus) 2 3 (@registered_mix 111 _ (2, 3) rfl) {}
    ⟨rfl, .inl ⟨rfl, rfl⟩⟩ ⟨0, 111⟩ [⟨1, 111⟩, ⟨2, 111⟩] (by decide)
  obtain ⟨internalDifference, hzero, hclose⟩ := halways.2.2.1
  obtain ⟨k, hk⟩ := (ofInt_eq_iff internalDifference 0).mp hzero
  have hdifference : |3 * internalDifference - 2 * 2| ≤ 3 := hclose
  rw [abs_le] at hdifference
  omega

end Errors

end PerchWebrtc.NetEq
