import PerchWebrtc.Stun.Framing

/-!
# Verifying STUN messages

`ValidateMessageIntegrity` and `ValidateFingerprint` (`stun.cc`), on the bytes of
a message at address 0 of a memory. Each returns the addresses it reads next to
its result. HMAC-SHA1 and CRC-32 are parameters.

* `findMessageIntegrity_spec`: the walk ends, inside the message, at the first
  header of a MESSAGE-INTEGRITY;
* `verification_inside_iff`: when what is read is inside the message.
-/

namespace PerchWebrtc.Stun

def STUN_FINGERPRINT_XOR_VALUE : U32 := 0x5354554E

/-- What the walk to the MESSAGE-INTEGRITY ends with; `outOfFuel` stands for a
walk that has not ended. -/
inductive Search where
  | found (currentPos : Nat)
  | rejected
  | absent
  | outOfFuel
  deriving DecidableEq

/-- The `while` loop of `ValidateMessageIntegrity`. The first argument bounds it. -/
def findMessageIntegrity (m : Mem) (size : Nat) : Nat → Nat → Search × List Nat
  | 0, _ => (.outOfFuel, [])
  | fuel + 1, currentPos =>
    if currentPos < size then
      let attrType := be16 m currentPos
      let attrLength := be16 m (currentPos + 2)
      let reads := addrs currentPos 2 ++ addrs (currentPos + 2) 2
      if attrType = STUN_ATTR_MESSAGE_INTEGRITY then
        if attrLength.toNat ≠ kStunMessageIntegritySize ∨ currentPos + attrLength.toNat > size then
          (.rejected, reads)
        else (.found currentPos, reads)
      else
        let nextPos := currentPos + (2 + 2 + attrLength.toNat)
        let nextPos :=
          if attrLength.toNat % 4 ≠ 0 then nextPos + (4 - attrLength.toNat % 4) else nextPos
        let r := findMessageIntegrity m size fuel nextPos
        (r.1, reads ++ r.2)
    else (.absent, [])

/-- The part of the message before the attribute, with the length it would have
if it ended after the attribute. -/
def messageForHmac (m : Mem) (size miPos : Nat) : Mem :=
  if size > miPos + kStunAttributeHeaderSize + kStunMessageIntegritySize then
    let extraOffset := size - (miPos + kStunAttributeHeaderSize + kStunMessageIntegritySize)
    let newAdjustedLen := size - extraOffset - kStunHeaderSize
    set16 m 2 (BitVec.ofNat 16 newAdjustedLen)
  else m

/-- `ValidateMessageIntegrity`; `none` if the walk does not end. -/
def validateMessageIntegrity (hmac : List Byte → List Byte → List.Vector Byte 20) (m : Mem)
    (size : Nat) (password : List Byte) : Option Bool × List Nat :=
  if size % 4 ≠ 0 then (some false, [])
  else
    let msgLength := be16 m 2
    let reads := addrs 2 2
    if size ≠ msgLength.toNat + kStunHeaderSize then (some false, reads)
    else
      let search := findMessageIntegrity m size (size + 1) kStunHeaderSize
      let reads := reads ++ search.2
      match search.1 with
      | .outOfFuel => (none, reads)
      | .absent => (some false, reads)
      | .rejected => (some false, reads)
      | .found miPos =>
        let tempData := (messageForHmac m size miPos).bytes 0 miPos
        (some (decide (m.bytes (miPos + kStunAttributeHeaderSize) kStunMessageIntegritySize =
            (hmac password tempData).toList)),
          reads ++ addrs 0 miPos ++
            addrs (miPos + kStunAttributeHeaderSize) kStunMessageIntegritySize)

/-- `ValidateFingerprint`. -/
def validateFingerprint (crc32 : List Byte → U32) (m : Mem) (size : Nat) : Bool × List Nat :=
  let fingerprintAttrSize := kStunAttributeHeaderSize + 4
  if size % 4 ≠ 0 ∨ size < kStunHeaderSize + fingerprintAttrSize then (false, [])
  else
    let magicCookie := kStunTransactionIdOffset - kStunMagicCookieLength
    let reads := addrs magicCookie 4
    if be32 m magicCookie ≠ kStunMagicCookie then (false, reads)
    else
      let fingerprintAttrData := size - fingerprintAttrSize
      let reads := reads ++ addrs fingerprintAttrData 2
      if be16 m fingerprintAttrData ≠ STUN_ATTR_FINGERPRINT then (false, reads)
      else
        let reads := reads ++ addrs (fingerprintAttrData + 2) 2
        if be16 m (fingerprintAttrData + 2) ≠ 4 then (false, reads)
        else
          let fingerprint := be32 m (fingerprintAttrData + kStunAttributeHeaderSize)
          let reads := reads ++ addrs (fingerprintAttrData + kStunAttributeHeaderSize) 4 ++
            addrs 0 (size - fingerprintAttrSize)
          (decide (fingerprint ^^^ STUN_FINGERPRINT_XOR_VALUE =
            crc32 (m.bytes 0 (size - fingerprintAttrSize))), reads)

/-! ## The walk -/

section Walk

variable {m : Mem} {size pos : Nat}

/-- The walk goes on at headers of other attributes. -/
def SkipsHeader (m : Mem) (size p : Nat) : Prop :=
  p < size ∧ attrTypeAt m p ≠ STUN_ATTR_MESSAGE_INTEGRITY

/-- A header at which the walk finds the attribute. -/
structure IsIntegrity (m : Mem) (size p : Nat) : Prop where
  type : attrTypeAt m p = STUN_ATTR_MESSAGE_INTEGRITY
  length : attrLengthAt m p = 20
  fits : p + 20 ≤ size

theorem nextHeader_mod (h : pos % 4 = 0) : nextHeader m pos % 4 = 0 := by
  unfold nextHeader roundUp paddingLength
  split <;> omega

theorem Walk.mod {goesOn : Nat → Prop} {start : Nat} (h : Walk m goesOn start pos)
    (hstart : start % 4 = 0) : pos % 4 = 0 := by
  induction h with
  | start => exact hstart
  | next _ _ ih => exact nextHeader_mod ih

/-- A turn of the walk at a header of another attribute. -/
theorem findMessageIntegrity_skip (fuel : Nat) (h : SkipsHeader m size pos) :
    findMessageIntegrity m size (fuel + 1) pos =
      ((findMessageIntegrity m size fuel (nextHeader m pos)).1,
        addrs pos 2 ++ addrs (pos + 2) 2 ++
          (findMessageIntegrity m size fuel (nextHeader m pos)).2) := by
  have hnext : (if (be16 m (pos + 2)).toNat % 4 ≠ 0 then
      pos + (2 + 2 + (be16 m (pos + 2)).toNat) + (4 - (be16 m (pos + 2)).toNat % 4)
      else pos + (2 + 2 + (be16 m (pos + 2)).toNat)) = nextHeader m pos := by
    unfold nextHeader roundUp paddingLength attrLengthAt
    split <;> omega
  rw [findMessageIntegrity, if_pos h.1]
  dsimp only
  rw [if_neg (show ¬ be16 m pos = STUN_ATTR_MESSAGE_INTEGRITY from h.2), hnext]

/-- The walk ends, reads headers of the message only, and finds the first
MESSAGE-INTEGRITY if that has 20 bytes. -/
theorem findMessageIntegrity_spec (hsize : size % 4 = 0) {fuel : Nat} (hpos : pos % 4 = 0)
    (hfuel : size - pos < fuel) :
    (findMessageIntegrity m size fuel pos).1 ≠ .outOfFuel ∧
      (∀ a ∈ (findMessageIntegrity m size fuel pos).2, a < size) ∧
      ∀ q, (findMessageIntegrity m size fuel pos).1 = .found q ↔
        Walk m (SkipsHeader m size) pos q ∧ q < size ∧ IsIntegrity m size q := by
  induction fuel generalizing pos with
  | zero => exact absurd hfuel (Nat.not_lt_zero _)
  | succ fuel ih =>
    by_cases hlt : pos < size
    · have hheader : ∀ a ∈ addrs pos 2 ++ addrs (pos + 2) 2, a < size := by
        intro a ha
        rcases List.mem_append.mp ha with hin | hin
        · have hbounds := mem_addrs.mp hin
          omega
        · have hbounds := mem_addrs.mp hin
          omega
      by_cases htype : attrTypeAt m pos = STUN_ATTR_MESSAGE_INTEGRITY
      · -- the walk stops here, whatever the length
        have honly : ∀ q, Walk m (SkipsHeader m size) pos q → q = pos := by
          intro q hwalk
          rcases walk_iff.mp hwalk with heq | ⟨hskip, -⟩
          · exact heq
          · exact absurd htype hskip.2
        rw [findMessageIntegrity, if_pos hlt]
        dsimp only
        rw [if_pos (show be16 m pos = STUN_ATTR_MESSAGE_INTEGRITY from htype)]
        by_cases hrejected : (be16 m (pos + 2)).toNat ≠ kStunMessageIntegritySize ∨
            pos + (be16 m (pos + 2)).toNat > size
        · rw [if_pos hrejected]
          refine ⟨fun h => (by cases h), hheader, fun q => ⟨fun h => (by cases h), ?_⟩⟩
          rintro ⟨hwalk, -, hintegrity⟩
          have hlength := congrArg BitVec.toNat hintegrity.length
          have hfits := hintegrity.fits
          rw [honly q hwalk] at hlength hfits
          have htwenty : (20 : U16).toNat = 20 := rfl
          unfold attrLengthAt kStunMessageIntegritySize at *
          omega
        · rw [if_neg hrejected]
          obtain ⟨hlength, hfits⟩ := not_or.mp hrejected
          have hsize20 : (be16 m (pos + 2)).toNat = 20 := not_not.mp hlength
          refine ⟨fun h => (by cases h), hheader, fun q => ⟨fun h => ?_, fun h => ?_⟩⟩
          · cases h
            exact ⟨Walk.start, hlt, htype, BitVec.eq_of_toNat_eq hsize20, by omega⟩
          · rw [honly q h.1]
      · have hskip : SkipsHeader m size pos := ⟨hlt, htype⟩
        have hadvance : pos + 4 ≤ nextHeader m pos := by
          unfold nextHeader
          omega
        have hmod : nextHeader m pos % 4 = 0 := nextHeader_mod hpos
        obtain ⟨hends, hreads, hfound⟩ := ih hmod (by omega)
        rw [findMessageIntegrity_skip fuel hskip]
        refine ⟨hends, fun a ha => ?_, fun q => (hfound q).trans ⟨?_, ?_⟩⟩
        · rcases List.mem_append.mp ha with hin | hin
          · exact hheader a hin
          · exact hreads a hin
        · rintro ⟨hwalk, hq⟩
          exact ⟨walk_iff.mpr (Or.inr ⟨hskip, hwalk⟩), hq⟩
        · rintro ⟨hwalk, hq, hintegrity⟩
          rcases walk_iff.mp hwalk with rfl | ⟨-, hrest⟩
          · exact absurd hintegrity.type htype
          · exact ⟨hrest, hq, hintegrity⟩
    · rw [findMessageIntegrity, if_neg hlt]
      refine ⟨fun h => (by cases h), fun a ha => absurd ha List.not_mem_nil, fun q =>
        ⟨fun h => (by cases h), ?_⟩⟩
      rintro ⟨hwalk, hq, -⟩
      have hle := hwalk.le
      omega

end Walk

/-! ## What is read -/

/-- The message has a MESSAGE-INTEGRITY of 20 bytes as its first, whose value
ends 4 bytes behind the message. -/
def EndsInIntegrity (m : Mem) (size : Nat) : Prop :=
  size % 4 = 0 ∧ size = (be16 m 2).toNat + kStunHeaderSize ∧
    ∃ p, Walk m (SkipsHeader m size) kStunHeaderSize p ∧
      attrTypeAt m p = STUN_ATTR_MESSAGE_INTEGRITY ∧ attrLengthAt m p = 20 ∧ p + 20 = size

/-- The walk of `ValidateMessageIntegrity` ends. -/
theorem validateMessageIntegrity_reads
    (hmac : List Byte → List Byte → List.Vector Byte 20) (m : Mem) (size : Nat)
    (password : List Byte) :
    (validateMessageIntegrity hmac m size password).1 ≠ none ∧
      ((∀ a ∈ (validateMessageIntegrity hmac m size password).2, a < size) ↔
        size ≠ 0 ∧ ¬ EndsInIntegrity m size) := by
  unfold validateMessageIntegrity
  by_cases hmod : size % 4 ≠ 0
  · rw [if_pos hmod]
    refine ⟨fun h => (by cases h), iff_of_true (fun a ha => absurd ha List.not_mem_nil) ⟨?_, ?_⟩⟩
    · rintro rfl
      exact hmod rfl
    · exact fun hends => hmod hends.1
  have hmod' : size % 4 = 0 := not_not.mp hmod
  rw [if_neg hmod]
  dsimp only
  have hlengthReads : (∀ a ∈ addrs 2 2, a < size) ↔ size ≠ 0 := by
    constructor
    · rintro hall rfl
      exact Nat.not_lt_zero _ (hall 2 (mem_addrs.mpr (by omega)))
    · intro hne a ha
      have hbounds := mem_addrs.mp ha
      omega
  by_cases hlength : size ≠ (be16 m 2).toNat + kStunHeaderSize
  · rw [if_pos hlength]
    refine ⟨fun h => (by cases h), hlengthReads.trans ⟨fun hne => ⟨hne, ?_⟩, And.left⟩⟩
    exact fun hends => hlength hends.2.1
  have hsize : size = (be16 m 2).toNat + kStunHeaderSize := not_not.mp hlength
  have hne : size ≠ 0 := by
    unfold kStunHeaderSize at hsize
    omega
  rw [if_neg hlength]
  obtain ⟨hends, hreads, hfound⟩ := findMessageIntegrity_spec (m := m) hmod'
    (show kStunHeaderSize % 4 = 0 from rfl) (show size - kStunHeaderSize < size + 1 by omega)
  generalize findMessageIntegrity m size (size + 1) kStunHeaderSize = search at *
  obtain ⟨result, reads⟩ := search
  dsimp only at *
  have hread : ∀ a ∈ addrs 2 2 ++ reads, a < size := by
    intro a ha
    rcases List.mem_append.mp ha with hin | hin
    · exact hlengthReads.mpr hne a hin
    · exact hreads a hin
  -- a MESSAGE-INTEGRITY at the end would have been found
  have hlast : EndsInIntegrity m size → result = .found (size - 20) := by
    rintro ⟨-, -, p, hwalk, htype, hlen, hp⟩
    refine (hfound (size - 20)).mpr ?_
    have hpos : size - 20 = p := by omega
    rw [hpos]
    exact ⟨hwalk, by omega, htype, hlen, by omega⟩
  cases result with
  | outOfFuel => exact absurd rfl hends
  | absent =>
    exact ⟨fun h => (by cases h), iff_of_true hread ⟨hne, fun h => (by cases hlast h)⟩⟩
  | rejected =>
    exact ⟨fun h => (by cases h), iff_of_true hread ⟨hne, fun h => (by cases hlast h)⟩⟩
  | found miPos =>
    refine ⟨fun h => (by cases h), ?_⟩
    obtain ⟨hwalk, hlt, htype, hlen, hfits⟩ := (hfound miPos).mp rfl
    have hiff : EndsInIntegrity m size ↔ miPos + 20 = size := by
      constructor
      · intro h
        have hpos := Search.found.inj (hlast h)
        obtain ⟨-, -, p, -, -, -, hp⟩ := h
        omega
      · exact fun hend => ⟨hmod', hsize, miPos, hwalk, htype, hlen, hend⟩
    have hpos4 : miPos % 4 = 0 := hwalk.mod rfl
    rw [hiff, and_iff_right hne]
    constructor
    · intro hall hend
      have hlastRead := hall (miPos + 23) (List.mem_append_right _ (mem_addrs.mpr (by
        unfold kStunAttributeHeaderSize kStunMessageIntegritySize
        omega)))
      omega
    · intro hend a ha
      rcases List.mem_append.mp ha with hin | hin
      · rcases List.mem_append.mp hin with hin' | hin'
        · exact hread a hin'
        · have hbounds := mem_addrs.mp hin'
          omega
      · have hbounds := mem_addrs.mp hin
        unfold kStunAttributeHeaderSize kStunMessageIntegritySize at hbounds
        omega

theorem validateFingerprint_inside (crc32 : List Byte → U32) (m : Mem) (size : Nat) :
    ∀ a ∈ (validateFingerprint crc32 m size).2, a < size := by
  have hblock : ∀ p n, p + n ≤ size → ∀ a ∈ addrs p n, a < size := by
    intro p n hle a ha
    have hbounds := mem_addrs.mp ha
    omega
  unfold validateFingerprint kStunHeaderSize kStunAttributeHeaderSize kStunTransactionIdOffset
    kStunMagicCookieLength
  dsimp only
  split
  · exact fun a ha => absurd ha List.not_mem_nil
  · rename_i hsize
    obtain ⟨-, hmin⟩ := not_or.mp hsize
    have hcookie := hblock 4 4 (by omega)
    have htype := hblock (size - 8) 2 (by omega)
    have hlength := hblock (size - 8 + 2) 2 (by omega)
    have hvalue := hblock (size - 8 + 4) 4 (by omega)
    have hall := hblock 0 (size - 8) (by omega)
    intro a ha
    split at ha
    · exact hcookie a ha
    · split at ha
      · exact (List.mem_append.mp ha).elim (hcookie a) (htype a)
      · split at ha
        · rcases List.mem_append.mp ha with ha | ha
          · exact (List.mem_append.mp ha).elim (hcookie a) (htype a)
          · exact hlength a ha
        · rcases List.mem_append.mp ha with ha | ha
          · rcases List.mem_append.mp ha with ha | ha
            · rcases List.mem_append.mp ha with ha | ha
              · exact (List.mem_append.mp ha).elim (hcookie a) (htype a)
              · exact hlength a ha
            · exact hvalue a ha
          · exact hall a ha

/-- The walk of `ValidateMessageIntegrity` ends, `ValidateFingerprint` reads
inside the message, and `ValidateMessageIntegrity` does exactly if there is a
message, and not one that the bound check lets through without room for the
header of the attribute. -/
theorem verification_inside_iff (hmac : List Byte → List Byte → List.Vector Byte 20)
    (crc32 : List Byte → U32) (m : Mem) (size : Nat) (password : List Byte) :
    (validateMessageIntegrity hmac m size password).1 ≠ none ∧
      (∀ a ∈ (validateFingerprint crc32 m size).2, a < size) ∧
      ((∀ a ∈ (validateMessageIntegrity hmac m size password).2, a < size) ↔
        size ≠ 0 ∧ ¬ EndsInIntegrity m size) :=
  ⟨(validateMessageIntegrity_reads hmac m size password).1,
    validateFingerprint_inside crc32 m size,
    (validateMessageIntegrity_reads hmac m size password).2⟩

/-- An empty message is read, and so are the four bytes behind a message of 40
bytes whose MESSAGE-INTEGRITY has its header inside. -/
theorem not_verification_inside :
    2 ∈ (validateMessageIntegrity (fun _ _ => List.Vector.replicate 20 0) (Mem.ofList []) 0 []).2 ∧
    43 ∈ (validateMessageIntegrity (fun _ _ => List.Vector.replicate 20 0)
      (Mem.ofList (bytes16 0x0001 ++ bytes16 20 ++ bytes32 kStunMagicCookie ++ List.replicate 12 7 ++
        bytes16 STUN_ATTR_MESSAGE_INTEGRITY ++ bytes16 20 ++ List.replicate 16 0)) 40 []).2 := by
  decide +kernel

end PerchWebrtc.Stun
