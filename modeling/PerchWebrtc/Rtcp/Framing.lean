import Mathlib
import PerchWebrtc.Rtcp.Runs

/-!
# Framing of the top-level blocks

A run of the parser, `Begin` and then `Iterate` until no packet is returned,
parses common headers at the positions `visited` from the start of the buffer
(`parseAll_headers`), and it ends (`parseAll_ends`). Each of them is the start
of the buffer or the end of the previous block, exactly if every block is well
framed: its length does not wrap around in `LengthInOctets`, a PLI or SR-REQ
has no FCI, and VoIP metrics fill their block (`framed_iff`).
-/

namespace PerchWebrtc.Rtcp

namespace RTCPParserV2

section Framed

variable (m : Mem) (dataEnd : Nat)

/-- The length of the block at `pos`, as its length field gives it. -/
def blockLength (pos : Nat) : Nat := 4 * ((be16 m (pos + 2)).toNat + 1)

/-- Every position is the start of the buffer or the end of the block at the
one before. -/
def Framed (positions : List Nat) : Prop :=
  (∀ pos ∈ positions.head?, pos = 0) ∧
    positions.IsChain fun pos next => next = 0 ∨ next = pos + blockLength m pos

/-- The top-level blocks of the buffer from `pos` on, up to one that is not
accepted or ends the run. The first argument bounds them. -/
def topLevelBlocksFrom : Nat → Nat → List Nat
  | 0, _ => []
  | fuel + 1, pos =>
    match rtcpParseCommonHeader m pos dataEnd with
    | none => []
    | some header =>
      if pos + header.LengthInOctets.toNat > dataEnd ∨ EndsRun header then []
      else pos :: topLevelBlocksFrom fuel (pos + blockLength m pos)

def topLevelBlocks : List Nat := topLevelBlocksFrom m dataEnd (dataEnd + 1) 0

/-- The block at `pos` has a length below 2^16, no FCI if it is a PLI or an
SR-REQ, and VoIP metrics only if they fill it, or do not fit in it. -/
def WellFramed (pos : Nat) : Prop :=
  match rtcpParseCommonHeader m pos dataEnd with
  | none => True
  | some header =>
    blockLength m pos < 2 ^ 16 ∧ (IsEmptyFeedback header → blockLength m pos ≤ 12) ∧
      (header.PT = PT_XR → IsVoipMetric m pos → blockLength m pos < 40 ∨ blockLength m pos = 44)

instance (pos : Nat) : Decidable (WellFramed m dataEnd pos) :=
  match h : rtcpParseCommonHeader m pos dataEnd with
  | none => isTrue (by rw [WellFramed, h]; trivial)
  | some header => decidable_of_iff
      (blockLength m pos < 2 ^ 16 ∧ (IsEmptyFeedback header → blockLength m pos ≤ 12) ∧
        (header.PT = PT_XR → IsVoipMetric m pos → blockLength m pos < 40 ∨ blockLength m pos = 44))
      (by rw [WellFramed, h])

/-- Iterating until no packet is returned, `n` times at most. -/
def run : Nat → RTCPParserV2 → RTCPParserV2
  | 0, p => p
  | n + 1, p =>
    if p.packetType = .kRtcpNotValidCode then p else run n (iterate m dataEnd p)

/-- A run over the buffer. -/
def parseAll (rtcpReducedSizeEnable : Bool) (n : Nat) : RTCPParserV2 :=
  run m dataEnd n (begin m dataEnd (new m dataEnd rtcpReducedSizeEnable))

end Framed

variable {m : Mem} {dataEnd : Nat} {rtcpReducedSizeEnable : Bool}

/-- The parser goes on behind a block exactly if it is well framed. -/
theorem nextPos_eq_iff {pos : Nat} {header : RTCPCommonHeader}
    (h : rtcpParseCommonHeader m pos dataEnd = some header) :
    nextPos m pos header = pos + blockLength m pos ↔ WellFramed m dataEnd pos := by
  obtain ⟨-, hPT, -, hlen, -, h4⟩ := header_some h
  have hmod : header.LengthInOctets.toNat = blockLength m pos % 2 ^ 16 := by
    rw [hlen, blockLength, BitVec.toNat_mul, BitVec.toNat_add, show (4 : BitVec 16).toNat = 4 from rfl,
      show (1 : BitVec 16).toNat = 1 from rfl]
    omega
  have hle : header.LengthInOctets.toNat ≤ blockLength m pos := hmod ▸ Nat.mod_le _ _
  have hexcl : header.PT = PT_XR → ¬ IsEmptyFeedback header := fun hx =>
    not_isEmptyFeedback (by rw [hx]; decide) (by rw [hx]; decide)
  rw [WellFramed, h]
  dsimp only
  rw [nextPos]
  split
  · rename_i hempty
    simp only [hempty.1, true_implies]
    constructor
    · intro heq
      exact ⟨by omega, by omega, fun hx => absurd hempty.1 (hexcl hx)⟩
    · rintro ⟨hlt, hle12, -⟩
      rw [Nat.mod_eq_of_lt hlt] at hmod
      omega
  rename_i hempty
  split
  · rename_i hvoip
    simp only [hvoip.1, hvoip.2.1, true_implies]
    constructor
    · intro heq
      exact ⟨by omega, fun he => absurd he (hexcl hvoip.1), by omega⟩
    · rintro ⟨hlt, -, hfill⟩
      rw [Nat.mod_eq_of_lt hlt] at hmod
      omega
  · rename_i hvoip
    constructor
    · intro heq
      refine ⟨by omega, fun he => ?_, fun hx hv => ?_⟩
      · have : ¬ 12 ≤ header.LengthInOctets.toNat := fun h12 => hempty ⟨he, h12⟩
        omega
      · have : ¬ 40 ≤ header.LengthInOctets.toNat := fun h40 => hvoip ⟨hx, hv, h40⟩
        omega
    · rintro ⟨hlt, -, -⟩
      rw [Nat.mod_eq_of_lt hlt] at hmod
      rw [hmod]

theorem head?_visitedFrom {fuel pos : Nat} (h : 0 < fuel) :
    (visitedFrom m dataEnd fuel pos).head? = some pos := by
  cases fuel with
  | zero => omega
  | succ fuel => rfl

/-- The positions visited are the ends of the blocks exactly if these are well
framed, by induction on the blocks. -/
theorem isChain_visitedFrom_iff :
    ∀ {fuel pos : Nat}, dataEnd - pos < fuel →
      ((visitedFrom m dataEnd fuel pos).IsChain
          (fun pos next => next = 0 ∨ next = pos + blockLength m pos) ↔
        ∀ q ∈ topLevelBlocksFrom m dataEnd fuel pos, WellFramed m dataEnd q)
  | 0, _, h => absurd h (Nat.not_lt_zero _)
  | fuel + 1, pos, hfuel => by
    rw [visitedFrom, topLevelBlocksFrom]
    cases hh : rtcpParseCommonHeader m pos dataEnd with
    | none => simp
    | some header =>
      obtain ⟨hroom, -, -, -, hlen, -⟩ := header_some hh
      have hnext := @lt_nextPos m pos header hlen
      dsimp only
      split
      · simp
      rw [List.isChain_cons, head?_visitedFrom (by omega), List.forall_mem_cons,
        ← nextPos_eq_iff hh]
      have hne : nextPos m pos header ≠ 0 := by omega
      simp only [Option.mem_def, Option.some.injEq, forall_eq', hne, false_or]
      refine and_congr_right fun heq => ?_
      rw [heq, isChain_visitedFrom_iff (by omega)]

/-! ## Runs -/

theorem run_succ (n : Nat) (p : RTCPParserV2) : run m dataEnd (n + 1) p =
    if p.packetType = .kRtcpNotValidCode then p else run m dataEnd n (iterate m dataEnd p) := rfl

/-- The positions logged, with those to come, stay the same over a run. -/
theorem run_log : ∀ (n : Nat) {p : RTCPParserV2}, Reachable dataEnd p → p.validPacket = true →
    (run m dataEnd n p).headers ++ rest m dataEnd (run m dataEnd n p) =
      p.headers ++ rest m dataEnd p
  | 0, _, _, _ => rfl
  | n + 1, p, hp, hvalid => by
    rw [run_succ]
    split
    · rfl
    · rename_i hty
      have h := @iterate_spec m _ _ hp hvalid
      rw [run_log n h.reachable (h.valid.trans hvalid), h.log, rest, if_neg hty]

/-- Every packet moves the read pointer, which stays in the buffer or passes
it by four bytes, so a run ends. -/
theorem run_ends : ∀ (n : Nat) {p : RTCPParserV2}, Reachable dataEnd p → p.validPacket = true →
    p.ptrRTCPData ≤ dataEnd + 4 → dataEnd + 4 - p.ptrRTCPData < n →
    (run m dataEnd n p).packetType = .kRtcpNotValidCode
  | 0, _, _, _, _, h => absurd h (Nat.not_lt_zero _)
  | n + 1, p, hp, hvalid, hle, hn => by
    rw [run_succ]
    split
    · assumption
    have h := @iterate_spec m _ _ hp hvalid
    by_cases hty : (iterate m dataEnd p).packetType = .kRtcpNotValidCode
    · cases n with
      | zero => exact hty
      | succ n =>
        rw [run_succ, if_pos hty]
        exact hty
    · have hmoved := h.progress hty
      exact run_ends n h.reachable (h.valid.trans hvalid) hmoved.2 (by omega)

/-- The state `Begin` iterates from. -/
theorem begin_spec (hvalid : validate m dataEnd rtcpReducedSizeEnable = true) :
    IterateSpec m dataEnd 0 ((new m dataEnd rtcpReducedSizeEnable).moveTo 0)
      (begin m dataEnd (new m dataEnd rtcpReducedSizeEnable)) := by
  have hreach : Reachable dataEnd ((new m dataEnd rtcpReducedSizeEnable).moveTo 0) :=
    ⟨by show ParseState.TopLevel ≠ .XRItem; decide, .inr (Nat.dvd_zero 4), fun h => absurd rfl h⟩
  exact @iterate_spec m dataEnd _ hreach hvalid

theorem iterate_of_not_valid {p : RTCPParserV2} (h : p.validPacket = false) :
    iterate m dataEnd p = { p with packetType := .kRtcpNotValidCode } := by
  rw [iterate, iterateWithin]
  dsimp only
  rw [if_neg (by rw [h]; decide)]

theorem parseAll_of_not_valid (h : validate m dataEnd rtcpReducedSizeEnable = false) (n : Nat) :
    (parseAll m dataEnd rtcpReducedSizeEnable n).headers = [] ∧
      (parseAll m dataEnd rtcpReducedSizeEnable n).packetType = .kRtcpNotValidCode := by
  have hb : begin m dataEnd (new m dataEnd rtcpReducedSizeEnable) =
      { (new m dataEnd rtcpReducedSizeEnable).moveTo 0 with packetType := .kRtcpNotValidCode } :=
    iterate_of_not_valid h
  rw [parseAll, hb]
  cases n with
  | zero => exact ⟨rfl, rfl⟩
  | succ n =>
    rw [run_succ, if_pos rfl]
    exact ⟨rfl, rfl⟩

/-- The headers of a complete run. -/
theorem parseAll_headers {n : Nat} (hvalid : validate m dataEnd rtcpReducedSizeEnable = true)
    (hdone : (parseAll m dataEnd rtcpReducedSizeEnable n).packetType = .kRtcpNotValidCode) :
    (parseAll m dataEnd rtcpReducedSizeEnable n).headers = visited m dataEnd 0 := by
  have hb := begin_spec hvalid
  have h := @run_log m _ n _ hb.reachable (hb.valid.trans hvalid)
  rw [hb.log, ← parseAll, rest, if_pos hdone, List.append_nil] at h
  exact h

/-- Runs end. -/
theorem parseAll_ends (m : Mem) (dataEnd : Nat) (rtcpReducedSizeEnable : Bool) :
    (parseAll m dataEnd rtcpReducedSizeEnable (dataEnd + 5)).packetType = .kRtcpNotValidCode := by
  cases hvalid : validate m dataEnd rtcpReducedSizeEnable with
  | false => exact (parseAll_of_not_valid hvalid _).2
  | true =>
    have hb := begin_spec hvalid
    by_cases hty : (begin m dataEnd (new m dataEnd rtcpReducedSizeEnable)).packetType =
        .kRtcpNotValidCode
    · rw [parseAll, run_succ, if_pos hty]
      exact hty
    · have hmoved := (hb.progress hty).2
      exact run_ends _ hb.reachable (hb.valid.trans hvalid) hmoved (by omega)

/-- Over a complete run, every position at which a common header is parsed is
the start of the buffer or the end of the previous top-level block, exactly if
the blocks of an accepted buffer are well framed. -/
theorem framed_iff {m : Mem} {dataEnd : Nat} {rtcpReducedSizeEnable : Bool} {n : Nat}
    (hdone : (parseAll m dataEnd rtcpReducedSizeEnable n).packetType = .kRtcpNotValidCode) :
    Framed m (parseAll m dataEnd rtcpReducedSizeEnable n).headers ↔
      (validate m dataEnd rtcpReducedSizeEnable = true →
        ∀ pos ∈ topLevelBlocks m dataEnd, WellFramed m dataEnd pos) := by
  cases hvalid : validate m dataEnd rtcpReducedSizeEnable with
  | false =>
    rw [(parseAll_of_not_valid hvalid n).1]
    simp [Framed]
  | true =>
    rw [parseAll_headers hvalid hdone, Framed, visited, head?_visitedFrom (Nat.succ_pos _),
      topLevelBlocks, ← isChain_visitedFrom_iff (by omega)]
    simp

/-- A buffer of a receiver report without report blocks and a PLI, whose block
has `fci` more words. -/
def pliBuffer (fci : List Byte) : Mem := Mem.ofList
  ([0x80, 201, 0, 1, 0, 0, 0, 1, 0x81, 206, 0, 2 + BitVec.ofNat 8 (fci.length / 4),
    0, 0, 0, 1, 0, 0, 0, 2] ++ fci)

/-- A PLI of 12 octets. -/
theorem framed_pliBuffer : Framed (pliBuffer []) (parseAll (pliBuffer []) 20 false 3).headers :=
  (framed_iff (by decide)).mpr (by decide)

/-- A PLI with one word of FCI, which looks like the header of a goodbye: it
is parsed as one. -/
theorem not_framed :
    ¬ ∀ (m : Mem) (dataEnd : Nat) (rtcpReducedSizeEnable : Bool) (n : Nat),
      (parseAll m dataEnd rtcpReducedSizeEnable n).packetType = .kRtcpNotValidCode →
        Framed m (parseAll m dataEnd rtcpReducedSizeEnable n).headers := by
  intro h
  have hframed := (h (pliBuffer [0x80, 203, 0, 0]) 24 false 3 (by decide)).2
  revert hframed
  rw [show (parseAll (pliBuffer [0x80, 203, 0, 0]) 24 false 3).headers = [0, 8, 20, 24] by decide]
  decide

end RTCPParserV2

end PerchWebrtc.Rtcp
