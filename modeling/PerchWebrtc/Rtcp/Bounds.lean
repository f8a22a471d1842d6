import PerchWebrtc.Rtcp.Framing

/-!
# Bounds of the parser's reads

Over any sequence of `Begin` and `Iterate`, in any order, every read ends in
its block and the read pointer never passes the end of the buffer, exactly if
the blocks and items that were parsed fit (`inside_iff`): no block of VoIP
metrics is four bytes short, and no SDES item is longer than the rest of the
buffer.
-/

namespace PerchWebrtc.Rtcp

namespace RTCPParserV2

inductive Call where
  | begin
  | iterate

section Calls

variable (m : Mem) (dataEnd : Nat)

def Call.run (c : Call) (p : RTCPParserV2) : RTCPParserV2 :=
  match c with
  | .begin => p.begin m dataEnd
  | .iterate => p.iterate m dataEnd

/-- A parser after a sequence of calls. -/
def runCalls (calls : List Call) (p : RTCPParserV2) : RTCPParserV2 :=
  calls.foldl (fun p c => c.run m dataEnd p) p

end Calls

variable {m : Mem} {dataEnd : Nat}

/-- What a call keeps: the state is reachable if the packet is valid, and the
log stays inside exactly if what was parsed fits. -/
structure CallInv (m : Mem) (dataEnd : Nat) (p : RTCPParserV2) : Prop where
  reachable : Reachable dataEnd p
  agree : Agree m dataEnd p

theorem CallInv.iterate {p : RTCPParserV2} (h : CallInv m dataEnd p) :
    CallInv m dataEnd (p.iterate m dataEnd) := by
  cases hvalid : p.validPacket with
  | false =>
    rw [iterate_of_not_valid hvalid]
    exact ⟨⟨h.reachable.state, h.reachable.aligned, h.reachable.block⟩, h.agree⟩
  | true =>
    have hspec := @iterate_spec m _ _ h.reachable hvalid
    exact ⟨hspec.reachable, hspec.agree h.agree⟩

theorem CallInv.run {p : RTCPParserV2} (h : CallInv m dataEnd p) (c : Call) :
    CallInv m dataEnd (c.run m dataEnd p) := by
  cases c with
  | begin =>
    -- `Begin` keeps the state, so it may go on inside a block.
    have hmoved : CallInv m dataEnd (p.moveTo 0) := by
      refine ⟨⟨h.reachable.state, .inr (Nat.dvd_zero 4), fun hst => ?_⟩,
        h.agree.moveTo (Nat.zero_le _)⟩
      obtain ⟨h4, hend, -⟩ := h.reachable.block hst
      exact ⟨h4, hend, Nat.zero_le _⟩
    exact hmoved.iterate
  | iterate => exact h.iterate

theorem CallInv.runCalls : ∀ (calls : List Call) {p : RTCPParserV2}, CallInv m dataEnd p →
    CallInv m dataEnd (runCalls m dataEnd calls p)
  | [], _, h => h
  | c :: calls, _, h => CallInv.runCalls calls (h.run c)

theorem CallInv.new (m : Mem) (dataEnd : Nat) (rtcpReducedSizeEnable : Bool) :
    CallInv m dataEnd (new m dataEnd rtcpReducedSizeEnable) := by
  refine ⟨⟨by show ParseState.TopLevel ≠ .XRItem; decide, .inr (Nat.dvd_zero 4),
    fun h => absurd rfl h⟩, iff_of_true ⟨fun a ha => ?_, fun ptr hptr => ?_⟩ ⟨nofun, nofun⟩⟩
  · simp only [RTCPParserV2.new] at ha
    split at ha
    · cases ha
    · rename_i h4
      obtain rfl := List.mem_singleton.mp ha
      show 0 + 4 ≤ dataEnd
      omega
  · obtain rfl := List.mem_singleton.mp hptr
    exact Nat.zero_le _

/-- After any calls, the reads are inside their blocks and the pointer never
passed the end of the buffer, exactly if no block of VoIP metrics that was
parsed is 40 octets long and no SDES item reaches over the buffer. -/
theorem inside_iff (m : Mem) (dataEnd : Nat) (rtcpReducedSizeEnable : Bool) (calls : List Call) :
    Inside dataEnd (runCalls m dataEnd calls (new m dataEnd rtcpReducedSizeEnable)) ↔
      (∀ pos ∈ (runCalls m dataEnd calls (new m dataEnd rtcpReducedSizeEnable)).headers,
        VoipFits m dataEnd pos) ∧
      ∀ item ∈ (runCalls m dataEnd calls (new m dataEnd rtcpReducedSizeEnable)).items,
        SDESItemFits m dataEnd item :=
  (CallInv.runCalls calls (CallInv.new m dataEnd rtcpReducedSizeEnable)).agree

/-- A receiver report without report blocks and an XR block of 40 octets. -/
def voipBuffer : Mem := Mem.ofList
  ([0x80, 201, 0, 1, 0, 0, 0, 1, 0x80, 207, 0, 9, 0, 0, 0, 1, 7, 0, 0, 8] ++ List.replicate 28 0)

/-- Its VoIP metrics are read to four bytes behind the end of the buffer. -/
theorem not_inside :
    ¬ ∀ (m : Mem) (dataEnd : Nat) (rtcpReducedSizeEnable : Bool) (calls : List Call),
      Inside dataEnd (runCalls m dataEnd calls (new m dataEnd rtcpReducedSizeEnable)) := by
  intro h
  have hread := (h voipBuffer 48 false [.begin, .iterate]).1 ⟨20, 32, 48⟩ (by decide)
  revert hread
  decide

end RTCPParserV2

end PerchWebrtc.Rtcp
