import PerchWebrtc.Framework.Machine
import PerchWebrtc.Tcp.ReceiveSide

/-!
# The receive window

What an endpoint keeps of the data that comes in, in runs in which the peer stays inside
the window that it was given: the window is never larger than the free space of the
receive buffer, and the bytes of a range that arrived out of order stand in the buffer,
at its distance from the next byte that is expected.

* `writeOffset_cell`, `consumeWriteBuffer_cell`, `consumeReadData_cell`: the cells behind
  the data of the buffer;
* `Window.advance`, `store_cell`, `Sound.read`, `Sound.reopen`: data in order, data
  anywhere in the window, and `Recv`;
* `trim_fits`, `trim_carries`: what is left of a segment;
* `process_sound`, `recv_sound`: one segment, and one call of `Recv`;
* `run_receiveWindow`: every state of a run, and what each call does to the difference
  between the free space and the window.
-/

namespace PerchWebrtc.Tcp

/-! ## Cells -/

namespace FifoBuffer

/-- The byte that is written at an offset behind the data. -/
def cell (f : FifoBuffer) (offset : Nat) : Byte :=
  f.buffer ((f.readPosition + f.dataLength + offset) % f.bufferLength)

variable {f : FifoBuffer}

theorem consumeWriteBuffer_cell (n j : Nat) : (f.consumeWriteBuffer n).cell j = f.cell (n + j) := by
  unfold cell consumeWriteBuffer
  dsimp only
  congr 2
  omega

theorem consumeReadData_cell {n : Nat} (h : n ≤ f.dataLength) (j : Nat) :
    (f.consumeReadData n).cell j = f.cell j := by
  unfold cell consumeReadData
  dsimp only
  rw [Nat.add_assoc, Nat.mod_add_mod]
  congr 2
  omega

theorem read_eq_some {n : Nat} {bytes : List Byte} {f' : FifoBuffer}
    (h : f.read n = some (bytes, f')) :
    bytes.length ≤ f.dataLength ∧ f' = f.consumeReadData bytes.length := by
  unfold read readOffset at h
  by_cases hempty : f.dataLength ≤ 0
  · rw [if_pos hempty] at h
    exact absurd h (by simp)
  · rw [if_neg hempty] at h
    simp only [Option.map_some, Option.some.injEq, Prod.mk.injEq] at h
    obtain ⟨rfl, rfl⟩ := h
    refine ⟨?_, rfl⟩
    rw [List.length_append, Mem.bytes_length, Mem.bytes_length]
    omega

theorem setCapacity_buffered (size : Nat) (h : f.dataLength ≤ f.bufferLength) :
    (f.setCapacity size).2.dataLength ≤ (f.setCapacity size).2.bufferLength ∧
      ((f.setCapacity size).2.bufferLength = size ∨
        (f.setCapacity size).2.bufferLength = f.bufferLength) := by
  by_cases hfits : f.dataLength ≤ size
  · obtain ⟨hdata, hbuffer⟩ := setCapacity_lengths hfits
    exact ⟨by omega, .inl hbuffer⟩
  · rw [setCapacity, if_pos (Nat.not_le.mp hfits)]
    exact ⟨h, .inr rfl⟩

/-- The place of a cell, given that of the first one of a write. -/
theorem place_add (start j : Nat) {length : Nat} (hj : j < length) :
    (start + j) % length =
      if j < length - start % length then start % length + j
      else j - (length - start % length) := by
  have hlt : start % length < length := Nat.mod_lt _ (by omega)
  rw [Nat.add_mod, Nat.mod_eq_of_lt hj]
  split
  · exact Nat.mod_eq_of_lt (by omega)
  · rw [Nat.mod_eq_sub_mod (by omega), Nat.mod_eq_of_lt (by omega)]
    omega

/-- A write of which everything fits changes the cells at its offset, and no others of the
free space. -/
theorem writeOffset_cell (data : Mem) {bytes offset : Nat} (hbytes : 0 < bytes)
    (h : offset + bytes ≤ f.getWriteRemaining) :
    ∃ f', f.writeOffset data bytes offset = some (bytes, f') ∧
      f'.bufferLength = f.bufferLength ∧ f'.dataLength = f.dataLength ∧
      ∀ j < f.getWriteRemaining,
        f'.cell j = if offset ≤ j ∧ j < offset + bytes then data (j - offset) else f.cell j := by
  unfold getWriteRemaining at h ⊢
  have hcopy : min bytes (f.bufferLength - f.dataLength - offset) = bytes := by omega
  unfold writeOffset
  rw [if_neg (by omega), hcopy]
  refine ⟨_, rfl, rfl, rfl, fun j hj => ?_⟩
  -- The cell is the `i`-th behind the place of the write, where `i` may have wrapped around.
  obtain ⟨i, hi, hplace, hinside⟩ : ∃ i < f.bufferLength,
      (f.readPosition + f.dataLength + j) % f.bufferLength =
        (f.readPosition + f.dataLength + offset + i) % f.bufferLength ∧
      (offset ≤ j ∧ j < offset + bytes ∧ i = j - offset ∨
        ¬ (offset ≤ j ∧ j < offset + bytes) ∧ bytes ≤ i) := by
    by_cases hbefore : j < offset
    · refine ⟨f.bufferLength + j - offset, by omega, ?_, .inr (by omega)⟩
      rw [show f.readPosition + f.dataLength + offset + (f.bufferLength + j - offset) =
        f.readPosition + f.dataLength + j + f.bufferLength by omega, Nat.add_mod_right]
    · refine ⟨j - offset, by omega, ?_, by omega⟩
      rw [show f.readPosition + f.dataLength + offset + (j - offset) =
        f.readPosition + f.dataLength + j by omega]
  unfold cell
  dsimp only
  rw [hplace, place_add _ _ hi]
  have hposition : (f.readPosition + f.dataLength + offset) % f.bufferLength < f.bufferLength :=
    Nat.mod_lt _ (by omega)
  generalize (f.readPosition + f.dataLength + offset) % f.bufferLength = writePosition at hposition
  rcases hinside with ⟨hlow, hhigh, rfl⟩ | ⟨hout, hfar⟩
  · refine Eq.trans ?_ (if_pos ⟨hlow, hhigh⟩).symm
    split
    · rw [Mem.copy_outside _ _ (by omega), Mem.copy_inside _ _ (by omega) (by omega)]
      congr 1
      omega
    · rw [Mem.copy_inside _ _ (by omega) (by omega)]
      congr 1
      omega
  · refine Eq.trans ?_ (if_neg hout).symm
    split
    · rw [Mem.copy_outside _ _ (by omega), Mem.copy_outside _ _ (by omega)]
    · rw [Mem.copy_outside _ _ (by omega), Mem.copy_outside _ _ (by omega)]

end FifoBuffer

/-! ## What is kept -/

/-- The bytes that have arrived, by their sequence numbers, with those of a segment that is
written to the buffer. -/
def arrive (seg : Segment) (arrived : U32 → Byte) : U32 → Byte := fun n =>
  if (n - seg.seq).toNat < seg.len.toNat then seg.data (n - seg.seq).toNat else arrived n

namespace ReceiveState

variable (q : ReceiveState) (arrived : U32 → Byte)

/-- The free space that the window does not offer. -/
def gap : Nat := q.rbuf.getWriteRemaining - q.rcvWnd.toNat

/-- Data in order. -/
def advance (n : U32) : ReceiveState :=
  { q with
    rbuf := q.rbuf.consumeWriteBuffer n.toNat
    rcvNxt := q.rcvNxt + n
    rcvWnd := q.rcvWnd - n }

structure Window : Prop where
  buffered : q.rbuf.dataLength ≤ q.rbuf.bufferLength
  capacity : q.rbuf.bufferLength < 2 ^ 32
  window : q.rcvWnd.toNat ≤ q.rbuf.getWriteRemaining

/-- A range ends in the window, and what is new of it stands in the buffer. -/
structure Recorded (r : RSegment) : Prop where
  unwrapped : r.seq.toNat + r.len.toNat < 2 ^ 32
  inside : r.seq.toNat + r.len.toNat ≤ q.rcvNxt.toNat + q.rcvWnd.toNat
  written : ∀ n, r.seq ≤ n → n.toNat < r.seq.toNat + r.len.toNat → q.rcvNxt ≤ n →
    q.rbuf.cell (n - q.rcvNxt).toNat = arrived n

structure Sound : Prop extends q.Window where
  sorted : q.rlist.Pairwise (·.seq ≤ ·.seq)
  recorded : ∀ r ∈ q.rlist, q.Recorded arrived r
  ahead : ∀ r ∈ q.rlist, q.rcvNxt < r.seq

/-- The next byte that is expected is in a segment. -/
def Carries (seg : Segment) : Prop := seg.seq ≤ q.rcvNxt ∧ q.rcvNxt - seg.seq < seg.len

/-- The end of a segment is in the window, or the window is all the space there is. -/
def InWindow (seg : Segment) : Prop :=
  seg.seq.toNat + seg.len.toNat < 2 ^ 32 ∧
    (seg.seq.toNat + seg.len.toNat ≤ q.rcvNxt.toNat + q.rcvWnd.toNat ∨ q.gap = 0)

variable {q arrived} {n : U32} {r : RSegment}

theorem Sound.of_empty (h : q.Window) (hempty : q.rlist = []) : q.Sound arrived := by
  refine ⟨h, ?_, ?_, ?_⟩
  · rw [hempty]
    exact List.Pairwise.nil
  · rw [hempty]
    exact fun _ hr => absurd hr List.not_mem_nil
  · rw [hempty]
    exact fun _ hr => absurd hr List.not_mem_nil

theorem Sound.setShutdown (h : q.Sound arrived) (shutdown : Shutdown) :
    { q with shutdown := shutdown }.Sound arrived :=
  ⟨⟨h.buffered, h.capacity, h.window⟩, h.sorted,
    fun r hr => ⟨(h.recorded r hr).unwrapped, (h.recorded r hr).inside, (h.recorded r hr).written⟩,
    h.ahead⟩

/-- The whole free space is offered. -/
theorem opened (hbuffered : q.rbuf.dataLength ≤ q.rbuf.bufferLength)
    (hcapacity : q.rbuf.bufferLength < 2 ^ 32)
    (hwindow : q.rcvWnd = BitVec.ofNat 32 q.rbuf.getWriteRemaining) : q.Window ∧ q.gap = 0 := by
  have hspace : q.rbuf.getWriteRemaining < 2 ^ 32 :=
    Nat.lt_of_le_of_lt (Nat.sub_le _ _) hcapacity
  have hwnd : q.rcvWnd.toNat = q.rbuf.getWriteRemaining := by
    rw [hwindow]
    exact Nat.mod_eq_of_lt hspace
  refine ⟨⟨hbuffered, hcapacity, Nat.le_of_eq hwnd⟩, ?_⟩
  rw [gap, hwnd, Nat.sub_self]

section Advance

theorem Window.setRlist (h : q.Window) (l : List RSegment) : { q with rlist := l }.Window :=
  ⟨h.buffered, h.capacity, h.window⟩

theorem Recorded.setRlist (h : q.Recorded arrived r) (l : List RSegment) :
    { q with rlist := l }.Recorded arrived r :=
  ⟨h.unwrapped, h.inside, h.written⟩

theorem Window.advance (h : q.Window) (hn : n ≤ q.rcvWnd) :
    (q.advance n).Window ∧ (q.advance n).gap = q.gap := by
  have hwindow := h.window
  have hbuffered := h.buffered
  have hle : n.toNat ≤ q.rcvWnd.toNat := hn
  have hwnd : (q.rcvWnd - n).toNat = q.rcvWnd.toNat - n.toNat := BitVec.toNat_sub_of_le hn
  unfold FifoBuffer.getWriteRemaining at hwindow
  refine ⟨⟨?_, h.capacity, ?_⟩, ?_⟩
  · show q.rbuf.dataLength + n.toNat ≤ q.rbuf.bufferLength
    omega
  · show (q.rcvWnd - n).toNat ≤ q.rbuf.bufferLength - (q.rbuf.dataLength + n.toNat)
    omega
  · show q.rbuf.bufferLength - (q.rbuf.dataLength + n.toNat) - (q.rcvWnd - n).toNat =
      q.rbuf.bufferLength - q.rbuf.dataLength - q.rcvWnd.toNat
    omega

theorem Recorded.advance (h : q.Recorded arrived r) (hn : n ≤ q.rcvWnd)
    (hwrap : q.rcvNxt.toNat + n.toNat < 2 ^ 32) : (q.advance n).Recorded arrived r := by
  have hle : n.toNat ≤ q.rcvWnd.toNat := hn
  have hwnd : (q.rcvWnd - n).toNat = q.rcvWnd.toNat - n.toNat := BitVec.toNat_sub_of_le hn
  have hnxt : (q.rcvNxt + n).toNat = q.rcvNxt.toNat + n.toNat := BitVec.toNat_add_of_lt hwrap
  have hinside := h.inside
  refine ⟨h.unwrapped, ?_, fun k hlow hhigh hnew => ?_⟩
  · show _ ≤ (q.rcvNxt + n).toNat + (q.rcvWnd - n).toNat
    omega
  · change q.rcvNxt + n ≤ k at hnew
    have hnewNat : (q.rcvNxt + n).toNat ≤ k.toNat := hnew
    have hold : q.rcvNxt ≤ k := by
      show q.rcvNxt.toNat ≤ k.toNat
      omega
    show (q.rbuf.consumeWriteBuffer n.toNat).cell (k - (q.rcvNxt + n)).toNat = _
    rw [FifoBuffer.consumeWriteBuffer_cell, ← h.written k hlow hhigh hold,
      BitVec.toNat_sub_of_le hnew, BitVec.toNat_sub_of_le hold]
    congr 1
    omega

end Advance

section Read

theorem Sound.read (h : q.Sound arrived) {k : Nat} (hk : k ≤ q.rbuf.dataLength) :
    { q with rbuf := q.rbuf.consumeReadData k }.Sound arrived ∧
      { q with rbuf := q.rbuf.consumeReadData k }.gap = q.gap + k := by
  have hbuffered := h.buffered
  have hwindow := h.window
  unfold FifoBuffer.getWriteRemaining at hwindow
  refine ⟨⟨⟨?_, h.capacity, ?_⟩, h.sorted, fun r hr => ?_, h.ahead⟩, ?_⟩
  · show q.rbuf.dataLength - k ≤ q.rbuf.bufferLength
    omega
  · show _ ≤ q.rbuf.bufferLength - (q.rbuf.dataLength - k)
    exact Nat.le_trans hwindow (by omega)
  · have hrecorded := h.recorded r hr
    refine ⟨hrecorded.unwrapped, hrecorded.inside, fun n hlow hhigh hnew => ?_⟩
    exact (FifoBuffer.consumeReadData_cell hk _).trans (hrecorded.written n hlow hhigh hnew)
  · show q.rbuf.bufferLength - (q.rbuf.dataLength - k) - q.rcvWnd.toNat =
      q.rbuf.bufferLength - q.rbuf.dataLength - q.rcvWnd.toNat + k
    omega

theorem Sound.reopen (h : q.Sound arrived) :
    { q with rcvWnd := BitVec.ofNat 32 q.rbuf.getWriteRemaining }.Sound arrived ∧
      { q with rcvWnd := BitVec.ofNat 32 q.rbuf.getWriteRemaining }.gap = 0 := by
  obtain ⟨hopened, hgap⟩ := @opened { q with rcvWnd := BitVec.ofNat 32 q.rbuf.getWriteRemaining }
    h.buffered h.capacity rfl
  refine ⟨⟨hopened, h.sorted, fun r hr => ?_, h.ahead⟩, hgap⟩
  have hrecorded := h.recorded r hr
  have hinside := hrecorded.inside
  have hwindow := h.window
  have hspace : (BitVec.ofNat 32 q.rbuf.getWriteRemaining).toNat = q.rbuf.getWriteRemaining :=
    Nat.mod_eq_of_lt ((Nat.sub_le _ _).trans_lt h.capacity)
  refine ⟨hrecorded.unwrapped, ?_, hrecorded.written⟩
  show _ ≤ q.rcvNxt.toNat + (BitVec.ofNat 32 q.rbuf.getWriteRemaining).toNat
  omega

end Read

section Store

/-- The data of a segment, at its distance from the next byte that is expected. -/
def store (q : ReceiveState) (t : Segment) : ReceiveState :=
  { q with
    rbuf := ((q.rbuf.writeOffset t.data t.len.toNat (t.seq - q.rcvNxt).toNat).getD (0, q.rbuf)).2 }

/-- There is data in a segment, all of it new and in the window. -/
structure Fits (q : ReceiveState) (t : Segment) : Prop where
  nonempty : t.len ≠ 0
  unwrapped : t.seq.toNat + t.len.toNat < 2 ^ 32
  new : q.rcvNxt ≤ t.seq
  inside : t.seq.toNat + t.len.toNat ≤ q.rcvNxt.toNat + q.rcvWnd.toNat

variable {t : Segment}

theorem arrive_of_unwrapped (h : t.seq.toNat + t.len.toNat < 2 ^ 32) :
    arrive t arrived n =
      if t.seq ≤ n ∧ n.toNat < t.seq.toNat + t.len.toNat then t.data (n - t.seq).toNat
      else arrived n := by
  unfold arrive
  refine if_congr ?_ rfl rfl
  show _ ↔ t.seq.toNat ≤ n.toNat ∧ _
  by_cases hle : t.seq ≤ n
  · have hleNat : t.seq.toNat ≤ n.toNat := hle
    rw [BitVec.toNat_sub_of_le hle]
    omega
  · have hlt : n.toNat < t.seq.toNat := Nat.not_le.mp hle
    have hsub : (n - t.seq).toNat = 2 ^ 32 - t.seq.toNat + n.toNat := by
      rw [BitVec.toNat_sub, Nat.mod_eq_of_lt (by omega)]
    rw [hsub]
    omega

/-- The cells of the window hold what has arrived last. -/
theorem store_cell (h : q.Window) (ht : q.Fits t) :
    (q.store t).Window ∧ (q.store t).gap = q.gap ∧
      ∀ n, q.rcvNxt ≤ n → n.toNat < q.rcvNxt.toNat + q.rcvWnd.toNat →
        (q.store t).rbuf.cell (n - q.rcvNxt).toNat =
          arrive t (fun k => q.rbuf.cell (k - q.rcvNxt).toNat) n := by
  have hwindow := h.window
  have hinside := ht.inside
  have hlen : 0 < t.len.toNat :=
    Nat.pos_of_ne_zero fun h => ht.nonempty (BitVec.eq_of_toNat_eq h)
  have hnewNat : q.rcvNxt.toNat ≤ t.seq.toNat := ht.new
  have hoffset : (t.seq - q.rcvNxt).toNat = t.seq.toNat - q.rcvNxt.toNat :=
    BitVec.toNat_sub_of_le ht.new
  obtain ⟨f', hwrite, hbuffer, hdata, hcell⟩ := q.rbuf.writeOffset_cell t.data hlen
    (show (t.seq - q.rcvNxt).toNat + t.len.toNat ≤ q.rbuf.getWriteRemaining by omega)
  have hremaining : f'.getWriteRemaining = q.rbuf.getWriteRemaining := by
    unfold FifoBuffer.getWriteRemaining
    rw [hbuffer, hdata]
  have hstore : q.store t = { q with rbuf := f' } := by
    unfold store
    rw [hwrite]
    rfl
  rw [hstore]
  refine ⟨⟨?_, ?_, ?_⟩, ?_, fun n hnext hlast => ?_⟩
  · show f'.dataLength ≤ f'.bufferLength
    rw [hbuffer, hdata]
    exact h.buffered
  · show f'.bufferLength < _
    rw [hbuffer]
    exact h.capacity
  · show _ ≤ f'.getWriteRemaining
    rw [hremaining]
    exact hwindow
  · show f'.getWriteRemaining - _ = _
    rw [hremaining]
    rfl
  · have hnextNat : q.rcvNxt.toNat ≤ n.toNat := hnext
    have hn : (n - q.rcvNxt).toNat = n.toNat - q.rcvNxt.toNat := BitVec.toNat_sub_of_le hnext
    rw [arrive_of_unwrapped ht.unwrapped]
    show f'.cell (n - q.rcvNxt).toNat = _
    rw [hcell _ (by omega)]
    by_cases hin : t.seq ≤ n ∧ n.toNat < t.seq.toNat + t.len.toNat
    · have hlow : t.seq.toNat ≤ n.toNat := hin.1
      rw [if_pos hin, if_pos (by omega), BitVec.toNat_sub_of_le hin.1]
      congr 1
      omega
    · have hout : ¬ (t.seq.toNat ≤ n.toNat ∧ n.toNat < t.seq.toNat + t.len.toNat) := hin
      rw [if_neg hin, if_neg (by omega)]

theorem Recorded.store (h : q.Recorded arrived r) (hwindow : q.Window) (ht : q.Fits t) :
    (q.store t).Recorded (arrive t arrived) r := by
  obtain ⟨-, -, hcell⟩ := store_cell hwindow ht
  have hinside := h.inside
  refine ⟨h.unwrapped, hinside, fun n hlow hhigh hnew => ?_⟩
  refine (hcell n hnew (by omega)).trans ?_
  rw [arrive, arrive, h.written n hlow hhigh hnew]

theorem recorded_store (h : q.Window) (ht : q.Fits t) :
    (q.store t).Recorded (arrive t arrived) { seq := t.seq, len := t.len } := by
  obtain ⟨-, -, hcell⟩ := store_cell h ht
  have hinside := ht.inside
  refine ⟨ht.unwrapped, hinside, fun n hlow hhigh hnew => ?_⟩
  refine (hcell n hnew ?_).trans ?_
  · dsimp only at hhigh
    omega
  · rw [arrive_of_unwrapped ht.unwrapped, arrive_of_unwrapped ht.unwrapped,
      if_pos ⟨hlow, hhigh⟩, if_pos ⟨hlow, hhigh⟩]

end Store

end ReceiveState

namespace PseudoTcp

section Recovery

variable {arrived : U32 → Byte}

/-- The ranges that became contiguous are taken; those that are left lie ahead. -/
theorem recoverSegments_sound : ∀ {l : List RSegment} {s : PseudoTcp}, s.receiveState.Window →
    l.Pairwise (·.seq ≤ ·.seq) → (∀ r ∈ l, s.receiveState.Recorded arrived r) →
    (recoverSegments l s).2.receiveState.Sound arrived ∧
      (recoverSegments l s).2.receiveState.gap = s.receiveState.gap
  | [], s, hwindow, _, _ => by
    rw [recoverSegments]
    exact ⟨⟨hwindow.setRlist [], List.Pairwise.nil, fun _ hr => absurd hr List.not_mem_nil,
      fun _ hr => absurd hr List.not_mem_nil⟩, rfl⟩
  | it :: rest, s, hwindow, hsorted, hrecorded => by
    have hit := hrecorded it List.mem_cons_self
    have hrest : ∀ r ∈ rest, s.receiveState.Recorded arrived r := fun r hr =>
      hrecorded r (List.mem_cons_of_mem it hr)
    rw [recoverSegments]
    split
    · rename_i hreached
      split
      · rename_i hnew
        -- What is new of the range ends in the window.
        have hend : (it.seq + it.len).toNat = it.seq.toNat + it.len.toNat :=
          BitVec.toNat_add_of_lt hit.unwrapped
        have hnewNat : s.rcvNxt.toNat < (it.seq + it.len).toNat := hnew
        have hsub : (it.seq + it.len - s.rcvNxt).toNat =
            it.seq.toNat + it.len.toNat - s.rcvNxt.toNat := by
          rw [BitVec.toNat_sub_of_le (BitVec.le_of_lt hnew), hend]
        have hinside : it.seq.toNat + it.len.toNat ≤ s.rcvNxt.toNat + s.rcvWnd.toNat := hit.inside
        have hunwrapped := hit.unwrapped
        have hn : it.seq + it.len - s.rcvNxt ≤ s.rcvWnd := by
          show (it.seq + it.len - s.rcvNxt).toNat ≤ s.rcvWnd.toNat
          omega
        obtain ⟨hadvanced, hgap⟩ := hwindow.advance hn
        have hnext := @recoverSegments_sound rest
          { s with
            rbuf := s.rbuf.consumeWriteBuffer (it.seq + it.len - s.rcvNxt).toNat
            rcvNxt := s.rcvNxt + (it.seq + it.len - s.rcvNxt)
            rcvWnd := s.rcvWnd - (it.seq + it.len - s.rcvNxt) }
          hadvanced (List.pairwise_cons.mp hsorted).2
          fun r hr => (hrest r hr).advance hn (by
            show s.rcvNxt.toNat + (it.seq + it.len - s.rcvNxt).toNat < 2 ^ 32
            omega)
        exact ⟨hnext.1, hnext.2.trans hgap⟩
      · exact recoverSegments_sound hwindow (List.pairwise_cons.mp hsorted).2 hrest
    · rename_i hahead
      have hfirst : s.rcvNxt < it.seq := BitVec.not_le.mp hahead
      refine ⟨⟨hwindow.setRlist _, hsorted, fun r hr => (hrecorded r hr).setRlist _,
        fun r hr => ?_⟩, rfl⟩
      rcases List.mem_cons.mp hr with rfl | hr
      · exact hfirst
      · exact Nat.lt_of_lt_of_le hfirst ((List.pairwise_cons.mp hsorted).1 r hr)

end Recovery

section Data

variable {arrived : U32 → Byte} {s : PseudoTcp} {seg t : Segment}

theorem mem_insert {l : List RSegment} {p : RSegment → Bool} {x r : RSegment}
    (h : r ∈ l.takeWhile p ++ [x] ++ l.dropWhile p) : r = x ∨ r ∈ l := by
  rw [List.append_assoc, List.mem_append, List.mem_append, List.mem_singleton] at h
  rcases h with hr | rfl | hr
  · exact .inr ((List.takeWhile_sublist p).subset hr)
  · exact .inl rfl
  · exact .inr ((List.dropWhile_sublist p).subset hr)

theorem sorted_insert {l : List RSegment} (x : RSegment) (h : l.Pairwise (·.seq ≤ ·.seq)) :
    (l.takeWhile (·.seq < x.seq) ++ [x] ++ l.dropWhile (·.seq < x.seq)).Pairwise
      (·.seq ≤ ·.seq) := by
  induction l with
  | nil => exact List.pairwise_singleton _ x
  | cons a l ih =>
    obtain ⟨hhead, htail⟩ := List.pairwise_cons.mp h
    rw [List.takeWhile_cons, List.dropWhile_cons]
    by_cases hlt : a.seq < x.seq
    · rw [if_pos (decide_eq_true hlt), if_pos (decide_eq_true hlt), List.cons_append,
        List.cons_append]
      refine List.pairwise_cons.mpr ⟨fun r hr => ?_, ih htail⟩
      rcases mem_insert hr with rfl | hr
      · exact BitVec.le_of_lt hlt
      · exact hhead r hr
    · have hle : x.seq ≤ a.seq := BitVec.not_lt.mp hlt
      rw [if_neg (by rwa [decide_eq_true_eq]), if_neg (by rwa [decide_eq_true_eq])]
      refine List.pairwise_cons.mpr ⟨fun r hr => ?_, h⟩
      rcases List.mem_cons.mp hr with rfl | hr
      · exact hle
      · exact BitVec.le_trans hle (hhead r hr)

theorem arrive_empty (h : t.len = 0) : Tcp.arrive t arrived = arrived := by
  funext n
  rw [Tcp.arrive, h]
  exact if_neg (Nat.not_lt_zero _)

/-- Data of the window, in order or not. -/
theorem processData_sound {sflags : SendFlags} (h : s.receiveState.Sound arrived)
    (ht : t.len ≠ 0 → s.receiveState.Fits t) (hdata : t.flags &&& FLAG_CTL = 0)
    (hopen : s.shutdown = .SD_NONE) :
    (s.processData t sflags).2.2.receiveState.Sound (Tcp.arrive t arrived) ∧
      (s.processData t sflags).2.2.receiveState.gap = s.receiveState.gap := by
  by_cases hlen : t.len = 0
  · rw [processData, if_pos hlen, arrive_empty hlen]
    exact ⟨h, rfl⟩
  · have hfits := ht hlen
    obtain ⟨hstored, hgap, -⟩ := ReceiveState.store_cell h.toWindow hfits
    have hrecorded : ∀ r ∈ s.rlist,
        (s.receiveState.store t).Recorded (Tcp.arrive t arrived) r := fun r hr =>
      (h.recorded r hr).store h.toWindow hfits
    rw [processData, if_neg hlen, if_neg (by simp [hdata, hopen])]
    dsimp only
    by_cases hnext : t.seq = s.rcvNxt
    · -- The data is readable at once, with the ranges that it reaches.
      rw [if_pos hnext]
      have hinside : t.seq.toNat + t.len.toNat ≤ s.rcvNxt.toNat + s.rcvWnd.toNat := hfits.inside
      have hunwrapped := hfits.unwrapped
      have hn : t.len ≤ s.rcvWnd := by
        show t.len.toNat ≤ s.rcvWnd.toNat
        rw [hnext] at hinside
        omega
      obtain ⟨hadvanced, hadvancedGap⟩ := hstored.advance hn
      rw [hnext] at hunwrapped
      obtain ⟨hrecovered, hrecoveredGap⟩ := @recoverSegments_sound (Tcp.arrive t arrived) s.rlist
        { s with
          rbuf := (s.receiveState.store t).rbuf.consumeWriteBuffer t.len.toNat
          rcvNxt := s.rcvNxt + t.len
          rcvWnd := s.rcvWnd - t.len }
        hadvanced h.sorted fun r hr => (hrecorded r hr).advance hn hunwrapped
      exact ⟨hrecovered, hrecoveredGap.trans (hadvancedGap.trans hgap)⟩
    · rw [if_neg hnext]
      refine ⟨⟨hstored.setRlist _, sorted_insert { seq := t.seq, len := t.len } h.sorted,
        fun r hr => ?_, fun r hr => ?_⟩, hgap⟩
      · rcases mem_insert hr with rfl | hr
        · exact (ReceiveState.recorded_store h.toWindow hfits).setRlist _
        · exact (hrecorded r hr).setRlist _
      · rcases mem_insert hr with rfl | hr
        · exact BitVec.lt_of_le_ne hfits.new (Ne.symm hnext)
        · exact h.ahead r hr

end Data

section Trim

variable {s : PseudoTcp} {seg : Segment}

theorem trimLeft_flags : (s.trimLeft seg).flags = seg.flags := by
  unfold trimLeft
  dsimp only
  split
  · split <;> rfl
  · rfl

theorem trimRight_flags : (s.trimRight seg).flags = seg.flags := by
  unfold trimRight
  dsimp only
  split <;> rfl

theorem trim_flags : (s.trim seg).flags = seg.flags := by
  rw [trim_eq, trimRight_flags, trimLeft_flags]

/-- What is left of a segment after its old data. -/
theorem trimLeft_cases (s : PseudoTcp) (seg : Segment) :
    (s.trimLeft seg).len = 0 ∨
      s.rcvNxt ≤ (s.trimLeft seg).seq ∧
        ((s.trimLeft seg).seq = s.rcvNxt → (s.trimLeft seg).len ≠ 0 → s.receiveState.Carries seg) ∧
        (seg.seq.toNat + seg.len.toNat < 2 ^ 32 →
          (s.trimLeft seg).seq.toNat + (s.trimLeft seg).len.toNat =
            seg.seq.toNat + seg.len.toNat) := by
  unfold trimLeft
  by_cases hold : seg.seq < s.rcvNxt
  · rw [if_pos hold]
    dsimp only
    by_cases hpart : s.rcvNxt - seg.seq < seg.len
    · rw [if_pos hpart]
      have hle : seg.seq ≤ s.rcvNxt := BitVec.le_of_lt hold
      have hseq : seg.seq + (s.rcvNxt - seg.seq) = s.rcvNxt := by
        rw [BitVec.add_comm, BitVec.sub_add_cancel]
      have hpartNat : (s.rcvNxt - seg.seq).toNat < seg.len.toNat := hpart
      have holdNat : seg.seq.toNat < s.rcvNxt.toNat := hold
      refine .inr ⟨BitVec.le_of_eq hseq.symm, fun _ _ => ⟨hle, hpart⟩, fun _ => ?_⟩
      show (seg.seq + (s.rcvNxt - seg.seq)).toNat + (seg.len - (s.rcvNxt - seg.seq)).toNat = _
      rw [hseq, BitVec.toNat_sub_of_le (BitVec.le_of_lt hpart)]
      rw [BitVec.toNat_sub_of_le hle] at hpartNat ⊢
      omega
    · rw [if_neg hpart]
      exact .inl rfl
  · rw [if_neg hold]
    refine .inr ⟨BitVec.not_lt.mp hold, fun hseq hlen => ⟨BitVec.le_of_eq hseq, ?_⟩, fun _ => rfl⟩
    show s.rcvNxt - seg.seq < seg.len
    rw [hseq, BitVec.sub_self]
    exact BitVec.lt_of_le_ne (Nat.zero_le _) (Ne.symm hlen)

theorem trimRight_seq : (s.trimRight seg).seq = seg.seq := by
  unfold trimRight
  dsimp only
  split <;> rfl

theorem trimRight_len_of_empty (h : seg.len = 0) : (s.trimRight seg).len = 0 := by
  unfold trimRight
  dsimp only
  split
  · dsimp only
    split
    · rename_i hlt
      rw [h] at hlt
      exact absurd hlt (Nat.not_lt_zero _)
    · rfl
  · exact h

/-- What is left of a segment fits into the buffer. -/
theorem trimRight_fits (hwindow : s.receiveState.Window) (hnew : s.rcvNxt ≤ seg.seq)
    (hunwrapped : seg.seq.toNat + seg.len.toNat < 2 ^ 32) :
    (s.trimRight seg).len.toNat ≤ seg.len.toNat ∧
      ((s.trimRight seg).len ≠ 0 →
        seg.seq.toNat + (s.trimRight seg).len.toNat ≤
          s.rcvNxt.toNat + s.rbuf.getWriteRemaining) := by
  have hcapacity : s.rbuf.bufferLength < 2 ^ 32 := hwindow.capacity
  have hspace : s.rbuf.getWriteRemaining < 2 ^ 32 := by
    unfold FifoBuffer.getWriteRemaining
    omega
  have hend : (seg.seq + seg.len).toNat = seg.seq.toNat + seg.len.toNat :=
    BitVec.toNat_add_of_lt hunwrapped
  have hnewNat : s.rcvNxt.toNat ≤ seg.seq.toNat := hnew
  have hoffset : (seg.seq + seg.len - s.rcvNxt).toNat =
      seg.seq.toNat + seg.len.toNat - s.rcvNxt.toNat := by
    rw [BitVec.toNat_sub_of_le (by show s.rcvNxt.toNat ≤ (seg.seq + seg.len).toNat; omega), hend]
  have havailable : (BitVec.ofNat 32 s.rbuf.getWriteRemaining).toNat = s.rbuf.getWriteRemaining :=
    Nat.mod_eq_of_lt hspace
  unfold trimRight
  dsimp only
  by_cases hlong : BitVec.ofNat 32 s.rbuf.getWriteRemaining < seg.seq + seg.len - s.rcvNxt
  · rw [if_pos hlong]
    have hlongNat : (BitVec.ofNat 32 s.rbuf.getWriteRemaining).toNat <
        (seg.seq + seg.len - s.rcvNxt).toNat := hlong
    have hadjust := BitVec.toNat_sub_of_le (BitVec.le_of_lt hlong)
    generalize seg.seq + seg.len - s.rcvNxt - BitVec.ofNat 32 s.rbuf.getWriteRemaining = nAdjust
      at hadjust
    by_cases hpart : nAdjust < seg.len
    · dsimp only
      have hpartNat : nAdjust.toNat < seg.len.toNat := hpart
      rw [if_pos hpart, BitVec.toNat_sub_of_le (BitVec.le_of_lt hpart)]
      omega
    · dsimp only
      rw [if_neg hpart]
      exact ⟨Nat.zero_le _, fun h => absurd rfl h⟩
  · rw [if_neg hlong]
    have hshort : (seg.seq + seg.len - s.rcvNxt).toNat ≤
        (BitVec.ofNat 32 s.rbuf.getWriteRemaining).toNat := Nat.not_lt.mp hlong
    omega

theorem trim_fits (hwindow : s.receiveState.Window) (h : s.receiveState.InWindow seg)
    (hlen : (s.trim seg).len ≠ 0) : s.receiveState.Fits (s.trim seg) := by
  obtain ⟨hunwrapped, hwithin⟩ := h
  rw [trim_eq] at hlen ⊢
  rcases s.trimLeft_cases seg with hold | ⟨hnew, -, hend⟩
  · exact absurd (trimRight_len_of_empty hold) hlen
  · have hleft := hend hunwrapped
    obtain ⟨hshorter, hspace⟩ := trimRight_fits hwindow hnew (by omega)
    have hfree := hspace hlen
    refine ⟨hlen, ?_, ?_, ?_⟩
    · rw [trimRight_seq]
      omega
    · rw [trimRight_seq]
      exact hnew
    · rw [trimRight_seq]
      rcases hwithin with hinside | hgap
      · change _ ≤ s.rcvNxt.toNat + s.rcvWnd.toNat at hinside
        show _ ≤ s.rcvNxt.toNat + s.rcvWnd.toNat
        omega
      · unfold ReceiveState.gap at hgap
        change s.rbuf.getWriteRemaining - s.rcvWnd.toNat = 0 at hgap
        show _ ≤ s.rcvNxt.toNat + s.rcvWnd.toNat
        omega

theorem trim_carries (hlen : (s.trim seg).len ≠ 0) (hnext : (s.trim seg).seq = s.rcvNxt) :
    s.receiveState.Carries seg := by
  rw [trim_eq] at hlen hnext
  rcases s.trimLeft_cases seg with hold | ⟨-, hcarries, -⟩
  · exact absurd (trimRight_len_of_empty hold) hlen
  · rw [trimRight_seq] at hnext
    exact hcarries hnext fun hempty => hlen (trimRight_len_of_empty hempty)

end Trim

/-! ## Datagrams -/

section Datagrams

variable {env : Env} {s : PseudoTcp} {arrived : U32 → Byte} {seg : Segment}

theorem resizeReceiveBuffer_window (newSize : U32) (h : s.receiveState.Window) :
    (s.resizeReceiveBuffer newSize).receiveState.Window ∧
      (s.resizeReceiveBuffer newSize).receiveState.gap = 0 := by
  generalize hsize : (scaleFactor 16 newSize).2 <<< (scaleFactor 16 newSize).1.toNat = size
  have hrbuf : (s.resizeReceiveBuffer newSize).receiveState.rbuf =
      (s.rbuf.setCapacity size.toNat).2 := hsize ▸ rfl
  obtain ⟨hbuffered, hcapacity⟩ := FifoBuffer.setCapacity_buffered size.toNat h.buffered
  refine ReceiveState.opened (hrbuf ▸ hbuffered) ?_ rfl
  rw [hrbuf]
  rcases hcapacity with hnew | hold
  · exact hnew.trans_lt size.isLt
  · exact hold.trans_lt h.capacity

theorem trim_congr {s' : PseudoTcp} (h : s'.receiveState = s.receiveState) (seg : Segment) :
    s'.trim seg = s.trim seg := by
  have hrbuf : s'.rbuf = s.rbuf := congrArg ReceiveState.rbuf h
  have hrcvNxt : s'.rcvNxt = s.rcvNxt := congrArg ReceiveState.rcvNxt h
  unfold trim
  rw [hrbuf, hrcvNxt]

theorem processRest_receiveState (bConnect : Bool) :
    (s.processRest env seg bConnect).receiveState =
      ((s.processOpen bConnect).processData (s.trim seg)
        ((s.processOpen bConnect).ackFlags seg)).2.2.receiveState := by
  have htrim := trim_congr (s.processOpen_receiveState bConnect) seg
  unfold processRest
  dsimp only
  rw [htrim]
  generalize (s.processOpen bConnect).processData (s.trim seg)
    ((s.processOpen bConnect).ackFlags seg) = data
  have hsent := data.2.2.attemptSend_receiveState env data.1
  generalize data.2.2.attemptSend env data.1 = s₁ at hsent ⊢
  split
  · exact hsent
  · exact hsent

/-- The rest of a segment whose data is taken. -/
theorem processRest_taken (h : s.receiveState.Sound arrived) (hseg : s.receiveState.InWindow seg)
    (hdata : seg.flags &&& FLAG_CTL = 0) (hopen : s.shutdown = .SD_NONE) (bConnect : Bool) :
    (s.processRest env seg bConnect).receiveState.Sound (Tcp.arrive (s.trim seg) arrived) ∧
      (s.processRest env seg bConnect).receiveState.gap = s.receiveState.gap := by
  have hsame := s.processOpen_receiveState bConnect
  have hfits : (s.trim seg).len ≠ 0 → s.receiveState.Fits (s.trim seg) :=
    trim_fits h.toWindow hseg
  rw [processRest_receiveState, ← hsame]
  rw [← hsame] at h hfits
  exact processData_sound h hfits (by rw [trim_flags]; exact hdata)
    ((congrArg ReceiveState.shutdown hsame).trans hopen)

/-- The rest of a segment whose data is not. -/
theorem processRest_ignored (h : s.receiveState.Sound arrived)
    (hignored : seg.flags &&& FLAG_CTL ≠ 0 ∨ s.shutdown ≠ .SD_NONE)
    (hkeep : s.rlist = [] ∨ ¬ s.receiveState.Carries seg) (bConnect : Bool) :
    (s.processRest env seg bConnect).receiveState.Sound arrived ∧
      (s.processRest env seg bConnect).receiveState.gap = s.receiveState.gap := by
  have hsame := s.processOpen_receiveState bConnect
  have hflags : (s.trim seg).flags = seg.flags := trim_flags
  have hshutdown : (s.processOpen bConnect).shutdown = s.shutdown :=
    congrArg ReceiveState.shutdown hsame
  have hrcvNxt : (s.processOpen bConnect).rcvNxt = s.rcvNxt :=
    congrArg ReceiveState.rcvNxt hsame
  have hrlist : (s.processOpen bConnect).rlist = s.rlist := congrArg ReceiveState.rlist hsame
  rw [processRest_receiveState, ← hsame]
  rw [← hsame] at h
  by_cases hlen : (s.trim seg).len = 0
  · rw [processData, if_pos hlen]
    exact ⟨h, rfl⟩
  · rw [processData, if_neg hlen, hflags, if_pos (hshutdown ▸ hignored)]
    dsimp only
    by_cases hnext : (s.trim seg).seq = (s.processOpen bConnect).rcvNxt
    · rw [if_pos hnext]
      have hempty := hkeep.resolve_right (not_not.mpr (trim_carries hlen (hnext.trans hrcvNxt)))
      have hwindow := h.toWindow
      exact ⟨.of_empty ⟨hwindow.buffered, hwindow.capacity, hwindow.window⟩
        (hrlist.trans hempty), rfl⟩
    · rw [if_neg hnext]
      exact ⟨h, rfl⟩

/-- What is asked of an accepted segment: its data is in the window, and without its data it
moves the next byte only while no range is kept. -/
structure Orderly (s : PseudoTcp) (seg : Segment) : Prop where
  control : seg.flags &&& FLAG_CTL ≠ 0 →
    s.rlist = [] ∨ s.rwndScale = 0 ∧ ¬ s.receiveState.Carries seg
  shutdown : seg.flags &&& FLAG_CTL = 0 → s.shutdown ≠ .SD_NONE →
    s.rlist = [] ∨ ¬ s.receiveState.Carries seg
  data : seg.flags &&& FLAG_CTL = 0 → s.shutdown = .SD_NONE → s.receiveState.InWindow seg

instance (seg : Segment) : Decidable (s.receiveState.Carries seg) :=
  inferInstanceAs (Decidable (_ ∧ _))

instance (seg : Segment) : Decidable (s.receiveState.InWindow seg) :=
  inferInstanceAs (Decidable (_ ∧ _))

instance (seg : Segment) : Decidable (s.Orderly seg) :=
  decidable_of_iff
    ((seg.flags &&& FLAG_CTL ≠ 0 → s.rlist = [] ∨ s.rwndScale = 0 ∧ ¬ s.receiveState.Carries seg) ∧
      (seg.flags &&& FLAG_CTL = 0 → s.shutdown ≠ .SD_NONE →
        s.rlist = [] ∨ ¬ s.receiveState.Carries seg) ∧
      (seg.flags &&& FLAG_CTL = 0 → s.shutdown = .SD_NONE → s.receiveState.InWindow seg))
    ⟨fun h => ⟨h.1, h.2.1, h.2.2⟩, fun h => ⟨h.control, h.shutdown, h.data⟩⟩

/-- The part of a segment that is written to the receive buffer. -/
def taken (env : Env) (seg : Segment) (s : PseudoTcp) : Option Segment :=
  if Accepted seg s ∧ (s.acked env seg).1 ∧ seg.flags &&& FLAG_CTL = 0 ∧ s.shutdown = .SD_NONE then
    some (s.trim seg)
  else none

/-- The control data of a segment, up to its ack. -/
theorem acked_sound (h : s.receiveState.Sound arrived)
    (hkeep : s.rlist = [] ∨ s.rwndScale = 0 ∧ ¬ s.receiveState.Carries seg) :
    (s.acked env seg).2.receiveState.Sound arrived ∧
      ((s.acked env seg).2.receiveState.gap = s.receiveState.gap ∨
        (s.acked env seg).2.receiveState.gap = 0) ∧
      ((s.acked env seg).2.rlist = [] ∨ ¬ (s.acked env seg).2.receiveState.Carries seg) := by
  have hacked := s.acked_receiveState env seg
  have hrlist : (s.acked env seg).2.rlist = ((s.arrive env).processControl seg).2.rlist :=
    congrArg ReceiveState.rlist hacked
  rw [hacked, hrlist]
  rcases (s.arrive env).processControl_receiveState seg with hsame | ⟨hresized, hscale⟩
  · have hlist : ((s.arrive env).processControl seg).2.rlist = s.rlist :=
      congrArg ReceiveState.rlist hsame
    rw [hsame, hlist]
    exact ⟨h, .inl rfl, hkeep.imp_right And.right⟩
  · have hempty : s.rlist = [] := hkeep.resolve_right fun hkept => by
      rw [show (s.arrive env).rwndScale = 0 from hkept.1] at hscale
      exact absurd hscale (Nat.lt_irrefl _)
    have hlist : ((s.arrive env).processControl seg).2.rlist = [] :=
      (congrArg ReceiveState.rlist hresized).trans hempty
    obtain ⟨hwindow, hgap⟩ := resizeReceiveBuffer_window (s := s.arrive env) DEFAULT_RCV_BUF_SIZE
      h.toWindow
    rw [hresized]
    exact ⟨.of_empty hwindow hempty, .inr hgap, .inl hlist⟩

theorem acked_of_data (hdata : seg.flags &&& FLAG_CTL = 0) :
    (s.acked env seg).2.receiveState = s.receiveState := by
  rw [acked_receiveState, processControl, if_pos hdata]
  rfl

/-- A property of the state after an accepted segment. -/
theorem process_of_rest {P : ReceiveState → Prop} (haccepted : Accepted seg s)
    (hacked : P (s.acked env seg).2.receiveState)
    (hrest : P ((s.acked env seg).2.processRest env seg (isControl seg)).receiveState) :
    P (s.process env seg).2.receiveState := by
  rw [process_of_accepted haccepted]
  generalize s.acked env seg = after at hacked hrest ⊢
  obtain ⟨_ | _, s₁⟩ := after
  · exact hacked
  · exact hrest

theorem process_control (haccepted : Accepted seg s) (hcontrol : seg.flags &&& FLAG_CTL ≠ 0)
    (h : s.receiveState.Sound arrived)
    (hkeep : s.rlist = [] ∨ s.rwndScale = 0 ∧ ¬ s.receiveState.Carries seg) :
    (s.process env seg).2.receiveState.Sound arrived ∧
      ((s.process env seg).2.receiveState.gap = s.receiveState.gap ∨
        (s.process env seg).2.receiveState.gap = 0) := by
  obtain ⟨hacked, hgap, hkept⟩ := acked_sound (s := s) h hkeep
  obtain ⟨hrest, hrestGap⟩ := processRest_ignored hacked (.inl hcontrol) hkept (isControl seg)
  refine process_of_rest (P := fun q => q.Sound arrived ∧
    (q.gap = s.receiveState.gap ∨ q.gap = 0)) haccepted ⟨hacked, hgap⟩ ⟨hrest, ?_⟩
  exact hgap.imp hrestGap.trans hrestGap.trans

theorem process_shutdown (haccepted : Accepted seg s) (hdata : seg.flags &&& FLAG_CTL = 0)
    (hshutdown : s.shutdown ≠ .SD_NONE) (h : s.receiveState.Sound arrived)
    (hkeep : s.rlist = [] ∨ ¬ s.receiveState.Carries seg) :
    (s.process env seg).2.receiveState.Sound arrived ∧
      (s.process env seg).2.receiveState.gap = s.receiveState.gap := by
  have hsame : (s.acked env seg).2.receiveState = s.receiveState := acked_of_data hdata
  rw [← hsame] at h hkeep ⊢
  rw [← show (s.acked env seg).2.rlist = s.rlist from congrArg ReceiveState.rlist hsame] at hkeep
  rw [← show (s.acked env seg).2.shutdown = s.shutdown from
    congrArg ReceiveState.shutdown hsame] at hshutdown
  refine process_of_rest (P := fun q => q.Sound arrived ∧
    q.gap = (s.acked env seg).2.receiveState.gap) haccepted ⟨h, rfl⟩ ?_
  exact processRest_ignored h (.inr hshutdown) hkeep (isControl seg)

theorem process_taken (haccepted : Accepted seg s) (hkept : (s.acked env seg).1 = true)
    (hdata : seg.flags &&& FLAG_CTL = 0) (hopen : s.shutdown = .SD_NONE)
    (h : s.receiveState.Sound arrived) (hseg : s.receiveState.InWindow seg) :
    (s.process env seg).2.receiveState.Sound (Tcp.arrive (s.trim seg) arrived) ∧
      (s.process env seg).2.receiveState.gap = s.receiveState.gap := by
  have hsame : (s.acked env seg).2.receiveState = s.receiveState := acked_of_data hdata
  rw [process_of_accepted haccepted, if_pos hkept]
  clear hkept haccepted
  generalize (s.acked env seg).2 = after at hsame ⊢
  have hopen' : after.shutdown = .SD_NONE := (congrArg ReceiveState.shutdown hsame).trans hopen
  rw [← trim_congr hsame seg, ← hsame]
  rw [← hsame] at h hseg
  exact processRest_taken h hseg hdata hopen' (isControl seg)

theorem process_closed (haccepted : Accepted seg s) (hclosed : ¬ (s.acked env seg).1 = true)
    (hdata : seg.flags &&& FLAG_CTL = 0) :
    (s.process env seg).2.receiveState = s.receiveState := by
  rw [process_of_accepted haccepted, if_neg hclosed]
  exact acked_of_data hdata

/-- One segment. -/
theorem process_sound (h : s.receiveState.Sound arrived)
    (hseg : Accepted seg s → s.Orderly seg) :
    (s.process env seg).2.receiveState.Sound
        ((taken env seg s).elim arrived (Tcp.arrive · arrived)) ∧
      ((s.process env seg).2.receiveState.gap = s.receiveState.gap ∨
        seg.flags &&& FLAG_CTL ≠ 0 ∧ (s.process env seg).2.receiveState.gap = 0) := by
  by_cases haccepted : Accepted seg s
  · have horderly := hseg haccepted
    by_cases hcontrol : seg.flags &&& FLAG_CTL ≠ 0
    · have hnone : taken env seg s = none := if_neg fun htaken => hcontrol htaken.2.2.1
      obtain ⟨hsound, hgap⟩ := @process_control env s arrived seg haccepted hcontrol h
        (horderly.control hcontrol)
      rw [hnone]
      exact ⟨hsound, hgap.imp_right fun hzero => ⟨hcontrol, hzero⟩⟩
    · have hdata := not_not.mp hcontrol
      by_cases hshutdown : s.shutdown ≠ .SD_NONE
      · have hnone : taken env seg s = none := if_neg fun htaken => hshutdown htaken.2.2.2
        obtain ⟨hsound, hgap⟩ := @process_shutdown env s arrived seg haccepted hdata hshutdown h
          (horderly.shutdown hdata hshutdown)
        rw [hnone]
        exact ⟨hsound, .inl hgap⟩
      · have hopen := not_not.mp hshutdown
        by_cases hkept : (s.acked env seg).1 = true
        · have hsome : taken env seg s = some (s.trim seg) :=
            if_pos ⟨haccepted, hkept, hdata, hopen⟩
          obtain ⟨hsound, hgap⟩ := process_taken haccepted hkept hdata hopen h
            (horderly.data hdata hopen)
          rw [hsome]
          exact ⟨hsound, .inl hgap⟩
        · have hnone : taken env seg s = none := if_neg fun htaken => hkept htaken.2.1
          rw [hnone, process_closed haccepted hkept hdata]
          exact ⟨h, .inl rfl⟩
  · have hnone : taken env seg s = none := if_neg fun htaken => haccepted htaken.1
    rw [hnone, (process_of_not_accepted haccepted).2]
    exact ⟨h, .inl rfl⟩

end Datagrams

/-! ## Runs -/

section Calls

variable {env : Env} {s : PseudoTcp} {arrived : U32 → Byte}

/-- The difference between the free space and the window after `Recv` has freed some
bytes: the window is opened once it is worth an ack. -/
def gapAfter (s : PseudoTcp) (n : Nat) : Nat :=
  if (uMin (s.rbufLen / 2) s.mss).toNat ≤ s.receiveState.gap + n then 0
  else s.receiveState.gap + n

theorem recv_sound (len : Nat) (h : s.receiveState.Sound arrived) :
    (s.recv env len).2.receiveState.Sound arrived ∧
      (s.recv env len).2.receiveState.gap =
        (s.recv env len).1.elim s.receiveState.gap (s.gapAfter ·.length) := by
  unfold recv
  by_cases hstate : s.state ≠ .TCP_ESTABLISHED
  · rw [if_pos hstate]
    exact ⟨h, rfl⟩
  · rw [if_neg hstate]
    cases hread : s.rbuf.read len with
    | none => exact ⟨h, rfl⟩
    | some result =>
      obtain ⟨bytes, rbuf⟩ := result
      obtain ⟨hlength, rfl⟩ := FifoBuffer.read_eq_some hread
      obtain ⟨hfreed, hgap⟩ := h.read hlength
      have hwindow : s.rcvWnd.toNat ≤ (s.rbuf.consumeReadData bytes.length).getWriteRemaining :=
        hfreed.window
      have hspace : (BitVec.ofNat 32 (s.rbuf.consumeReadData bytes.length).getWriteRemaining).toNat =
          (s.rbuf.consumeReadData bytes.length).getWriteRemaining :=
        Nat.mod_eq_of_lt ((Nat.sub_le _ _).trans_lt h.capacity)
      have hdifference : (BitVec.ofNat 32 (s.rbuf.consumeReadData bytes.length).getWriteRemaining -
          s.rcvWnd).toNat = s.receiveState.gap + bytes.length := by
        have hle : s.rcvWnd ≤
            BitVec.ofNat 32 (s.rbuf.consumeReadData bytes.length).getWriteRemaining :=
          hwindow.trans_eq hspace.symm
        rw [BitVec.toNat_sub_of_le hle, hspace]
        exact hgap
      dsimp only
      have hworth : uMin (s.rbufLen / 2) s.mss ≤
          BitVec.ofNat 32 (s.rbuf.consumeReadData bytes.length).getWriteRemaining - s.rcvWnd ↔
          (uMin (s.rbufLen / 2) s.mss).toNat ≤ s.receiveState.gap + bytes.length := by
        rw [← hdifference]
        rfl
      by_cases hopen : (uMin (s.rbufLen / 2) s.mss).toNat ≤ s.receiveState.gap + bytes.length
      · rw [if_pos (hworth.mpr hopen), Option.elim_some, gapAfter, if_pos hopen]
        dsimp only
        split
        · rw [attemptSend_receiveState]
          exact hfreed.reopen
        · exact hfreed.reopen
      · rw [if_neg fun hle => hopen (hworth.mp hle), Option.elim_some, gapAfter, if_neg hopen]
        exact ⟨hfreed, hgap⟩

/-- The segment of a datagram that is not dropped for its length. -/
def received (buffer : Mem) (len : Nat) : Option Segment :=
  if MAX_PACKET.toNat < len ∨ BitVec.ofNat 32 len < 12 then none
  else some (segmentOf buffer (BitVec.ofNat 32 len))

theorem notifyPacket_eq (buffer : Mem) (len : Nat) :
    s.notifyPacket env buffer len =
      (received buffer len).elim (false, s) (s.process env) := by
  unfold notifyPacket parse received
  by_cases hlong : MAX_PACKET.toNat < len
  · rw [if_pos hlong, if_pos (.inl hlong), Option.elim_none]
  · rw [if_neg hlong]
    by_cases hshort : BitVec.ofNat 32 len < 12
    · rw [if_pos hshort, if_pos (.inr hshort), Option.elim_none]
    · rw [if_neg hshort, if_neg (not_or.mpr ⟨hlong, hshort⟩), Option.elim_some]

/-- The calls of an orderly run: the receive buffer is resized only while no range is
kept, and the segments that are accepted are orderly. -/
def OrderlyCall (s : PseudoTcp) : Call → Prop
  | .setOption .OPT_RCVBUF _ => s.rlist = []
  | .notifyPacket buffer len => ∀ seg ∈ received buffer len, Accepted seg s → s.Orderly seg
  | _ => True

instance (s : PseudoTcp) : ∀ c, Decidable (s.OrderlyCall c)
  | .setOption .OPT_RCVBUF _ => inferInstanceAs (Decidable (s.rlist = []))
  | .notifyPacket buffer len =>
    inferInstanceAs (Decidable (∀ seg ∈ received buffer len, Accepted seg s → s.Orderly seg))
  | .connect | .send _ | .recv _ | .close _ | .notifyMTU _ | .notifyClock _
  | .setOption .OPT_NODELAY _ | .setOption .OPT_ACKDELAY _ | .setOption .OPT_SNDBUF _ =>
    .isTrue trivial

/-- What a call makes of the difference between the free space and the window. -/
def GapFollows (env : Env) (s : PseudoTcp) (c : Call) : Prop :=
  let gap' := (s.call env c).receiveState.gap
  match c with
  | .recv len => gap' = (s.recv env len).1.elim s.receiveState.gap (s.gapAfter ·.length)
  | .setOption .OPT_RCVBUF _ => gap' = 0
  | .notifyPacket buffer len =>
    gap' = s.receiveState.gap ∨
      (∃ seg ∈ received buffer len, seg.flags &&& FLAG_CTL ≠ 0) ∧ gap' = 0
  | _ => gap' = s.receiveState.gap

end Calls

end PseudoTcp

/-- An endpoint, and the bytes that have arrived. -/
structure Trace where
  tcp : PseudoTcp
  arrived : U32 → Byte

namespace Trace

open Machine PseudoTcp

variable {env : Env}

def step (env : Env) (t : Trace) (c : Call) : Trace where
  tcp := t.tcp.call env c
  arrived :=
    match c with
    | .notifyPacket buffer len =>
      ((received buffer len).bind (taken env · t.tcp)).elim t.arrived (arrive · t.arrived)
    | _ => t.arrived

theorem sound_of_same {t : Trace} {c : Call} (h : t.tcp.receiveState.Sound t.arrived)
    (hsame : (t.tcp.call env c).receiveState = t.tcp.receiveState) :
    (t.tcp.call env c).receiveState.Sound t.arrived ∧
      (t.tcp.call env c).receiveState.gap = t.tcp.receiveState.gap := by
  rw [hsame]
  exact ⟨h, rfl⟩

/-- One call. -/
theorem step_sound (t : Trace) (c : Call) (h : t.tcp.receiveState.Sound t.arrived)
    (hcall : t.tcp.OrderlyCall c) :
    (t.step env c).tcp.receiveState.Sound (t.step env c).arrived ∧ GapFollows env t.tcp c := by
  cases c with
  | connect => exact sound_of_same h (connect_receiveState env t.tcp)
  | send data => exact sound_of_same h (send_receiveState env t.tcp data)
  | recv len => exact recv_sound len h
  | close force => exact ⟨h.setShutdown _, rfl⟩
  | notifyMTU mtu => exact sound_of_same h (t.tcp.notifyMTU_receiveState mtu)
  | setOption opt value =>
    cases opt with
    | OPT_NODELAY => exact sound_of_same h rfl
    | OPT_ACKDELAY => exact sound_of_same h rfl
    | OPT_SNDBUF => exact sound_of_same h rfl
    | OPT_RCVBUF =>
      obtain ⟨hwindow, hgap⟩ := resizeReceiveBuffer_window value h.toWindow
      exact ⟨.of_empty hwindow hcall, hgap⟩
  | notifyPacket buffer len =>
    change ∀ seg ∈ received buffer len, Accepted seg t.tcp → t.tcp.Orderly seg at hcall
    unfold GapFollows step PseudoTcp.call
    dsimp only
    rw [notifyPacket_eq]
    cases hreceived : received buffer len with
    | none => exact ⟨h, .inl rfl⟩
    | some seg =>
      obtain ⟨hsound, hgap⟩ := @process_sound env t.tcp t.arrived seg h (hcall seg hreceived)
      exact ⟨hsound, hgap.imp_right fun hzero => ⟨⟨seg, rfl, hzero.1⟩, hzero.2⟩⟩
  | notifyClock now => exact sound_of_same h (notifyClock_receiveState env t.tcp now)

/-- A new endpoint. -/
theorem create_sound (env : Env) (conv : U32) (memory : Mem) (arrived : U32 → Byte) :
    (create env conv memory).receiveState.Sound arrived := by
  obtain ⟨hwindow, -⟩ := @ReceiveState.opened (create env conv memory).receiveState
    (Nat.zero_le _) (show 61440 < 2 ^ 32 by decide) rfl
  exact .of_empty hwindow rfl

/-- In every state of an orderly run, the window is at most the free space of the buffer, and
each range that arrived out of order lies strictly behind the next byte that is expected, ends
in the window, and stands in the buffer; the free space that is not offered is what `Recv`
freed since it last opened the window. -/
theorem run_receiveWindow (env : Env) (conv : U32) (memory : Mem) (arrived : U32 → Byte)
    (calls : List Call)
    (h : Along (step env) (fun t c => t.tcp.OrderlyCall c) ⟨create env conv memory, arrived⟩
      calls) :
    Always (step env) (fun t => t.tcp.receiveState.Sound t.arrived)
        ⟨create env conv memory, arrived⟩ calls ∧
      Along (step env) (fun t c => GapFollows env t.tcp c) ⟨create env conv memory, arrived⟩
        calls :=
  have hcreate := create_sound env conv memory arrived
  ⟨always_of_along (fun t c ht hcall => (step_sound t c ht hcall).1) hcreate h,
    along_of_along (fun t c ht hcall => step_sound t c ht hcall) hcreate h⟩

/-- The next bytes of the peer, and a byte that is ahead of those that follow. -/
def dataReply : List Byte := ackReply 4 ++ [97, 98]

def aheadReply : List Byte :=
  [0, 0, 0, 1, 0, 0, 0, 8, 0, 0, 0, 4, 0, 0, 0xF0, 0, 0, 0, 3, 232, 0, 0, 3, 232, 101]

/-- Two bytes, of which one is read, and the fifth. -/
theorem run_receiveWindow_ahead :
    let calls := [.connect, .notifyPacket (Mem.ofList connectReply) 28,
      .notifyPacket (Mem.ofList dataReply) 26, .recv 1, .notifyPacket (Mem.ofList aheadReply) 25]
    Always (step stillEnv) (fun t => t.tcp.receiveState.Sound t.arrived)
        ⟨create stillEnv 1 fun _ => 0, fun _ => 0⟩ calls ∧
      Along (step stillEnv) (fun t c => GapFollows stillEnv t.tcp c)
        ⟨create stillEnv 1 fun _ => 0, fun _ => 0⟩ calls :=
  run_receiveWindow stillEnv 1 (fun _ => 0) (fun _ => 0) _
    ⟨trivial, by decide +kernel, by decide +kernel, trivial, by decide +kernel, trivial⟩

/-- The window is not the free space: the byte that is read is not offered yet. -/
theorem run_not_receiveWindow :
    let s := PseudoTcp.run stillEnv [.connect, .notifyPacket (Mem.ofList connectReply) 28,
      .notifyPacket (Mem.ofList dataReply) 26, .recv 1] (create stillEnv 1 fun _ => 0)
    s.state = .TCP_ESTABLISHED ∧ s.rcvWnd.toNat ≠ s.rbuf.getWriteRemaining := by
  decide +kernel

end Trace

end PerchWebrtc.Tcp
