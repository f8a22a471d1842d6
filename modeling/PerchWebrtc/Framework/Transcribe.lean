import PerchWebrtc.Framework.Buffer
import PerchWebrtc.Framework.Loops

/-!
# Transcribing a block of bytes

A loop reads a source and writes a buffer until the source ends or one byte of the buffer is
left, and a zero is put behind what it wrote. Reading or writing outside the blocks has no
result.

* `transcribe_safe`: rounds that stay in the blocks;
* `loop_rewrites`: rounds that replace one text after the other;
* `transcribe_inverts`: two transcriptions that replace the same texts by each other.
-/

namespace PerchWebrtc.Framework

/-- The positions in the source and in the buffer, and the buffer. -/
structure Cursor where
  srcpos : ℕ
  bufpos : ℕ
  buffer : Mem

/-- The bytes go to the next positions of the buffer. -/
def Cursor.write (buflen : ℕ) (bytes : List Byte) (s : Cursor) : Option Cursor :=
  if s.bufpos + bytes.length ≤ buflen then
    some ⟨s.srcpos, s.bufpos + bytes.length,
      s.buffer.copy s.bufpos (Mem.ofList bytes) 0 bytes.length⟩
  else none

/-- A round for a source and a length of the buffer: it ends the loop, or goes on. -/
abbrev Round := List Byte → ℕ → Cursor → Option (Cursor ⊕ Cursor)

/-- The round, while there is something to read and room. -/
def guarded (body : Round) (source : List Byte) (buflen : ℕ) (s : Cursor) :
    Option (Cursor ⊕ Cursor) :=
  if s.srcpos < source.length ∧ s.bufpos + 1 < buflen then body source buflen s
  else some (.inl s)

/-- The buffer afterwards, and how many bytes stand before the zero. -/
def transcribe (body : Round) (source : List Byte) (buflen : ℕ) (buffer : Mem) :
    Option (Mem × ℕ) := do
  let s ← loop (guarded body source buflen) (source.length + 1) ⟨0, 0, buffer⟩
  let s' ← s.write buflen [0]
  some (s'.buffer, s.bufpos)

/-- There is a result: a length in the buffer, where a zero stands. -/
def Safe (buflen : ℕ) (result : Option (Mem × ℕ)) : Prop :=
  ∃ buffer n, result = some (buffer, n) ∧ n < buflen ∧ buffer n = 0

/-- The buffer starts with the bytes and a zero. -/
def Yields (result : Option (Mem × ℕ)) (bytes : List Byte) : Prop :=
  ∃ buffer : Mem, result = some (buffer, bytes.length) ∧ buffer.Holds 0 (bytes ++ [0])

/-- A round leaves room for the zero, and reads on if the loop goes on. -/
def Stays (buflen : ℕ) (s : Cursor) : Cursor ⊕ Cursor → Prop :=
  Sum.elim (fun s' => s'.bufpos < buflen) fun s' => s'.bufpos < buflen ∧ s.srcpos < s'.srcpos

/-- Inside the blocks the round has a result. -/
def Keeps (body : Round) : Prop :=
  ∀ (source : List Byte) (buflen : ℕ) (s : Cursor), s.srcpos < source.length →
    s.bufpos + 1 < buflen → ∃ x, body source buflen s = some x ∧ Stays buflen s x

/-- Where the text stands in front of the cursor, a round replaces it by the bytes. -/
def Rewrites (body : Round) (text bytes : List Byte) : Prop :=
  text ≠ [] ∧ bytes ≠ [] ∧ ∀ (front rest : List Byte) (buflen : ℕ) (s : Cursor),
    s.srcpos = front.length → s.bufpos + bytes.length < buflen →
      body (front ++ (text ++ rest)) buflen s =
        (s.write buflen bytes).map fun s' => .inr { s' with srcpos := (front ++ text).length }

/-- The text has been read, and the bytes have been written. -/
structure Cursor.At (s : Cursor) (text bytes : List Byte) : Prop where
  srcpos : s.srcpos = text.length
  bufpos : s.bufpos = bytes.length
  holds : s.buffer.Holds 0 bytes

variable {body : Round} {source text bytes rest : List Byte} {buflen : ℕ} {buffer : Mem} {s : Cursor}
  {pieces : List (List Byte × List Byte)}

theorem write_eq_some (h : s.bufpos + bytes.length ≤ buflen) :
    s.write buflen bytes = some ⟨s.srcpos, s.bufpos + bytes.length,
      s.buffer.copy s.bufpos (Mem.ofList bytes) 0 bytes.length⟩ := if_pos h

theorem write_eq_none (h : buflen < s.bufpos + bytes.length) : s.write buflen bytes = none :=
  if_neg (Nat.not_le.mpr h)

/-- Moving the cursor in the source before or after a write. -/
theorem write_map_srcpos (buflen : ℕ) (bytes : List Byte) (s : Cursor) (p : ℕ) :
    Cursor.write buflen bytes { s with srcpos := p } =
      (s.write buflen bytes).map fun t => { t with srcpos := p } := by
  rw [Cursor.write, Cursor.write]
  split
  · rfl
  · rfl

theorem write_moved {n : ℕ} (bytes : List Byte) (s : Cursor) {p : ℕ} (k : ℕ) (h : p + k = n) :
    (Cursor.write buflen bytes { s with srcpos := p }).map
        (fun t => (.inr { t with srcpos := t.srcpos + k } : Cursor ⊕ Cursor)) =
      (s.write buflen bytes).map fun t => .inr { t with srcpos := n } := by
  rw [write_map_srcpos, Option.map_map, ← h]
  rfl

/-- Bytes behind those that are there. -/
theorem holds_copy {m : Mem} {bytes' : List Byte} (h : m.Holds 0 bytes) :
    (m.copy bytes.length (Mem.ofList bytes') 0 bytes'.length).Holds 0 (bytes ++ bytes') := by
  rw [Mem.holds_append, Nat.zero_add]
  constructor
  · refine (Mem.bytes_eq_iff.mpr fun i hi => ?_).trans h
    exact Mem.copy_outside _ _ (by omega)
  · refine (Mem.bytes_eq_iff.mpr fun i hi => ?_).trans (Mem.holds_ofList [] bytes' [])
    rw [Mem.copy_inside _ _ (by omega) (by omega), Nat.add_sub_cancel_left, List.append_nil]
    rfl

/-- What has been written after a write. -/
theorem Cursor.At.write (h : s.At text bytes) {bytes' : List Byte}
    (hroom : (bytes ++ bytes').length ≤ buflen) :
    ∃ s', s.write buflen bytes' = some s' ∧ s'.At text (bytes ++ bytes') := by
  rw [List.length_append, ← h.bufpos] at hroom
  refine ⟨_, write_eq_some hroom, h.srcpos, ?_, ?_⟩
  · show s.bufpos + bytes'.length = _
    rw [List.length_append, h.bufpos]
  · show (s.buffer.copy s.bufpos _ 0 _).Holds 0 _
    rw [h.bufpos]
    exact holds_copy h.holds

theorem at_start (buffer : Mem) : Cursor.At ⟨0, 0, buffer⟩ [] [] := ⟨rfl, rfl, Mem.holds_nil⟩

theorem stays_stop {s' : Cursor} (h : s'.bufpos < buflen) :
    ∃ x, some (Sum.inl s') = some x ∧ Stays buflen s x := ⟨_, rfl, h⟩

theorem stays_write {s' : Cursor} (hsrcpos : s.srcpos < s'.srcpos)
    (hroom : s'.bufpos + bytes.length < buflen) (n : ℕ) :
    ∃ x, (s'.write buflen bytes).map (fun t => .inr { t with srcpos := t.srcpos + n }) = some x ∧
      Stays buflen s x := by
  rw [write_eq_some (Nat.le_of_lt hroom)]
  exact ⟨_, rfl, hroom, Nat.lt_add_right n hsrcpos⟩

/-! ## The end of the loop -/

theorem transcribe_of_loop (h : loop (guarded body source buflen) (source.length + 1)
    ⟨0, 0, buffer⟩ = some s) :
    transcribe body source buflen buffer =
      (s.write buflen [0]).map fun s' => (s'.buffer, s.bufpos) := by
  rw [transcribe, h]
  exact Option.map_eq_bind.symm

theorem safe_of_loop (h : loop (guarded body source buflen) (source.length + 1)
    ⟨0, 0, buffer⟩ = some s) (hroom : s.bufpos < buflen) :
    Safe buflen (transcribe body source buflen buffer) := by
  rw [transcribe_of_loop h, write_eq_some hroom]
  refine ⟨_, s.bufpos, rfl, hroom, ?_⟩
  show s.buffer.copy s.bufpos _ 0 1 s.bufpos = 0
  rw [Mem.copy_inside _ _ le_rfl (Nat.lt_succ_self _), Nat.sub_self]
  rfl

theorem not_safe_of_loop (h : loop (guarded body source buflen) (source.length + 1)
    ⟨0, 0, buffer⟩ = none) : ¬ Safe buflen (transcribe body source buflen buffer) := by
  rintro ⟨buffer', n, hresult, -⟩
  rw [transcribe, h] at hresult
  cases hresult

/-- No room for the zero is left. -/
theorem not_safe_of_full (h : loop (guarded body source buflen) (source.length + 1)
    ⟨0, 0, buffer⟩ = some s) (hfull : buflen ≤ s.bufpos) :
    ¬ Safe buflen (transcribe body source buflen buffer) := by
  rintro ⟨buffer', n, hresult, -⟩
  rw [transcribe_of_loop h, write_eq_none (Nat.lt_succ_of_le hfull)] at hresult
  cases hresult

theorem transcribe_safe (hkeeps : Keeps body) (source : List Byte) (hbuflen : 0 < buflen)
    (buffer : Mem) : Safe buflen (transcribe body source buflen buffer) := by
  have hround : ∀ s : Cursor, s.bufpos < buflen →
      Advances (fun s' => s'.bufpos < buflen) (fun s' => source.length - s'.srcpos)
        (fun s' => s'.bufpos < buflen) (guarded body source buflen) s := by
    intro s hs
    by_cases hguard : s.srcpos < source.length ∧ s.bufpos + 1 < buflen
    · obtain ⟨x, hx, hpost⟩ := hkeeps source buflen s hguard.1 hguard.2
      rw [← show guarded body source buflen s = _ from if_pos hguard] at hx
      cases x with
      | inl s' => exact .inl ⟨s', hx, hpost⟩
      | inr s' =>
        have hless : s.srcpos < s'.srcpos := hpost.2
        exact .inr ⟨s', hx, hpost.1, Nat.sub_lt_sub_left hguard.1 hless⟩
    · exact .inl ⟨s, if_neg hguard, hs⟩
  obtain ⟨s, hs, hroom⟩ := loop_spec hround (s := ⟨0, 0, buffer⟩) hbuflen (Nat.lt_succ_self _)
  exact safe_of_loop hs hroom

/-! ## Replacing texts -/

theorem Rewrites.round (h : Rewrites body text bytes) (rest : List Byte) (buflen : ℕ)
    {front before : List Byte} (hs : s.At front before) (hroom : (before ++ bytes).length < buflen) :
    ∃ s', guarded body (front ++ (text ++ rest)) buflen s = some (.inr s') ∧
      s'.At (front ++ text) (before ++ bytes) := by
  obtain ⟨htext, hbytes, hbody⟩ := h
  have htext := List.length_pos_iff.mpr htext
  have hbytes := List.length_pos_iff.mpr hbytes
  obtain ⟨s', hwrite, hs'⟩ := hs.write (Nat.le_of_lt hroom)
  rw [List.length_append, ← hs.bufpos] at hroom
  have hguard : s.srcpos < (front ++ (text ++ rest)).length ∧ s.bufpos + 1 < buflen := by
    rw [List.length_append, List.length_append, hs.srcpos]
    omega
  refine ⟨{ s' with srcpos := (front ++ text).length }, ?_, rfl, hs'.bufpos, hs'.holds⟩
  rw [guarded, if_pos hguard, hbody front rest buflen s hs.srcpos hroom, hwrite]
  rfl

/-- Texts that stand one behind the other are replaced one after the other. -/
theorem loop_rewrites (h : ∀ p ∈ pieces, Rewrites body p.1 p.2) :
    ∀ {front before : List Byte} {s : Cursor},
    s.At front before → source = front ++ (pieces.flatMap Prod.fst ++ rest) →
    (before ++ pieces.flatMap Prod.snd).length < buflen →
    ∃ s' : Cursor, s'.At (front ++ pieces.flatMap Prod.fst) (before ++ pieces.flatMap Prod.snd) ∧
      ∀ fuel, loop (guarded body source buflen) (fuel + pieces.length) s =
        loop (guarded body source buflen) fuel s' := by
  induction pieces with
  | nil =>
    intro front before s hs _ _
    exact ⟨s, by simpa using hs, fun fuel => rfl⟩
  | cons p pieces ih =>
    intro front before s hs hsource hroom
    rw [List.flatMap_cons, List.append_assoc] at hsource
    rw [List.flatMap_cons, ← List.append_assoc] at hroom
    obtain ⟨s₁, hround, hs₁⟩ := (h p List.mem_cons_self).round
      (pieces.flatMap Prod.fst ++ rest) buflen hs
      (lt_of_le_of_lt (List.sublist_append_left _ _).length_le hroom)
    obtain ⟨s', hs', hloop⟩ := ih (fun q hq => h q (List.mem_cons_of_mem _ hq)) hs₁
      (by rw [hsource, List.append_assoc]) hroom
    refine ⟨s', by simpa only [List.flatMap_cons, ← List.append_assoc] using hs', fun fuel => ?_⟩
    rw [List.length_cons, ← Nat.add_assoc, loop, hsource, hround, ← hsource]
    exact hloop fuel

theorem length_pieces_le (h : ∀ p ∈ pieces, Rewrites body p.1 p.2) :
    pieces.length ≤ (pieces.flatMap Prod.fst).length := by
  induction pieces with
  | nil => exact Nat.zero_le _
  | cons p pieces ih =>
    have htext := List.length_pos_iff.mpr (h p List.mem_cons_self).1
    have hle := ih fun q hq => h q (List.mem_cons_of_mem _ hq)
    rw [List.flatMap_cons, List.length_append, List.length_cons]
    omega

theorem transcribe_rewrites (h : ∀ p ∈ pieces, Rewrites body p.1 p.2)
    (hroom : (pieces.flatMap Prod.snd).length < buflen) (buffer : Mem) :
    Yields (transcribe body (pieces.flatMap Prod.fst) buflen buffer) (pieces.flatMap Prod.snd) := by
  obtain ⟨s, hs, hloop⟩ := loop_rewrites h (at_start buffer)
    (show pieces.flatMap Prod.fst = [] ++ (pieces.flatMap Prod.fst ++ []) by simp) hroom
  have hlength := length_pieces_le h
  have hend : loop (guarded body (pieces.flatMap Prod.fst) buflen)
      ((pieces.flatMap Prod.fst).length + 1) ⟨0, 0, buffer⟩ = some s := by
    obtain ⟨fuel, hfuel⟩ := Nat.exists_eq_add_of_le' hlength
    rw [hfuel, Nat.add_right_comm, hloop, loop, guarded, if_neg (by rw [hs.srcpos]; simp)]
  obtain ⟨s', hwrite, hs'⟩ := hs.write
    (show ([] ++ pieces.flatMap Prod.snd ++ [0]).length ≤ buflen by simpa using hroom)
  refine ⟨s'.buffer, ?_, hs'.holds⟩
  rw [transcribe_of_loop hend, hwrite, Option.map_some, hs.bufpos]
  rfl

/-- One transcription undoes the other. -/
theorem transcribe_inverts {body' : Round} {buflen' : ℕ}
    (h : ∀ p ∈ pieces, Rewrites body p.1 p.2 ∧ Rewrites body' p.2 p.1)
    (hroom : (pieces.flatMap Prod.snd).length < buflen)
    (hroom' : (pieces.flatMap Prod.fst).length < buflen') (buffer buffer' : Mem) :
    ∃ text, Yields (transcribe body (pieces.flatMap Prod.fst) buflen buffer) text ∧
      Yields (transcribe body' text buflen' buffer') (pieces.flatMap Prod.fst) := by
  have hswap : ∀ p ∈ pieces.map Prod.swap, Rewrites body' p.1 p.2 := by
    intro p hp
    obtain ⟨q, hq, rfl⟩ := List.mem_map.mp hp
    exact (h q hq).2
  have hback := transcribe_rewrites hswap
    (show _ < buflen' by simpa [List.flatMap_map] using hroom') buffer'
  refine ⟨_, transcribe_rewrites (fun p hp => (h p hp).1) hroom buffer, ?_⟩
  simpa [List.flatMap_map] using hback

end PerchWebrtc.Framework
