import PerchWebrtc.NetEq.PayloadSplitter

/-!
# Splitting RED payloads inside their bytes

`SplitRed` follows the headers of a payload until one without the F bit.

* `HeadersEnd`: there is such a header inside the payload;
* `readHeaders_eq`: what the headers of a payload give;
* `populate_inside`, `populate_mismatch`: blocks are copied as long as they fit;
* `splitRed_inside_iff`: a list of packets is split inside their payloads, with lengths
  that do not match reported, if and only if the headers of every packet end there.
-/

namespace PerchWebrtc.NetEq

namespace PayloadSplitter

variable (red : Packet)

/-- The header with number `k` is the first one without the F bit. -/
def LastHeader (k : Nat) : Prop :=
  isLast red.bytes (4 * k) = true ∧ ∀ i < k, isLast red.bytes (4 * i) = false

instance (k : Nat) : Decidable (LastHeader red k) := inferInstanceAs (Decidable (_ ∧ _))

/-- The headers end inside the payload. -/
def HeadersEnd : Prop := ∃ k, LastHeader red k ∧ (4 * k : Nat) < red.size

/-- The block lengths of `k` headers from `p` on. -/
def blockLengths (p k : Nat) : Nat :=
  ((List.range k).map fun i => blockLength red.bytes (p + 4 * i)).sum

/-- The block lengths in the headers are more than the payload has behind them. -/
def LengthsExceed : Prop :=
  ∃ k, LastHeader red k ∧
    red.payloadLength < (4 * k + 1 + blockLengths red 0 k : Nat)

/-! ## Headers -/

section Headers

variable {red} {fuel p : Nat} {sumLength : Int}

theorem readHeaders_last (h : isLast red.bytes p = true) :
    readHeaders red (fuel + 1) p sumLength =
      ([⟨red.size, p, 1⟩], some ([lastBlock red p sumLength], p + 1)) := if_pos h

theorem readHeaders_redundant (h : isLast red.bytes p = false) :
    readHeaders red (fuel + 1) p sumLength =
      (⟨red.size, p, 4⟩ ::
          (readHeaders red fuel (p + 4) (sumLength + blockLength red.bytes p + 4)).1,
        (readHeaders red fuel (p + 4) (sumLength + blockLength red.bytes p + 4)).2.map
          fun blocks => (redundantBlock red p :: blocks.1, blocks.2)) :=
  if_neg (by rw [h]; exact Bool.false_ne_true)

/-- The reads of `k` headers with the F bit. -/
def headerReads (red : Packet) (p k : Nat) : List Access :=
  (List.range k).map fun i => ⟨red.size, (p + 4 * i : Nat), 4⟩

/-- Their blocks. -/
def redundantBlocks (red : Packet) (p k : Nat) : List Packet :=
  (List.range k).map fun i => redundantBlock red (p + 4 * i)

/-- A list with an entry for each of `k + 1` headers. -/
theorem map_headers_succ {α : Type*} (f : Nat → α) (p k : Nat) :
    ((List.range (k + 1)).map fun i => f (p + 4 * i)) =
      f p :: (List.range k).map fun i => f (p + 4 + 4 * i) := by
  rw [List.range_succ_eq_map, List.map_cons, List.map_map]
  refine congrArg _ (List.map_congr_left fun i _ => ?_)
  show f (p + 4 * (i + 1)) = f (p + 4 + 4 * i)
  rw [show p + 4 * (i + 1) = p + 4 + 4 * i by omega]

theorem blockLengths_succ (p k : Nat) :
    blockLengths red p (k + 1) = blockLength red.bytes p + blockLengths red (p + 4) k := by
  unfold blockLengths
  rw [map_headers_succ (blockLength red.bytes), List.sum_cons]

/-- The first of some headers with the F bit, and those after it. -/
theorem headers_succ {k : Nat} (hbefore : ∀ i < k + 1, isLast red.bytes (p + 4 * i) = false) :
    isLast red.bytes p = false ∧ ∀ i < k, isLast red.bytes (p + 4 + 4 * i) = false := by
  refine ⟨hbefore 0 (Nat.succ_pos k), fun i hi => ?_⟩
  rw [show p + 4 + 4 * i = p + 4 * (i + 1) by omega]
  exact hbefore (i + 1) (Nat.succ_lt_succ hi)

/-- Without fuel for all of them. -/
theorem readHeaders_short (hbefore : ∀ i < fuel, isLast red.bytes (p + 4 * i) = false) :
    readHeaders red fuel p sumLength = (headerReads red p fuel, none) := by
  induction fuel generalizing p sumLength with
  | zero => rfl
  | succ fuel ih =>
    obtain ⟨hfirst, hbefore⟩ := headers_succ hbefore
    rw [readHeaders_redundant hfirst, ih hbefore]
    unfold headerReads
    rw [map_headers_succ fun q => (⟨red.size, (q : Nat), 4⟩ : Access)]
    rfl

/-- With fuel for all of them: the reads, the blocks and the place behind the headers. -/
theorem readHeaders_eq {k : Nat} (hlast : isLast red.bytes (p + 4 * k) = true)
    (hbefore : ∀ i < k, isLast red.bytes (p + 4 * i) = false) (hfuel : k < fuel) :
    readHeaders red fuel p sumLength =
      (headerReads red p k ++ [⟨red.size, (p + 4 * k : Nat), 1⟩],
        some (redundantBlocks red p k ++
          [lastBlock red (p + 4 * k) (sumLength + blockLengths red p k + 4 * k)],
          p + 4 * k + 1)) := by
  induction k generalizing fuel p sumLength with
  | zero =>
    obtain ⟨fuel, rfl⟩ : ∃ fuel', fuel = fuel' + 1 := ⟨fuel - 1, by omega⟩
    have hsum : sumLength + (blockLengths red p 0 : Nat) + 4 * (0 : Nat) = sumLength := by
      show sumLength + (0 : Nat) + 4 * (0 : Nat) = sumLength
      omega
    rw [hsum]
    exact readHeaders_last hlast
  | succ k ih =>
    obtain ⟨fuel, rfl⟩ : ∃ fuel', fuel = fuel' + 1 := ⟨fuel - 1, by omega⟩
    obtain ⟨hfirst, hbefore⟩ := headers_succ hbefore
    have hend : p + 4 + 4 * k = p + 4 * (k + 1) := by omega
    have hsum : sumLength + (blockLength red.bytes p : Nat) + 4 + (blockLengths red (p + 4) k : Nat) +
        4 * (k : Nat) = sumLength + (blockLengths red p (k + 1) : Nat) + 4 * ((k + 1 : Nat) : Int) := by
      rw [blockLengths_succ]
      push_cast
      ring
    rw [readHeaders_redundant hfirst, ih (by rw [hend]; exact hlast) hbefore (by omega), hend,
      hsum]
    unfold headerReads redundantBlocks
    rw [map_headers_succ (redundantBlock red),
      map_headers_succ fun q => (⟨red.size, (q : Nat), 4⟩ : Access)]
    rfl

end Headers

/-! ## Blocks -/

section Blocks

variable {red} {redundant : List Packet} {last : Packet} {p : Int}

/-- Blocks with lengths that are not negative, and a last one that has the rest of the
payload, are copied inside it. -/
theorem populate_inside (hsize : red.size = red.payloadLength)
    (hlengths : ∀ block ∈ redundant, 0 ≤ block.payloadLength) (hp : 0 ≤ p)
    (hend : p ≤ red.payloadLength)
    (hlast : last.payloadLength =
      red.payloadLength - (p + (redundant.map (·.payloadLength)).sum)) :
    ∀ a ∈ (populate red (redundant ++ [last]) p).log, a.Inside := by
  induction redundant generalizing p with
  | nil =>
    have hrest : p + last.payloadLength = red.payloadLength := by
      rw [hlast, List.map_nil, List.sum_nil]
      omega
    intro a ha
    rw [List.nil_append] at ha
    unfold populate at ha
    rw [if_neg (by omega)] at ha
    rw [List.mem_singleton.mp ha]
    have hcount : 0 ≤ last.payloadLength := by omega
    exact ⟨hp, hcount, le_of_eq (hrest.trans hsize.symm)⟩
  | cons block redundant ih =>
    have hblock := hlengths block List.mem_cons_self
    rw [List.map_cons, List.sum_cons] at hlast
    intro a ha
    rw [List.cons_append] at ha
    unfold populate at ha
    split at ha
    · cases ha
    · rename_i hfits
      rcases List.mem_cons.mp ha with rfl | ha
      · exact ⟨hp, hblock, le_of_le_of_eq (not_lt.mp hfits) hsize.symm⟩
      · exact ih (fun q hq => hlengths q (List.mem_cons_of_mem _ hq)) (by omega) (by omega)
          (by rw [hlast]; omega) a ha

/-- A block is discarded if and only if the lengths before the last one are too much. -/
theorem populate_mismatch (hlengths : ∀ block ∈ redundant, 0 ≤ block.payloadLength)
    (hend : p ≤ red.payloadLength)
    (hlast : last.payloadLength =
      red.payloadLength - (p + (redundant.map (·.payloadLength)).sum)) :
    (populate red (redundant ++ [last]) p).mismatch = true ↔
      red.payloadLength < p + (redundant.map (·.payloadLength)).sum := by
  induction redundant generalizing p with
  | nil =>
    rw [List.map_nil, List.sum_nil] at hlast ⊢
    rw [List.nil_append]
    unfold populate
    rw [if_neg (by omega)]
    exact ⟨fun h => absurd h Bool.false_ne_true, fun h => absurd h (by omega)⟩
  | cons block redundant ih =>
    have hrest : ∀ q ∈ redundant, 0 ≤ q.payloadLength := fun q hq =>
      hlengths q (List.mem_cons_of_mem _ hq)
    have hnonneg : 0 ≤ (redundant.map (·.payloadLength)).sum :=
      List.sum_nonneg fun n hn => by
        obtain ⟨q, hq, rfl⟩ := List.mem_map.mp hn
        exact hrest q hq
    rw [List.map_cons, List.sum_cons] at hlast ⊢
    rw [List.cons_append]
    unfold populate
    split
    · exact iff_of_true rfl (by omega)
    · have h := ih hrest (p := p + block.payloadLength) (by omega) (by rw [hlast]; omega)
      rw [Int.add_assoc] at h
      exact h

end Blocks

/-! ## Packets -/

section Packets

variable {red} {k fuel : Nat}

theorem LastHeader.unique {k' : Nat} (h : LastHeader red k) (h' : LastHeader red k') : k = k' := by
  rcases Nat.lt_trichotomy k k' with hlt | heq | hlt
  · exact absurd (h.1.symm.trans (h'.2 k hlt)) (by decide)
  · exact heq
  · exact absurd (h'.1.symm.trans (h.2 k' hlt)) (by decide)

theorem mem_headerReads {p : Nat} {a : Access} :
    a ∈ headerReads red p k ↔ ∃ i < k, a = ⟨red.size, (p + 4 * i : Nat), 4⟩ := by
  simp only [headerReads, List.mem_map, List.mem_range, eq_comm]

theorem redundantBlocks_lengths (p : Nat) :
    (∀ block ∈ redundantBlocks red p k, 0 ≤ block.payloadLength) ∧
      ((redundantBlocks red p k).map (·.payloadLength)).sum = (blockLengths red p k : Int) := by
  unfold redundantBlocks blockLengths
  constructor
  · intro block hblock
    obtain ⟨i, -, rfl⟩ := List.mem_map.mp hblock
    exact Int.natCast_nonneg _
  · rw [List.map_map, Nat.cast_list_sum, List.map_map]
    rfl

theorem size_of_pos (h : 0 < red.size) : red.size = red.payloadLength := by
  unfold Packet.size at h ⊢
  split
  · rfl
  · rename_i hnone
    rw [if_neg hnone] at h
    exact absurd h (lt_irrefl _)

/-- The blocks of the headers of a payload. -/
def headerBlocks (red : Packet) (k : Nat) : List Packet :=
  redundantBlocks red 0 k ++ [lastBlock red (4 * k) (blockLengths red 0 k + 4 * k)]

theorem splitRedPacket_eq (h : LastHeader red k) (hfuel : k < fuel) :
    splitRedPacket fuel red =
      (headerReads red 0 k ++ [⟨red.size, (4 * k : Nat), 1⟩] ++
          (populate red (headerBlocks red k) (4 * k + 1 : Nat)).log,
        some ((populate red (headerBlocks red k) (4 * k + 1 : Nat)).mismatch,
          (populate red (headerBlocks red k) (4 * k + 1 : Nat)).packets.reverse)) := by
  have hheaders := @readHeaders_eq red fuel 0 0 k (by rw [Nat.zero_add]; exact h.1)
    (fun i hi => by rw [Nat.zero_add]; exact h.2 i hi) hfuel
  rw [Nat.zero_add, Int.zero_add] at hheaders
  unfold splitRedPacket
  rw [hheaders]
  rfl

theorem splitRedPacket_short (h : ∀ i < fuel, isLast red.bytes (4 * i) = false) :
    splitRedPacket fuel red = (headerReads red 0 fuel, none) := by
  have hheaders := @readHeaders_short red fuel 0 0 fun i hi => by rw [Nat.zero_add]; exact h i hi
  unfold splitRedPacket
  rw [hheaders]

/-- The last block of the headers has the rest of the payload. -/
theorem lastBlock_length (red : Packet) (k : Nat) :
    (lastBlock red (4 * k) (blockLengths red 0 k + 4 * k)).payloadLength =
      red.payloadLength -
        ((4 * k + 1 : Nat) + ((redundantBlocks red 0 k).map (·.payloadLength)).sum) := by
  rw [(redundantBlocks_lengths 0).2]
  show red.payloadLength - (_ + 1) = _
  push_cast
  ring

/-- A packet whose headers end inside its payload is split inside it. -/
theorem splitRedPacket_inside (h : LastHeader red k) (hend : (4 * k : Nat) < red.size)
    (fuel : Nat) : ∀ a ∈ (splitRedPacket fuel red).1, a.Inside := by
  have hreads : ∀ n ≤ k, ∀ a ∈ headerReads red 0 n, a.Inside := by
    intro n hn a ha
    obtain ⟨i, hi, rfl⟩ := mem_headerReads.mp ha
    unfold Access.Inside
    dsimp only
    omega
  by_cases hfuel : k < fuel
  · have hsize := size_of_pos (by omega : 0 < red.size)
    rw [splitRedPacket_eq h hfuel]
    intro a ha
    rcases List.mem_append.mp ha with ha | ha
    · rcases List.mem_append.mp ha with ha | ha
      · exact hreads k le_rfl a ha
      · rw [List.mem_singleton.mp ha]
        unfold Access.Inside
        dsimp only
        omega
    · exact populate_inside hsize (redundantBlocks_lengths 0).1 (Int.natCast_nonneg _) (by omega)
        (lastBlock_length red k) a ha
  · rw [splitRedPacket_short fun i hi => h.2 i (by omega)]
    exact hreads fuel (by omega)

theorem splitRedPacket_mismatch (h : LastHeader red k) (hend : (4 * k : Nat) < red.size) :
    (populate red (headerBlocks red k) (4 * k + 1 : Nat)).mismatch = true ↔
      LengthsExceed red := by
  have hsize := size_of_pos (by omega : 0 < red.size)
  have hmismatch := populate_mismatch (redundantBlocks_lengths 0).1 (by omega)
    (lastBlock_length red k)
  rw [(redundantBlocks_lengths 0).2] at hmismatch
  refine hmismatch.trans ⟨fun hlt => ⟨k, h, by push_cast at hlt ⊢; exact hlt⟩, ?_⟩
  rintro ⟨k', h', hlt⟩
  rw [h.unique h']
  push_cast at hlt ⊢
  exact hlt

/-- Reads that stay inside the payload come to the end of the headers there. -/
theorem headersEnd_of_inside {enough : Nat}
    (h : ∀ fuel, enough ≤ fuel → ∀ a ∈ (splitRedPacket fuel red).1, a.Inside) :
    HeadersEnd red := by
  by_cases hex : ∃ k, isLast red.bytes (4 * k) = true
  · have hlast : LastHeader red (Nat.find hex) :=
      ⟨Nat.find_spec hex, fun i hi => Bool.eq_false_iff.mpr (Nat.find_min hex hi)⟩
    have hinside := h (max enough (Nat.find hex + 1)) (le_max_left _ _)
    rw [splitRedPacket_eq hlast (lt_of_lt_of_le (Nat.lt_succ_self _) (le_max_right _ _))] at hinside
    have hread := hinside ⟨red.size, (4 * Nat.find hex : Nat), 1⟩
      (List.mem_append_left _ (List.mem_append_right _ (List.mem_singleton_self _)))
    have hend : ((4 * Nat.find hex : Nat) : Int) + 1 ≤ red.size := hread.2.2
    exact ⟨Nat.find hex, hlast, by omega⟩
  · -- The chain has no end, and some read is outside.
    have hnone : ∀ k, isLast red.bytes (4 * k) = false := fun k =>
      Bool.eq_false_iff.mpr fun hk => hex ⟨k, hk⟩
    have hinside := h (max enough (red.size.toNat + 1)) (le_max_left _ _)
    rw [splitRedPacket_short fun i _ => hnone i] at hinside
    have hread := hinside ⟨red.size, (0 + 4 * red.size.toNat : Nat), 4⟩
      (mem_headerReads.mpr ⟨red.size.toNat,
        lt_of_lt_of_le (Nat.lt_succ_self _) (le_max_right _ _), rfl⟩)
    have hend : ((0 + 4 * red.size.toNat : Nat) : Int) + 4 ≤ red.size := hread.2.2
    omega

end Packets

/-! ## Lists of packets -/

/-- Every read is inside the payload that it is from, for any fuel; there is a result; and
it reports exactly the lengths that do not match. -/
def SplitsSafely (packetList : List Packet) : Prop :=
  (∀ fuel, ∀ a ∈ (splitRed fuel packetList).1, a.Inside) ∧
    (∃ fuel, (splitRed fuel packetList).2.isSome = true) ∧
    ∀ fuel ret newList, (splitRed fuel packetList).2 = some (ret, newList) →
      (ret = .kOK ∨ ret = .kRedLengthMismatch) ∧
        (ret = .kRedLengthMismatch ↔ ∃ red ∈ packetList, LengthsExceed red)

theorem splitRed_cons_log (fuel : Nat) (packetList : List Packet) :
    ∀ a ∈ (splitRedPacket fuel red).1, a ∈ (splitRed fuel (red :: packetList)).1 := by
  intro a ha
  unfold splitRed
  dsimp only
  split
  · exact ha
  · exact List.mem_append_left _ ha

variable {red} {packetList : List Packet}

theorem splitRed_cons {k fuel : Nat} (h : LastHeader red k) (hfuel : k < fuel)
    (packetList : List Packet) :
    splitRed fuel (red :: packetList) =
      ((splitRedPacket fuel red).1 ++ (splitRed fuel packetList).1,
        (splitRed fuel packetList).2.map fun result =>
          (if (populate red (headerBlocks red k) (4 * k + 1 : Nat)).mismatch then
            .kRedLengthMismatch else result.1,
            (populate red (headerBlocks red k) (4 * k + 1 : Nat)).packets.reverse ++ result.2)) := by
  conv_lhs => unfold splitRed
  rw [splitRedPacket_eq h hfuel]

theorem headersEnd_of_splitRed {packetList : List Packet} : ∀ {enough : Nat},
    (∀ fuel, enough ≤ fuel → ∀ a ∈ (splitRed fuel packetList).1, a.Inside) →
      ∀ red ∈ packetList, HeadersEnd red := by
  induction packetList with
  | nil => exact fun _ red hred => absurd hred List.not_mem_nil
  | cons red packetList ih =>
    intro enough h
    have hred : HeadersEnd red := headersEnd_of_inside fun fuel hfuel a ha =>
      h fuel hfuel a (splitRed_cons_log red fuel packetList a ha)
    intro red' hred'
    rcases List.mem_cons.mp hred' with rfl | hred'
    · exact hred
    · obtain ⟨k, hlast, -⟩ := hred
      refine @ih (max enough (k + 1)) (fun fuel hfuel a ha => ?_) red' hred'
      refine h fuel (le_trans (le_max_left _ _) hfuel) a ?_
      rw [splitRed_cons hlast (lt_of_lt_of_le (Nat.lt_succ_self k)
        (le_trans (le_max_right _ _) hfuel))]
      exact List.mem_append_right _ ha

theorem splitRed_inside (h : ∀ red ∈ packetList, HeadersEnd red) (fuel : Nat) :
    ∀ a ∈ (splitRed fuel packetList).1, a.Inside := by
  induction packetList with
  | nil => exact fun _ ha => absurd ha List.not_mem_nil
  | cons red packetList ih =>
    obtain ⟨k, hlast, hend⟩ := h red List.mem_cons_self
    have hpacket := splitRedPacket_inside hlast hend fuel
    have hrest := ih fun red' hred' => h red' (List.mem_cons_of_mem _ hred')
    intro a ha
    unfold splitRed at ha
    dsimp only at ha
    split at ha
    · exact hpacket a ha
    · rcases List.mem_append.mp ha with ha | ha
      · exact hpacket a ha
      · exact hrest a ha

theorem splitRed_isSome (h : ∀ red ∈ packetList, HeadersEnd red) :
    ∃ enough, ∀ fuel, enough ≤ fuel → (splitRed fuel packetList).2.isSome = true := by
  induction packetList with
  | nil => exact ⟨0, fun _ _ => rfl⟩
  | cons red packetList ih =>
    obtain ⟨k, hlast, -⟩ := h red List.mem_cons_self
    obtain ⟨enough, henough⟩ := ih fun red' hred' => h red' (List.mem_cons_of_mem _ hred')
    refine ⟨max (k + 1) enough, fun fuel hfuel => ?_⟩
    rw [splitRed_cons hlast (lt_of_lt_of_le (Nat.lt_succ_self k)
      (le_trans (le_max_left _ _) hfuel)), Option.isSome_map]
    exact henough fuel (le_trans (le_max_right _ _) hfuel)

theorem splitRed_reports (h : ∀ red ∈ packetList, HeadersEnd red) {fuel : Nat}
    {ret : SplitterReturnCode} {newList : List Packet}
    (hresult : (splitRed fuel packetList).2 = some (ret, newList)) :
    (ret = .kOK ∨ ret = .kRedLengthMismatch) ∧
      (ret = .kRedLengthMismatch ↔ ∃ red ∈ packetList, LengthsExceed red) := by
  induction packetList generalizing ret newList with
  | nil =>
    cases hresult
    refine ⟨.inl rfl, iff_of_false (fun heq => by cases heq) ?_⟩
    rintro ⟨red, hred, -⟩
    exact absurd hred List.not_mem_nil
  | cons red packetList ih =>
    obtain ⟨k, hlast, hend⟩ := h red List.mem_cons_self
    have hmismatch := splitRedPacket_mismatch hlast hend
    by_cases hfuel : k < fuel
    · rw [splitRed_cons hlast hfuel] at hresult
      obtain ⟨⟨ret', newList'⟩, hrest, heq⟩ := Option.map_eq_some_iff.mp hresult
      obtain ⟨hcode, hiff⟩ := ih (fun red' hred' => h red' (List.mem_cons_of_mem _ hred')) hrest
      simp only [List.mem_cons, exists_eq_or_imp]
      rw [← hmismatch, ← hiff]
      cases hfirst : (populate red (headerBlocks red k) (4 * k + 1 : Nat)).mismatch with
      | true =>
        rw [hfirst] at heq
        cases heq
        exact ⟨.inr rfl, iff_of_true rfl (.inl rfl)⟩
      | false =>
        rw [hfirst] at heq
        cases heq
        refine ⟨hcode, ⟨.inr, ?_⟩⟩
        rintro (hfalse | hret)
        · cases hfalse
        · exact hret
    · unfold splitRed at hresult
      rw [splitRedPacket_short fun i hi => hlast.2 i (by omega)] at hresult
      cases hresult

/-- A list of packets is split inside their payloads if and only if the headers of every
packet end there. -/
theorem splitRed_inside_iff (packetList : List Packet) :
    SplitsSafely packetList ↔ ∀ red ∈ packetList, HeadersEnd red := by
  constructor
  · exact fun h => @headersEnd_of_splitRed packetList 0 fun fuel _ => h.1 fuel
  · intro h
    obtain ⟨enough, henough⟩ := splitRed_isSome h
    exact ⟨splitRed_inside h, ⟨enough, henough enough le_rfl⟩,
      fun _ _ _ hresult => splitRed_reports h hresult⟩

/-- A packet without payload bytes. -/
theorem not_splitsSafely : ¬ ∀ packetList : List Packet,
    (∀ red ∈ packetList, red.payload.isSome ∧ 0 ≤ red.payloadLength) →
      SplitsSafely packetList := by
  intro h
  have hsafe := h [{ payload := some fun _ => 0 }] (by decide)
  have hread := hsafe.1 1 ⟨0, 0, 1⟩ List.mem_cons_self
  exact absurd hread (by decide)

end PayloadSplitter

end PerchWebrtc.NetEq
