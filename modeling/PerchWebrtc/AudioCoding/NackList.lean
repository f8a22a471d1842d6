import PerchWebrtc.AudioCoding.Nack

/-!
# What the audio NACK list holds

The packets get positions on the line of integers (`Arrivals`), and so do those that are decoded.
The list is then what is missing between the first and the newest packet, from the limit and the
decoded packet on, without what was removed as its time to play ran out.

* `received_tracks`, `decoded_tracks`: one call;
* `nackList_exact`: a run of calls.
-/

namespace PerchWebrtc.AudioCoding

open Circular

/-- The number of an element, and whether it is missing. -/
def NackList.entry (e : BitVec 16 × NackElement) : BitVec 16 × Bool := (e.1, e.2.isMissing)

def NackList.entries (l : NackList) : List (BitVec 16 × Bool) := l.map entry

/-- What happened, with positions in the place of numbers. -/
structure NackHistory where
  arrivals : Arrivals
  /-- The last packet that was decoded. -/
  decoded : Option ℤ := none
  /-- What was removed because its time to play ran out. -/
  timedOut : List ℤ := []

inductive NackCall where
  | updateLastReceivedPacket (sequenceNumber : BitVec 16) (timestamp : BitVec 32)
  | updateLastDecodedPacket (sequenceNumber : BitVec 16) (timestamp : BitVec 32)

namespace NackHistory

/-- The position of a number that is not newer than the newest one. -/
def positionBehind (newest : ℤ) (n : BitVec 16) : ℤ := newest - (BitVec.ofInt 16 newest - n).toNat

/-- The positions that the list holds. -/
def listed (h : NackHistory) (maxNackListSize : Nat) : List ℤ :=
  h.arrivals.missing.filter fun p =>
    h.arrivals.newest - maxNackListSize ≤ p ∧ (∀ d ∈ h.decoded, d < p) ∧ p ∉ h.timedOut

/-- A position, which is missing if it is before the threshold. -/
def entry (threshold p : ℤ) : BitVec 16 × Bool := (BitVec.ofInt 16 p, decide (p < threshold))

def entries (h : NackHistory) (nackThresholdPackets maxNackListSize : Nat) :
    List (BitVec 16 × Bool) :=
  (h.listed maxNackListSize).map (entry (h.arrivals.newest - nackThresholdPackets))

/-- The history behind a call in the state `s`. While the same packet is
decoded, the time to play of the others runs out. -/
def record (s : Nack) : Option NackHistory → NackCall → Option NackHistory
  | none, .updateLastReceivedPacket n _ => some { arrivals := Arrivals.begin n }
  | none, .updateLastDecodedPacket _ _ => none
  | some h, .updateLastReceivedPacket n _ => some { h with arrivals := h.arrivals.receive n }
  | some h, .updateLastDecodedPacket n _ =>
    if h.decoded.map (BitVec.ofInt 16) = some n then
      some { h with
        timedOut := h.timedOut ++ s.nackList.playedOut.map fun e => position h.arrivals.newest e.1 }
    else some { h with decoded := some (positionBehind h.arrivals.newest n) }

end NackHistory

namespace NackCall

def apply (s : Nack) : NackCall → Nack
  | .updateLastReceivedPacket n timestamp => s.updateLastReceivedPacket n timestamp
  | .updateLastDecodedPacket n timestamp => s.updateLastDecodedPacket n timestamp

/-- The packets that are received are less than 2^14 away from the newest one. Those that are
decoded are not newer than it, and not older than the last one. -/
def Regular : Option NackHistory → NackCall → Prop
  | none, .updateLastReceivedPacket _ _ => True
  | none, .updateLastDecodedPacket _ _ => False
  | some h, .updateLastReceivedPacket n _ =>
    |position h.arrivals.newest n - h.arrivals.newest| < 2 ^ 14
  | some h, .updateLastDecodedPacket n _ =>
    ¬ Precedes (BitVec.ofInt 16 h.arrivals.newest) n ∧
      ∀ d ∈ h.decoded, n = BitVec.ofInt 16 d ∨ Precedes (BitVec.ofInt 16 d) n

instance : ∀ (h : Option NackHistory) (call : NackCall), Decidable (Regular h call)
  | none, .updateLastReceivedPacket _ _ => inferInstanceAs (Decidable True)
  | none, .updateLastDecodedPacket _ _ => inferInstanceAs (Decidable False)
  | some _, .updateLastReceivedPacket _ _ => inferInstanceAs (Decidable (_ < _))
  | some _, .updateLastDecodedPacket _ _ => inferInstanceAs (Decidable (_ ∧ _))

end NackCall

/-- The state of the list and what happened. -/
abbrev NackRun := Nack × Option NackHistory

namespace NackRun

def step (s : NackRun) (call : NackCall) : NackRun := (call.apply s.1, NackHistory.record s.1 s.2 call)

def run (calls : List NackCall) (s : NackRun) : NackRun := calls.foldl step s

/-- Every call is regular where it comes. -/
def Regular : List NackCall → NackRun → Prop
  | [], _ => True
  | call :: calls, s => call.Regular s.2 ∧ Regular calls (step s call)

instance decidableRegular : ∀ (calls : List NackCall) (s : NackRun), Decidable (Regular calls s)
  | [], _ => inferInstanceAs (Decidable True)
  | call :: calls, s =>
    haveI := decidableRegular calls (step s call)
    inferInstanceAs (Decidable (call.Regular s.2 ∧ Regular calls (step s call)))

/-- The list is what the history says. -/
def Exact (nackThresholdPackets : Nat) (s : NackRun) : Prop :=
  s.1.nackList.entries =
    s.2.elim [] fun h => h.entries nackThresholdPackets s.1.maxNackListSize

end NackRun

/-- A new list with its limits. -/
def Nack.started (nackThresholdPackets sampleRateHz maxNackListSize : Nat) : Nack :=
  (((Nack.create nackThresholdPackets).updateSampleRate sampleRateHz).setMaxNackListSize
    maxNackListSize).2

/-! ## Parts of the list -/

namespace NackList

theorem entries_setTimeToPlay (f : NackElement → Int) (l : NackList) :
    (l.setTimeToPlay f).entries = l.entries := by
  unfold setTimeToPlay entries
  rw [List.map_map]
  rfl

theorem entries_above (n : BitVec 16) (l : NackList) :
    entries (Ordered.above Precedes Prod.fst n l) = Ordered.above Precedes Prod.fst n l.entries :=
  @Ordered.above_view _ _ Precedes _ Prod.fst _ entry Prod.fst (fun _ => rfl) n l

theorem entries_erase (n : BitVec 16) (l : NackList) :
    entries (Ordered.erase Precedes Prod.fst n l) = Ordered.erase Precedes Prod.fst n l.entries :=
  @Ordered.erase_view _ _ Precedes _ Prod.fst _ entry Prod.fst (fun _ => rfl) n l

theorem entries_append (l l' : NackList) : entries (l ++ l') = l.entries ++ l'.entries :=
  List.map_append

/-- What is before the new threshold is missing. -/
theorem entries_markMissing {threshold threshold' : ℤ} (hle : threshold ≤ threshold')
    {n : BitVec 16} : ∀ {l : NackList} {ps : List ℤ},
      l.entries = ps.map (NackHistory.entry threshold) → ps.Pairwise (· < ·) →
      (∀ p ∈ ps, Precedes (BitVec.ofInt 16 p) n ↔ p < threshold') →
      (l.markMissing n).entries = ps.map (NackHistory.entry threshold')
  | [], [], _, _, _ => rfl
  | [], _ :: _, h, _, _ => absurd h (by simp [entries])
  | _ :: _, [], h, _, _ => absurd h (by simp [entries])
  | e :: l, p :: ps, h, hps, hn => by
    obtain ⟨hhead, htail⟩ := List.cons.inj h
    obtain ⟨hkey, hflag⟩ := Prod.mk.inj hhead
    have hp := hn p List.mem_cons_self
    rw [← show e.1 = BitVec.ofInt 16 p from hkey] at hp
    by_cases hless : p < threshold'
    · have ih := entries_markMissing hle htail hps.of_cons fun q hq =>
        hn q (List.mem_cons_of_mem _ hq)
      rw [markMissing, List.takeWhile_cons_of_pos (by simp [hp, hless]),
        List.dropWhile_cons_of_pos (by simp [hp, hless])]
      refine congrArg₂ List.cons (Prod.ext hkey ?_) ih
      exact (decide_eq_true hless).symm
    · rw [markMissing, List.takeWhile_cons_of_neg (by simp [hp, hless]),
        List.dropWhile_cons_of_neg (by simp [hp, hless]), List.map_nil, List.nil_append, h]
      refine List.map_congr_left fun q hq => Prod.ext rfl ?_
      have hq' : ¬ q < threshold' := by
        rcases List.mem_cons.mp hq with rfl | hq
        · exact hless
        · have := List.rel_of_pairwise_cons hps hq
          omega
      show decide (q < threshold) = decide (q < threshold')
      rw [decide_eq_false hq', decide_eq_false (by omega)]

end NackList

theorem ofInt_sub_ofNat (b : ℤ) (k : Nat) :
    BitVec.ofInt 16 b - BitVec.ofNat 16 k = BitVec.ofInt 16 (b - k) := by
  rw [sub_eq_iff_eq_add, ← BitVec.ofInt_natCast, ← BitVec.ofInt_add, sub_add_cancel]

theorem precedes_sub_ofInt_iff {a b : ℤ} {k : Nat} (hlt : b - k - a < 2 ^ 15)
    (hlt' : a - (b - k) < 2 ^ 15) :
    Precedes (BitVec.ofInt 16 a) (BitVec.ofInt 16 b - BitVec.ofNat 16 k) ↔ a < b - k := by
  rw [ofInt_sub_ofNat]
  exact precedes_ofInt_iff (by omega) (by omega)

theorem same_ofInt_iff {a b : ℤ} (hlt : a - b < 2 ^ 15) (hlt' : b - a < 2 ^ 15) :
    Ordered.Same Precedes (BitVec.ofInt 16 a) (BitVec.ofInt 16 b) ↔ a = b := by
  unfold Ordered.Same
  rw [precedes_ofInt_iff (by omega) (by omega), precedes_ofInt_iff (by omega) (by omega)]
  omega

/-! ## The history -/

namespace NackHistory

variable {h : NackHistory} {maxNackListSize : Nat}

theorem mem_listed {p : ℤ} : p ∈ h.listed maxNackListSize ↔
    p ∈ h.arrivals.missing ∧ h.arrivals.newest - maxNackListSize ≤ p ∧ (∀ d ∈ h.decoded, d < p) ∧
      p ∉ h.timedOut := by
  rw [listed, List.mem_filter, decide_eq_true_iff]

theorem listed_pairwise : (h.listed maxNackListSize).Pairwise (· < ·) :=
  h.arrivals.missing_pairwise.filter _

theorem listed_lt {p : ℤ} (hp : p ∈ h.listed maxNackListSize) : p < h.arrivals.newest :=
  (Arrivals.mem_missing.mp (mem_listed.mp hp).1).2.1

theorem le_listed {p : ℤ} (hp : p ∈ h.listed maxNackListSize) :
    h.arrivals.newest - maxNackListSize ≤ p :=
  (mem_listed.mp hp).2.1

/-- A packet that is not newer than the newest one, up to half a circle. -/
theorem positionBehind_spec {newest : ℤ} {n : BitVec 16}
    (hn : ¬ Precedes (BitVec.ofInt 16 newest) n) :
    BitVec.ofInt 16 (positionBehind newest n) = n ∧ positionBehind newest n ≤ newest ∧
      newest - 2 ^ 15 ≤ positionBehind newest n := by
  have hlag : (BitVec.ofInt 16 newest - n).toNat ≤ 2 ^ 15 := by
    unfold Precedes at hn
    by_contra hfar
    refine hn ⟨?_, ?_⟩
    · rintro rfl
      rw [BitVec.sub_self] at hfar
      exact hfar (Nat.zero_le _)
    · bv_omega
  refine ⟨?_, ?_, ?_⟩
  · unfold positionBehind
    rw [sub_eq_add_neg, BitVec.ofInt_add, BitVec.ofInt_neg, BitVec.ofInt_natCast, BitVec.ofNat_toNat,
      BitVec.setWidth_eq]
    grind
  · unfold positionBehind
    omega
  · unfold positionBehind
    omega

end NackHistory

/-- The state of the list says what happened. -/
structure Tracks (nackThresholdPackets maxNackListSize : Nat) (s : Nack) (h : NackHistory) : Prop where
  threshold : s.nackThresholdPackets = nackThresholdPackets
  size : s.maxNackListSize = maxNackListSize
  anyRtpReceived : s.anyRtpReceived = true
  lastReceived : s.sequenceNumLastReceivedRtp = BitVec.ofInt 16 h.arrivals.newest
  bounded : h.arrivals.Bounded
  anyRtpDecoded : s.anyRtpDecoded = h.decoded.isSome
  lastDecoded : ∀ d ∈ h.decoded, s.sequenceNumLastDecodedRtp = BitVec.ofInt 16 d ∧
    d ≤ h.arrivals.newest
  timedOut : ∀ p ∈ h.timedOut, p < h.arrivals.newest
  entries : s.nackList.entries = h.entries nackThresholdPackets maxNackListSize

section Steps

variable {thr size : Nat} {s : Nack} {h : NackHistory} {n : BitVec 16} {timestamp : BitVec 32}

/-! ## A packet that is received -/

theorem received_first (hs : s.anyRtpReceived = false) (hdecoded : s.anyRtpDecoded = false)
    (hlist : s.nackList = []) (hthr : s.nackThresholdPackets = thr)
    (hsize : s.maxNackListSize = size) :
    Tracks thr size (s.updateLastReceivedPacket n timestamp) { arrivals := Arrivals.begin n } := by
  have hnum : n = BitVec.ofInt 16 n.toNat := by
    rw [BitVec.ofInt_natCast, BitVec.ofNat_toNat, BitVec.setWidth_eq]
  rw [Nack.updateLastReceivedPacket, hs, Bool.not_false, if_pos rfl]
  dsimp only
  rw [hdecoded, Bool.not_false, if_pos rfl]
  refine ⟨hthr, hsize, rfl, hnum, Arrivals.bounded_begin n, rfl, ?_, ?_, ?_⟩
  · exact fun d hd => absurd hd (Option.not_mem_none d)
  · exact fun p hp => absurd hp List.not_mem_nil
  · show s.nackList.entries = _
    rw [hlist, NackHistory.entries, NackHistory.listed, Arrivals.missing_begin]
    rfl

theorem listed_late {p : ℤ} (hp : position h.arrivals.newest n = p) (hle : p ≤ h.arrivals.newest) :
    NackHistory.listed { h with arrivals := h.arrivals.receive n } size = (h.listed size).erase p := by
  have harrivals : h.arrivals.receive n =
      ⟨h.arrivals.first, h.arrivals.newest, p :: h.arrivals.received⟩ := by
    rw [Arrivals.receive, hp, max_eq_left hle]
  have hmissing := Arrivals.missing_older (a := h.arrivals) (p := p) rfl
  unfold NackHistory.listed
  rw [harrivals, hmissing, List.Nodup.erase_eq_filter h.arrivals.nodup_missing,
    List.Nodup.erase_eq_filter (h.arrivals.nodup_missing.filter _), List.filter_filter,
    List.filter_filter]
  exact List.filter_congr fun q _ => Bool.and_comm _ _

/-- A packet that is there already, or comes late. -/
theorem received_late (ht : Tracks thr size s h) (hsize : size < 2 ^ 14) {p : ℤ}
    (hle : p ≤ h.arrivals.newest) (hnear : h.arrivals.newest - p < 2 ^ 14)
    (hn : n = BitVec.ofInt 16 p) :
    Tracks thr size (s.updateLastReceivedPacket n timestamp)
      { h with arrivals := h.arrivals.receive n } := by
  have hposition : position h.arrivals.newest n = p := by
    rw [hn]
    exact position_ofInt (by omega) (by omega)
  have hnewest : (h.arrivals.receive n).newest = h.arrivals.newest := by
    rw [Arrivals.receive, hposition]
    exact max_eq_left hle
  have hlisted := @listed_late size h n p hposition hle
  -- Whatever the list is, the rest of the state stays as it is.
  have hrest : ∀ l : NackList, l.entries = ((h.listed size).erase p).map
      (NackHistory.entry (h.arrivals.newest - thr)) →
      Tracks thr size { s with nackList := l } { h with arrivals := h.arrivals.receive n } := by
    intro l hl
    refine ⟨ht.threshold, ht.size, ht.anyRtpReceived, ?_, ht.bounded.receive n, ht.anyRtpDecoded,
      ?_, ?_, ?_⟩
    · rw [hnewest]
      exact ht.lastReceived
    · rw [hnewest]
      exact ht.lastDecoded
    · rw [hnewest]
      exact ht.timedOut
    · rw [NackHistory.entries, hlisted, hnewest]
      exact hl
  have hentries := ht.entries
  unfold NackHistory.entries at hentries
  have hstarted : ¬ (!s.anyRtpReceived) = true := by
    rw [ht.anyRtpReceived]
    decide
  rw [Nack.updateLastReceivedPacket, if_neg hstarted]
  by_cases hsame : p = h.arrivals.newest
  · have hnot : p ∉ h.listed size := fun hmem => (NackHistory.listed_lt hmem).ne hsame
    rw [if_pos (by rw [hn, ht.lastReceived, hsame])]
    exact hrest s.nackList (by rw [List.erase_of_not_mem hnot, hentries])
  · have hprecedes : Precedes n s.sequenceNumLastReceivedRtp := by
      rw [hn, ht.lastReceived]
      exact precedes_ofInt (by omega) (by omega)
    rw [if_neg hprecedes.ne]
    dsimp only
    rw [if_pos hprecedes]
    refine hrest _ ?_
    rw [NackList.entries_erase, hentries, hn]
    refine Ordered.erase_map fun q hq => same_ofInt_iff ?_ ?_
    · have := NackHistory.listed_lt hq
      omega
    · have := NackHistory.le_listed hq
      omega

/-- The numbers in between are added in their order. -/
theorem entries_addToListFrom (s : Nack) {threshold p : ℤ}
    (hthreshold : threshold = p - s.nackThresholdPackets) (hthr : s.nackThresholdPackets < 2 ^ 14) :
    ∀ {m fuel : Nat} {a : ℤ} {l : NackList} {ps : List ℤ}, m ≤ fuel → a + m = p → m < 2 ^ 14 →
      l.entries = ps.map (NackHistory.entry threshold) → (∀ q ∈ ps, q < a ∧ p - q < 2 ^ 15) →
      (s.addToListFrom (BitVec.ofInt 16 p) fuel (BitVec.ofInt 16 a) l).entries =
        (ps ++ Arrivals.span a m).map (NackHistory.entry threshold)
  | 0, 0, a, l, ps, _, _, _, hl, _ => by
    rw [show Arrivals.span a 0 = [] from rfl, List.append_nil]
    exact hl
  | 0, fuel + 1, a, l, ps, _, hp, _, hl, _ => by
    have hend : a = p := by simpa using hp
    rw [Nack.addToListFrom, hend, if_neg (precedes_irrefl _), ← hend,
      show Arrivals.span a 0 = [] from rfl, List.append_nil]
    exact hl
  | m + 1, fuel + 1, a, l, ps, hfuel, hp, hm, hl, hps => by
    push_cast at hp
    have hnext : BitVec.ofInt 16 a + 1 = BitVec.ofInt 16 (a + 1) := (BitVec.ofInt_add a 1).symm
    rw [Nack.addToListFrom, if_pos (precedes_ofInt (by omega) (by omega))]
    dsimp only
    have hlast : ∀ x ∈ l, Precedes x.1 (BitVec.ofInt 16 a) := by
      intro x hx
      have hmem : NackList.entry x ∈ NackList.entries l := List.mem_map_of_mem hx
      rw [hl] at hmem
      obtain ⟨q, hq, hentry⟩ := List.mem_map.mp hmem
      rw [show x.1 = BitVec.ofInt 16 q from (congrArg Prod.fst hentry).symm]
      have := hps q hq
      exact precedes_ofInt (by omega) (by omega)
    rw [Ordered.insertAtEnd_last hlast, hnext, Arrivals.span_succ, List.append_cons ps a]
    have hbelow : a + 1 + m = p := by omega
    refine entries_addToListFrom s hthreshold hthr (Nat.le_of_succ_le_succ hfuel) hbelow
      (by omega) ?_ ?_
    · rw [NackList.entries_append, hl, List.map_append]
      refine congrArg (_ ++ ·) (congrArg (· :: []) (Prod.ext rfl ?_))
      have hflag : Precedes (BitVec.ofInt 16 a)
          (BitVec.ofInt 16 p - BitVec.ofNat 16 s.nackThresholdPackets) ↔ a < threshold := by
        rw [hthreshold]
        exact precedes_sub_ofInt_iff (by omega) (by omega)
      exact decide_eq_decide.mpr hflag
    · intro q hq
      rcases List.mem_append.mp hq with hq | hq
      · have := hps q hq
        omega
      · rw [List.mem_singleton.mp hq]
        omega

/-- Nothing but the list changes. -/
theorem updateList_eq {s : Nack} {newest : ℤ} {k : Nat} {ps : List ℤ}
    (hthr : s.nackThresholdPackets < 2 ^ 14) (hk : k + 1 < 2 ^ 14)
    (hlast : s.sequenceNumLastReceivedRtp = BitVec.ofInt 16 newest) (hps : ps.Pairwise (· < ·))
    (hnear : ∀ q ∈ ps, q < newest ∧ newest - q < 2 ^ 14)
    (hl : s.nackList.entries =
      ps.map (NackHistory.entry (newest - s.nackThresholdPackets))) :
    ∃ l, s.updateList (BitVec.ofInt 16 (newest + 1 + k)) = { s with nackList := l } ∧
      l.entries = (ps ++ Arrivals.span (newest + 1) k).map
        (NackHistory.entry (newest + 1 + k - s.nackThresholdPackets)) := by
  have hmarked : (s.changeFromLateToMissing (BitVec.ofInt 16 (newest + 1 + k))).nackList.entries =
      ps.map (NackHistory.entry (newest + 1 + k - s.nackThresholdPackets)) := by
    refine NackList.entries_markMissing (by omega) hl hps fun q hq => ?_
    have := hnear q hq
    exact precedes_sub_ofInt_iff (by omega) (by omega)
  have hnext : s.sequenceNumLastReceivedRtp + 1 = BitVec.ofInt 16 (newest + 1) := by
    rw [hlast]
    exact (BitVec.ofInt_add newest 1).symm
  have hsome : Precedes (BitVec.ofInt 16 (newest + 1)) (BitVec.ofInt 16 (newest + 1 + k)) ↔ 0 < k := by
    rw [precedes_ofInt_iff (by omega) (by omega)]
    omega
  unfold Nack.updateList
  dsimp only
  split
  · have hdistance : k ≤ (BitVec.ofInt 16 (newest + 1 + k) - BitVec.ofInt 16 newest).toNat := by
      have := @ofInt_sub_toNat_of_lt 16 newest (newest + 1 + k) (by omega) (by omega)
      omega
    refine ⟨_, rfl, ?_⟩
    show NackList.entries (Nack.addToListFrom _ _ _ (s.sequenceNumLastReceivedRtp + 1) _) = _
    rw [hnext]
    refine entries_addToListFrom (s.changeFromLateToMissing _) rfl hthr ?_ rfl (by omega) hmarked
      fun q hq => ?_
    · show k ≤ (BitVec.ofInt 16 (newest + 1 + k) - s.sequenceNumLastReceivedRtp).toNat
      rw [hlast]
      exact hdistance
    · have := hnear q hq
      omega
  · rename_i hnone
    have hzero : k = 0 := by
      change ¬ Precedes (s.sequenceNumLastReceivedRtp + 1) _ at hnone
      rw [hnext, hsome] at hnone
      omega
    refine ⟨_, rfl, hmarked.trans ?_⟩
    rw [hzero, show Arrivals.span (newest + 1) 0 = [] from rfl, List.append_nil]

theorem entries_limitNackListSize {s : Nack} {newest threshold : ℤ} {ps : List ℤ}
    (hsize : s.maxNackListSize < 2 ^ 14)
    (hlast : s.sequenceNumLastReceivedRtp = BitVec.ofInt 16 newest) (hps : ps.Pairwise (· < ·))
    (hnear : ∀ q ∈ ps, q < newest ∧ newest - q < 2 ^ 15)
    (hl : s.nackList.entries = ps.map (NackHistory.entry threshold)) :
    s.limitNackListSize.nackList.entries =
      (ps.filter fun q => newest - s.maxNackListSize ≤ q).map (NackHistory.entry threshold) := by
  have hlimit : s.sequenceNumLastReceivedRtp - BitVec.ofNat 16 s.maxNackListSize - 1 =
      BitVec.ofInt 16 (newest - s.maxNackListSize - 1) := by
    rw [hlast, ofInt_sub_ofNat]
    exact ofInt_sub_ofNat _ 1
  unfold Nack.limitNackListSize
  dsimp only
  rw [NackList.entries_above, hl, hlimit]
  refine Ordered.above_map ?_ fun q hq => ?_
  · refine hps.imp fun hlt hle => ?_
    simp only [decide_eq_true_eq] at hle ⊢
    omega
  · have := hnear q hq
    show Precedes _ (BitVec.ofInt 16 q) ↔ _
    rw [precedes_ofInt_iff (by omega) (by omega), decide_eq_true_iff]
    omega

theorem listed_newest (ht : Tracks thr size s h) {k : Nat}
    (hposition : position h.arrivals.newest n = h.arrivals.newest + 1 + k) :
    NackHistory.listed { h with arrivals := h.arrivals.receive n } size =
      (h.listed size ++ Arrivals.span (h.arrivals.newest + 1) k).filter
        fun p => h.arrivals.newest + 1 + k - size ≤ p := by
  have harrivals : h.arrivals.receive n = ⟨h.arrivals.first, h.arrivals.newest + 1 + k,
      (h.arrivals.newest + 1 + k) :: h.arrivals.received⟩ := by
    rw [Arrivals.receive, hposition, max_eq_right (by omega)]
  have hmissing := Arrivals.missing_newer ht.bounded (p := h.arrivals.newest + 1 + k) rfl rfl
  unfold NackHistory.listed
  rw [harrivals, hmissing, List.filter_append, List.filter_append, List.filter_filter]
  congr 1
  · refine List.filter_congr fun p _ => ?_
    rw [← Bool.decide_and, decide_eq_decide]
    constructor
    · rintro ⟨hlimit, hrest⟩
      change h.arrivals.newest + 1 + k - size ≤ p at hlimit
      exact ⟨hlimit, by omega, hrest⟩
    · exact fun ⟨hlimit, _, hrest⟩ => ⟨hlimit, hrest⟩
  · refine List.filter_congr fun p hp => ?_
    have hnew := (Arrivals.mem_span.mp hp).1
    rw [decide_eq_decide]
    refine ⟨And.left, fun hlimit => ⟨hlimit, ?_, ?_⟩⟩
    · intro d hd
      have := (ht.lastDecoded d hd).2
      omega
    · intro hmem
      have := ht.timedOut p hmem
      omega

/-- The new packet is the newest one. -/
theorem received_newest (ht : Tracks thr size s h) (hthr : thr < 2 ^ 14) (hsize : size < 2 ^ 14)
    {k : Nat} (hk : k + 1 < 2 ^ 14) (hn : n = BitVec.ofInt 16 (h.arrivals.newest + 1 + k)) :
    Tracks thr size (s.updateLastReceivedPacket n timestamp)
      { h with arrivals := h.arrivals.receive n } := by
  have hposition : position h.arrivals.newest n = h.arrivals.newest + 1 + k := by
    rw [hn]
    exact position_ofInt (by omega) (by omega)
  have hnewest : (h.arrivals.receive n).newest = h.arrivals.newest + 1 + k := by
    rw [Arrivals.receive, hposition]
    exact max_eq_right (by omega)
  have hprecedes : Precedes s.sequenceNumLastReceivedRtp n := by
    rw [ht.lastReceived, hn]
    exact precedes_ofInt (by omega) (by omega)
  have hnear : ∀ q ∈ h.listed size, q < h.arrivals.newest ∧ h.arrivals.newest - q < 2 ^ 14 := by
    intro q hq
    have hlt := NackHistory.listed_lt hq
    have hle := NackHistory.le_listed hq
    exact ⟨hlt, by omega⟩
  have hold := ht.entries
  unfold NackHistory.entries at hold
  -- The number is not in the list.
  have herase : Ordered.erase Precedes Prod.fst n s.nackList = s.nackList := by
    refine Ordered.erase_of_notMem fun x hx hsame => ?_
    have hmem : NackList.entry x ∈ NackList.entries s.nackList := List.mem_map_of_mem hx
    rw [hold] at hmem
    obtain ⟨q, hq, hentry⟩ := List.mem_map.mp hmem
    rw [show x.1 = BitVec.ofInt 16 q from (congrArg Prod.fst hentry).symm, hn] at hsame
    have := hnear q hq
    exact absurd ((same_ofInt_iff (by omega) (by omega)).mp hsame) (by omega)
  have hstarted : ¬ (!s.anyRtpReceived) = true := by
    rw [ht.anyRtpReceived]
    decide
  rw [Nack.updateLastReceivedPacket, if_neg hstarted, if_neg hprecedes.ne.symm, herase]
  dsimp only
  rw [if_neg hprecedes.asymm]
  obtain ⟨l, hupdated, hl⟩ := @updateList_eq (s.updateSamplesPerPacket n timestamp)
    h.arrivals.newest k (h.listed size) (by rw [← ht.threshold] at hthr; exact hthr) hk
    ht.lastReceived NackHistory.listed_pairwise hnear (by rw [← ht.threshold] at hold; exact hold)
  rw [← hn] at hupdated
  rw [hupdated]
  have hlisted : (h.listed size ++ Arrivals.span (h.arrivals.newest + 1) k).Pairwise (· < ·) ∧
      ∀ q ∈ h.listed size ++ Arrivals.span (h.arrivals.newest + 1) k,
        q < h.arrivals.newest + 1 + k ∧ h.arrivals.newest + 1 + k - q < 2 ^ 15 := by
    refine ⟨List.pairwise_append.mpr ⟨NackHistory.listed_pairwise, ?_, ?_⟩, fun q hq => ?_⟩
    · exact List.pairwise_map.mpr (List.pairwise_lt_range.imp fun hlt => by omega)
    · intro q hq r hr
      have := (hnear q hq).1
      have := (Arrivals.mem_span.mp hr).1
      omega
    · rcases List.mem_append.mp hq with hq | hq
      · have := hnear q hq
        omega
      · have := Arrivals.mem_span.mp hq
        omega
  refine ⟨ht.threshold, ht.size, ht.anyRtpReceived, ?_, ht.bounded.receive n, ht.anyRtpDecoded,
    ?_, ?_, ?_⟩
  · rw [hnewest]
    exact hn
  · intro d hd
    obtain ⟨hnum, hle⟩ := ht.lastDecoded d hd
    rw [hnewest]
    exact ⟨hnum, by omega⟩
  · intro p hp
    have := ht.timedOut p hp
    rw [hnewest]
    show p < _
    omega
  · rw [NackHistory.entries, listed_newest ht hposition, hnewest]
    have hthr' : (s.updateSamplesPerPacket n timestamp).nackThresholdPackets = thr := ht.threshold
    rw [hthr'] at hl
    have hsize' : s.maxNackListSize < 2 ^ 14 := by
      rw [ht.size]
      exact hsize
    have hlimited := @entries_limitNackListSize
      { s.updateSamplesPerPacket n timestamp with
        nackList := l
        sequenceNumLastReceivedRtp := n
        timestampLastReceivedRtp := timestamp } _ _ _ hsize' hn hlisted.1 hlisted.2 hl
    refine hlimited.trans ?_
    show List.map _ (List.filter (fun q => h.arrivals.newest + 1 + k - s.maxNackListSize ≤ q) _) = _
    rw [ht.size]

/-! ## A packet that is decoded -/

theorem le_positionBehind {newest d : ℤ} (hd : d ≤ newest)
    (hn : ¬ Precedes (BitVec.ofInt 16 newest) n) (hnext : Precedes (BitVec.ofInt 16 d) n) :
    d ≤ NackHistory.positionBehind newest n := by
  obtain ⟨hnum, hle, hhalf⟩ := NackHistory.positionBehind_spec hn
  by_contra hless
  have hdistance := @ofInt_sub_toNat_of_lt 16 (NackHistory.positionBehind newest n) d (by omega)
    (by omega)
  rw [hnum] at hdistance
  unfold Precedes at hnext
  bv_omega

/-- What is not newer than the decoded packet leaves the list. -/
theorem decoded_next (ht : Tracks thr size s h) (hsize : size < 2 ^ 14)
    (hn : ¬ Precedes (BitVec.ofInt 16 h.arrivals.newest) n)
    (hnext : ∀ d ∈ h.decoded, Precedes (BitVec.ofInt 16 d) n) :
    Tracks thr size (s.updateLastDecodedPacket n timestamp)
      { h with decoded := some (NackHistory.positionBehind h.arrivals.newest n) } := by
  obtain ⟨hnum, hle, hhalf⟩ := NackHistory.positionBehind_spec hn
  have hbranch : Precedes s.sequenceNumLastDecodedRtp n ∨ (!s.anyRtpDecoded) = true := by
    rw [ht.anyRtpDecoded]
    cases hdecoded : h.decoded with
    | none => exact Or.inr rfl
    | some d =>
      have hd : d ∈ h.decoded := hdecoded
      rw [(ht.lastDecoded d hd).1]
      exact Or.inl (hnext d hd)
  have hlisted : NackHistory.listed
      { h with decoded := some (NackHistory.positionBehind h.arrivals.newest n) } size =
      (h.listed size).filter fun p => NackHistory.positionBehind h.arrivals.newest n < p := by
    unfold NackHistory.listed
    rw [List.filter_filter]
    refine List.filter_congr fun p _ => ?_
    rw [← Bool.decide_and, decide_eq_decide]
    simp only [Option.mem_some_iff, forall_eq']
    constructor
    · rintro ⟨hlimit, hless, htimed⟩
      refine ⟨hless, hlimit, fun d hd => ?_, htimed⟩
      have := le_positionBehind (ht.lastDecoded d hd).2 hn (hnext d hd)
      omega
    · exact fun ⟨hless, hlimit, _, htimed⟩ => ⟨hlimit, hless, htimed⟩
  have hold := ht.entries
  unfold NackHistory.entries at hold
  rw [Nack.updateLastDecodedPacket, if_pos hbranch]
  refine ⟨ht.threshold, ht.size, ht.anyRtpReceived, ht.lastReceived, ht.bounded, rfl, ?_,
    ht.timedOut, ?_⟩
  · intro d hd
    rw [← Option.mem_some_iff.mp hd]
    exact ⟨hnum.symm, hle⟩
  · dsimp only
    rw [NackList.entries_setTimeToPlay, NackList.entries_above, hold, NackHistory.entries, hlisted]
    refine Ordered.above_map ?_ fun q hq => ?_
    · refine NackHistory.listed_pairwise.imp fun hlt hless => ?_
      simp only [decide_eq_true_eq] at hless ⊢
      exact hless.trans hlt
    · have hlt := NackHistory.listed_lt hq
      have hlimit := NackHistory.le_listed hq
      rw [decide_eq_true_iff]
      show Precedes n (BitVec.ofInt 16 q) ↔ _
      rw [← precedes_ofInt_iff (w := 16) (by omega) (by omega), hnum]

/-- The list without an initial part of it. -/
theorem filter_notMem_take {α : Type*} [DecidableEq α] {l : List α} (hl : l.Nodup) (m : Nat) :
    (l.filter fun x => x ∉ l.take m) = l.drop m := by
  have hdisjoint : ∀ x ∈ l.drop m, x ∉ l.take m := fun x hx hmem =>
    List.disjoint_take_drop hl (le_refl m) hmem hx
  conv_lhs => rw [← List.take_append_drop m l]
  rw [List.filter_append, List.take_append_drop,
    List.filter_eq_nil_iff.mpr fun x hx => by simp [hx],
    List.filter_eq_self.mpr fun x hx => by simp [hdisjoint x hx], List.nil_append]

/-- The time runs out for the first packets of the list. -/
theorem decoded_same (ht : Tracks thr size s h) (hsize : size < 2 ^ 14) {d : ℤ}
    (hd : h.decoded = some d) (hn : n = BitVec.ofInt 16 d) :
    Tracks thr size (s.updateLastDecodedPacket n timestamp)
      { h with
        timedOut := h.timedOut ++ s.nackList.playedOut.map fun e => position h.arrivals.newest e.1 } := by
  have hbranch : ¬ (Precedes s.sequenceNumLastDecodedRtp n ∨ (!s.anyRtpDecoded) = true) := by
    rw [(ht.lastDecoded d hd).1, ← hn, ht.anyRtpDecoded, hd]
    exact not_or.mpr ⟨precedes_irrefl n, Bool.false_ne_true⟩
  have hold := ht.entries
  unfold NackHistory.entries NackList.entries at hold
  -- What is removed is an initial part of the list.
  set m := s.nackList.playedOut.length with hm
  have hsplit : s.nackList.playedOut ++ (s.nackList.dropWhile fun e => e.2.timeToPlayMs ≤ 10) =
      s.nackList := List.takeWhile_append_dropWhile
  have htake := congrArg (List.take m) hsplit
  have hdrop := congrArg (List.drop m) hsplit
  rw [List.take_left' hm.symm] at htake
  rw [List.drop_left' hm.symm] at hdrop
  have hpositions : (s.nackList.playedOut.map fun e => position h.arrivals.newest e.1) =
      (h.listed size).take m := by
    have hkeys := congrArg (List.map fun e => position h.arrivals.newest e.1) hold
    rw [List.map_map, List.map_map] at hkeys
    have hsame : (h.listed size).map (fun p => position h.arrivals.newest (BitVec.ofInt 16 p)) =
        (h.listed size).map id := by
      refine List.map_congr_left fun p hp => position_ofInt ?_ ?_
      · have := NackHistory.listed_lt hp
        omega
      · have := NackHistory.le_listed hp
        omega
    rw [htake, List.map_take]
    exact congrArg (List.take m) (hkeys.trans (hsame.trans (List.map_id _)))
  have hlisted : NackHistory.listed
      { h with timedOut := h.timedOut ++ (h.listed size).take m } size = (h.listed size).drop m := by
    have hnodup : (h.listed size).Nodup := NackHistory.listed_pairwise.imp fun hlt => hlt.ne
    rw [← filter_notMem_take hnodup]
    conv_rhs => rw [NackHistory.listed]
    rw [NackHistory.listed, List.filter_filter]
    refine List.filter_congr fun p _ => ?_
    rw [← Bool.decide_and, decide_eq_decide]
    simp only [List.mem_append, not_or]
    tauto
  rw [hpositions, Nack.updateLastDecodedPacket, if_neg hbranch]
  refine ⟨ht.threshold, ht.size, ht.anyRtpReceived, ht.lastReceived, ht.bounded, ?_,
    ht.lastDecoded, ?_, ?_⟩
  · rw [hd]
    rfl
  · intro p hp
    rcases List.mem_append.mp hp with hp | hp
    · exact ht.timedOut p hp
    · have hmem : p ∈ h.listed size := List.mem_of_mem_take hp
      show p < h.arrivals.newest
      exact NackHistory.listed_lt hmem
  · dsimp only [Nack.updateEstimatedPlayoutTimeBy10ms]
    rw [NackList.entries_setTimeToPlay, hdrop, NackHistory.entries, hlisted, List.map_drop, ← hold]
    exact List.map_drop

/-! ## Every call -/

theorem received_tracks (ht : Tracks thr size s h) (hthr : thr < 2 ^ 14) (hsize : size < 2 ^ 14)
    (hn : |position h.arrivals.newest n - h.arrivals.newest| < 2 ^ 14) :
    Tracks thr size (s.updateLastReceivedPacket n timestamp)
      { h with arrivals := h.arrivals.receive n } := by
  have hnum := (ofInt_position h.arrivals.newest n).symm
  obtain ⟨hlow, hhigh⟩ := abs_lt.mp hn
  rcases le_or_gt (position h.arrivals.newest n) h.arrivals.newest with hle | hlt
  · exact received_late ht hsize hle (by omega) hnum
  · obtain ⟨k, hk⟩ : ∃ k : Nat, position h.arrivals.newest n = h.arrivals.newest + 1 + k :=
      ⟨(position h.arrivals.newest n - h.arrivals.newest - 1).toNat, by omega⟩
    rw [hk] at hnum
    exact received_newest ht hthr hsize (by omega) hnum

theorem decoded_tracks (ht : Tracks thr size s h) (hsize : size < 2 ^ 14)
    (hn : ¬ Precedes (BitVec.ofInt 16 h.arrivals.newest) n)
    (hnext : ∀ d ∈ h.decoded, n = BitVec.ofInt 16 d ∨ Precedes (BitVec.ofInt 16 d) n) :
    ∃ h', NackHistory.record s (some h) (.updateLastDecodedPacket n timestamp) = some h' ∧
      Tracks thr size (s.updateLastDecodedPacket n timestamp) h' := by
  by_cases hsame : h.decoded.map (BitVec.ofInt 16) = some n
  · obtain ⟨d, hd, hnum⟩ := Option.map_eq_some_iff.mp hsame
    exact ⟨_, if_pos hsame, decoded_same ht hsize hd hnum.symm⟩
  · have hlater : ∀ d ∈ h.decoded, Precedes (BitVec.ofInt 16 d) n := by
      intro d hd
      refine (hnext d hd).resolve_left fun hnum => hsame ?_
      rw [Option.mem_def.mp hd, hnum]
      rfl
    exact ⟨_, if_neg hsame, decoded_next ht hsize hn hlater⟩

end Steps

namespace NackRun

variable {thr size : Nat}

/-- Nothing has been received, or the state says what happened. -/
def Sound (nackThresholdPackets maxNackListSize : Nat) : NackRun → Prop
  | (s, none) => s.anyRtpReceived = false ∧ s.anyRtpDecoded = false ∧ s.nackList = [] ∧
      s.nackThresholdPackets = nackThresholdPackets ∧ s.maxNackListSize = maxNackListSize
  | (s, some h) => Tracks nackThresholdPackets maxNackListSize s h

theorem Sound.exact : ∀ {s : NackRun}, Sound thr size s → Exact thr s
  | (s, none), ⟨_, _, hlist, _⟩ => by
    show NackList.entries s.nackList = []
    rw [hlist]
    rfl
  | (s, some h), ht => by
    show NackList.entries s.nackList = h.entries thr s.maxNackListSize
    rw [ht.entries, ht.size]

theorem sound_step (hthr : thr < 2 ^ 14) (hsize : size < 2 ^ 14) {call : NackCall} :
    ∀ {s : NackRun}, Sound thr size s → call.Regular s.2 → Sound thr size (step s call)
  | (s, none), ⟨hs, hdecoded, hlist, hthr, hsize⟩, hregular => by
    cases call with
    | updateLastReceivedPacket n timestamp => exact received_first hs hdecoded hlist hthr hsize
    | updateLastDecodedPacket n timestamp => exact absurd hregular not_false
  | (s, some h), ht, hregular => by
    cases call with
    | updateLastReceivedPacket n timestamp => exact received_tracks ht hthr hsize hregular
    | updateLastDecodedPacket n timestamp =>
      obtain ⟨h', hrecord, ht'⟩ :=
        @decoded_tracks thr size s h n timestamp ht hsize hregular.1 hregular.2
      show Sound thr size (_, NackHistory.record s (some h) _)
      rw [hrecord]
      exact ht'

theorem sound_run (hthr : thr < 2 ^ 14) (hsize : size < 2 ^ 14) : ∀ {calls : List NackCall}
    {s : NackRun}, Sound thr size s → Regular calls s → Sound thr size (run calls s)
  | [], _, hs, _ => hs
  | call :: calls, s, hs, hregular => by
    show Sound thr size (run calls (step s call))
    exact sound_run hthr hsize (sound_step hthr hsize hs hregular.1) hregular.2

end NackRun

theorem Nack.started_maxNackListSize (thr hz size : Nat) :
    (Nack.started thr hz size).maxNackListSize ≤ kNackListSizeLimit := by
  unfold Nack.started Nack.setMaxNackListSize
  split
  · exact le_refl _
  · rename_i hlimit
    exact not_lt.mp fun hgt => hlimit (Or.inr hgt)

theorem Nack.started_sound (thr hz size : Nat) :
    NackRun.Sound thr (Nack.started thr hz size).maxNackListSize (Nack.started thr hz size, none) := by
  unfold Nack.started Nack.setMaxNackListSize
  split
  · exact ⟨rfl, rfl, rfl, rfl, rfl⟩
  · exact ⟨rfl, rfl, rfl, rfl, rfl⟩

/-- After every run, the list holds what is missing, in the order of the
positions, and marks what is before the threshold. At less than 1 kHz the source
divides by zero. -/
theorem nackList_exact {nackThresholdPackets sampleRateHz maxNackListSize : Nat}
    (hthreshold : nackThresholdPackets < 2 ^ 14) (_hrate : 1000 ≤ sampleRateHz) {calls : List NackCall}
    (hcalls : NackRun.Regular calls
      (Nack.started nackThresholdPackets sampleRateHz maxNackListSize, none)) :
    NackRun.Exact nackThresholdPackets
      (NackRun.run calls
        (Nack.started nackThresholdPackets sampleRateHz maxNackListSize, none)) := by
  have hsize := Nack.started_maxNackListSize nackThresholdPackets sampleRateHz maxNackListSize
  have hstart := Nack.started_sound nackThresholdPackets sampleRateHz maxNackListSize
  exact (NackRun.sound_run hthreshold (hsize.trans_lt (by decide)) hstart hcalls).exact

def nackCalls : List NackCall :=
  [.updateLastReceivedPacket 65534 0, .updateLastReceivedPacket 3 4800,
    .updateLastReceivedPacket 0 1920, .updateLastDecodedPacket 65534 0,
    .updateLastDecodedPacket 65534 0, .updateLastDecodedPacket 65534 0,
    .updateLastReceivedPacket 8 9600]

/-- A run over the wrap: 0 is late, and the time to play of 65535 runs out. -/
theorem nackList_exact_wrap :
    NackRun.Exact 2 (NackRun.run nackCalls (Nack.started 2 48000 10, none)) ∧
      (NackRun.run nackCalls (Nack.started 2 48000 10, none)).1.nackList.entries =
        [(1, true), (2, true), (4, true), (5, true), (6, false), (7, false)] :=
  ⟨nackList_exact (by decide) (by decide) (by decide +kernel), by decide +kernel⟩

end PerchWebrtc.AudioCoding
