import PerchWebrtc.Fec.Recovery

/-!
# The list of recovered packets

The header promises a list that is sorted by ascending sequence number, with
duplicates removed. `SortablePacket::LessThan` is an order only in one half of
the number space; as long as every packet that is added, and every mask that
is compared with the list, lies in one half of the numbers together with it,
and the recoveries stay in their buffers (`Fits`), the promise is kept
(`run_sorted`).

* `linkProtected_eq`, `assignRecoveredPackets_eq`: which packets are linked;
* `SortedList`: the invariant; `keeps_sortedList`.
-/

namespace PerchWebrtc.Fec

open Circular

namespace Decoder

/-! ## Links -/

/-- What `linkProtected` does to each protected packet. -/
def link (packet : RecoveredPacket) (p : ProtectedPacket) : ProtectedPacket :=
  if p.seqNum = packet.seqNum then { p with pkt := some packet.pkt } else p

@[simp]
theorem link_seqNum (packet : RecoveredPacket) (p : ProtectedPacket) :
    (link packet p).seqNum = p.seqNum := by
  unfold link
  split <;> rfl

/-- The order of the numbers of the protected packets. -/
def Ordered (l : List ProtectedPacket) : Prop := l.Pairwise fun p q => Precedes p.seqNum q.seqNum

theorem map_link_of_forall_ne {packet : RecoveredPacket} {l : List ProtectedPacket}
    (h : ∀ p ∈ l, p.seqNum ≠ packet.seqNum) : l.map (link packet) = l := by
  refine (List.map_congr_left fun p hp => ?_).trans (List.map_id l)
  exact if_neg (h p hp)

/-- Exactly the protected packet with the number of `packet` is linked. -/
theorem linkProtected_eq {packet : RecoveredPacket} :
    ∀ {l : List ProtectedPacket}, Ordered l → linkProtected packet l = l.map (link packet)
  | [], _ => rfl
  | p :: l, h => by
    have ih := @linkProtected_eq packet l h.of_cons
    have hafter : p.seqNum = packet.seqNum → ∀ q ∈ l, q.seqNum ≠ packet.seqNum := fun e q hq =>
      e ▸ (List.rel_of_pairwise_cons h hq).ne.symm
    simp only [linkProtected] at ih
    simp only [linkProtected, List.dropWhile_cons, List.takeWhile_cons, List.map_cons]
    cases hless : lessThan p.seqNum packet.seqNum with
    | false =>
      simp only [Bool.false_eq_true, if_false, List.nil_append]
      split
      · rename_i e
        rw [map_link_of_forall_ne (hafter e), link, if_pos e]
      · -- A later one with the number would have `p` before it.
        rename_i hne
        refine (map_link_of_forall_ne fun q hq => ?_).symm
        rcases List.mem_cons.mp hq with rfl | hq
        · exact hne
        · intro e
          have hpre := (lessThan_iff _ _).mpr (e ▸ List.rel_of_pairwise_cons h hq)
          rw [hless] at hpre
          cases hpre
    | true =>
      have hne : p.seqNum ≠ packet.seqNum := ((lessThan_iff _ _).mp hless).ne
      simp only [if_true]
      rw [link, if_neg hne, ← ih]
      cases l.dropWhile fun q => lessThan q.seqNum packet.seqNum with
      | nil => rfl
      | cons q rest =>
        simp only
        split <;> rfl

/-- What `assignRecoveredPackets` does to each protected packet. -/
def assign (recovered : List RecoveredPacket) (p : ProtectedPacket) : ProtectedPacket :=
  match recovered.find? fun r => r.seqNum = p.seqNum with
  | some r => { p with pkt := some r.pkt }
  | none => p

@[simp]
theorem assign_seqNum (recovered : List RecoveredPacket) (p : ProtectedPacket) :
    (assign recovered p).seqNum = p.seqNum := by
  unfold assign
  split <;> rfl

variable {p : ProtectedPacket} {f : FecPacket} {r : RecoveredPacket}

theorem assign_of_forall_ne {recovered : List RecoveredPacket}
    (h : ∀ r ∈ recovered, r.seqNum ≠ p.seqNum) : assign recovered p = p := by
  have hnone : recovered.find? (fun r => r.seqNum = p.seqNum) = none := by
    simpa [List.find?_eq_none] using h
  rw [assign, hnone]

theorem assign_cons_of_ne {recovered : List RecoveredPacket} (h : r.seqNum ≠ p.seqNum) :
    assign (r :: recovered) p = assign recovered p := by
  rw [assign, assign, List.find?_cons_of_neg (by simpa using h)]

/-- A search passes over the packets before the one with the number. -/
theorem searchFrom_append (hp : p.seqNum = r.seqNum) (after : List ProtectedPacket) :
    ∀ {before : List ProtectedPacket},
      (∀ q ∈ before, q.seqNum ≠ r.seqNum) →
      searchFrom r (before ++ p :: after) = some (before, { p with pkt := some r.pkt } :: after)
  | [], _ => by rw [List.nil_append, searchFrom, if_pos hp]
  | q :: before, h => by
    have ih := searchFrom_append hp after fun q' hq' => h q' (List.mem_cons_of_mem _ hq')
    rw [List.cons_append, searchFrom, if_neg (h q List.mem_cons_self), ih]
    rfl

/-- Packets that are all protected, in order, are all found. -/
theorem assignFrom_eq : ∀ {rs : List RecoveredPacket} {l : List ProtectedPacket},
    (rs.Pairwise fun r r' => Precedes r.seqNum r'.seqNum) → Ordered l →
    (∀ r ∈ rs, r.seqNum ∈ l.map (·.seqNum)) → assignFrom rs l = some (l.map (assign rs))
  | [], l, _, _, _ => by
    rw [assignFrom]
    congr 1
    exact ((List.map_congr_left fun p _ => rfl).trans (List.map_id l)).symm
  | r :: rs, l, hrs, hl, hmem => by
    obtain ⟨p, hpl, hpr⟩ := List.mem_map.mp (hmem r List.mem_cons_self)
    obtain ⟨before, after, rfl⟩ := List.append_of_mem hpl
    have hlater : ∀ r' ∈ rs, Precedes r.seqNum r'.seqNum := fun r' hr' =>
      List.rel_of_pairwise_cons hrs hr'
    have hbefore : ∀ q ∈ before, Precedes q.seqNum r.seqNum := fun q hq =>
      hpr ▸ (List.pairwise_append.mp hl).2.2 q hq p List.mem_cons_self
    have hl' : Ordered ({ p with pkt := some r.pkt } :: after) := by
      have := (List.pairwise_append.mp hl).2.1
      exact List.pairwise_cons.mpr ⟨fun q hq => List.rel_of_pairwise_cons this hq, this.of_cons⟩
    have hrs' : ∀ r' ∈ rs, r'.seqNum ∈ (p :: after).map (·.seqNum) := by
      intro r' hr'
      obtain ⟨q, hq, hqr⟩ := List.mem_map.mp (hmem r' (List.mem_cons_of_mem _ hr'))
      rcases List.mem_append.mp hq with hq | hq
      · exact absurd (hlater r' hr') (hqr ▸ hbefore q hq).asymm
      · exact List.mem_map.mpr ⟨q, hq, hqr⟩
    have ih := assignFrom_eq hrs.of_cons hl' hrs'
    rw [assignFrom, searchFrom_append hpr after fun q hq => (hbefore q hq).ne, Option.bind_some, ih,
      Option.map_some, List.map_append, List.map_cons, List.map_cons]
    have hhead : assign rs { p with pkt := some r.pkt } = assign (r :: rs) p := by
      rw [assign_of_forall_ne fun r' hr' => hpr ▸ (hlater r' hr').ne.symm, assign,
        List.find?_cons_of_pos (by simpa using hpr.symm)]
    have hrest : ∀ q ∈ after, assign rs q = assign (r :: rs) q := fun q hq =>
      (assign_cons_of_ne fun e => (List.rel_of_pairwise_cons hl' hq).ne (hpr.trans e)).symm
    have hpassed : ∀ q ∈ before, assign (r :: rs) q = q := by
      refine fun q hq => assign_of_forall_ne fun r' hr' e => ?_
      rcases List.mem_cons.mp hr' with rfl | hr'
      · exact (hbefore q hq).ne e.symm
      · exact (e ▸ hbefore q hq).asymm (hlater r' hr')
    rw [hhead, List.map_congr_left hrest, List.map_congr_left hpassed, List.map_id']

/-- Exactly the protected packets that were recovered before are linked. -/
theorem assignRecoveredPackets_eq {recovered : List RecoveredPacket}
    (hrec : recovered.Pairwise fun r r' => Precedes r.seqNum r'.seqNum)
    (hprot : Ordered f.protectedPktList)
    (hwindow : HalfWindow (f.protectedPktList.map (·.seqNum) ++ recovered.map (·.seqNum))) :
    assignRecoveredPackets f recovered =
      some { f with protectedPktList := f.protectedPktList.map (assign recovered) } := by
  obtain ⟨base, hbase⟩ := hwindow
  have hinter : setIntersection (·.seqNum) (·.seqNum) recovered f.protectedPktList =
      recovered.filter fun r => r.seqNum ∈ f.protectedPktList.map (·.seqNum) := by
    refine setIntersection_eq _ _ base (fun r hr => ?_) (fun p hp => ?_) hrec hprot
    · exact hbase _ (List.mem_append_right _ (List.mem_map_of_mem hr))
    · exact hbase _ (List.mem_append_left _ (List.mem_map_of_mem hp))
  rw [assignRecoveredPackets, hinter, assignFrom_eq (hrec.filter _) hprot
      fun r hr => of_decide_eq_true (List.mem_filter.mp hr).2,
    Option.map_some]
  have hmap : f.protectedPktList.map
      (assign (recovered.filter fun r => r.seqNum ∈ f.protectedPktList.map (·.seqNum))) =
      f.protectedPktList.map (assign recovered) := by
    refine List.map_congr_left fun p hp => ?_
    rw [assign, assign, List.find?_filter]
    congr 2
    funext r
    have hmem : r.seqNum = p.seqNum → r.seqNum ∈ f.protectedPktList.map (·.seqNum) := fun e =>
      e ▸ List.mem_map_of_mem hp
    simpa using hmem
  rw [hmap]

/-! ## Conditions on the events -/

/-- The numbers that are sorted or compared lie in one half of the circle: a
packet that is added, or the mask of a new FEC packet, together with the list
of recovered packets. -/
def InWindow : Event → Decoder → Prop
  | .call _, _ => True
  | .insert rx, d =>
    if rx.isFec then
      rx.seqNum ∉ d.fecPacketList.map (·.seqNum) → HalfWindow (rx.pkt.maskSeqNums ++ d.seqNums)
    else HalfWindow (rx.seqNum :: d.seqNums)
  | .recover f, d => HalfWindow (missingSeqNum f :: d.seqNums)

/-- A call has a received packet if the list is full, and a recovery copies
and XORs inside the packets' buffers. -/
def InBuffers : Event → Decoder → Prop
  | .call received, d => d.recoveredPacketList.length = kMaxMediaPackets → received ≠ []
  | .insert _, _ => True
  | .recover f, _ => PayloadFits f ∧ LinkedFit f.protectedPktList

def Fits (e : Event) (d : Decoder) : Prop := InWindow e d ∧ InBuffers e d

instance : ∀ (e : Event) (d : Decoder), Decidable (InWindow e d)
  | .call _, _ => inferInstanceAs (Decidable True)
  | .insert rx, d =>
    inferInstanceAs
      (Decidable
        (if rx.isFec then
          rx.seqNum ∉ d.fecPacketList.map (·.seqNum) → HalfWindow (rx.pkt.maskSeqNums ++ d.seqNums)
        else HalfWindow (rx.seqNum :: d.seqNums)))
  | .recover _, _ => inferInstanceAs (Decidable (HalfWindow _))

instance (f : FecPacket) : Decidable (PayloadFits f) := inferInstanceAs (Decidable (_ ≤ _))

instance (l : List ProtectedPacket) : Decidable (LinkedFit l) :=
  inferInstanceAs (Decidable (∀ src ∈ linked l, _))

instance : ∀ (e : Event) (d : Decoder), Decidable (InBuffers e d)
  | .call _, _ => inferInstanceAs (Decidable (_ → _))
  | .insert _, _ => inferInstanceAs (Decidable True)
  | .recover _, _ => inferInstanceAs (Decidable (_ ∧ _))

instance (e : Event) (d : Decoder) : Decidable (Fits e d) :=
  inferInstanceAs (Decidable (_ ∧ _))

/-! ## The invariant -/

/-- The list is sorted, and the FEC packets miss only packets that are not in
it. -/
structure SortedList (d : Decoder) : Prop where
  sorted : d.recoveredPacketList.Pairwise fun r r' => Precedes r.seqNum r'.seqNum
  masks : ∀ f ∈ d.fecPacketList, f.protectedPktList.map (·.seqNum) = f.pkt.maskSeqNums
  missing : ∀ f ∈ d.fecPacketList, ∀ p ∈ f.protectedPktList, p.pkt = none → p.seqNum ∉ d.seqNums

theorem ordered_of_map_eq {l : List ProtectedPacket} {p : Packet}
    (h : l.map (·.seqNum) = p.maskSeqNums) : Ordered l :=
  List.pairwise_map.mp (h ▸ maskSeqNums_pairwise p)

theorem SortedList.init : SortedList init := ⟨.nil, nofun, nofun⟩

variable {d : Decoder}

theorem SortedList.nodup (h : SortedList d) : d.seqNums.Nodup :=
  List.pairwise_map.mpr (h.sorted.imp Precedes.ne)

theorem mem_seqNums_addRecovered {n : BitVec 16} :
    n ∈ (d.addRecovered r).seqNums ↔ n = r.seqNum ∨ n ∈ d.seqNums := by
  have hperm : (d.addRecovered r).seqNums.Perm (d.seqNums ++ [r.seqNum]) := by
    have := (sort_perm (·.seqNum) (d.recoveredPacketList ++ [r])).map (·.seqNum)
    rwa [List.map_append] at this
  rw [hperm.mem_iff, List.mem_append, List.mem_singleton, or_comm]

theorem length_addRecovered (d : Decoder) (r : RecoveredPacket) :
    (d.addRecovered r).recoveredPacketList.length = d.recoveredPacketList.length + 1 := by
  rw [addRecovered, (sort_perm _ _).length_eq, List.length_append]
  rfl

/-- A new packet is sorted into the list and linked. -/
theorem SortedList.addRecovered {d : Decoder} (h : SortedList d) {r : RecoveredPacket}
    (hnew : r.seqNum ∉ d.seqNums) (hwindow : HalfWindow (r.seqNum :: d.seqNums)) :
    SortedList (d.addRecovered r) := by
  have hmap : (d.recoveredPacketList ++ [r]).map (·.seqNum) = d.seqNums ++ [r.seqNum] :=
    List.map_append
  refine ⟨sort_pairwise _ ?_ ?_, fun f hf => ?_, fun f hf p hp hnone => ?_⟩
  · rw [hmap]
    exact hwindow.mono fun n hn => by simpa [or_comm] using hn
  · rw [hmap]
    exact (List.perm_append_singleton _ _).nodup_iff.mpr (List.nodup_cons.mpr ⟨hnew, h.nodup⟩)
  · obtain ⟨g, hg, rfl⟩ := List.mem_map.mp hf
    show (linkProtected r g.protectedPktList).map (·.seqNum) = _
    rw [linkProtected_eq (ordered_of_map_eq (h.masks g hg)), List.map_map, ← h.masks g hg]
    exact List.map_congr_left fun p _ => link_seqNum r p
  · obtain ⟨g, hg, rfl⟩ := List.mem_map.mp hf
    replace hp : p ∈ linkProtected r g.protectedPktList := hp
    rw [linkProtected_eq (ordered_of_map_eq (h.masks g hg))] at hp
    obtain ⟨q, hq, rfl⟩ := List.mem_map.mp hp
    rw [link_seqNum, mem_seqNums_addRecovered]
    unfold link at hnone
    split at hnone
    · cases hnone
    · rename_i hne
      exact not_or.mpr ⟨hne, h.missing g hg q hq hnone⟩

theorem SortedList.discardOldPackets (h : SortedList d) : SortedList d.discardOldPackets := by
  have hsub : d.discardOldPackets.recoveredPacketList.Sublist d.recoveredPacketList :=
    List.drop_sublist _ _
  exact ⟨h.sorted.sublist hsub, h.masks, fun f hf p hp hnone hmem =>
    h.missing f hf p hp hnone ((hsub.map _).subset hmem)⟩

theorem length_discardOldPackets (d : Decoder) :
    d.discardOldPackets.recoveredPacketList.length ≤ kMaxMediaPackets := by
  rw [Decoder.discardOldPackets, List.length_drop]
  omega

/-- The invariant does not need all the FEC packets. -/
theorem SortedList.of_subset (h : SortedList d) {l : List FecPacket}
    (hl : ∀ f ∈ l, f ∈ d.fecPacketList) : SortedList { d with fecPacketList := l } :=
  ⟨h.sorted, fun f hf => h.masks f (hl f hf), fun f hf => h.missing f (hl f hf)⟩

/-- A new FEC packet, with its protected packets assigned. -/
def assigned (rx : ReceivedPacket) (d : Decoder) : FecPacket :=
  { newFecPacket rx with
    protectedPktList := (newFecPacket rx).protectedPktList.map (assign d.recoveredPacketList) }

theorem newFecPacket_map (rx : ReceivedPacket) :
    (newFecPacket rx).protectedPktList.map (·.seqNum) = rx.pkt.maskSeqNums := by
  rw [newFecPacket, List.map_map]
  exact List.map_id _

theorem insertFECPacket_cases (h : SortedList d) {rx : ReceivedPacket}
    (hwindow : rx.seqNum ∉ d.fecPacketList.map (·.seqNum) → HalfWindow (rx.pkt.maskSeqNums ++ d.seqNums)) :
    d.insertFECPacket rx = some d ∨ d.insertFECPacket rx = some (d.pushFecPacket (assigned rx d)) := by
  rw [insertFECPacket]
  split
  · exact .inl rfl
  rename_i hnew
  split
  · exact .inl rfl
  · right
    have hwindow' := hwindow hnew
    rw [← newFecPacket_map rx] at hwindow'
    rw [assignRecoveredPackets_eq h.sorted (ordered_of_map_eq (newFecPacket_map rx)) hwindow']
    rfl

theorem mem_pushFecPacket {g : FecPacket} (h : g ∈ (d.pushFecPacket f).fecPacketList) :
    g = f ∨ g ∈ d.fecPacketList := by
  have hmem : g ∈ sort (·.seqNum) (d.fecPacketList ++ [f]) := by
    unfold pushFecPacket at h
    simp only at h
    split at h
    · exact List.mem_of_mem_tail h
    · exact h
  have := (sort_perm (·.seqNum) (d.fecPacketList ++ [f])).mem_iff.mp hmem
  simpa [or_comm] using this

/-- A protected packet that is assigned misses only if it is not in the
list. -/
theorem assign_missing {recovered : List RecoveredPacket} (h : (assign recovered p).pkt = none) :
    p.seqNum ∉ recovered.map (·.seqNum) := by
  unfold assign at h
  split at h
  · cases h
  · rename_i hnone
    intro hmem
    obtain ⟨r, hr, hrp⟩ := List.mem_map.mp hmem
    exact absurd hrp (by simpa using List.find?_eq_none.mp hnone r hr)

theorem SortedList.pushFecPacket (h : SortedList d) (rx : ReceivedPacket) :
    SortedList (d.pushFecPacket (assigned rx d)) := by
  refine ⟨h.sorted, fun f hf => ?_, fun f hf p hp hnone => ?_⟩
  · rcases mem_pushFecPacket hf with rfl | hf
    · show ((newFecPacket rx).protectedPktList.map _).map _ = rx.pkt.maskSeqNums
      rw [← newFecPacket_map rx, List.map_map]
      exact List.map_congr_left fun p _ => assign_seqNum _ p
    · exact h.masks f hf
  · rcases mem_pushFecPacket hf with rfl | hf
    · obtain ⟨q, -, rfl⟩ := List.mem_map.mp hp
      rw [assign_seqNum]
      exact assign_missing hnone
    · exact h.missing f hf p hp hnone

/-! ## The loop of AttemptRecover -/

theorem scan_subset : ∀ {l rest : List FecPacket} {o : Option FecPacket}, scan l = (rest, o) →
    (∀ f ∈ rest, f ∈ l) ∧ ∀ f ∈ o, f ∈ l ∧ (Decoder.missing f.protectedPktList).length = 1
  | [], rest, o, h => by
    obtain ⟨rfl, rfl⟩ := Prod.mk.inj h
    exact ⟨nofun, nofun⟩
  | f :: l, rest, o, h => by
    rw [scan] at h
    split at h
    · obtain ⟨hrest, ho⟩ := scan_subset h
      exact ⟨fun g hg => List.mem_cons_of_mem _ (hrest g hg), fun g hg =>
        ⟨List.mem_cons_of_mem _ (ho g hg).1, (ho g hg).2⟩⟩
    · rename_i hone
      obtain ⟨rfl, rfl⟩ := Prod.mk.inj h
      refine ⟨fun g hg => List.mem_cons_of_mem _ hg, fun g hg => ?_⟩
      obtain rfl := Option.mem_some.mp hg
      refine ⟨List.mem_cons_self, ?_⟩
      rw [Decoder.missing, ← List.countP_eq_length_filter]
      unfold numCoveredPacketsMissing at hone
      omega
    · obtain ⟨rfl, rfl⟩ := Prod.mk.inj h
      obtain ⟨hrest, ho⟩ := @scan_subset l _ _ rfl
      refine ⟨fun g hg => ?_, fun g hg => ⟨List.mem_cons_of_mem _ (ho g hg).1, (ho g hg).2⟩⟩
      rcases List.mem_cons.mp hg with rfl | hg
      · exact List.mem_cons_self
      · exact List.mem_cons_of_mem _ (hrest g hg)

/-- The packet that is missing is one of the protected packets. -/
theorem exists_missing (h : (Decoder.missing f.protectedPktList).length = 1) :
    ∃ p ∈ f.protectedPktList, p.pkt = none ∧ p.seqNum = missingSeqNum f ∧
      Decoder.missing f.protectedPktList = [p] := by
  obtain ⟨p, hp⟩ := List.length_eq_one_iff.mp h
  have hmem : p ∈ Decoder.missing f.protectedPktList := by rw [hp]; exact List.mem_singleton.mpr rfl
  obtain ⟨hpl, hnone⟩ := List.mem_filter.mp hmem
  refine ⟨p, hpl, Option.isNone_iff_eq_none.mp hnone, ?_, hp⟩
  rw [missingSeqNum, hp]
  rfl

theorem SortedList.recoverWith (h : SortedList d) {rest : List FecPacket}
    (hscan : scan d.fecPacketList = (rest, some f)) (hfits : Fits (.recover f) d) :
    d.recoverWith f rest =
        some ({ d with fecPacketList := rest }.addRecovered (recovered f)).discardOldPackets ∧
      SortedList ({ d with fecPacketList := rest }.addRecovered (recovered f)).discardOldPackets := by
  obtain ⟨hwindow, hpayload, hlinked⟩ := hfits
  obtain ⟨hrest, hf⟩ := scan_subset hscan
  obtain ⟨hmem, hone⟩ := hf f rfl
  obtain ⟨p, hp, hnone, hseq, -⟩ := exists_missing hone
  have hnew : missingSeqNum f ∉ d.seqNums := hseq ▸ h.missing f hmem p hp hnone
  have hadd := @SortedList.addRecovered _ (h.of_subset hrest) (recovered f) hnew hwindow
  refine ⟨?_, hadd.discardOldPackets⟩
  rw [Decoder.recoverWith, recoverPacket_eq hpayload hlinked]
  rfl

/-! ## Runs -/

theorem keeps_sortedList : Keeps Fits (fun _ => True) SortedList fun d =>
    SortedList d ∧ d.recoveredPacketList.length ≤ kMaxMediaPackets where
  reset := by
    rintro received d ⟨hd, -⟩ ⟨-, hbuf⟩
    rw [resetOnGap]
    split
    · rename_i hfull
      obtain ⟨rx, hrx⟩ := Option.isSome_iff_exists.mp (List.isSome_head?.mpr (hbuf hfull))
      have hne : d.recoveredPacketList ≠ [] := fun e => by
        rw [e] at hfull
        cases hfull
      rw [hrx, List.getLast?_eq_some_getLast hne]
      refine ⟨_, rfl, ?_⟩
      split
      · exact SortedList.init
      · exact hd
    · exact ⟨d, rfl, hd⟩
  insert := by
    rintro rx d hd - ⟨hwindow, -⟩
    rw [insertPacket]
    simp only [InWindow] at hwindow
    split
    · rename_i hfec
      rw [if_pos hfec] at hwindow
      rcases insertFECPacket_cases hd hwindow with h | h
      · exact ⟨d, h, hd⟩
      · exact ⟨_, h, hd.pushFecPacket rx⟩
    · rename_i hmedia
      rw [if_neg hmedia] at hwindow
      refine ⟨_, rfl, ?_⟩
      rw [insertMediaPacket]
      split
      · exact hd
      · rename_i hnew
        exact hd.addRecovered hnew hwindow
  discard := fun hd => ⟨hd.discardOldPackets, length_discardOldPackets _⟩
  recover := by
    rintro d f rest ⟨hd, -⟩ hscan hfits
    obtain ⟨heq, hsorted⟩ := hd.recoverWith hscan hfits
    exact ⟨_, heq, hsorted, length_discardOldPackets _⟩
  scan := by
    rintro d rest ⟨hd, hlen⟩ hscan
    exact ⟨hd.of_subset (scan_subset hscan).1, hlen⟩

/-- After every call of a run whose events fit, the list is sorted, without
duplicates, and not too long. -/
theorem run_sorted {calls : List (List ReceivedPacket)} (h : Along Fits calls init) (n : Nat) :
    ∃ d, run (calls.take n) init = some d ∧
      (d.recoveredPacketList.Pairwise fun r r' => lessThan r.seqNum r'.seqNum) ∧
      d.seqNums.Nodup ∧ d.recoveredPacketList.length ≤ kMaxMediaPackets := by
  obtain ⟨d, hrun, hd, hlen⟩ := keeps_sortedList.run ⟨SortedList.init, Nat.zero_le _⟩
    (fun _ _ _ _ => trivial) (h.take n)
  exact ⟨d, hrun, hd.sorted.imp fun hrr => (lessThan_iff _ _).mpr hrr, hd.nodup, hlen⟩

/-- A media packet without payload. -/
def emptyMediaPacket (seqNum : BitVec 16) : ReceivedPacket where
  seqNum
  ssrc := 1
  isFec := false
  pkt := ⟨12, set32 (set16 (Mem.ofList [0x80]) 2 seqNum) 8 1⟩

/-- An FEC packet for one media packet without payload. -/
def emptyFecPacket (base : BitVec 16) : ReceivedPacket where
  seqNum := 1
  ssrc := 1
  isFec := true
  pkt := ⟨14, set16 (Mem.ofList [0, 0, 0, 0, 0, 0, 0, 0, 0, 0, 0, 0, 0x80, 0]) 2 base⟩

/-- The packet `0xffff` is recovered after packet 0 has arrived, and is sorted
before it. -/
theorem run_sorted_single :
    ∃ d, run ([[emptyMediaPacket 0], [emptyFecPacket 0xffff]].take 2) init = some d ∧
      (d.recoveredPacketList.Pairwise fun r r' => lessThan r.seqNum r'.seqNum) ∧
      d.seqNums.Nodup ∧ d.recoveredPacketList.length ≤ kMaxMediaPackets :=
  run_sorted (by decide +kernel) 2

/-- Two media packets half of the number space apart, in one call. -/
def farPackets : List ReceivedPacket := [emptyMediaPacket 0, emptyMediaPacket 0x8000]

/-- They are not sorted: neither is less than the other. -/
theorem run_not_sorted :
    ¬ ∀ calls : List (List ReceivedPacket), (∀ received ∈ calls, received ≠ []) →
      ∃ d, run calls init = some d ∧
        (d.recoveredPacketList.IsChain fun r r' => lessThan r.seqNum r'.seqNum) ∧
        d.seqNums.Nodup ∧ d.recoveredPacketList.length ≤ kMaxMediaPackets := by
  intro h
  obtain ⟨d, hrun, hsorted, -⟩ := h [farPackets] (by simp [farPackets])
  obtain rfl := Option.some.inj hrun
  revert hsorted
  decide

end Decoder

end PerchWebrtc.Fec
