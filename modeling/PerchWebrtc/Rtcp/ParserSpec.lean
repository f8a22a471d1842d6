import PerchWebrtc.Rtcp.Parser

/-!
# What the parse functions do

One statement for each item parser, in the terms that
runs are about: where the read pointer goes on, what is logged, and whether
the log stays inside the buffer. A log stays inside (`Inside`) exactly if the
blocks and items it names fit (`Fits`); every parse function keeps the two in
agreement (`Agree`).

* `parseItem_spec`: an item parser gives up at the end of its block, or
  returns a packet from inside it;
* `parseSDESItemFrom_spec`: the loop over SDES items.
-/

namespace PerchWebrtc.Rtcp

namespace RTCPParserV2

section Log

variable (m : Mem) (dataEnd : Nat)

/-- Every read ends in its block, and the read pointer never passes the end of
the buffer. -/
def Inside (p : RTCPParserV2) : Prop :=
  (∀ a ∈ p.accesses, a.ptr + a.n ≤ a.limit) ∧ ∀ ptr ∈ p.moves, ptr ≤ dataEnd

/-- The XR block at `pos` begins with VoIP metrics of the length the parser
asks for. -/
def IsVoipMetric (pos : Nat) : Prop := m (pos + 8) = 7 ∧ m (pos + 9) = 0 ∧ m (pos + 11) = 8

instance (pos : Nat) : Decidable (IsVoipMetric m pos) := inferInstanceAs (Decidable (_ ∧ _))

/-- The block at `pos` does not end after 28 of the 32 bytes of VoIP metrics. -/
def VoipFits (pos : Nat) : Prop :=
  match rtcpParseCommonHeader m pos dataEnd with
  | none => True
  | some header => pos + header.LengthInOctets.toNat ≤ dataEnd → header.PT = PT_XR →
      IsVoipMetric m pos → header.LengthInOctets.toNat ≠ 40

instance (pos : Nat) : Decidable (VoipFits m dataEnd pos) := by
  unfold VoipFits
  split <;> infer_instance

/-- The SDES item at a position of a block does not reach over the end of the
buffer. An end tag has no data; that of a CNAME is checked. -/
def SDESItemFits (item : Nat × Nat) : Prop :=
  item.1 + 1 < item.2 → m item.1 ≠ 0 → m item.1 ≠ 1 →
    item.1 + 2 + (m (item.1 + 1)).toNat ≤ dataEnd

instance (item : Nat × Nat) : Decidable (SDESItemFits m dataEnd item) :=
  inferInstanceAs (Decidable (_ → _))

/-- The blocks and the SDES items that were parsed fit. -/
def Fits (p : RTCPParserV2) : Prop :=
  (∀ pos ∈ p.headers, VoipFits m dataEnd pos) ∧ ∀ item ∈ p.items, SDESItemFits m dataEnd item

def Agree (p : RTCPParserV2) : Prop := Inside dataEnd p ↔ Fits m dataEnd p

end Log

section Moves

variable {m : Mem} {dataEnd : Nat} {p : RTCPParserV2}

theorem inside_moveTo (ptr : Nat) :
    Inside dataEnd (p.moveTo ptr) ↔ Inside dataEnd p ∧ ptr ≤ dataEnd := by
  simp only [Inside, moveTo, List.forall_mem_append, List.forall_mem_singleton, and_assoc]

theorem inside_peek (n : Nat) : Inside dataEnd (p.peek n) ↔
    Inside dataEnd p ∧ p.ptrRTCPData + n ≤ p.ptrRTCPBlockEnd := by
  simp only [Inside, peek, List.forall_mem_append, List.forall_mem_singleton]
  tauto

theorem Agree.moveTo (h : Agree m dataEnd p) {ptr : Nat} (hp : ptr ≤ dataEnd) :
    Agree m dataEnd (p.moveTo ptr) := by
  rw [Agree, inside_moveTo, and_iff_left hp]
  exact h

theorem Agree.peek (h : Agree m dataEnd p) {n : Nat}
    (hn : p.ptrRTCPData + n ≤ p.ptrRTCPBlockEnd) : Agree m dataEnd (p.peek n) := by
  rw [Agree, inside_peek, and_iff_left hn]
  exact h

theorem Agree.read (h : Agree m dataEnd p) (hend : p.ptrRTCPBlockEnd ≤ dataEnd) {n : Nat}
    (hn : p.ptrRTCPData + n ≤ p.ptrRTCPBlockEnd) : Agree m dataEnd (p.read n) :=
  (h.peek hn).moveTo (Nat.le_trans hn hend)

theorem fits_logItem : Fits m dataEnd p.logItem ↔
    Fits m dataEnd p ∧ SDESItemFits m dataEnd (p.ptrRTCPData, p.ptrRTCPBlockEnd) := by
  simp only [Fits, logItem, List.forall_mem_append, List.forall_mem_singleton, and_assoc]

theorem Agree.logItem (h : Agree m dataEnd p)
    (hfit : SDESItemFits m dataEnd (p.ptrRTCPData, p.ptrRTCPBlockEnd)) :
    Agree m dataEnd p.logItem := by
  rw [Agree, fits_logItem, and_iff_left hfit]
  exact h

theorem Agree.leaveBlock (h : Agree m dataEnd p) (hend : p.ptrRTCPBlockEnd ≤ dataEnd) :
    Agree m dataEnd p.leaveBlock.2 :=
  Agree.moveTo (p := { p with state := .TopLevel }) h hend

end Moves

/-- What is the same before and after an item or a block is parsed. -/
structure Keeps (p p' : RTCPParserV2) : Prop where
  valid : p'.validPacket = p.validPacket
  headers : p'.headers = p.headers
  blockEnd : p'.ptrRTCPBlockEnd = p.ptrRTCPBlockEnd

theorem Keeps.refl (p : RTCPParserV2) : Keeps p p := ⟨rfl, rfl, rfl⟩

theorem Keeps.trans {p p' p'' : RTCPParserV2} (h : Keeps p p') (h' : Keeps p' p'') :
    Keeps p p'' :=
  ⟨h'.valid.trans h.valid, h'.headers.trans h.headers, h'.blockEnd.trans h.blockEnd⟩

/-- A state in which an item is parsed. -/
def InBlock (s : ParseState) : Prop := s ≠ .TopLevel ∧ s ≠ .XRItem

instance (s : ParseState) : Decidable (InBlock s) := inferInstanceAs (Decidable (_ ∧ _))

/-- The pointer is at a word, except among the bits of an RPSI. -/
def Aligned (p : RTCPParserV2) : Prop := p.state = .PSFB_RPSIItem ∨ 4 ∣ p.ptrRTCPData

section Items

variable (m : Mem) (dataEnd : Nat)

/-- The outcome of an item parser: it is left at the end of the block, or
returns a packet and stays inside. -/
structure ItemSpec (p : RTCPParserV2) (r : Bool × RTCPParserV2) : Prop where
  keeps : Keeps p r.2
  left : r.1 = false → r.2.state = .TopLevel ∧ r.2.ptrRTCPData = p.ptrRTCPBlockEnd
  stays : r.1 = true → InBlock r.2.state ∧ r.2.packetType ≠ .kRtcpNotValidCode ∧
    p.ptrRTCPData < r.2.ptrRTCPData ∧ r.2.ptrRTCPData ≤ p.ptrRTCPBlockEnd ∧ Aligned r.2
  agree : p.ptrRTCPBlockEnd ≤ dataEnd → Agree m dataEnd p → Agree m dataEnd r.2

variable {m dataEnd} {p : RTCPParserV2} {q : RTCPParserV2}

theorem ItemSpec.leaveBlock (h : Keeps p q)
    (ha : p.ptrRTCPBlockEnd ≤ dataEnd → Agree m dataEnd p → Agree m dataEnd q) :
    ItemSpec m dataEnd p q.leaveBlock :=
  ⟨⟨h.valid, h.headers, h.blockEnd⟩, fun _ => ⟨rfl, h.blockEnd⟩, fun h => (by cases h),
    fun hend hp => (ha hend hp).leaveBlock (h.blockEnd ▸ hend)⟩

/-- What goes on with `q` adds what the rest does. -/
theorem ItemSpec.of_step {r : Bool × RTCPParserV2} (h : ItemSpec m dataEnd q r) (hk : Keeps p q)
    (hle : p.ptrRTCPData ≤ q.ptrRTCPData)
    (hag : p.ptrRTCPBlockEnd ≤ dataEnd → Agree m dataEnd p → Agree m dataEnd q) :
    ItemSpec m dataEnd p r := by
  refine ⟨hk.trans h.keeps, fun hr => ?_, fun hr => ?_, fun hend hp => ?_⟩
  · exact ⟨(h.left hr).1, (h.left hr).2.trans hk.blockEnd⟩
  · obtain ⟨hs, ht, hlt, hend, ha⟩ := h.stays hr
    exact ⟨hs, ht, Nat.lt_of_le_of_lt hle hlt, hk.blockEnd ▸ hend, ha⟩
  · exact h.agree (hk.blockEnd ▸ hend) (hag hend hp)

section Read

variable {n : Nat} (hn : 0 < n) (h4 : 4 ∣ n) {packetType : RTCPPacketTypes}
  (ht : packetType ≠ .kRtcpNotValidCode) (packet : RTCPPacket) (hs : InBlock p.state)
  (ha : Aligned p)

include hn h4 ht hs ha

theorem ItemSpec.read (hle : p.ptrRTCPData + n ≤ p.ptrRTCPBlockEnd) (numberOfBlocks : Nat) :
    ItemSpec m dataEnd p (true, { p.read n with packetType, packet, numberOfBlocks }) :=
  ⟨⟨rfl, rfl, rfl⟩, fun h => (by cases h), fun _ => ⟨hs, ht, Nat.lt_add_of_pos_right hn, hle,
    ha.imp_right fun h => (Nat.dvd_add_right h).mpr h4⟩, fun hend h => h.read hend hle⟩

theorem parseItemOf_spec : ItemSpec m dataEnd p (p.parseItemOf n packetType packet) := by
  rw [parseItemOf]
  split
  · exact .leaveBlock (.refl p) fun _ h => h
  · rename_i hlen
    rw [length] at hlen
    exact .read hn h4 ht packet hs ha (by omega) _

theorem parseCountedItem_spec :
    ItemSpec m dataEnd p (p.parseCountedItem n packetType packet) := by
  rw [parseCountedItem]
  split
  · exact .leaveBlock (.refl p) fun _ h => h
  · rename_i hlen
    rw [length] at hlen
    exact .read hn h4 ht packet hs ha (by omega) _

end Read

/-! ## The items of their own kind -/

variable (hs : InBlock p.state)

include hs

theorem parseBYEItem_spec (ha : 4 ∣ p.ptrRTCPData) : ItemSpec m dataEnd p (parseBYEItem m p) := by
  rw [parseBYEItem]
  split
  · exact .leaveBlock (.refl p) fun _ h => h
  rename_i hlen
  simp only [length, not_or, Nat.not_lt] at hlen
  dsimp only
  split
  · rename_i hn
    rw [length] at hn
    have hle : p.ptrRTCPData + 4 + (p.numberOfBlocks - 1) * 4 ≤ p.ptrRTCPBlockEnd := by
      have : 4 * p.numberOfBlocks ≤ p.ptrRTCPBlockEnd - p.ptrRTCPData := hn
      omega
    refine ⟨⟨rfl, rfl, rfl⟩, fun h => (by cases h), fun _ => ⟨hs, nofun, ?_, hle, .inr ?_⟩,
      fun hend h => Agree.moveTo (h.read hend (by omega)) (Nat.le_trans hle hend)⟩
    · show p.ptrRTCPData < p.ptrRTCPData + 4 + (p.numberOfBlocks - 1) * 4
      omega
    · show 4 ∣ p.ptrRTCPData + 4 + (p.numberOfBlocks - 1) * 4
      omega
  · refine ⟨⟨rfl, rfl, rfl⟩, fun h => (by cases h), fun _ => ⟨hs, nofun, ?_, ?_, .inr ?_⟩,
      fun hend h => h.read hend (by omega)⟩
    · show p.ptrRTCPData < p.ptrRTCPData + 4
      omega
    · show p.ptrRTCPData + 4 ≤ _
      omega
    · show 4 ∣ p.ptrRTCPData + 4
      omega

theorem parseRPSIItem_spec (hrpsi : p.state = .PSFB_RPSIItem) :
    ItemSpec m dataEnd p (parseRPSIItem m p) := by
  rw [parseRPSIItem]
  split
  · exact .leaveBlock (.refl p) fun _ h => h
  split
  · exact .leaveBlock (.refl p) fun _ h => h
  rename_i hlen _
  rw [length] at hlen
  refine ⟨⟨rfl, rfl, rfl⟩, fun h => (by cases h), fun _ => ⟨hs, nofun, ?_, ?_, .inl hrpsi⟩,
    fun hend h => (h.read hend (by omega)).peek ?_⟩
  · show p.ptrRTCPData < p.ptrRTCPData + 2
    omega
  · show p.ptrRTCPData + 2 ≤ _
    omega
  · show p.ptrRTCPData + 2 + (p.ptrRTCPBlockEnd - p.ptrRTCPData - 2) ≤ p.ptrRTCPBlockEnd
    omega

omit hs in
theorem parsePsfbAppItem_spec (ha : 4 ∣ p.ptrRTCPData) :
    ItemSpec m dataEnd p (parsePsfbAppItem m p) := by
  rw [parsePsfbAppItem]
  dsimp only
  split
  · exact .leaveBlock (.refl p) fun _ h => h
  rename_i hlen
  rw [length] at hlen
  have hread : ∀ n ≤ 4, p.ptrRTCPBlockEnd ≤ dataEnd → Agree m dataEnd p →
      Agree m dataEnd (p.read n) := fun n _ hend h => h.read hend (by omega)
  split
  · exact .leaveBlock ⟨rfl, rfl, rfl⟩ (hread 1 (by omega))
  split
  · exact .leaveBlock ⟨rfl, rfl, rfl⟩ (hread 2 (by omega))
  split
  · exact .leaveBlock ⟨rfl, rfl, rfl⟩ (hread 3 (by omega))
  split
  · exact .leaveBlock ⟨rfl, rfl, rfl⟩ (hread 4 (by omega))
  refine ⟨⟨rfl, rfl, rfl⟩, fun h => (by cases h), fun _ =>
    ⟨(by show InBlock .PSFB_REMBItem; decide), nofun, ?_, ?_, .inr ?_⟩, hread 4 (Nat.le_refl 4)⟩
  · show p.ptrRTCPData < p.ptrRTCPData + 4
    omega
  · show p.ptrRTCPData + 4 ≤ _
    omega
  · show 4 ∣ p.ptrRTCPData + 4
    omega

theorem parsePsfbREMBItem_spec (ha : 4 ∣ p.ptrRTCPData) :
    ItemSpec m dataEnd p (parsePsfbREMBItem m p) := by
  rw [parsePsfbREMBItem]
  split
  · exact .leaveBlock (.refl p) fun _ h => h
  rename_i hlen
  rw [length] at hlen
  have hread : p.ptrRTCPBlockEnd ≤ dataEnd → Agree m dataEnd p → Agree m dataEnd (p.read 4) :=
    fun hend h => h.read hend (by omega)
  dsimp only
  split
  · exact .leaveBlock ⟨rfl, rfl, rfl⟩ hread
  rename_i hn
  have hle : p.ptrRTCPData + 4 + 4 * (m p.ptrRTCPData).toNat ≤ p.ptrRTCPBlockEnd := by
    have : ¬ p.ptrRTCPBlockEnd - (p.ptrRTCPData + 4) < 4 * (m p.ptrRTCPData).toNat := hn
    omega
  refine ⟨⟨rfl, rfl, rfl⟩, fun h => (by cases h), fun _ => ⟨hs, nofun, ?_, hle, .inr ?_⟩,
    fun hend h => (hread hend h).read hend hle⟩
  · show p.ptrRTCPData < p.ptrRTCPData + 4 + 4 * (m p.ptrRTCPData).toNat
    omega
  · show 4 ∣ p.ptrRTCPData + 4 + 4 * (m p.ptrRTCPData).toNat
    omega

theorem parseFIRItem_spec (ha : 4 ∣ p.ptrRTCPData) : ItemSpec m dataEnd p (parseFIRItem m p) := by
  rw [parseFIRItem]
  split
  · exact .leaveBlock (.refl p) fun _ h => h
  rename_i hlen
  rw [length] at hlen
  refine ⟨⟨rfl, rfl, rfl⟩, fun h => (by cases h), fun _ => ⟨hs, nofun, ?_, ?_, .inr ?_⟩,
    fun hend h => (h.read hend (by omega)).moveTo ?_⟩
  · show p.ptrRTCPData < p.ptrRTCPData + 5 + 3
    omega
  · show p.ptrRTCPData + 5 + 3 ≤ _
    omega
  · show 4 ∣ p.ptrRTCPData + 5 + 3
    omega
  · show p.ptrRTCPData + 5 + 3 ≤ dataEnd
    omega

theorem parseAPPItem_spec (ha : 4 ∣ p.ptrRTCPData) (hb : 4 ∣ p.ptrRTCPBlockEnd) :
    ItemSpec m dataEnd p (parseAPPItem m p) := by
  rw [parseAPPItem]
  split
  · exact .leaveBlock (.refl p) fun _ h => h
  rename_i hlen
  dsimp only
  generalize hsize : (if p.length > kRtcpAppCode_DATA_SIZE then kRtcpAppCode_DATA_SIZE
    else p.length) = size
  have hbounds : 0 < size ∧ p.ptrRTCPData + size ≤ p.ptrRTCPBlockEnd ∧ 4 ∣ p.ptrRTCPData + size := by
    rw [length] at hlen hsize
    rw [← hsize, kRtcpAppCode_DATA_SIZE]
    split <;> omega
  obtain ⟨hpos, hle, h4⟩ := hbounds
  exact ⟨⟨rfl, rfl, rfl⟩, fun h => (by cases h), fun _ => ⟨hs, nofun,
    Nat.lt_add_of_pos_right hpos, hle, .inr h4⟩, fun hend h => h.read hend hle⟩

omit hs

/-- The outcome of the loop over SDES items: a CNAME, the end of a chunk
without one, or the end of the block. -/
structure SDESItemSpec (m : Mem) (dataEnd : Nat) (p : RTCPParserV2) (r : Bool × RTCPParserV2) :
    Prop where
  keeps : Keeps p r.2
  found : r.1 = true → r.2.state = p.state ∧ r.2.packetType ≠ .kRtcpNotValidCode ∧
    p.ptrRTCPData < r.2.ptrRTCPData ∧ r.2.ptrRTCPData ≤ p.ptrRTCPBlockEnd ∧ 4 ∣ r.2.ptrRTCPData
  notFound : r.1 = false →
    r.2.state = p.state ∧ p.ptrRTCPData < r.2.ptrRTCPData ∧ 4 ∣ r.2.ptrRTCPData ∨
    r.2.state = .TopLevel ∧ r.2.ptrRTCPData = p.ptrRTCPBlockEnd
  agree : p.ptrRTCPBlockEnd ≤ dataEnd → Agree m dataEnd p → Agree m dataEnd r.2

theorem SDESItemSpec.leaveBlock (h : Keeps p q)
    (ha : p.ptrRTCPBlockEnd ≤ dataEnd → Agree m dataEnd p → Agree m dataEnd q) :
    SDESItemSpec m dataEnd p q.leaveBlock :=
  ⟨⟨h.valid, h.headers, h.blockEnd⟩, fun h => (by cases h), fun _ => .inr ⟨rfl, h.blockEnd⟩,
    fun hend hp => (ha hend hp).leaveBlock (h.blockEnd ▸ hend)⟩

/-- A round that goes on with `q` adds what the rest does. -/
theorem SDESItemSpec.of_step {r : Bool × RTCPParserV2} (h : SDESItemSpec m dataEnd q r)
    (hk : Keeps p q) (hst : q.state = p.state) (hlt : p.ptrRTCPData ≤ q.ptrRTCPData)
    (hag : p.ptrRTCPBlockEnd ≤ dataEnd → Agree m dataEnd p → Agree m dataEnd q) :
    SDESItemSpec m dataEnd p r := by
  refine ⟨hk.trans h.keeps, fun hr => ?_, fun hr => ?_, fun hend hp => ?_⟩
  · obtain ⟨hs, ht, hl, hle, h4⟩ := h.found hr
    exact ⟨hs.trans hst, ht, Nat.lt_of_le_of_lt hlt hl, hk.blockEnd ▸ hle, h4⟩
  · exact (h.notFound hr).imp
      (fun h => ⟨h.1.trans hst, Nat.lt_of_le_of_lt hlt h.2.1, h.2.2⟩) fun h =>
      ⟨h.1, h.2.trans hk.blockEnd⟩
  · exact h.agree (hk.blockEnd ▸ hend) (hag hend hp)

/-- The items of a chunk that starts at the word `start`. -/
theorem parseSDESItemFrom_spec {start : Nat} (hstart : 4 ∣ start) :
    ∀ {fuel : Nat} {foundCName : Bool} {itemOctetsRead : Nat} {p : RTCPParserV2},
      4 ∣ p.ptrRTCPBlockEnd → p.ptrRTCPData = start + itemOctetsRead →
      (foundCName = true → p.packetType ≠ .kRtcpNotValidCode) →
      SDESItemSpec m dataEnd p (parseSDESItemFrom m fuel foundCName itemOctetsRead p)
  | 0, _, _, p, _, _, _ => .leaveBlock (.refl p) fun _ h => h
  | fuel + 1, foundCName, itemOctetsRead, p, hb, hoct, hfound => by
    rw [parseSDESItemFrom]
    split
    swap
    · exact .leaveBlock (.refl p) fun _ h => h
    rename_i hlt
    dsimp only
    have hitem : SDESItemFits m dataEnd (p.ptrRTCPData, p.ptrRTCPBlockEnd) →
        p.ptrRTCPBlockEnd ≤ dataEnd → Agree m dataEnd p → Agree m dataEnd (p.logItem.read 1) :=
      fun hfit hend h => (h.logItem hfit).read hend hlt
    split
    · rename_i htag
      have hle : p.ptrRTCPData + 1 + (4 - (itemOctetsRead + 1) % 4) % 4 ≤ p.ptrRTCPBlockEnd := by
        omega
      have h4 : 4 ∣ p.ptrRTCPData + 1 + (4 - (itemOctetsRead + 1) % 4) % 4 := by omega
      have hlt : p.ptrRTCPData < p.ptrRTCPData + 1 + (4 - (itemOctetsRead + 1) % 4) % 4 := by omega
      exact ⟨⟨rfl, rfl, rfl⟩, fun hr => ⟨rfl, hfound hr, hlt, hle, h4⟩, fun _ => .inl ⟨rfl, hlt, h4⟩,
        fun hend h => (hitem (fun _ h0 => absurd htag h0) hend h).moveTo (Nat.le_trans hle hend)⟩
    rename_i htag
    split
    swap
    · rename_i hlen
      have hlen : ¬ p.ptrRTCPData + 1 < p.ptrRTCPBlockEnd := hlen
      have hnext : p.ptrRTCPData + 1 = start + (itemOctetsRead + 1) := by omega
      exact .of_step (parseSDESItemFrom_spec hstart hb hnext hfound) ⟨rfl, rfl, rfl⟩ rfl
        (Nat.le_succ _) (hitem fun h => absurd h hlen)
    rename_i hlen
    have hlen : p.ptrRTCPData + 1 < p.ptrRTCPBlockEnd := hlen
    generalize hl : (m (p.logItem.read 1).ptrRTCPData).toNat = len
    have hread : SDESItemFits m dataEnd (p.ptrRTCPData, p.ptrRTCPBlockEnd) →
        p.ptrRTCPBlockEnd ≤ dataEnd → Agree m dataEnd p →
        Agree m dataEnd ((p.logItem.read 1).read 1) :=
      fun hfit hend h => (hitem hfit hend h).read hend hlen
    have hnext : p.ptrRTCPData + 1 + 1 + len = start + (itemOctetsRead + 1 + 1 + len) := by omega
    split
    · rename_i hcname
      have hfit : SDESItemFits m dataEnd (p.ptrRTCPData, p.ptrRTCPBlockEnd) :=
        fun _ _ h1 => absurd hcname h1
      split
      · exact .leaveBlock ⟨rfl, rfl, rfl⟩ (hread hfit)
      rename_i hroom
      have hroom : p.ptrRTCPData + 1 + 1 + len < p.ptrRTCPBlockEnd := Nat.not_le.mp hroom
      have hpeek : ∀ n ≤ len, p.ptrRTCPBlockEnd ≤ dataEnd → Agree m dataEnd p →
          Agree m dataEnd (((p.logItem.read 1).read 1).peek n) := fun n hn hend h =>
        (hread hfit hend h).peek (by
          show p.ptrRTCPData + 1 + 1 + n ≤ p.ptrRTCPBlockEnd
          omega)
      split
      · rename_i hillegal
        exact .leaveBlock ⟨rfl, rfl, rfl⟩ (hpeek _ hillegal)
      · refine .of_step (parseSDESItemFrom_spec hstart hb hnext fun _ => nofun) ⟨rfl, rfl, rfl⟩ rfl
          ?_ fun hend h => (hpeek len (Nat.le_refl _) hend h).moveTo ?_
        · show p.ptrRTCPData ≤ p.ptrRTCPData + 1 + 1 + len
          omega
        · show p.ptrRTCPData + 1 + 1 + len ≤ dataEnd
          omega
    · rename_i hcname
      refine .of_step (parseSDESItemFrom_spec hstart hb hnext hfound) ⟨rfl, rfl, rfl⟩ rfl ?_
        fun hend h => ?_
      · show p.ptrRTCPData ≤ p.ptrRTCPData + 1 + 1 + len
        omega
      · -- The item reaches over the buffer exactly if the pointer passes its end.
        have hfits : SDESItemFits m dataEnd (p.ptrRTCPData, p.ptrRTCPBlockEnd) ↔
            p.ptrRTCPData + 1 + 1 + len ≤ dataEnd := by
          rw [← hl]
          exact ⟨fun hfit => hfit hlen htag hcname, fun hle _ _ _ => hle⟩
        show Agree m dataEnd (((p.logItem.read 1).read 1).moveTo (p.ptrRTCPData + 1 + 1 + len))
        rw [Agree, inside_moveTo]
        show Inside dataEnd (((p.logItem.peek 1).moveTo (p.ptrRTCPData + 1)).peek 1 |>.moveTo
          (p.ptrRTCPData + 1 + 1)) ∧ _ ↔ Fits m dataEnd p.logItem
        rw [fits_logItem, hfits, inside_moveTo, inside_peek, inside_moveTo, inside_peek]
        have h1 : p.logItem.ptrRTCPData + 1 ≤ p.logItem.ptrRTCPBlockEnd := hlt
        have h2 : ((p.logItem.peek 1).moveTo (p.ptrRTCPData + 1)).ptrRTCPData + 1 ≤
          ((p.logItem.peek 1).moveTo (p.ptrRTCPData + 1)).ptrRTCPBlockEnd := hlen
        have h3 : p.ptrRTCPData + 1 + 1 ≤ dataEnd := by omega
        have h4 : p.ptrRTCPData + 1 ≤ dataEnd := by omega
        have hp : Inside dataEnd p.logItem ↔ Fits m dataEnd p := h
        simp only [h1, h2, h3, h4, hp, and_true]

theorem parseSDESChunks_of_end (h : p.ptrRTCPBlockEnd ≤ p.ptrRTCPData) :
    ∀ fuel, parseSDESChunks m fuel p = p.leaveBlock
  | 0 => rfl
  | fuel + 1 => by rw [parseSDESChunks, if_neg (Nat.not_lt.mpr h)]

/-- The chunks of a block, by induction on the rounds. -/
theorem parseSDESChunks_spec :
    ∀ {fuel : Nat} {p : RTCPParserV2}, InBlock p.state → 4 ∣ p.ptrRTCPData →
      4 ∣ p.ptrRTCPBlockEnd → ItemSpec m dataEnd p (parseSDESChunks m fuel p)
  | 0, p, _, _, _ => .leaveBlock (.refl p) fun _ h => h
  | fuel + 1, p, hs, ha, hb => by
    rw [parseSDESChunks]
    split
    swap
    · exact .leaveBlock (.refl p) fun _ h => h
    split
    · exact .leaveBlock (.refl p) fun _ h => h
    rename_i hlen
    rw [length] at hlen
    have h4 : 4 ∣ p.ptrRTCPData + 4 := by omega
    have hitem : SDESItemSpec m dataEnd (p.read 4) (parseSDESItem m (p.read 4)) :=
      parseSDESItemFrom_spec h4 hb rfl nofun
    have hk : Keeps p (parseSDESItem m (p.read 4)).2 :=
      ⟨hitem.keeps.valid, hitem.keeps.headers, hitem.keeps.blockEnd⟩
    have hag : p.ptrRTCPBlockEnd ≤ dataEnd → Agree m dataEnd p →
        Agree m dataEnd (parseSDESItem m (p.read 4)).2 := fun hend h =>
      hitem.agree hend (h.read hend (by omega))
    dsimp only
    split
    · rename_i hfound
      obtain ⟨hst, ht, hlt, hle, h4'⟩ := hitem.found hfound
      refine ⟨⟨hk.valid, hk.headers, hk.blockEnd⟩, fun h => (by cases h), fun _ => ⟨?_, ht, ?_, hle,
        .inr h4'⟩, hag⟩
      · show InBlock (parseSDESItem m (p.read 4)).2.state
        rw [hst]
        exact hs
      · exact Nat.lt_trans (Nat.lt_add_of_pos_right (by decide)) hlt
    · rename_i hnot
      rw [Bool.not_eq_true] at hnot
      rcases hitem.notFound hnot with ⟨hst, hlt, h4'⟩ | ⟨-, hptr⟩
      · exact .of_step (parseSDESChunks_spec (hst ▸ hs) h4' (hk.blockEnd ▸ hb)) hk
          (Nat.le_of_lt (Nat.lt_trans (Nat.lt_add_of_pos_right (by decide)) hlt)) hag
      · rw [parseSDESChunks_of_end (by rw [hptr, hk.blockEnd]; exact Nat.le_refl _)]
        exact .leaveBlock hk hag

theorem parseSDESChunk_spec (hs : InBlock p.state) (ha : 4 ∣ p.ptrRTCPData)
    (hb : 4 ∣ p.ptrRTCPBlockEnd) : ItemSpec m dataEnd p (parseSDESChunk m p) := by
  rw [parseSDESChunk]
  split
  · exact .leaveBlock (.refl p) fun _ h => h
  · exact .of_step (parseSDESChunks_spec hs ha hb) ⟨rfl, rfl, rfl⟩ (Nat.le_refl _) fun _ h => h

/-- Every state's item parser. -/
theorem parseItem_spec (hs : InBlock p.state) (ha : Aligned p) (hb : 4 ∣ p.ptrRTCPBlockEnd) :
    ItemSpec m dataEnd p (parseItem m p) := by
  have hword : p.state ≠ .PSFB_RPSIItem → 4 ∣ p.ptrRTCPData := fun h => ha.resolve_left h
  rw [parseItem]
  split
  case h_1 h => exact absurd h hs.1
  case h_2 h => exact absurd h hs.2
  case h_3 => refine parseCountedItem_spec ?_ ?_ ?_ _ hs ha <;> decide
  case h_4 h => exact parseSDESChunk_spec hs (hword (by rw [h]; decide)) hb
  case h_5 h => exact parseBYEItem_spec hs (hword (by rw [h]; decide))
  case h_6 => refine parseCountedItem_spec ?_ ?_ ?_ _ hs ha <;> decide
  case h_7 => refine parseItemOf_spec ?_ ?_ ?_ _ hs ha <;> decide
  case h_8 => refine parseItemOf_spec ?_ ?_ ?_ _ hs ha <;> decide
  case h_9 => refine parseItemOf_spec ?_ ?_ ?_ _ hs ha <;> decide
  case h_10 => refine parseItemOf_spec ?_ ?_ ?_ _ hs ha <;> decide
  case h_11 h => exact parseRPSIItem_spec hs h
  case h_12 h => exact parseFIRItem_spec hs (hword (by rw [h]; decide))
  case h_13 h => exact parsePsfbAppItem_spec (hword (by rw [h]; decide))
  case h_14 h => exact parsePsfbREMBItem_spec hs (hword (by rw [h]; decide))
  case h_15 h => exact parseAPPItem_spec hs (hword (by rw [h]; decide)) hb

end Items

end RTCPParserV2

end PerchWebrtc.Rtcp
