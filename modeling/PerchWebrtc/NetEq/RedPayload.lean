import PerchWebrtc.NetEq.RedSplitting

/-!
# RED payloads and their blocks

What a RED payload is made of, as in the figure of RFC 2198 that `SplitRed` has: the headers
of the redundant blocks, the header of the primary one, and the data of all blocks.

* `redundantBlocks_of_bytes`: the headers that are read are those that were written;
* `populate_of_bytes`: every block gets its data;
* `splitRed_eq_iterations`: the list that is spliced, packet by packet;
* `splitRed_exact`: a list of RED packets becomes the list of their blocks.
-/

namespace PerchWebrtc

namespace Mem

theorem bytes_append_iff {m : Mem} {p : Nat} {a b : List Byte} :
    m.bytes p (a ++ b).length = a ++ b ↔
      m.bytes p a.length = a ∧ m.bytes (p + a.length) b.length = b := by
  rw [List.length_append, bytes_add]
  constructor
  · exact fun h => List.append_inj h (bytes_length _ _ _)
  · rintro ⟨ha, hb⟩
    rw [ha, hb]

/-- A copy of bytes that are known. -/
theorem copy_eq_ofList {m : Mem} {p : Nat} {data : List Byte}
    (h : m.bytes p data.length = data) :
    Mem.copy (fun _ => 0) 0 m p data.length = ofList data := by
  funext i
  by_cases hi : i < data.length
  · have hget : (m.bytes p data.length)[i]? = data[i]? := congrArg (·[i]?) h
    rw [copy_inside _ _ (Nat.zero_le i) (by omega), ofList, List.getD_eq_getElem?_getD, ← hget]
    simp [bytes, hi]
  · rw [copy_outside _ _ (by omega), ofList, List.getD_eq_default _ _ (by omega)]

theorem bytes_ofList (data : List Byte) : (ofList data).bytes 0 data.length = data := by
  refine List.ext_getElem (bytes_length _ _ _) fun i hi hi' => ?_
  simp [bytes, ofList, hi']

end Mem

namespace NetEq

/-- A redundant block: 14 bits of timestamp offset, and data of a length with 10 bits. -/
structure RedBlock where
  payloadType : BitVec 7
  timestampOffset : BitVec 14
  data : List Byte
  length_lt : data.length < 2 ^ 10

/-- The redundant blocks in the order of their headers, and the primary one. -/
structure RedPayload where
  redundant : List RedBlock
  payloadType : BitVec 7
  data : List Byte

namespace RedBlock

def header (b : RedBlock) : List Byte :=
  [0x80 ||| b.payloadType.setWidth 8, BitVec.ofNat 8 (b.timestampOffset.toNat / 2 ^ 6),
    BitVec.ofNat 8 (b.timestampOffset.toNat % 2 ^ 6 * 2 ^ 2 + b.data.length / 2 ^ 8),
    BitVec.ofNat 8 b.data.length]

/-- The block of a packet that has no payload yet. -/
def unfilled (red : Packet) (b : RedBlock) : Packet where
  header :=
    { red.header with
      payloadType := b.payloadType.setWidth 8
      timestamp := red.timestamp - b.timestampOffset.setWidth 32 }
  payloadLength := b.data.length
  primary := false

def packet (red : Packet) (b : RedBlock) : Packet :=
  { unfilled red b with payload := some (Mem.ofList b.data) }

end RedBlock

namespace RedPayload

def bytes (r : RedPayload) : List Byte :=
  r.redundant.flatMap RedBlock.header ++ [r.payloadType.setWidth 8] ++
    (r.redundant.flatMap RedBlock.data ++ r.data)

def primary (red : Packet) (r : RedPayload) : Packet where
  header := { red.header with payloadType := r.payloadType.setWidth 8 }
  payload := some (Mem.ofList r.data)
  payloadLength := r.data.length
  primary := true

/-- The blocks of a packet: the primary one is the first. -/
def blocks (red : Packet) (r : RedPayload) : List Packet :=
  r.primary red :: (r.redundant.map (RedBlock.packet red)).reverse

/-- A packet carries a RED payload. -/
structure CarriedBy (r : RedPayload) (red : Packet) : Prop where
  payload : red.payload.isSome = true
  length : red.payloadLength = r.bytes.length
  bytes : red.bytes.bytes 0 r.bytes.length = r.bytes

/-- The packet of a payload. -/
def asPacket (header : RTPHeader) (r : RedPayload) : Packet where
  header := header
  payload := some (Mem.ofList r.bytes)
  payloadLength := r.bytes.length

theorem asPacket_carriedBy (header : RTPHeader) (r : RedPayload) :
    r.CarriedBy (r.asPacket header) :=
  ⟨rfl, rfl, Mem.bytes_ofList r.bytes⟩

/-- A redundant block with an offset and a primary block behind it. -/
def two : RedPayload := ⟨[⟨5, 160, [1, 2, 3], by decide⟩], 6, [4]⟩

end RedPayload

namespace PayloadSplitter

/-! ## Headers -/

section Headers

/-- The first byte of a header of a redundant block. -/
theorem redundant_first (payloadType : BitVec 7) :
    (0x80 ||| payloadType.setWidth 8) &&& 0x80 ≠ (0 : Byte) ∧
      (0x80 ||| payloadType.setWidth 8) &&& 0x7F = (payloadType.setWidth 8 : Byte) := by
  revert payloadType
  decide +kernel

/-- The header of a last block. -/
theorem last_first (payloadType : BitVec 7) :
    payloadType.setWidth 8 &&& 0x80 = (0 : Byte) ∧
      payloadType.setWidth 8 &&& 0x7F = (payloadType.setWidth 8 : Byte) := by
  revert payloadType
  decide +kernel

/-- The two fields of the third byte of a header. -/
theorem third_fields (b : Byte) :
    (b &&& 0xFC).toNat / 2 ^ 2 = b.toNat / 2 ^ 2 ∧ (b &&& 0x03).toNat = b.toNat % 2 ^ 2 := by
  revert b
  decide +kernel

variable {m : Mem} {p : Nat} {b : RedBlock}

/-- The bytes of a header, one by one. -/
theorem header_bytes (h : m.bytes p b.header.length = b.header) :
    m p = 0x80 ||| b.payloadType.setWidth 8 ∧
      m (p + 1) = BitVec.ofNat 8 (b.timestampOffset.toNat / 2 ^ 6) ∧
      m (p + 2) =
        BitVec.ofNat 8 (b.timestampOffset.toNat % 2 ^ 6 * 2 ^ 2 + b.data.length / 2 ^ 8) ∧
      m (p + 3) = BitVec.ofNat 8 b.data.length := by
  have hlist : [m (p + 0), m (p + 1), m (p + 2), m (p + 3)] = b.header := h
  simpa [RedBlock.header] using hlist

theorem isLast_header (h : m.bytes p b.header.length = b.header) : isLast m p = false := by
  show decide (m p &&& 0x80 = 0) = false
  rw [(header_bytes h).1]
  exact decide_eq_false (redundant_first b.payloadType).1

theorem timestampOffset_header (h : m.bytes p b.header.length = b.header) :
    timestampOffset m p = b.timestampOffset.toNat := by
  obtain ⟨-, h1, h2, -⟩ := header_bytes h
  have hoffset := b.timestampOffset.isLt
  have hlength := b.length_lt
  unfold timestampOffset
  rw [(third_fields _).1, h1, h2, BitVec.toNat_ofNat, BitVec.toNat_ofNat]
  omega

theorem blockLength_header (h : m.bytes p b.header.length = b.header) :
    blockLength m p = b.data.length := by
  obtain ⟨-, -, h2, h3⟩ := header_bytes h
  have hlength := b.length_lt
  unfold blockLength
  rw [(third_fields _).2, h2, h3, BitVec.toNat_ofNat, BitVec.toNat_ofNat]
  omega

/-- The block that is read from the header of a redundant block. -/
theorem redundantBlock_header {red : Packet} (h : red.bytes.bytes p b.header.length = b.header) :
    redundantBlock red p = b.unfilled red := by
  unfold redundantBlock RedBlock.unfilled
  rw [timestampOffset_header h, blockLength_header h, (header_bytes h).1,
    (redundant_first b.payloadType).2, BitVec.ofNat_toNat]

/-- The headers that are read are those that were written. -/
theorem redundantBlocks_of_bytes {red : Packet} {blocks : List RedBlock}
    (h : red.bytes.bytes p (blocks.flatMap RedBlock.header).length =
      blocks.flatMap RedBlock.header) :
    redundantBlocks red p blocks.length = blocks.map (RedBlock.unfilled red) ∧
      ∀ i < blocks.length, isLast red.bytes (p + 4 * i) = false := by
  induction blocks generalizing p with
  | nil => exact ⟨rfl, fun i hi => absurd hi (Nat.not_lt_zero i)⟩
  | cons b blocks ih =>
    rw [List.flatMap_cons] at h
    obtain ⟨hfirst, hrest⟩ := Mem.bytes_append_iff.mp h
    obtain ⟨hblocks, hlast⟩ := ih hrest
    constructor
    · show (List.range (blocks.length + 1)).map _ = _
      rw [map_headers_succ (redundantBlock red), redundantBlock_header hfirst, List.map_cons]
      exact congrArg _ hblocks
    · intro i hi
      cases i with
      | zero => exact isLast_header hfirst
      | succ i =>
        have hplace : p + 4 * (i + 1) = p + b.header.length + 4 * i := by
          show p + 4 * (i + 1) = p + 4 + 4 * i
          omega
        rw [hplace]
        exact hlast i (Nat.lt_of_succ_lt_succ hi)

end Headers

/-! ## Data -/

/-- Every block gets its data. -/
theorem populate_of_bytes {red : Packet} {p : Nat} : ∀ {blocks : List (Packet × List Byte)},
    (∀ b ∈ blocks, b.1.payloadLength = b.2.length) →
    red.bytes.bytes p (blocks.flatMap (·.2)).length = blocks.flatMap (·.2) →
    p + (blocks.flatMap (·.2)).length ≤ red.payloadLength →
    (populate red (blocks.map (·.1)) p).mismatch = false ∧
      (populate red (blocks.map (·.1)) p).packets =
        blocks.map fun b => { b.1 with payload := some (Mem.ofList b.2) } := by
  intro blocks hlengths hbytes hfits
  induction blocks generalizing p with
  | nil => exact ⟨rfl, rfl⟩
  | cons b blocks ih =>
    rw [List.flatMap_cons] at hbytes hfits
    obtain ⟨hfirst, hrest⟩ := Mem.bytes_append_iff.mp hbytes
    have hlength := hlengths b List.mem_cons_self
    rw [List.length_append] at hfits
    push_cast at hfits
    obtain ⟨hmismatch, hpackets⟩ := ih (p := p + b.2.length)
      (fun q hq => hlengths q (List.mem_cons_of_mem _ hq)) hrest (by push_cast; omega)
    rw [Nat.cast_add, ← hlength] at hmismatch hpackets
    have hslice : red.slice p b.1.payloadLength = some (Mem.ofList b.2) := by
      unfold Packet.slice
      rw [hlength, Int.toNat_natCast, Int.toNat_natCast, Mem.copy_eq_ofList hfirst]
    simp only [List.map_cons]
    unfold populate
    rw [if_neg (by omega)]
    refine ⟨hmismatch, ?_⟩
    show _ :: (populate red (blocks.map (·.1)) (p + b.1.payloadLength)).packets = _
    rw [hslice, hpackets]

/-! ## Packets -/

section Packets

variable {red : Packet} {r : RedPayload}

/-- The parts of the bytes that a packet carries. -/
theorem carriedBy_parts (h : r.CarriedBy red) :
    red.bytes.bytes 0 (r.redundant.flatMap RedBlock.header).length =
        r.redundant.flatMap RedBlock.header ∧
      red.bytes (4 * r.redundant.length) = r.payloadType.setWidth 8 ∧
      red.bytes.bytes (4 * r.redundant.length + 1)
          (r.redundant.flatMap RedBlock.data ++ r.data).length =
        r.redundant.flatMap RedBlock.data ++ r.data ∧
      red.payloadLength = 4 * r.redundant.length + 1 +
        (r.redundant.flatMap RedBlock.data ++ r.data).length := by
  have hheaders : (r.redundant.flatMap RedBlock.header).length = 4 * r.redundant.length := by
    rw [List.length_flatMap]
    show (r.redundant.map fun _ => 4).sum = _
    rw [List.map_const', List.sum_replicate, smul_eq_mul, Nat.mul_comm]
  have hbytes := h.bytes
  have hlength := h.length
  unfold RedPayload.bytes at hbytes hlength
  rw [List.length_append, List.length_append, hheaders] at hlength
  obtain ⟨hfront, hdata⟩ := Mem.bytes_append_iff.mp hbytes
  obtain ⟨hfirst, hlast⟩ := Mem.bytes_append_iff.mp hfront
  rw [List.length_append, hheaders, Nat.zero_add] at hdata
  rw [hheaders, Nat.zero_add] at hlast
  refine ⟨hfirst, ?_, hdata, ?_⟩
  · have hsingle : [red.bytes (4 * r.redundant.length + 0)] = [r.payloadType.setWidth 8] := hlast
    exact List.singleton_inj.mp hsingle
  · rw [hlength]
    push_cast
    rfl

theorem lastHeader_of_carriedBy (h : r.CarriedBy red) :
    LastHeader red r.redundant.length := by
  obtain ⟨hheaders, hlast, -, -⟩ := carriedBy_parts h
  constructor
  · show decide (red.bytes (4 * r.redundant.length) &&& 0x80 = 0) = true
    rw [hlast]
    exact decide_eq_true (last_first r.payloadType).1
  · intro i hi
    have hbefore := (redundantBlocks_of_bytes hheaders).2 i hi
    rwa [Nat.zero_add] at hbefore

/-- The blocks before they have their data. -/
theorem headerBlocks_of_carriedBy (h : r.CarriedBy red) :
    headerBlocks red r.redundant.length =
      r.redundant.map (RedBlock.unfilled red) ++ [{ r.primary red with payload := none }] := by
  obtain ⟨hheaders, hlast, -, hlength⟩ := carriedBy_parts h
  have hblocks := (redundantBlocks_of_bytes hheaders).1
  have hsum := (@redundantBlocks_lengths red r.redundant.length 0).2
  rw [hblocks, List.map_map] at hsum
  have hdata : ((r.redundant.map ((·.payloadLength) ∘ RedBlock.unfilled red)).sum : Int) =
      (r.redundant.flatMap RedBlock.data).length := by
    rw [List.length_flatMap, Nat.cast_list_sum, List.map_map]
    rfl
  have hrest : red.payloadLength -
      ((blockLengths red 0 r.redundant.length : Int) + 4 * r.redundant.length + 1) =
        r.data.length := by
    rw [hlength, ← hsum, hdata, List.length_append]
    omega
  unfold headerBlocks lastBlock RedPayload.primary
  rw [hblocks, hlast, (last_first r.payloadType).2, hrest]

/-- A packet is replaced by its blocks. -/
theorem splitRedPacket_exact (h : r.CarriedBy red) {fuel : Nat}
    (hfuel : r.redundant.length < fuel) :
    (splitRedPacket fuel red).2 = some (false, r.blocks red) := by
  obtain ⟨-, -, hdata, hlength⟩ := carriedBy_parts h
  let filled : List (Packet × List Byte) :=
    r.redundant.map (fun b => (b.unfilled red, b.data)) ++
      [({ r.primary red with payload := none }, r.data)]
  have hblocks : filled.map (·.1) = headerBlocks red r.redundant.length := by
    rw [headerBlocks_of_carriedBy h, List.map_append, List.map_map]
    rfl
  have hbytes : filled.flatMap (·.2) = r.redundant.flatMap RedBlock.data ++ r.data := by
    rw [List.flatMap_append, List.flatMap_map]
    show _ ++ (r.data ++ []) = _
    rw [List.append_nil]
  have hlengths : ∀ b ∈ filled, b.1.payloadLength = b.2.length := by
    intro b hb
    rcases List.mem_append.mp hb with hb | hb
    · obtain ⟨block, -, rfl⟩ := List.mem_map.mp hb
      rfl
    · rw [List.mem_singleton.mp hb]
      rfl
  obtain ⟨hmismatch, hpackets⟩ := populate_of_bytes (p := 4 * r.redundant.length + 1) hlengths
    (by rw [hbytes]; exact hdata) (by rw [hbytes, hlength]; push_cast; exact le_rfl)
  rw [hblocks] at hmismatch hpackets
  rw [splitRedPacket_eq (lastHeader_of_carriedBy h) hfuel]
  dsimp only
  rw [hmismatch, hpackets, List.map_append, List.reverse_append, List.map_map]
  rfl

end Packets

/-! ## Lists of packets -/

/-- The list while `SplitRed` goes through it: the packets in front of the iterator, and
those from it on. -/
structure RedIteration where
  ret : SplitterReturnCode := .kOK
  front : List Packet := []
  rest : List Packet

/-- The new packets go in front of the iterator, and the packet at it is erased. -/
def iteration (fuel : Nat) (s : RedIteration) : Option RedIteration :=
  match s.rest with
  | [] => some s
  | red :: rest =>
    (splitRedPacket fuel red).2.map fun split =>
      { ret := if split.1 then .kRedLengthMismatch else s.ret
        front := s.front ++ split.2
        rest := rest }

def iterations (fuel : Nat) : Nat → RedIteration → Option RedIteration
  | 0, s => some s
  | n + 1, s => (iteration fuel s).bind (iterations fuel n)

/-- The return value of the loop, given the one so far. -/
def sticky (ret later : SplitterReturnCode) : SplitterReturnCode :=
  if later = .kOK then ret else later

theorem splitRed_ret {fuel : Nat} {packetList : List Packet}
    {result : SplitterReturnCode × List Packet} (h : (splitRed fuel packetList).2 = some result) :
    result.1 = .kOK ∨ result.1 = .kRedLengthMismatch := by
  induction packetList generalizing result with
  | nil =>
    cases h
    exact .inl rfl
  | cons red packetList ih =>
    unfold splitRed at h
    dsimp only at h
    split at h
    · cases h
    · rename_i mismatch newPackets hsplit
      obtain ⟨rest, hrest, rfl⟩ := Option.map_eq_some_iff.mp h
      cases mismatch with
      | true => exact .inr rfl
      | false => exact @ih rest hrest

/-- The list that is spliced, packet by packet. -/
theorem splitRed_eq_iterations (fuel : Nat) (packetList : List Packet) :
    ∀ ret front, ret = .kOK ∨ ret = .kRedLengthMismatch →
      iterations fuel packetList.length ⟨ret, front, packetList⟩ =
        (splitRed fuel packetList).2.map fun result =>
          ⟨sticky ret result.1, front ++ result.2, []⟩ := by
  induction packetList with
  | nil =>
    intro ret front _
    show some _ = some (RedIteration.mk (sticky ret .kOK) (front ++ []) [])
    rw [List.append_nil]
    rfl
  | cons red packetList ih =>
    intro ret front hret
    show (iteration fuel ⟨ret, front, red :: packetList⟩).bind _ = _
    unfold iteration splitRed
    dsimp only
    split
    · rename_i hsplit
      rw [hsplit]
      rfl
    · rename_i mismatch newPackets hsplit
      rw [hsplit]
      show iterations fuel packetList.length _ = _
      rw [ih _ _ (by cases mismatch; exacts [hret, .inr rfl]), Option.map_map]
      cases hrest : (splitRed fuel packetList).2 with
      | none => rfl
      | some result =>
        have hresult := splitRed_ret hrest
        simp only [Option.map_some, Function.comp, List.append_assoc]
        cases mismatch with
        | false => rfl
        | true => rcases hresult with h | h <;> rw [h] <;> rfl

/-- The list after some iterations, when every packet is replaced without a mismatch. -/
theorem iterations_of_packets {fuel : Nat} {packets : List (Packet × RedPayload)}
    (h : ∀ x ∈ packets, (splitRedPacket fuel x.1).2 = some (false, x.2.blocks x.1)) :
    ∀ (i : Nat) (front : List Packet),
      iterations fuel i { front := front, rest := packets.map (·.1) } =
        some { front := front ++ (packets.take i).flatMap fun x => x.2.blocks x.1
               rest := (packets.drop i).map (·.1) } := by
  intro i
  induction i generalizing packets with
  | zero =>
    intro front
    show some _ = some (RedIteration.mk .kOK (front ++ []) _)
    rw [List.append_nil]
    rfl
  | succ i ih =>
    intro front
    unfold iterations iteration
    cases packets with
    | nil =>
      rw [List.take_nil, List.drop_nil]
      have hnil := @ih [] h front
      rw [List.take_nil, List.drop_nil] at hnil
      exact hnil
    | cons x packets =>
      rw [List.map_cons]
      dsimp only
      rw [h x List.mem_cons_self, List.take_succ_cons, List.drop_succ_cons, List.flatMap_cons,
        ← List.append_assoc]
      exact ih (fun y hy => h y (List.mem_cons_of_mem _ hy)) (front ++ x.2.blocks x.1)

/-- A list of RED packets becomes the list of their blocks: packet by packet, with the
packets around the one that is replaced as they are. -/
theorem splitRed_exact (packets : List (Packet × RedPayload))
    (h : ∀ x ∈ packets, x.2.CarriedBy x.1) :
    ∃ enough, ∀ fuel, enough ≤ fuel →
      (∀ i, iterations fuel i { rest := packets.map (·.1) } =
        some { front := (packets.take i).flatMap fun x => x.2.blocks x.1
               rest := (packets.drop i).map (·.1) }) ∧
      (splitRed fuel (packets.map (·.1))).2 =
        some (.kOK, packets.flatMap fun x => x.2.blocks x.1) := by
  obtain ⟨enough, henough⟩ : ∃ enough, ∀ x ∈ packets, x.2.redundant.length < enough := by
    refine ⟨(packets.map fun x => x.2.redundant.length).sum + 1, fun x hx => ?_⟩
    exact Nat.lt_succ_of_le (List.single_le_sum (fun _ _ => Nat.zero_le _) _
      (List.mem_map_of_mem hx))
  refine ⟨enough, fun fuel hfuel => ?_⟩
  have hpacket : ∀ x ∈ packets, (splitRedPacket fuel x.1).2 = some (false, x.2.blocks x.1) :=
    fun x hx => splitRedPacket_exact (h x hx) (lt_of_lt_of_le (henough x hx) hfuel)
  have hloop : ∀ i, iterations fuel i { rest := packets.map (·.1) } =
      some { front := (packets.take i).flatMap fun x => x.2.blocks x.1
             rest := (packets.drop i).map (·.1) } := fun i => by
    rw [iterations_of_packets hpacket i []]
    rfl
  refine ⟨hloop, ?_⟩
  have hall := hloop packets.length
  rw [List.take_length, List.drop_length] at hall
  have hsplit := splitRed_eq_iterations fuel (packets.map (·.1)) .kOK [] (.inl rfl)
  rw [List.length_map, hall] at hsplit
  obtain ⟨⟨ret, newList⟩, hresult, heq⟩ := Option.map_eq_some_iff.mp hsplit.symm
  rw [hresult]
  injection heq with hret hfront
  have hok : ret = .kOK := by
    rcases splitRed_ret hresult with h | h
    · exact h
    · cases (show ret = .kRedLengthMismatch from h)
      cases hret
  rw [hok]
  exact congrArg (fun l => some (SplitterReturnCode.kOK, l)) hfront

/-- A list of one packet, with a redundant block. -/
def onePacket : List (Packet × RedPayload) :=
  [(RedPayload.two.asPacket { timestamp := 100 }, RedPayload.two)]

theorem splitRed_exact_two : ∃ enough, ∀ fuel, enough ≤ fuel →
    (∀ i, iterations fuel i { rest := onePacket.map (·.1) } =
      some { front := (onePacket.take i).flatMap fun x => x.2.blocks x.1
             rest := (onePacket.drop i).map (·.1) }) ∧
    (splitRed fuel (onePacket.map (·.1))).2 =
      some (.kOK, onePacket.flatMap fun x => x.2.blocks x.1) :=
  splitRed_exact onePacket fun x hx => by
    rw [List.mem_singleton.mp hx]
    exact RedPayload.two.asPacket_carriedBy _

end PayloadSplitter

end NetEq

end PerchWebrtc
