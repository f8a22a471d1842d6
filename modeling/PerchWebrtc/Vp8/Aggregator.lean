import PerchWebrtc.Framework.Int32

/-!
# Aggregation of small partitions

`PartitionTreeNode` and `Vp8PartitionAggregator` (`vp8_partition_aggregator.cc`):
a search over the ways to put consecutive partitions into packets, and the
number of fragments of a large partition.

* `findOptimalConfiguration_packs`: no packet of the configuration that is
  found exceeds the maximum size, if an `int` holds the sum of the sizes;
* `calcNumberOfFragments_splits`: no fragment is empty or too large.
-/

namespace PerchWebrtc.Vp8

/-- `std::numeric_limits<int>::max()`. -/
def INT_MAX : Nat := 2147483647

/-- A node: the partitions up to one of them have been put into packets. -/
structure PartitionTreeNode where
  /-- The partitions that remain. -/
  numPartitions : Nat
  /-- The size of the last packet. -/
  thisSize : Int
  maxParentSize : Int := 0
  minParentSize : Int := INT_MAX
  /-- `packet_start_` of the node and of its parents, up to the root. -/
  packetStarts : List Bool

namespace PartitionTreeNode

def createRootNode (size : Nat) (numPartitions : Nat) : PartitionTreeNode where
  numPartitions := numPartitions - 1
  thisSize := size
  packetStarts := [true]

/-- A "right" child is one that starts a packet. -/
def numPackets (node : PartitionTreeNode) : Nat := node.packetStarts.count true

def cost (penalty : Nat) (node : PartitionTreeNode) : Int :=
  let cost :=
    if node.numPartitions = 0 then
      max node.maxParentSize node.thisSize - min node.minParentSize node.thisSize
    else max node.maxParentSize node.thisSize - node.minParentSize
  int32 (cost + node.numPackets * penalty)

/-- The continuation of the packet with the partition of size `next`. -/
def leftChild (maxSize next : Nat) (node : PartitionTreeNode) : Option PartitionTreeNode :=
  let thisSize := int32 (node.thisSize + next)
  if thisSize ≤ maxSize then
    some { node with
      numPartitions := node.numPartitions - 1
      thisSize := thisSize
      packetStarts := false :: node.packetStarts }
  else none

/-- A new packet for the partition of size `next`. -/
def rightChild (next : Nat) (node : PartitionTreeNode) : Option PartitionTreeNode :=
  if 0 < node.thisSize then
    some
      { numPartitions := node.numPartitions - 1
        thisSize := next
        maxParentSize := max node.maxParentSize node.thisSize
        minParentSize := min node.minParentSize node.thisSize
        packetStarts := true :: node.packetStarts }
  else none

/-- `GetOptimalNode`; the list is `size_vector_`. -/
def getOptimalNode (maxSize penalty : Nat) : List Nat → PartitionTreeNode → PartitionTreeNode
  | [], node => node
  | next :: sizes, node =>
    match node.leftChild maxSize next, node.rightChild next with
    | none, none => node
    | none, some right => getOptimalNode maxSize penalty sizes right
    | some left, none => getOptimalNode maxSize penalty sizes left
    | some left, some right =>
      let (first, second) :=
        if left.cost penalty ≤ right.cost penalty then (left, right) else (right, left)
      let first := getOptimalNode maxSize penalty sizes first
      if second.cost penalty ≤ first.cost penalty then
        let second := getOptimalNode maxSize penalty sizes second
        if second.cost penalty < first.cost penalty then second else first
      else first

/-! ## Children -/

/-- The left child, whatever its size. -/
def continued (next : Nat) (node : PartitionTreeNode) : PartitionTreeNode :=
  { node with
    numPartitions := node.numPartitions - 1
    thisSize := node.thisSize + next
    packetStarts := false :: node.packetStarts }

/-- The right child of a node with a packet that is not empty. -/
def started (next : Nat) (node : PartitionTreeNode) : PartitionTreeNode where
  numPartitions := node.numPartitions - 1
  thisSize := next
  maxParentSize := max node.maxParentSize node.thisSize
  minParentSize := min node.minParentSize node.thisSize
  packetStarts := true :: node.packetStarts

section

variable {maxSize next : Nat} {node : PartitionTreeNode}

@[simp]
theorem numPackets_continued : (node.continued next).numPackets = node.numPackets :=
  List.count_cons_of_ne (by decide)

@[simp]
theorem numPackets_started : (node.started next).numPackets = node.numPackets + 1 :=
  List.count_cons_self

/-- The size of the packet does not wrap, as long as an `int` holds it. -/
theorem leftChild_eq (hpos : 0 < node.thisSize) (hint : node.thisSize + next ≤ INT_MAX) :
    node.leftChild maxSize next =
      if node.thisSize + next ≤ maxSize then some (node.continued next) else none := by
  have hmax : (INT_MAX : Int) = 2 ^ 31 - 1 := rfl
  rw [leftChild, int32_of_fits (by omega) (by omega)]
  rfl

theorem rightChild_eq (hpos : 0 < node.thisSize) :
    node.rightChild next = some (node.started next) := if_pos hpos

end

end PartitionTreeNode

namespace Vp8PartitionAggregator

open PartitionTreeNode

/-- The packet indices from the last partition to the first. -/
def configFrom : List Bool → Int → List Int
  | [], _ => []
  | packetStart :: parents, packetIndex =>
    packetIndex :: configFrom parents (if packetStart then packetIndex - 1 else packetIndex)

/-- `SetPriorMinMax` and `FindOptimalConfiguration`, for partitions of these
sizes. -/
def findOptimalConfiguration (sizes : List Nat) (minSize maxSizeSoFar : Int)
    (maxSize penalty : Nat) : List Int :=
  let root := createRootNode (sizes.headD 0) sizes.length
  let root :=
    if 0 ≤ minSize ∧ 0 ≤ maxSizeSoFar then
      { root with minParentSize := minSize, maxParentSize := maxSizeSoFar }
    else root
  let opt := getOptimalNode maxSize penalty sizes.tail root
  (configFrom opt.packetStarts (opt.numPackets - 1)).reverse

/-- The sizes of the packets of a configuration: neighbours with one index
are added. -/
def packetSizes : List (Int × Nat) → List (Int × Nat)
  | [] => []
  | (index, size) :: rest =>
    match packetSizes rest with
    | [] => [(index, size)]
    | (index', size') :: sizes =>
      if index = index' then (index, size + size') :: sizes
      else (index, size) :: (index', size') :: sizes

def calcMinMax (config : List Int) (sizes : List Nat) (minSize maxSize : Int) : Int × Int :=
  let minSize := if minSize < 0 then (INT_MAX : Int) else minSize
  let maxSize := if maxSize < 0 then 0 else maxSize
  (packetSizes (config.zip sizes)).foldl
    (fun s p => (if (p.2 : Int) < s.1 then (p.2 : Int) else s.1,
      if s.2 < (p.2 : Int) then (p.2 : Int) else s.2))
    (minSize, maxSize)

/-- The cost of `n` fragments of which the largest has `fragmentSize` bytes. -/
def fragmentCost (penalty : Nat) (minSize maxSize : Int) (n fragmentSize : Nat) : Int :=
  if (fragmentSize : Int) < minSize then minSize - fragmentSize + n * penalty
  else if maxSize < fragmentSize then fragmentSize - maxSize + n * penalty
  else n * penalty

/-- The loop over the numbers of fragments from `n` on; `count` of them are
tried. -/
def bestNumber (largePartitionSize maxPayloadSize penalty : Nat) (minSize maxSize : Int) :
    (count n : Nat) → (numFragments bestCost : Int) → Int
  | 0, _, numFragments, _ => numFragments
  | count + 1, n, numFragments, bestCost =>
    let fragmentSize := (largePartitionSize + n - 1) / n
    let cost := fragmentCost penalty minSize maxSize n fragmentSize
    if fragmentSize ≤ maxPayloadSize ∧ cost < bestCost then
      bestNumber largePartitionSize maxPayloadSize penalty minSize maxSize count (n + 1) n cost
    else
      bestNumber largePartitionSize maxPayloadSize penalty minSize maxSize count (n + 1)
        numFragments bestCost

def calcNumberOfFragments (largePartitionSize maxPayloadSize penalty : Nat)
    (minSize maxSize : Int) : Int :=
  let minNumberOfFragments := (largePartitionSize + maxPayloadSize - 1) / maxPayloadSize
  if minSize < 0 ∨ maxSize < 0 then minNumberOfFragments
  else
    let maxNumberOfFragments := (largePartitionSize + minSize.toNat - 1) / minSize.toNat
    bestNumber largePartitionSize maxPayloadSize penalty minSize maxSize
      (maxNumberOfFragments + 1 - minNumberOfFragments) minNumberOfFragments (-1) INT_MAX

/-! ## The packets of a configuration -/

/-- The bytes of the packet with an index. -/
def packetSum (index : Int) (l : List (Int × Nat)) : Nat :=
  ((l.filter (·.1 = index)).map Prod.snd).sum

theorem packetSum_cons (index : Int) (p : Int × Nat) (l : List (Int × Nat)) :
    packetSum index (p :: l) = (if p.1 = index then p.2 else 0) + packetSum index l := by
  unfold packetSum
  by_cases h : p.1 = index
  · rw [List.filter_cons_of_pos (by simpa using h), if_pos h, List.map_cons, List.sum_cons]
  · rw [List.filter_cons_of_neg (by simpa using h), if_neg h, Nat.zero_add]

theorem packetSum_append (index : Int) (l l' : List (Int × Nat)) :
    packetSum index (l ++ l') = packetSum index l + packetSum index l' := by
  simp only [packetSum, List.filter_append, List.map_append, List.sum_append]

theorem packetSum_reverse (index : Int) (l : List (Int × Nat)) :
    packetSum index l.reverse = packetSum index l := by
  simp only [packetSum, List.filter_reverse, List.map_reverse, List.sum_reverse]

theorem packetSum_eq_zero {index : Int} {l : List (Int × Nat)} (h : ∀ p ∈ l, p.1 ≠ index) :
    packetSum index l = 0 := by
  unfold packetSum
  rw [List.filter_eq_nil_iff.mpr fun p hp => by simpa using h p hp]
  rfl

/-- A configuration for partitions of these sizes: the packets are numbered
up to the index of the last partition, and none exceeds the maximum size. -/
structure Packs (maxSize : Nat) (config : List Int) (sizes : List Nat) : Prop where
  length : config.length = sizes.length
  bounds : ∀ c ∈ config, 0 ≤ c ∧ c ≤ config.getLastD 0
  packetSum_le : ∀ index, packetSum index (config.zip sizes) ≤ maxSize

/-- The packet indices of a node, from the last partition to the first. -/
def configOf (starts : List Bool) : List Int := configFrom starts (starts.count true - 1)

theorem configOf_false (starts : List Bool) :
    configOf (false :: starts) = ((starts.count true : Int) - 1) :: configOf starts := by
  rw [configOf, List.count_cons_of_ne (by decide), configFrom]
  rfl

theorem configOf_true (starts : List Bool) :
    configOf (true :: starts) = (starts.count true : Int) :: configOf starts := by
  have hindex : ((starts.count true + 1 : Nat) : Int) - 1 = starts.count true := by omega
  rw [configOf, List.count_cons_self, configFrom, hindex]
  rfl

/-- What holds of a node of the tree: the partitions of the sizes `placed`,
the last one first, have been put into packets. -/
structure Good (maxSize : Nat) (placed : List Nat) (node : PartitionTreeNode) : Prop where
  length : (configOf node.packetStarts).length = placed.length
  pos : 0 < node.thisSize
  bounds : ∀ c ∈ configOf node.packetStarts, 0 ≤ c ∧ c ≤ (node.numPackets : Int) - 1
  packetSum_last :
    (packetSum (node.numPackets - 1) ((configOf node.packetStarts).zip placed) : Int) = node.thisSize
  packetSum_le : ∀ index, packetSum index ((configOf node.packetStarts).zip placed) ≤ maxSize

section Tree

variable {maxSize penalty next : Nat} {placed : List Nat} {node child : PartitionTreeNode}

/-- A child that continues the last packet. -/
theorem Good.left (h : Good maxSize placed node) (hsize : node.thisSize + next ≤ maxSize)
    (hstarts : child.packetStarts = false :: node.packetStarts)
    (hthis : child.thisSize = node.thisSize + next) : Good maxSize (next :: placed) child := by
  have hnum : child.numPackets = node.numPackets := by
    rw [numPackets, hstarts, List.count_cons_of_ne (by decide)]
    rfl
  have hconfig : configOf child.packetStarts =
      ((node.numPackets : Int) - 1) :: configOf node.packetStarts := by
    rw [hstarts, configOf_false]
    rfl
  have hlast := h.packetSum_last
  have hpos := h.pos
  constructor
  · rw [hconfig, List.length_cons, List.length_cons, h.length]
  · omega
  · rw [hnum, hconfig]
    have hzero : 0 ≤ (node.numPackets : Int) - 1 := by
      by_contra hneg
      rw [packetSum_eq_zero] at hlast
      · omega
      · intro p hp hindex
        have hbound := (h.bounds p.1 (List.of_mem_zip hp).1).1
        omega
    intro c hc
    rcases List.mem_cons.mp hc with rfl | hc
    · exact ⟨hzero, Int.le_refl _⟩
    · exact h.bounds c hc
  · rw [hnum, hconfig, List.zip_cons_cons, packetSum_cons, if_pos rfl, hthis]
    omega
  · rw [hconfig, List.zip_cons_cons]
    intro index
    rw [packetSum_cons]
    split
    · rename_i heq
      rw [← heq]
      show next + packetSum (node.numPackets - 1) _ ≤ maxSize
      omega
    · rw [Nat.zero_add]
      exact h.packetSum_le index

/-- A child that starts a packet. -/
theorem Good.right (h : Good maxSize placed node) (hnext : 0 < next) (hsize : next ≤ maxSize)
    (hstarts : child.packetStarts = true :: node.packetStarts) (hthis : child.thisSize = next) :
    Good maxSize (next :: placed) child := by
  have hnum : (child.numPackets : Int) - 1 = node.numPackets := by
    rw [numPackets, hstarts, List.count_cons_self]
    show ((node.numPackets + 1 : Nat) : Int) - 1 = _
    omega
  have hconfig : configOf child.packetStarts =
      (node.numPackets : Int) :: configOf node.packetStarts := by
    rw [hstarts, configOf_true]
    rfl
  have hnone : packetSum node.numPackets ((configOf node.packetStarts).zip placed) = 0 := by
    refine packetSum_eq_zero fun p hp hindex => ?_
    have hbound := (h.bounds p.1 (List.of_mem_zip hp).1).2
    omega
  constructor
  · rw [hconfig, List.length_cons, List.length_cons, h.length]
  · omega
  · rw [hnum, hconfig]
    intro c hc
    rcases List.mem_cons.mp hc with rfl | hc
    · omega
    · have hbound := h.bounds c hc
      omega
  · rw [hnum, hconfig, List.zip_cons_cons, packetSum_cons, if_pos rfl, hnone, hthis]
    rfl
  · rw [hconfig, List.zip_cons_cons]
    intro index
    rw [packetSum_cons]
    split
    · rename_i heq
      rw [← heq, hnone]
      exact hsize
    · rw [Nat.zero_add]
      exact h.packetSum_le index

/-- Every leaf below a node is good, so the one that is found is. -/
theorem getOptimalNode_good (maxSize penalty : Nat) : ∀ {sizes placed : List Nat}
    {node : PartitionTreeNode}, Good maxSize placed node → (∀ s ∈ sizes, 0 < s ∧ s ≤ maxSize) →
      node.thisSize + sizes.sum ≤ INT_MAX →
      Good maxSize (sizes.reverse ++ placed) (getOptimalNode maxSize penalty sizes node)
  | [], _, _, h, _, _ => h
  | next :: sizes, placed, node, h, hsizes, hint => by
    have hpos := h.pos
    have hnext := hsizes next List.mem_cons_self
    rw [List.sum_cons] at hint
    have hright : Good maxSize (sizes.reverse ++ next :: placed)
        (getOptimalNode maxSize penalty sizes (node.started next)) := by
      refine getOptimalNode_good maxSize penalty (h.right hnext.1 hnext.2 rfl rfl)
        (fun s hs => hsizes s (List.mem_cons_of_mem _ hs)) ?_
      show (next : Int) + sizes.sum ≤ INT_MAX
      omega
    rw [getOptimalNode, rightChild_eq hpos, leftChild_eq hpos (by omega), List.reverse_cons,
      List.append_assoc]
    by_cases hfits : node.thisSize + next ≤ maxSize
    · have hleft : Good maxSize (sizes.reverse ++ next :: placed)
          (getOptimalNode maxSize penalty sizes (node.continued next)) := by
        refine getOptimalNode_good maxSize penalty (h.left hfits rfl rfl)
          (fun s hs => hsizes s (List.mem_cons_of_mem _ hs)) ?_
        show node.thisSize + next + sizes.sum ≤ INT_MAX
        omega
      rw [if_pos hfits]
      by_cases hcost : (node.continued next).cost penalty ≤ (node.started next).cost penalty
      · simp only [if_pos hcost]
        split
        · split
          · exact hright
          · exact hleft
        · exact hleft
      · simp only [if_neg hcost]
        split
        · split
          · exact hleft
          · exact hright
        · exact hright
    · rw [if_neg hfits]
      exact hright

theorem createRootNode_good {size : Nat} (hpos : 0 < size) (hsize : size ≤ maxSize)
    (numPartitions : Nat) (minParentSize maxParentSize : Int) :
    Good maxSize [size]
      { createRootNode size numPartitions with
        minParentSize := minParentSize
        maxParentSize := maxParentSize } := by
  constructor
  · rfl
  · exact Int.natCast_pos.mpr hpos
  · intro c hc
    obtain rfl : c = 0 := List.mem_singleton.mp hc
    exact ⟨Int.le_refl _, Int.le_refl _⟩
  · rfl
  · intro index
    show packetSum index [(0, size)] ≤ maxSize
    rw [packetSum_cons]
    split
    · exact hsize
    · exact Nat.zero_le _

theorem findOptimalConfiguration_packs {size : Nat} {sizes : List Nat}
    (hsizes : ∀ s ∈ size :: sizes, 0 < s ∧ s ≤ maxSize) (hint : (size :: sizes).sum ≤ INT_MAX)
    (minSize maxSizeSoFar : Int) (penalty : Nat) :
    Packs maxSize
      (findOptimalConfiguration (size :: sizes) minSize maxSizeSoFar maxSize penalty)
      (size :: sizes) := by
  have hroot := hsizes size List.mem_cons_self
  obtain ⟨root, hgood, hthis, heq⟩ : ∃ root, Good maxSize [size] root ∧ root.thisSize = size ∧
      findOptimalConfiguration (size :: sizes) minSize maxSizeSoFar maxSize penalty =
        (configOf (getOptimalNode maxSize penalty sizes root).packetStarts).reverse := by
    unfold findOptimalConfiguration
    dsimp only [List.headD_cons, List.tail_cons]
    split
    · exact ⟨_, createRootNode_good hroot.1 hroot.2 _ _ _, rfl, rfl⟩
    · exact ⟨_, createRootNode_good hroot.1 hroot.2 _ INT_MAX 0, rfl, rfl⟩
  have hopt := getOptimalNode_good maxSize penalty hgood
    (fun s hs => hsizes s (List.mem_cons_of_mem _ hs)) (by
      rw [hthis]
      exact_mod_cast hint)
  rw [← List.reverse_cons] at hopt
  generalize getOptimalNode maxSize penalty sizes root = opt at hopt heq
  have hlength := hopt.length
  rw [List.length_reverse] at hlength
  rw [heq]
  constructor
  · rw [List.length_reverse, hlength]
  · have hbounds := hopt.bounds
    intro c hc
    rw [List.getLastD_eq_getLast?, List.getLast?_reverse]
    rw [List.mem_reverse] at hc
    cases hstarts : opt.packetStarts with
    | nil =>
      rw [hstarts] at hc
      exact absurd hc List.not_mem_nil
    | cons start starts =>
      have hhead : (configOf (start :: starts)).head? = some ((opt.numPackets : Int) - 1) := by
        rw [configOf, configFrom, List.head?_cons, numPackets, hstarts]
      rw [hhead]
      exact hbounds c hc
  · intro index
    have hzip : (configOf opt.packetStarts).reverse.zip (size :: sizes) =
        ((configOf opt.packetStarts).zip (size :: sizes).reverse).reverse := by
      show List.zipWith _ _ _ = (List.zipWith _ _ _).reverse
      rw [List.reverse_zipWith (by rw [hlength, List.length_reverse]), List.reverse_reverse]
    rw [hzip, packetSum_reverse]
    exact hopt.packetSum_le index

end Tree

/-! ## The number of fragments -/

section Fragments

variable {size maxPayloadSize penalty : Nat}

/-- The largest of `n` fragments. -/
theorem fragmentSize_le_iff (size : Nat) {n c : Nat} (hn : 0 < n) :
    (size + n - 1) / n ≤ c ↔ size ≤ n * c := ceilDiv_le_iff_le_mul hn

theorem fragmentCost_lt (minSize maxSize : Int) (hpenalty : 0 < penalty) {j n : Nat} (h : j < n)
    (fragmentSize : Nat) :
    fragmentCost penalty minSize maxSize j fragmentSize <
      fragmentCost penalty minSize maxSize n fragmentSize := by
  have hmul : (j : Int) * penalty < n * penalty := by
    exact_mod_cast Nat.mul_lt_mul_of_pos_right h hpenalty
  unfold fragmentCost
  split_ifs <;> omega

/-- A number of fragments that is the best so far: no smaller one from `low`
on has fragments of the same size. -/
structure Best (size maxPayloadSize low k : Nat) : Prop where
  low_le : low ≤ k
  size_le : (size + k - 1) / k ≤ maxPayloadSize
  ne : ∀ j, low ≤ j → j < k → (size + j - 1) / j ≠ (size + k - 1) / k

theorem bestNumber_best (minSize maxSize : Int) (hpenalty : 0 < penalty) (low : Nat) :
    ∀ (count n : Nat) (numFragments bestCost : Int), low ≤ n →
    (∀ j, low ≤ j → j < n → (size + j - 1) / j ≤ maxPayloadSize →
      bestCost ≤ fragmentCost penalty minSize maxSize j ((size + j - 1) / j)) →
    (∃ k : Nat, numFragments = k ∧ Best size maxPayloadSize low k) →
    ∃ k : Nat, bestNumber size maxPayloadSize penalty minSize maxSize count n numFragments bestCost =
      k ∧ Best size maxPayloadSize low k
  | 0, _, _, _, _, _, hbest => hbest
  | count + 1, n, numFragments, bestCost, hlow, hcost, hbest => by
    rw [bestNumber]
    split
    · rename_i hn
      refine bestNumber_best minSize maxSize hpenalty low count (n + 1) n _ (by omega) ?_
        ⟨n, rfl, hlow, hn.1, ?_⟩
      · intro j hj hjn hsize
        rcases Nat.lt_succ_iff_lt_or_eq.mp hjn with hlt | rfl
        · exact Int.le_trans (Int.le_of_lt hn.2) (hcost j hj hlt hsize)
        · exact Int.le_refl _
      · intro j hj hjn heq
        have hle := hcost j hj hjn (heq ▸ hn.1)
        have hlt := fragmentCost_lt minSize maxSize hpenalty hjn ((size + n - 1) / n)
        rw [heq] at hle
        exact absurd (Int.lt_of_lt_of_le hn.2 hle) (by omega)
    · rename_i hn
      refine bestNumber_best minSize maxSize hpenalty low count (n + 1) numFragments bestCost
        (by omega) ?_ hbest
      intro j hj hjn hsize
      rcases Nat.lt_succ_iff_lt_or_eq.mp hjn with hlt | rfl
      · exact hcost j hj hlt hsize
      · exact Int.not_lt.mp fun h => hn ⟨hsize, h⟩

/-- A large partition is cut into fragments of which none is empty or too
large. -/
structure Splits (size maxPayloadSize : Nat) (numFragments : Nat) : Prop where
  pos : 0 < numFragments
  size_le : (size + numFragments - 1) / numFragments ≤ maxPayloadSize
  nonempty : (numFragments - 1) * ((size + numFragments - 1) / numFragments) < size

/-- The smallest number of fragments that are not too large. -/
theorem minNumberOfFragments_splits (hsize : 0 < size) (hmax : 0 < maxPayloadSize) :
    Splits size maxPayloadSize ((size + maxPayloadSize - 1) / maxPayloadSize) := by
  have hle : ∀ n, (size + maxPayloadSize - 1) / maxPayloadSize ≤ n ↔ size ≤ maxPayloadSize * n :=
    fun n => fragmentSize_le_iff _ hmax
  generalize (size + maxPayloadSize - 1) / maxPayloadSize = low at hle ⊢
  have hlow : 0 < low := by
    refine Nat.pos_of_ne_zero fun hzero => ?_
    have := (hle 0).mp (by omega)
    omega
  have hfit : (size + low - 1) / low ≤ maxPayloadSize := by
    rw [fragmentSize_le_iff _ hlow, Nat.mul_comm]
    exact (hle low).mp (Nat.le_refl _)
  refine ⟨hlow, hfit, ?_⟩
  have hless : ¬ size ≤ maxPayloadSize * (low - 1) := fun h => by
    have := (hle (low - 1)).mpr h
    omega
  calc (low - 1) * ((size + low - 1) / low) ≤ (low - 1) * maxPayloadSize :=
        Nat.mul_le_mul_left _ hfit
    _ < size := by
        rw [Nat.mul_comm]
        exact Nat.lt_of_not_le hless

/-- The best number has no empty fragment, or one fragment less would be as
good. -/
theorem Best.splits {low k : Nat} (hlow : Splits size maxPayloadSize low)
    (h : Best size maxPayloadSize low k) : Splits size maxPayloadSize k := by
  have hpos := hlow.pos
  have hk := h.low_le
  refine ⟨by omega, h.size_le, ?_⟩
  by_contra hge
  have hge' : size ≤ (k - 1) * ((size + k - 1) / k) := Nat.le_of_not_lt hge
  rcases Nat.eq_or_lt_of_le hk with rfl | hlt
  · exact hge hlow.nonempty
  · have hfewer : (size + (k - 1) - 1) / (k - 1) ≤ (size + k - 1) / k :=
      (fragmentSize_le_iff _ (by omega)).mpr hge'
    have hmore : (size + k - 1) / k ≤ (size + (k - 1) - 1) / (k - 1) := by
      refine (fragmentSize_le_iff _ (by omega)).mpr ?_
      have hself := (fragmentSize_le_iff _ (show 0 < k - 1 by omega)).mp
        (Nat.le_refl ((size + (k - 1) - 1) / (k - 1)))
      exact hself.trans (Nat.mul_le_mul_right _ (Nat.sub_le k 1))
    exact h.ne (k - 1) (by omega) (by omega) (Nat.le_antisymm hfewer hmore)

/-- As long as no cost exceeds the range of an `int`. -/
theorem calcNumberOfFragments_splits (minSize maxSize : Int) (hsize : 0 < size) (hmax : 0 < maxPayloadSize)
    (hpenalty : 0 < penalty)
    (hbounds : minSize < 0 ∨ maxSize < 0 ∨ 0 < minSize ∧ minSize ≤ maxPayloadSize)
    (hrange : minSize + size + size * penalty < INT_MAX) :
    ∃ n : Nat, calcNumberOfFragments size maxPayloadSize penalty minSize maxSize = n ∧
      Splits size maxPayloadSize n := by
  have hsplits := minNumberOfFragments_splits hsize hmax
  unfold calcNumberOfFragments
  dsimp only
  split
  · exact ⟨_, rfl, hsplits⟩
  · rename_i hnone
    obtain ⟨hmin, hmax'⟩ : 0 < minSize ∧ minSize ≤ maxPayloadSize := by omega
    have hminNat : 0 < minSize.toNat := by omega
    have hlowsize : (size + maxPayloadSize - 1) / maxPayloadSize ≤ size := by
      rw [fragmentSize_le_iff _ hmax]
      exact Nat.le_mul_of_pos_left size hmax
    have hcount : (size + maxPayloadSize - 1) / maxPayloadSize ≤
        (size + minSize.toNat - 1) / minSize.toNat := by
      rw [fragmentSize_le_iff _ hmax]
      have hself := (fragmentSize_le_iff _ hminNat).mp
        (Nat.le_refl ((size + minSize.toNat - 1) / minSize.toNat))
      exact hself.trans (Nat.mul_le_mul_right _ (by omega))
    generalize (size + maxPayloadSize - 1) / maxPayloadSize = low at hsplits hlowsize hcount ⊢
    obtain ⟨count, hcount'⟩ : ∃ count,
        (size + minSize.toNat - 1) / minSize.toNat + 1 - low = count + 1 :=
      Nat.exists_eq_succ_of_ne_zero (by omega)
    have hfit : (size + low - 1) / low ≤ size := by
      rw [fragmentSize_le_iff _ hsplits.pos]
      exact Nat.le_mul_of_pos_left size hsplits.pos
    -- The first number that is tried is feasible, and cheaper than `INT_MAX`.
    have hcost : fragmentCost penalty minSize maxSize low ((size + low - 1) / low) < INT_MAX := by
      have hmul : (low : Int) * penalty ≤ size * penalty := by
        exact_mod_cast Nat.mul_le_mul_right penalty hlowsize
      generalize (size + low - 1) / low = fragmentSize at hfit ⊢
      unfold fragmentCost
      split_ifs <;> omega
    rw [hcount', bestNumber, if_pos ⟨hsplits.size_le, hcost⟩]
    obtain ⟨k, hk, hbest⟩ := bestNumber_best minSize maxSize hpenalty low count (low + 1) low
      (fragmentCost penalty minSize maxSize low ((size + low - 1) / low)) (by omega)
      (fun j hj hjn _ => by
        obtain rfl : j = low := by omega
        exact Int.le_refl _)
      ⟨low, rfl, Nat.le_refl _, hsplits.size_le, fun j hj hjn => absurd hj (by omega)⟩
    exact ⟨k, hk, hbest.splits hsplits⟩

end Fragments

end Vp8PartitionAggregator

end PerchWebrtc.Vp8
