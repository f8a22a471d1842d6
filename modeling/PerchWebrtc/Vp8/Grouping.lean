import PerchWebrtc.Vp8.Aggregator
import PerchWebrtc.Framework.BranchAndBound

/-!
# The best way to group partitions

The tree that `GetOptimalNode` builds has a leaf for each way to put consecutive partitions
into packets that are not too large, and no child of a node costs less than the node.

* `getOptimalNode_eq_search`: the search is a branch and bound over the tree;
* `mem_leaves_iff`, `tree_grows`: the leaves, and the costs along the branches;
* `descend_cost`, `descend_config`: what a leaf says of its groups;
* `findOptimalConfiguration_optimal`: no grouping costs less than the one that is found, if an
  `int` holds every cost; `not_findOptimalConfiguration_optimal`: one that wraps is taken for
  a small one.
-/

namespace PerchWebrtc.Vp8

open Framework

namespace PartitionTreeNode

/-! ## The tree -/

/-- The tree below a node. -/
def tree (maxSize : Nat) : List Nat → PartitionTreeNode → SearchTree PartitionTreeNode
  | [], node => .leaf node
  | next :: sizes, node =>
    match node.leftChild maxSize next, node.rightChild next with
    | none, none => .leaf node
    | none, some right => .only node (tree maxSize sizes right)
    | some left, none => .only node (tree maxSize sizes left)
    | some left, some right => .fork node (tree maxSize sizes left) (tree maxSize sizes right)

section Tree

variable {maxSize penalty next : Nat} {node : PartitionTreeNode}

theorem tree_root (maxSize : Nat) (sizes : List Nat) (node : PartitionTreeNode) :
    (tree maxSize sizes node).root = node := by
  cases sizes with
  | nil => rfl
  | cons next sizes =>
    unfold tree
    split <;> rfl

theorem getOptimalNode_eq_search : ∀ (sizes : List Nat) (node : PartitionTreeNode),
    getOptimalNode maxSize penalty sizes node = (tree maxSize sizes node).search (cost penalty)
  | [], node => rfl
  | next :: sizes, node => by
    unfold getOptimalNode tree
    cases hleft : node.leftChild maxSize next with
    | none =>
      cases hright : node.rightChild next with
      | none => rfl
      | some right => exact getOptimalNode_eq_search sizes right
    | some left =>
      cases hright : node.rightChild next with
      | none => exact getOptimalNode_eq_search sizes left
      | some right =>
        have ihl := getOptimalNode_eq_search sizes left
        have ihr := getOptimalNode_eq_search sizes right
        unfold SearchTree.search SearchTree.better
        dsimp only
        rw [tree_root, tree_root, ← ihl, ← ihr]
        by_cases hcost : left.cost penalty ≤ right.cost penalty
        · simp only [if_pos hcost]
        · simp only [if_neg hcost]

/-- An `int` holds the sizes and the costs of the node and of those below it. -/
structure InRange (penalty : Nat) (sizes : List Nat) (node : PartitionTreeNode) : Prop where
  num : node.numPartitions = sizes.length
  pos : 0 < node.thisSize
  sizes_pos : ∀ s ∈ sizes, 0 < s
  maxParentSize : 0 ≤ node.maxParentSize
  minParentSize : 0 ≤ node.minParentSize ∧ node.minParentSize ≤ INT_MAX
  cost_le : max node.maxParentSize (node.thisSize + sizes.sum)
    + ((node.numPackets + sizes.length) * penalty : Nat) ≤ INT_MAX

namespace InRange

variable {sizes : List Nat}

theorem size_le (h : node.InRange penalty sizes) : node.thisSize + sizes.sum ≤ INT_MAX := by
  have hcost := h.cost_le
  omega

theorem next_pos (h : node.InRange penalty (next :: sizes)) : 0 < next :=
  h.sizes_pos next List.mem_cons_self

theorem continued (h : node.InRange penalty (next :: sizes)) :
    (node.continued next).InRange penalty sizes where
  num := by
    show node.numPartitions - 1 = sizes.length
    rw [h.num, List.length_cons, Nat.add_sub_cancel]
  pos := by
    have hpos := h.pos
    show 0 < node.thisSize + next
    omega
  sizes_pos s hs := h.sizes_pos s (List.mem_cons_of_mem _ hs)
  maxParentSize := h.maxParentSize
  minParentSize := h.minParentSize
  cost_le := by
    have hcost := h.cost_le
    rw [List.sum_cons, List.length_cons] at hcost
    have hle : (node.numPackets + sizes.length) * penalty ≤
        (node.numPackets + (sizes.length + 1)) * penalty :=
      Nat.mul_le_mul_right _ (by omega)
    rw [numPackets_continued]
    show max node.maxParentSize (node.thisSize + next + sizes.sum) + _ ≤ _
    omega

theorem started (h : node.InRange penalty (next :: sizes)) :
    (node.started next).InRange penalty sizes where
  num := by
    show node.numPartitions - 1 = sizes.length
    rw [h.num, List.length_cons, Nat.add_sub_cancel]
  pos := Int.natCast_pos.mpr h.next_pos
  sizes_pos s hs := h.sizes_pos s (List.mem_cons_of_mem _ hs)
  maxParentSize := le_max_of_le_left h.maxParentSize
  minParentSize := by
    have hpos := h.pos
    have hmin := h.minParentSize
    show 0 ≤ min node.minParentSize node.thisSize ∧ min node.minParentSize node.thisSize ≤ INT_MAX
    omega
  cost_le := by
    have hpos := h.pos
    have hcost := h.cost_le
    rw [List.sum_cons, List.length_cons] at hcost
    rw [numPackets_started, Nat.add_assoc, Nat.add_comm 1]
    show max (max node.maxParentSize node.thisSize) (next + sizes.sum) + _ ≤ _
    omega

/-- The cost of the node does not wrap. -/
theorem cost_eq (h : node.InRange penalty sizes) :
    node.cost penalty =
      (if node.numPartitions = 0 then
        max node.maxParentSize node.thisSize - min node.minParentSize node.thisSize
      else max node.maxParentSize node.thisSize - node.minParentSize) + node.numPackets * penalty := by
  have hmax : (INT_MAX : Int) = 2 ^ 31 - 1 := rfl
  have hpos := h.pos
  have hmaxParent := h.maxParentSize
  have hminParent := h.minParentSize
  have hcost := h.cost_le
  have hle : node.numPackets * penalty ≤ (node.numPackets + sizes.length) * penalty :=
    Nat.mul_le_mul_right _ (Nat.le_add_right _ _)
  have hpackets : ((node.numPackets * penalty : Nat) : Int) = node.numPackets * penalty :=
    Nat.cast_mul _ _
  rw [cost]
  refine int32_of_fits ?_ ?_
  · split <;> omega
  · split <;> omega

end InRange

theorem tree_cons {sizes : List Nat} (h : node.InRange penalty (next :: sizes)) :
    tree maxSize (next :: sizes) node =
      if node.thisSize + next ≤ maxSize then
        .fork node (tree maxSize sizes (node.continued next)) (tree maxSize sizes (node.started next))
      else .only node (tree maxSize sizes (node.started next)) := by
  have hsize := h.size_le
  rw [List.sum_cons] at hsize
  rw [tree, rightChild_eq h.pos, leftChild_eq h.pos (by omega)]
  by_cases hfits : node.thisSize + next ≤ maxSize
  · rw [if_pos hfits, if_pos hfits]
  · rw [if_neg hfits, if_neg hfits]

/-- For each of the partitions that remain: does it start a packet? -/
abbrev Choices := List (Bool × Nat)

/-- The node that some choices lead to. -/
def descend : Choices → PartitionTreeNode → PartitionTreeNode
  | [], node => node
  | (false, next) :: choices, node => descend choices (node.continued next)
  | (true, next) :: choices, node => descend choices (node.started next)

/-- No packet gets too large by a partition that is put into it. -/
def Allowed (maxSize : Nat) : Choices → Int → Prop
  | [], _ => True
  | (false, next) :: choices, size => size + next ≤ maxSize ∧ Allowed maxSize choices (size + next)
  | (true, next) :: choices, _ => Allowed maxSize choices next

/-- The leaves are what the choices lead to that the maximum size allows. -/
theorem mem_leaves_iff {leaf : PartitionTreeNode} : ∀ {sizes : List Nat}
    {node : PartitionTreeNode}, node.InRange penalty sizes →
    (leaf ∈ (tree maxSize sizes node).leaves ↔ ∃ choices : Choices,
      choices.map (·.2) = sizes ∧ Allowed maxSize choices node.thisSize ∧
        leaf = descend choices node)
  | [], node, _ => by
    constructor
    · exact fun h => ⟨[], rfl, trivial, List.mem_singleton.mp h⟩
    · rintro ⟨choices, hsizes, -, rfl⟩
      obtain rfl := List.map_eq_nil_iff.mp hsizes
      exact List.mem_singleton_self node
  | next :: sizes, node, h => by
    have hcases : (∃ choices : Choices, choices.map (·.2) = next :: sizes ∧
        Allowed maxSize choices node.thisSize ∧ leaf = descend choices node) ↔
        (node.thisSize + next ≤ maxSize ∧
          leaf ∈ (tree maxSize sizes (node.continued next)).leaves) ∨
        leaf ∈ (tree maxSize sizes (node.started next)).leaves := by
      rw [mem_leaves_iff h.continued, mem_leaves_iff h.started]
      constructor
      · rintro ⟨choices, hmap, hallowed, rfl⟩
        cases choices with
        | nil => cases hmap
        | cons choice choices =>
          obtain ⟨start, size⟩ := choice
          obtain ⟨rfl, htail⟩ := List.cons_eq_cons.mp hmap
          cases start with
          | false => exact .inl ⟨hallowed.1, choices, htail, hallowed.2, rfl⟩
          | true => exact .inr ⟨choices, htail, hallowed, rfl⟩
      · rintro (⟨hfits, choices, rfl, hallowed, rfl⟩ | ⟨choices, rfl, hallowed, rfl⟩)
        · exact ⟨(false, next) :: choices, rfl, ⟨hfits, hallowed⟩, rfl⟩
        · exact ⟨(true, next) :: choices, rfl, hallowed, rfl⟩
    rw [hcases, tree_cons h]
    split
    · rename_i hfits
      rw [and_iff_right hfits]
      exact List.mem_append
    · rename_i hfits
      exact ⟨.inr, fun h => h.resolve_left fun hboth => hfits hboth.1⟩

/-- No child costs less than its parent. -/
theorem cost_le_child {sizes : List Nat} (h : node.InRange penalty (next :: sizes)) :
    node.cost penalty ≤ (node.continued next).cost penalty ∧
      node.cost penalty ≤ (node.started next).cost penalty := by
  have hmore : node.numPartitions ≠ 0 := by
    rw [h.num]
    exact Nat.succ_ne_zero _
  have hpos := h.pos
  rw [h.cost_eq, h.continued.cost_eq, h.started.cost_eq, if_neg hmore, numPackets_continued,
    numPackets_started, Nat.cast_succ, add_mul, one_mul]
  dsimp only [continued, started]
  constructor
  · split_ifs <;> omega
  · split_ifs <;> omega

theorem tree_grows : ∀ {sizes : List Nat} {node : PartitionTreeNode}, node.InRange penalty sizes →
    (tree maxSize sizes node).Grows (cost penalty)
  | [], _, _ => trivial
  | next :: sizes, node, h => by
    have hright := tree_grows h.started
    have hleft := tree_grows h.continued
    have hcost := cost_le_child h
    rw [tree_cons h]
    split
    · refine ⟨⟨?_, hleft⟩, ?_, hright⟩
      · rw [tree_root]
        exact hcost.1
      · rw [tree_root]
        exact hcost.2
    · refine ⟨?_, hright⟩
      rw [tree_root]
      exact hcost.2

end Tree

end PartitionTreeNode

namespace Vp8PartitionAggregator

open PartitionTreeNode

/-! ## Groups -/

/-- The list is split into consecutive groups. -/
structure IsGrouping (sizes : List Nat) (groups : List (List Nat)) : Prop where
  flatten : groups.flatten = sizes
  nonempty : ∀ group ∈ groups, group ≠ []

/-- No group is larger than a packet may be. -/
def FitsIn (maxSize : Nat) (groups : List (List Nat)) : Prop :=
  ∀ group ∈ groups, group.sum ≤ maxSize

/-- The packet of each partition, when the first group is in the packet with an index. -/
def configurationFrom : Int → List (List Nat) → List Int
  | _, [] => []
  | packetIndex, group :: groups =>
    List.replicate group.length packetIndex ++ configurationFrom (packetIndex + 1) groups

/-- The smallest and the largest packet of earlier aggregates, where there are any. -/
def priorMinMax (minSize maxSizeSoFar : Int) : Option (Int × Int) :=
  if 0 ≤ minSize ∧ 0 ≤ maxSizeSoFar then some (minSize, maxSizeSoFar) else none

/-- The sizes of the packets. -/
def groupSizes (groups : List (List Nat)) : List Int := groups.map fun group => (group.sum : Int)

/-- The largest packet less the smallest one, with those of earlier aggregates, and a penalty
for each packet. -/
def groupingCost (penalty : Nat) (prior : Option (Int × Int)) (groups : List (List Nat)) : Int :=
  ((prior.map (·.2)).toList ++ groupSizes groups).max?.getD 0 -
    ((prior.map (·.1)).toList ++ groupSizes groups).min?.getD 0 + groups.length * penalty

/-- The groups that choices make of an open group and the partitions that remain. -/
def groupsFrom : List Nat → Choices → List (List Nat)
  | group, [] => [group]
  | group, (false, next) :: choices => groupsFrom (group ++ [next]) choices
  | group, (true, next) :: choices => group :: groupsFrom [next] choices

section Groups

variable {maxSize penalty : Nat}

/-- The open group grows. -/
theorem groupsFrom_head : ∀ (choices : Choices) (group : List Nat),
    ∃ more groups, groupsFrom group choices = (group ++ more) :: groups
  | [], group => ⟨[], [], by rw [List.append_nil]; rfl⟩
  | (false, next) :: choices, group => by
    obtain ⟨more, groups, heq⟩ := groupsFrom_head choices (group ++ [next])
    exact ⟨next :: more, groups, by rw [groupsFrom, heq, List.append_assoc]; rfl⟩
  | (true, next) :: choices, group => ⟨[], groupsFrom [next] choices, by rw [List.append_nil]; rfl⟩

theorem groupsFrom_isGrouping : ∀ {choices : Choices} {group : List Nat}, group ≠ [] →
    IsGrouping (group ++ choices.map (·.2)) (groupsFrom group choices)
  | [], group, hgroup => ⟨rfl, fun g hg => by rw [List.mem_singleton.mp hg]; exact hgroup⟩
  | (false, next) :: choices, group, _ => by
    have ih := @groupsFrom_isGrouping choices (group ++ [next]) (by simp)
    rw [List.append_assoc] at ih
    exact ih
  | (true, next) :: choices, group, hgroup => by
    have ih := @groupsFrom_isGrouping choices [next] (by simp)
    refine ⟨congrArg (group ++ ·) ih.flatten, fun g hg => ?_⟩
    rcases List.mem_cons.mp hg with rfl | hg
    · exact hgroup
    · exact ih.nonempty g hg

theorem exists_choices : ∀ (more : List Nat) (groups : List (List Nat)) (group : List Nat),
    (∀ g ∈ groups, g ≠ []) →
    ∃ choices : Choices, choices.map (·.2) = more ++ groups.flatten ∧
      groupsFrom group choices = (group ++ more) :: groups
  | next :: more, groups, group, hgroups => by
    obtain ⟨choices, hmap, heq⟩ := exists_choices more groups (group ++ [next]) hgroups
    refine ⟨(false, next) :: choices, congrArg (next :: ·) hmap, ?_⟩
    rw [groupsFrom, heq, List.append_assoc]
    rfl
  | [], [], group, _ => ⟨[], rfl, by rw [List.append_nil]; rfl⟩
  | [], [] :: groups, group, hgroups => absurd rfl (hgroups [] List.mem_cons_self)
  | [], (next :: more) :: groups, group, hgroups => by
    obtain ⟨choices, hmap, heq⟩ := exists_choices more groups [next] fun g hg =>
      hgroups g (List.mem_cons_of_mem _ hg)
    refine ⟨(true, next) :: choices, congrArg (next :: ·) hmap, ?_⟩
    rw [groupsFrom, heq, List.append_nil]
    rfl

/-- Every grouping is made by choices. -/
theorem IsGrouping.exists_choices {size : Nat} {sizes : List Nat} {groups : List (List Nat)}
    (h : IsGrouping (size :: sizes) groups) :
    ∃ choices : Choices, choices.map (·.2) = sizes ∧ groups = groupsFrom [size] choices := by
  cases groups with
  | nil => cases h.flatten
  | cons group groups =>
    cases group with
    | nil => exact absurd rfl (h.nonempty [] List.mem_cons_self)
    | cons first more =>
      obtain ⟨rfl, hflatten⟩ := List.cons_eq_cons.mp h.flatten
      obtain ⟨choices, hchoices, hgroups⟩ := Vp8PartitionAggregator.exists_choices more groups [first]
        fun g hg => h.nonempty g (List.mem_cons_of_mem _ hg)
      exact ⟨choices, hchoices.trans hflatten, hgroups.symm⟩

theorem allowed_of_fitsIn : ∀ {choices : Choices} {group : List Nat},
    FitsIn maxSize (groupsFrom group choices) → Allowed maxSize choices group.sum
  | [], _, _ => trivial
  | (false, next) :: choices, group, h => by
    have ih := @allowed_of_fitsIn choices (group ++ [next]) h
    obtain ⟨more, groups, heq⟩ := groupsFrom_head choices (group ++ [next])
    have hfirst := h ((group ++ [next]) ++ more) (by rw [groupsFrom, heq]; exact List.mem_cons_self)
    rw [List.sum_append, List.sum_append, List.sum_singleton] at hfirst
    rw [List.sum_append, List.sum_singleton] at ih
    exact ⟨by omega, ih⟩
  | (true, next) :: choices, group, h =>
    @allowed_of_fitsIn choices [next] fun g hg =>
      h g (List.mem_cons_of_mem _ hg)

theorem fitsIn_of_allowed : ∀ {choices : Choices} {group : List Nat}, group.sum ≤ maxSize →
    (∀ s ∈ choices.map (·.2), s ≤ maxSize) → Allowed maxSize choices group.sum →
    FitsIn maxSize (groupsFrom group choices)
  | [], _, hgroup, _, _ => fun g hg => by rw [List.mem_singleton.mp hg]; exact hgroup
  | (false, next) :: choices, group, _, hsizes, hallowed => by
    have hsum : (group ++ [next]).sum = group.sum + next := by
      rw [List.sum_append, List.sum_singleton]
    refine @fitsIn_of_allowed choices (group ++ [next]) ?_
      (fun s hs => hsizes s (List.mem_cons_of_mem _ hs)) ?_
    · rw [hsum]
      exact_mod_cast hallowed.1
    · rw [hsum, Nat.cast_add]
      exact hallowed.2
  | (true, next) :: choices, group, hgroup, hsizes, hallowed => by
    have ih := @fitsIn_of_allowed choices [next]
      (hsizes next List.mem_cons_self) (fun s hs => hsizes s (List.mem_cons_of_mem _ hs)) hallowed
    intro g hg
    rcases List.mem_cons.mp hg with rfl | hg
    · exact hgroup
    · exact ih g hg

/-! ## Leaves -/

/-- The cost of a leaf is that of its groups, from the packets of the node on. -/
theorem descend_cost : ∀ {choices : Choices} {node : PartitionTreeNode} {group : List Nat},
    node.thisSize = group.sum → node.InRange penalty (choices.map (·.2)) →
    (descend choices node).cost penalty =
      (groupSizes (groupsFrom group choices)).foldl max node.maxParentSize -
        (groupSizes (groupsFrom group choices)).foldl min node.minParentSize +
        ((node.numPackets : Int) - 1 + (groupsFrom group choices).length) * penalty
  | [], node, group, hthis, h => by
    show cost penalty node = max node.maxParentSize group.sum - min node.minParentSize group.sum +
      ((node.numPackets : Int) - 1 + (1 : Nat)) * penalty
    have hleaf : node.numPartitions = 0 := h.num
    rw [h.cost_eq, if_pos hleaf, hthis]
    push_cast
    ring
  | (false, next) :: choices, node, group, hthis, h => by
    have hsum : (node.continued next).thisSize = (group ++ [next]).sum := by
      rw [List.sum_append, List.sum_singleton, Nat.cast_add, ← hthis]
      rfl
    have ih := descend_cost hsum h.continued
    rw [numPackets_continued] at ih
    exact ih
  | (true, next) :: choices, node, group, hthis, h => by
    have hsum : (node.started next).thisSize = [next].sum := by
      rw [List.sum_singleton]
      rfl
    have ih := descend_cost hsum h.started
    rw [numPackets_started] at ih
    rw [descend, ih, groupsFrom, groupSizes, groupSizes, List.map_cons, List.foldl_cons,
      List.foldl_cons, ← hthis, List.length_cons]
    dsimp only [PartitionTreeNode.started]
    push_cast
    ring

/-- The packet indices of a leaf are those of its groups, behind the ones of the node. -/
theorem descend_config : ∀ {choices : Choices} {node : PartitionTreeNode} {group : List Nat}
    {front : List Int},
    (configOf node.packetStarts).reverse =
      front ++ List.replicate group.length ((node.numPackets : Int) - 1) →
    (configOf (descend choices node).packetStarts).reverse =
      front ++ configurationFrom ((node.numPackets : Int) - 1) (groupsFrom group choices)
  | [], node, group, front, h => by
    show (configOf node.packetStarts).reverse = front ++ (_ ++ [])
    rw [h, List.append_nil]
  | (false, next) :: choices, node, group, front, h => by
    have hconfig : (configOf (node.continued next).packetStarts).reverse =
        front ++ List.replicate (group ++ [next]).length
          (((node.continued next).numPackets : Int) - 1) := by
      show (configOf (false :: node.packetStarts)).reverse = _
      rw [configOf_false, List.reverse_cons, h, numPackets_continued, List.append_assoc,
        List.length_append, List.replicate_add]
      rfl
    have ih := @descend_config choices _ _ _ hconfig
    rw [numPackets_continued] at ih
    exact ih
  | (true, next) :: choices, node, group, front, h => by
    have hpackets : (((node.started next).numPackets : Nat) : Int) - 1 = node.numPackets := by
      rw [numPackets_started]
      push_cast
      ring
    have hconfig : (configOf (node.started next).packetStarts).reverse =
        (front ++ List.replicate group.length ((node.numPackets : Int) - 1)) ++
          List.replicate [next].length (((node.started next).numPackets : Int) - 1) := by
      show (configOf (true :: node.packetStarts)).reverse = _
      rw [configOf_true, List.reverse_cons, h, hpackets]
      rfl
    have ih := @descend_config choices _ _ _ hconfig
    rw [hpackets, List.append_assoc] at ih
    rw [descend, ih, groupsFrom, configurationFrom, sub_add_cancel]

end Groups

/-! ## The configuration that is found -/

section Optimal

variable {maxSize penalty : Nat}

/-- The cost with the values of the root. -/
theorem groupingCost_eq {groups : List (List Nat)} (hne : groups ≠ [])
    (hfits : FitsIn INT_MAX groups) (prior : Option (Int × Int)) :
    groupingCost penalty prior groups =
      (groupSizes groups).foldl max (prior.elim 0 (·.2)) -
        (groupSizes groups).foldl min (prior.elim (INT_MAX : Int) (·.1)) +
        groups.length * penalty := by
  unfold groupingCost
  cases prior with
  | some prior => rfl
  | none =>
    cases groups with
    | nil => exact absurd rfl hne
    | cons group groups =>
      have hmin : min (INT_MAX : Int) group.sum = group.sum :=
        min_eq_right (Int.ofNat_le.mpr (hfits group List.mem_cons_self))
      have hmax : max (0 : Int) group.sum = group.sum := max_eq_right (Int.natCast_nonneg _)
      show (groupSizes groups).foldl max (group.sum : Int) -
        (groupSizes groups).foldl min (group.sum : Int) + _ = _
      simp only [groupSizes, List.map_cons, List.foldl_cons, Option.elim_none, hmin, hmax]

/-- The root of the search. -/
def priorRoot (size numPartitions : Nat) (prior : Option (Int × Int)) : PartitionTreeNode :=
  { createRootNode size numPartitions with
    minParentSize := prior.elim INT_MAX (·.1)
    maxParentSize := prior.elim 0 (·.2) }

theorem findOptimalConfiguration_eq (size : Nat) (sizes : List Nat) (minSize maxSizeSoFar : Int) :
    findOptimalConfiguration (size :: sizes) minSize maxSizeSoFar maxSize penalty =
      (configOf (getOptimalNode maxSize penalty sizes
        (priorRoot size (sizes.length + 1) (priorMinMax minSize maxSizeSoFar))).packetStarts).reverse := by
  unfold findOptimalConfiguration priorMinMax
  dsimp only [List.headD_cons, List.tail_cons, List.length_cons]
  split
  · rfl
  · rfl

theorem priorRoot_inRange {size : Nat} {sizes : List Nat} {minSize maxSizeSoFar : Int}
    (hpos : ∀ s ∈ size :: sizes, 0 < s) (hmin : minSize ≤ INT_MAX)
    (hrange : max maxSizeSoFar (size :: sizes).sum + ((size :: sizes).length * penalty : Nat)
      ≤ INT_MAX) :
    (priorRoot size (sizes.length + 1) (priorMinMax minSize maxSizeSoFar)).InRange penalty sizes := by
  rw [List.sum_cons, List.length_cons, Nat.add_comm sizes.length] at hrange
  have hprior : 0 ≤ (priorMinMax minSize maxSizeSoFar).elim 0 (·.2) ∧
      (priorMinMax minSize maxSizeSoFar).elim 0 (·.2) ≤ max maxSizeSoFar 0 ∧
      0 ≤ (priorMinMax minSize maxSizeSoFar).elim (INT_MAX : Int) (·.1) ∧
      (priorMinMax minSize maxSizeSoFar).elim (INT_MAX : Int) (·.1) ≤ INT_MAX := by
    unfold priorMinMax
    split
    · rename_i hboth
      exact ⟨hboth.2, le_max_left _ _, hboth.1, hmin⟩
    · exact ⟨le_rfl, le_max_right _ _, Int.natCast_nonneg _, le_rfl⟩
  refine ⟨Nat.add_sub_cancel .., Int.natCast_pos.mpr (hpos size List.mem_cons_self),
    fun s hs => hpos s (List.mem_cons_of_mem _ hs), hprior.1, hprior.2.2, ?_⟩
  show max ((priorMinMax minSize maxSizeSoFar).elim 0 (·.2)) ((size : Int) + sizes.sum)
    + ((1 + sizes.length) * penalty : Nat) ≤ INT_MAX
  omega

theorem descend_priorRoot_cost {size numPartitions : Nat} {prior : Option (Int × Int)}
    {choices : Choices}
    (h : (priorRoot size numPartitions prior).InRange penalty (choices.map (·.2))) :
    (descend choices (priorRoot size numPartitions prior)).cost penalty =
      groupingCost penalty prior (groupsFrom [size] choices) := by
  have hsize := h.size_le
  have hfits : FitsIn INT_MAX (groupsFrom [size] choices) := by
    have hflatten := (@groupsFrom_isGrouping choices [size] (List.cons_ne_nil _ _)).flatten
    intro group hgroup
    have hle : group.sum ≤ (groupsFrom [size] choices).flatten.sum := by
      rw [List.sum_flatten]
      exact List.single_le_sum (fun _ _ => Nat.zero_le _) _ (List.mem_map_of_mem hgroup)
    rw [hflatten, List.singleton_append, List.sum_cons] at hle
    change (size : Int) + _ ≤ _ at hsize
    omega
  have hne : groupsFrom [size] choices ≠ [] := by
    obtain ⟨more, groups, hhead⟩ := groupsFrom_head choices [size]
    rw [hhead]
    exact List.cons_ne_nil _ _
  have hthis : (priorRoot size numPartitions prior).thisSize = [size].sum := by
    rw [List.sum_singleton]
    rfl
  have hpackets : (priorRoot size numPartitions prior).numPackets = 1 := rfl
  rw [descend_cost hthis h, groupingCost_eq hne hfits, hpackets]
  dsimp only [priorRoot]
  push_cast
  ring

/-- For partitions that are not empty, and costs that an `int` holds: the configuration that is found
is a grouping, with packets that are not too large unless a partition is, and no grouping that fits
costs less. -/
theorem findOptimalConfiguration_optimal (size : Nat) (sizes : List Nat) (minSize maxSizeSoFar : Int)
    (maxSize penalty : Nat) (hpos : ∀ s ∈ size :: sizes, 0 < s) (hmin : minSize ≤ INT_MAX)
    (hrange : max maxSizeSoFar (size :: sizes).sum + ((size :: sizes).length * penalty : Nat)
      ≤ INT_MAX) :
    ∃ groups, IsGrouping (size :: sizes) groups ∧
      findOptimalConfiguration (size :: sizes) minSize maxSizeSoFar maxSize penalty =
        configurationFrom 0 groups ∧
      ((∀ s ∈ size :: sizes, s ≤ maxSize) → FitsIn maxSize groups) ∧
      ∀ other, IsGrouping (size :: sizes) other → FitsIn maxSize other →
        groupingCost penalty (priorMinMax minSize maxSizeSoFar) groups ≤
          groupingCost penalty (priorMinMax minSize maxSizeSoFar) other := by
  let prior := priorMinMax minSize maxSizeSoFar
  let root := priorRoot size (sizes.length + 1) prior
  have hroot : root.InRange penalty sizes := priorRoot_inRange hpos hmin hrange
  have hleaf := SearchTree.search_mem (cost penalty) (tree maxSize sizes root)
  have hgrows : (tree maxSize sizes root).Grows (cost penalty) := tree_grows hroot
  have hbest := SearchTree.search_le hgrows
  rw [← getOptimalNode_eq_search] at hleaf hbest
  rw [mem_leaves_iff hroot] at hleaf
  obtain ⟨choices, hmap, hallowed, hopt⟩ := hleaf
  have hthis : root.thisSize = [size].sum := by
    rw [List.sum_singleton]
    rfl
  have hfits : (∀ s ∈ size :: sizes, s ≤ maxSize) → FitsIn maxSize (groupsFrom [size] choices) :=
    fun hsizes => fitsIn_of_allowed (by rw [List.sum_singleton]; exact hsizes size List.mem_cons_self)
      (fun s hs => hsizes s (List.mem_cons_of_mem _ (hmap ▸ hs))) (hthis ▸ hallowed)
  have hgrouping : IsGrouping (size :: sizes) (groupsFrom [size] choices) := by
    have h := @groupsFrom_isGrouping choices [size] (List.cons_ne_nil size [])
    rw [hmap] at h
    exact h
  refine ⟨groupsFrom [size] choices, hgrouping, ?_, hfits, ?_⟩
  · rw [findOptimalConfiguration_eq, hopt]
    exact @descend_config choices root [size] [] rfl
  · intro other hother hotherFits
    obtain ⟨others, hothers, rfl⟩ := hother.exists_choices
    have hothersAllowed : Allowed maxSize others root.thisSize := hthis ▸ allowed_of_fitsIn hotherFits
    have hle := hbest (descend others root) ((mem_leaves_iff hroot).mpr
      ⟨others, hothers, hothersAllowed, rfl⟩)
    have hcost : (descend choices root).cost penalty = groupingCost penalty prior _ :=
      descend_priorRoot_cost (by rw [hmap]; exact hroot)
    have hotherCost : (descend others root).cost penalty = groupingCost penalty prior _ :=
      descend_priorRoot_cost (by rw [hothers]; exact hroot)
    rwa [hopt, hcost, hotherCost] at hle

theorem findOptimalConfiguration_optimal_three :
    ∃ groups, IsGrouping [3, 1, 2] groups ∧
      findOptimalConfiguration [3, 1, 2] (-1) (-1) 4 1 = configurationFrom 0 groups ∧
      ((∀ s ∈ [3, 1, 2], s ≤ 4) → FitsIn 4 groups) ∧
      ∀ other, IsGrouping [3, 1, 2] other → FitsIn 4 other →
        groupingCost 1 (priorMinMax (-1) (-1)) groups ≤
          groupingCost 1 (priorMinMax (-1) (-1)) other :=
  findOptimalConfiguration_optimal 3 [1, 2] (-1) (-1) 4 1 (by decide) (by decide) (by decide)

/-- Two packets with a penalty of 2^30 for each: the sum of the penalties wraps, and they seem to
cost less than one packet. -/
theorem not_findOptimalConfiguration_optimal :
    ¬ ∀ (size : Nat) (sizes : List Nat) (minSize maxSizeSoFar : Int) (maxSize penalty : Nat),
      (∀ s ∈ size :: sizes, 0 < s) → minSize ≤ INT_MAX → maxSizeSoFar ≤ INT_MAX →
      maxSize ≤ INT_MAX → penalty ≤ INT_MAX →
      ∃ groups, IsGrouping (size :: sizes) groups ∧
        findOptimalConfiguration (size :: sizes) minSize maxSizeSoFar maxSize penalty =
          configurationFrom 0 groups ∧
        ∀ other, IsGrouping (size :: sizes) other → FitsIn maxSize other →
          groupingCost penalty (priorMinMax minSize maxSizeSoFar) groups ≤
            groupingCost penalty (priorMinMax minSize maxSizeSoFar) other := by
  intro h
  obtain ⟨groups, hgroups, hconfig, hbest⟩ :=
    h 1 [1] (-1) (-1) 2 (2 ^ 30) (by decide) (by decide) (by decide) (by decide) (by decide)
  have hone := hbest [[1, 1]] ⟨rfl, by decide⟩ fun group hgroup => by
    rw [List.mem_singleton.mp hgroup]
    decide
  obtain ⟨choices, hchoices, rfl⟩ := hgroups.exists_choices
  obtain ⟨⟨start, next⟩, rfl, rfl⟩ : ∃ choice : Bool × Nat, choices = [choice] ∧ choice.2 = 1 := by
    obtain ⟨choice, rest, rfl, hnext, hrest⟩ := List.map_eq_cons_iff.mp hchoices
    exact ⟨choice, by rw [List.map_eq_nil_iff.mp hrest], hnext⟩
  cases start with
  | false => exact absurd hconfig (by decide)
  | true => exact absurd hone (by decide)

end Optimal

end Vp8PartitionAggregator

end PerchWebrtc.Vp8
