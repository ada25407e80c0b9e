import HeyeeAgent.Rag.IntentTree

/-! # When the intent tree is a forest

The parent codes of the records are not checked. The tree is always built; it is a forest exactly if
no record is above itself, and the nodes of a cycle have no root, no path and walks without an end.
-/

namespace HeyeeAgent.Rag

open Python Relation ParentLinks

/-- Every node has one root, the links agree, the paths are written, and the walks of the guidance
service end. -/
structure IntentTreeData.Forest (tree : IntentTreeData) : Prop where
  roots : ∀ i, i ∈ tree.roots ↔ i < tree.allNodes.length ∧ tree.parentOf i = none
  reaches : ∀ i < tree.allNodes.length,
    ∃ root ∈ tree.roots, ReflTransGen (Link tree.parentOf) i root
  oneRoot : ∀ i < tree.allNodes.length, ∃! root, root ∈ tree.roots ∧
    ReflTransGen (fun parent child => child ∈ childrenIn tree.allNodes parent) root i
  agree : ∀ i j, j ∈ childrenIn tree.allNodes i ↔ tree.parentOf j = some i
  distinct : ∀ i, (childrenIn tree.allNodes i).Nodup
  fullPath : ∀ i node, tree.allNodes[i]? = some node → ∃ path, Ascent tree.parentOf i path ∧
    node.fullPath = Str.join (.lit " > ") (namesOn tree.allNodes path)
  leaves : ∀ i, i ∈ tree.leafNodes ↔ ∃ node, tree.allNodes[i]? = some node ∧ node.children = []
  walks : ∀ code i, tree.idToNode.get code = some i →
    (∃ fuel category, tree.resolveCategoryNode fuel i = some category) ∧
      ∃ fuel domain, tree.resolveDomainNode fuel (some i) = some domain

/-- The record that the parent code names; no code is the empty one. -/
def ParentRecord (records : List IntentNodeRecord) (record parent : IntentNodeRecord) : Prop :=
  parent ∈ records ∧ parent.intentCode = record.parentCode.getD []

/-- No record is above itself. -/
def AcyclicRecords (records : List IntentNodeRecord) : Prop :=
  ∀ record ∈ records, ¬ TransGen (ParentRecord records) record record

/-- `build_intent_tree` returns the tree. -/
def BuildsIntentTree (records : List IntentNodeRecord) (tree : IntentTreeData) : Prop :=
  ∃ fuel, buildIntentTree fuel records = some tree

section Bound

variable {β : Type} {items : List ℕ}

theorem foldlM_mono {f g : β → ℕ → Option β} {a b : β}
    (more : ∀ a i b, f a i = some b → g a i = some b) (run : items.foldlM f a = some b) :
    items.foldlM g a = some b := by
  induction items generalizing a with
  | nil => exact run
  | cons i items ih =>
    rw [List.foldlM_cons] at run ⊢
    obtain ⟨middle, first, rest⟩ := Option.bind_eq_some_iff.mp run
    exact Option.bind_eq_some_iff.mpr ⟨middle, more _ _ _ first, ih rest⟩

theorem fillFullPath_succ {fuel i : ℕ} {nodes nodes' : List TreeNode} {ancestors : List Str}
    (filled : fillFullPath fuel nodes i ancestors = some nodes') :
    fillFullPath (fuel + 1) nodes i ancestors = some nodes' := by
  induction fuel generalizing nodes i ancestors nodes' with
  | zero => cases filled
  | succ fuel ih =>
    rw [fillFullPath] at filled ⊢
    cases here : nodes[i]? with
    | none =>
      rw [here] at filled
      exact filled
    | some node =>
      rw [here] at filled
      exact foldlM_mono (fun _ _ _ => ih) filled

/-- A larger bound changes nothing. -/
theorem fillFullPath_mono {fuel fuel' i : ℕ} {nodes nodes' : List TreeNode} {ancestors : List Str}
    (more : fuel ≤ fuel') (filled : fillFullPath fuel nodes i ancestors = some nodes') :
    fillFullPath fuel' nodes i ancestors = some nodes' := by
  induction fuel', more using Nat.le_induction with
  | base => exact filled
  | succ fuel' _ ih => exact fillFullPath_succ ih

theorem buildIntentTree_mono {fuel fuel' : ℕ} {records : List IntentNodeRecord}
    {tree : IntentTreeData} (more : fuel ≤ fuel')
    (built : buildIntentTree fuel records = some tree) :
    buildIntentTree fuel' records = some tree := by
  unfold buildIntentTree at built ⊢
  obtain ⟨allNodes, filled, rest⟩ := Option.bind_eq_some_iff.mp built
  exact Option.bind_eq_some_iff.mpr
    ⟨allNodes, foldlM_mono (fun _ _ _ => fillFullPath_mono more) filled, rest⟩

/-- At most one tree is returned. -/
theorem BuildsIntentTree.unique {records : List IntentNodeRecord} {tree tree' : IntentTreeData}
    (built : BuildsIntentTree records tree) (built' : BuildsIntentTree records tree') :
    tree = tree' := by
  obtain ⟨fuel, built⟩ := built
  obtain ⟨fuel', built'⟩ := built'
  have first := buildIntentTree_mono (le_max_left fuel fuel') built
  have second := buildIntentTree_mono (le_max_right fuel fuel') built'
  exact Option.some_inj.mp (first.symm.trans second)

end Bound

section Skeleton

variable {nodes nodes' : List TreeNode} {i j : ℕ} {path : List ℕ}

theorem length_of_skeleton (same : skeleton nodes = skeleton nodes') :
    nodes.length = nodes'.length := by
  have lengths := congrArg List.length same
  rwa [skeleton, skeleton, List.length_map, List.length_map] at lengths

theorem getElem?_none_of_skeleton (same : skeleton nodes = skeleton nodes')
    (missing : nodes[i]? = none) : nodes'[i]? = none := by
  rw [List.getElem?_eq_none_iff, ← length_of_skeleton same]
  exact List.getElem?_eq_none_iff.mp missing

theorem parentIn_of_skeleton (same : skeleton nodes = skeleton nodes') :
    parentIn nodes = parentIn nodes' := by
  funext i
  rw [parentIn, parentIn]
  cases here : nodes[i]? with
  | none => rw [getElem?_none_of_skeleton same here]
  | some node =>
    obtain ⟨node', there, -, parent, -⟩ := exists_of_skeleton same here
    rw [there, Option.bind_some, Option.bind_some, parent]

theorem childrenIn_of_skeleton (same : skeleton nodes = skeleton nodes') :
    childrenIn nodes = childrenIn nodes' := by
  funext i
  rw [childrenIn, childrenIn]
  cases here : nodes[i]? with
  | none => rw [getElem?_none_of_skeleton same here]
  | some node =>
    obtain ⟨node', there, -, -, children⟩ := exists_of_skeleton same here
    rw [there, Option.map_some, Option.map_some, children]

theorem namesOn_of_skeleton (same : skeleton nodes = skeleton nodes') :
    namesOn nodes path = namesOn nodes' path := by
  rw [namesOn, namesOn]
  refine congrArg (fun name => path.reverse.filterMap name) (funext fun i => ?_)
  cases here : nodes[i]? with
  | none => rw [getElem?_none_of_skeleton same here]
  | some node =>
    obtain ⟨node', there, name, -, -⟩ := exists_of_skeleton same here
    rw [there, Option.map_some, Option.map_some, name]

end Skeleton

section Building

variable {records : List IntentNodeRecord} {nodes : List TreeNode} {tree : IntentTreeData}
  {i j : ℕ} {path : List ℕ} {code : Str}

/-- The nodes after the loop that links them -/
def linkedNodes (nodes : List TreeNode) : List TreeNode :=
  linkedUpTo (findParent (idToNodeOf nodes) nodes) nodes nodes.length

theorem exists_of_idToNode (found : (idToNodeOf nodes).get code = some i) :
    ∃ node, nodes[i]? = some node ∧ node.id = code := by
  obtain ⟨⟨node, place⟩, listed, same, rfl⟩ := Dict.exists_of_get_comprehend found
  exact ⟨node, List.mem_zipIdx_iff_getElem?.mp listed, same⟩

theorem idToNode_of_distinct (distinct : (nodes.map fun node => node.id).Nodup) {node : TreeNode}
    (here : nodes[i]? = some node) : (idToNodeOf nodes).get node.id = some i := by
  have listed : (node, i) ∈ nodes.zipIdx := List.mem_zipIdx_iff_getElem?.mpr here
  have taken : ∃ j, (idToNodeOf nodes).get node.id = some j := Dict.exists_get_comprehend listed
  obtain ⟨j, found⟩ := taken
  obtain ⟨node', there, same⟩ := exists_of_idToNode found
  have place : j = i := by
    refine (List.getElem?_inj ?_ distinct).mp ?_
    · rw [List.length_map]
      exact (List.getElem?_eq_some_iff.mp there).1
    · rw [List.getElem?_map, List.getElem?_map, here, there, Option.map_some, Option.map_some, same]
  rw [← place]
  exact found

theorem lt_of_findParent (link : findParent (idToNodeOf nodes) nodes i = some j) :
    i < nodes.length ∧ j < nodes.length := by
  obtain ⟨node, here, found⟩ := Option.bind_eq_some_iff.mp link
  obtain ⟨parent, there, -⟩ := exists_of_idToNode found
  exact ⟨(List.getElem?_eq_some_iff.mp here).1, (List.getElem?_eq_some_iff.mp there).1⟩

theorem length_linkedNodes (nodes : List TreeNode) :
    (linkedNodes nodes).length = nodes.length := by
  rw [linkedNodes, linkedUpTo, List.length_mapIdx]

theorem parentIn_linkedNodes (nodes : List TreeNode) :
    parentIn (linkedNodes nodes) = findParent (idToNodeOf nodes) nodes := by
  funext i
  rw [parentIn, linkedNodes, getElem?_linkedUpTo]
  cases here : nodes[i]? with
  | none => rw [findParent, here]; rfl
  | some node =>
    rw [Option.map_some, Option.bind_some]
    exact if_pos (List.getElem?_eq_some_iff.mp here).1

theorem mem_childrenIn_linkedNodes : j ∈ childrenIn (linkedNodes nodes) i ↔
    findParent (idToNodeOf nodes) nodes j = some i := by
  rw [childrenIn, linkedNodes, getElem?_linkedUpTo]
  constructor
  · intro member
    cases here : nodes[i]? with
    | none => rw [here] at member; exact absurd member List.not_mem_nil
    | some node =>
      rw [here] at member
      exact of_decide_eq_true (List.mem_filter.mp member).2
  · intro link
    obtain ⟨inside, inside'⟩ := lt_of_findParent link
    rw [List.getElem?_eq_getElem inside']
    exact List.mem_filter.mpr ⟨List.mem_range.mpr inside, decide_eq_true link⟩

theorem agree_linkedNodes (nodes : List TreeNode) : Agree (linkedNodes nodes) := by
  intro i j
  rw [mem_childrenIn_linkedNodes, parentIn_linkedNodes]

theorem nodup_childrenIn_linkedNodes (nodes : List TreeNode) (i : ℕ) :
    (childrenIn (linkedNodes nodes) i).Nodup := by
  rw [childrenIn, linkedNodes, getElem?_linkedUpTo]
  cases nodes[i]? with
  | none => exact List.nodup_nil
  | some node => exact List.nodup_range.filter _

/-- The tree is built of the linked nodes, and the nodes below a root have their paths. -/
structure Built (nodes : List TreeNode) (tree : IntentTreeData) : Prop where
  skeleton : skeleton tree.allNodes = skeleton (linkedNodes nodes)
  roots : tree.roots =
    (List.range nodes.length).filter fun i => findParent (idToNodeOf nodes) nodes i = none
  leafNodes : tree.leafNodes = (List.range tree.allNodes.length).filter fun i =>
    (tree.allNodes[i]?).any TreeNode.isLeaf
  idToNode : tree.idToNode = idToNodeOf nodes
  filled : ∀ root ∈ tree.roots, ∀ i, ReflTransGen (Link (parentIn (linkedNodes nodes))) i root →
    Filled (linkedNodes nodes) tree.allNodes i

theorem unlinked_nodesOf (records : List IntentNodeRecord) :
    ∀ node ∈ nodesOf records, node.parent = none ∧ node.children = [] := by
  intro node member
  obtain ⟨record, -, rfl⟩ := List.mem_map.mp member
  exact ⟨rfl, rfl⟩

/-- The tree is built for all records: the roots are above no cycle. -/
theorem exists_built (records : List IntentNodeRecord) :
    ∃ tree, BuildsIntentTree records tree ∧ Built (nodesOf records) tree := by
  have linking := @foldl_linkNode (idToNodeOf (nodesOf records)) _ (unlinked_nodesOf records)
    (nodesOf records).length
  have each : ∀ root ∈ (List.range (nodesOf records).length).filter fun i =>
      findParent (idToNodeOf (nodesOf records)) (nodesOf records) i = none,
      ∀ nodes, skeleton nodes = skeleton (linkedNodes (nodesOf records)) →
        ∃ nodes', fillFullPath ((nodesOf records).length + 1) nodes root [] = some nodes' ∧
          Fills (linkedNodes (nodesOf records)) nodes nodes' fun i =>
            ReflTransGen (Link (parentIn (linkedNodes (nodesOf records)))) i root := by
    intro root member nodes same
    obtain ⟨inside, top⟩ := List.mem_filter.mp member
    have ascent : Ascent (parentIn (linkedNodes (nodesOf records))) root [root] := by
      refine .root ?_
      rw [parentIn_linkedNodes]
      exact of_decide_eq_true top
    refine exists_fillFullPath (agree_linkedNodes _) _ same ?_ ascent ?_
    · rw [length_linkedNodes]
      exact List.mem_range.mp inside
    · rw [length_linkedNodes, List.length_singleton]
      omega
  obtain ⟨allNodes, filled, fills⟩ := exists_foldlM_fills each rfl
  let leafNodes := (List.range allNodes.length).filter fun i => (allNodes[i]?).any TreeNode.isLeaf
  refine ⟨⟨_, allNodes, leafNodes, idToNodeOf (nodesOf records)⟩,
    ⟨(nodesOf records).length + 1, ?_⟩, ⟨fills.skeleton, rfl, rfl, rfl, ?_⟩⟩
  · unfold buildIntentTree
    dsimp only
    rw [linking]
    dsimp only
    rw [← linkedNodes, filled]
    rfl
  · exact fun root member i below => fills.fills i ⟨root, member, below⟩

end Building

section Walks

variable {tree : IntentTreeData} {i : ℕ} {path : List ℕ}

theorem exists_resolveCategoryNode (ascent : Ascent tree.parentOf i path) :
    ∃ fuel category, tree.resolveCategoryNode fuel i = some category := by
  induction ascent with
  | @root i top =>
    refine ⟨1, i, ?_⟩
    rw [IntentTreeData.resolveCategoryNode, top]
  | @step i parent path link _ ih =>
    obtain ⟨fuel, category, found⟩ := ih
    by_cases here : tree.levelOf i = some .category
    · refine ⟨1, i, ?_⟩
      rw [IntentTreeData.resolveCategoryNode, link]
      exact if_pos here
    · refine ⟨fuel + 1, category, ?_⟩
      rw [IntentTreeData.resolveCategoryNode, link]
      exact (if_neg here).trans found

theorem exists_resolveDomainNode (ascent : Ascent tree.parentOf i path) :
    ∃ fuel domain, tree.resolveDomainNode fuel (some i) = some domain := by
  have go : ∀ i fuel domain, tree.resolveDomainNode fuel (tree.parentOf i) = some domain →
      ∃ domain, tree.resolveDomainNode (fuel + 1) (some i) = some domain := by
    intro i fuel domain above
    rw [IntentTreeData.resolveDomainNode]
    split_ifs
    · exact ⟨some i, rfl⟩
    · exact ⟨domain, above⟩
  induction ascent with
  | @root i top =>
    exact ⟨2, go i 1 none (by rw [top]; rfl)⟩
  | @step i parent path link _ ih =>
    obtain ⟨fuel, domain, found⟩ := ih
    exact ⟨fuel + 1, go i fuel domain (by rw [link]; exact found)⟩

end Walks

section Records

variable {records : List IntentNodeRecord} {i j : ℕ} {record parent : IntentNodeRecord}

/-- The records in the order of the nodes -/
def sortRecords (records : List IntentNodeRecord) : List IntentNodeRecord :=
  records.mergeSort fun record other => record.sortOrder ≤ other.sortOrder

theorem sortRecords_perm (records : List IntentNodeRecord) : (sortRecords records).Perm records :=
  List.mergeSort_perm _ _

theorem getElem?_nodesOf (records : List IntentNodeRecord) (i : ℕ) :
    (nodesOf records)[i]? = ((sortRecords records)[i]?).map recordToNode := by
  rw [nodesOf, ← sortRecords, List.getElem?_map]

theorem nodup_nodesOf (distinct : (records.map IntentNodeRecord.intentCode).Nodup) :
    ((nodesOf records).map fun node => node.id).Nodup := by
  rw [nodesOf, List.map_map]
  exact (((sortRecords_perm records).map _).nodup_iff).mpr distinct

/-- The links of the nodes are those of their records. -/
theorem findParent_iff (distinct : (records.map IntentNodeRecord.intentCode).Nodup)
    (here : (sortRecords records)[i]? = some record) :
    findParent (idToNodeOf (nodesOf records)) (nodesOf records) i = some j ↔
      ∃ parent, (sortRecords records)[j]? = some parent ∧ ParentRecord records record parent := by
  have node_here : (nodesOf records)[i]? = some (recordToNode record) := by
    rw [getElem?_nodesOf, here, Option.map_some]
  rw [findParent, node_here, Option.bind_some]
  constructor
  · intro found
    obtain ⟨node, there, same⟩ := exists_of_idToNode found
    rw [getElem?_nodesOf] at there
    obtain ⟨parent, record_there, rfl⟩ := Option.map_eq_some_iff.mp there
    exact ⟨parent, record_there, (sortRecords_perm records).mem_iff.mp
      (List.mem_of_getElem? record_there), same⟩
  · rintro ⟨parent, there, -, same⟩
    have node_there : (nodesOf records)[j]? = some (recordToNode parent) := by
      rw [getElem?_nodesOf, there, Option.map_some]
    have found := idToNode_of_distinct (nodup_nodesOf distinct) node_there
    exact same ▸ found

theorem above_of_records (distinct : (records.map IntentNodeRecord.intentCode).Nodup)
    (up : TransGen (ParentRecord records) record parent)
    (here : (sortRecords records)[i]? = some record) : ∃ j,
      (sortRecords records)[j]? = some parent ∧
        TransGen (Link (findParent (idToNodeOf (nodesOf records)) (nodesOf records))) i j := by
  induction up with
  | single link =>
    obtain ⟨j, there⟩ := List.mem_iff_getElem?.mp ((sortRecords_perm records).mem_iff.mpr link.1)
    exact ⟨j, there, .single ((findParent_iff distinct here).mpr ⟨_, there, link⟩)⟩
  | tail _ link ih =>
    obtain ⟨j, there, up⟩ := ih
    obtain ⟨k, top⟩ := List.mem_iff_getElem?.mp ((sortRecords_perm records).mem_iff.mpr link.1)
    exact ⟨k, top, .tail up ((findParent_iff distinct there).mpr ⟨_, top, link⟩)⟩

theorem above_of_nodes (distinct : (records.map IntentNodeRecord.intentCode).Nodup)
    (up : TransGen (Link (findParent (idToNodeOf (nodesOf records)) (nodesOf records))) i j)
    (here : (sortRecords records)[i]? = some record) : ∃ parent,
      (sortRecords records)[j]? = some parent ∧ TransGen (ParentRecord records) record parent := by
  induction up with
  | single link =>
    obtain ⟨parent, there, above⟩ := (findParent_iff distinct here).mp link
    exact ⟨parent, there, .single above⟩
  | tail _ link ih =>
    obtain ⟨middle, there, up⟩ := ih
    obtain ⟨parent, top, above⟩ := (findParent_iff distinct there).mp link
    exact ⟨parent, top, .tail up above⟩

theorem acyclicRecords_iff (distinct : (records.map IntentNodeRecord.intentCode).Nodup) :
    AcyclicRecords records ↔ ∀ i < (nodesOf records).length, ¬ TransGen
      (Link (findParent (idToNodeOf (nodesOf records)) (nodesOf records))) i i := by
  have lengths : (nodesOf records).length = (sortRecords records).length := List.length_map _
  constructor
  · intro acyclic i inside cycle
    have here := List.getElem?_eq_getElem (lengths ▸ inside)
    obtain ⟨parent, there, up⟩ := above_of_nodes distinct cycle here
    rw [here] at there
    cases there
    exact acyclic _ ((sortRecords_perm records).mem_iff.mp (List.getElem_mem _)) up
  · intro acyclic record member cycle
    obtain ⟨i, here⟩ := List.mem_iff_getElem?.mp ((sortRecords_perm records).mem_iff.mpr member)
    obtain ⟨j, there, up⟩ := above_of_records distinct cycle here
    have sorted_distinct : ((sortRecords records).map IntentNodeRecord.intentCode).Nodup :=
      (((sortRecords_perm records).map _).nodup_iff).mpr distinct
    have inside := (List.getElem?_eq_some_iff.mp here).1
    have same : i = j := by
      refine (List.getElem?_inj (by rwa [List.length_map]) sorted_distinct).mp ?_
      rw [List.getElem?_map, List.getElem?_map, here, there]
    rw [← same] at up
    exact acyclic i (lengths ▸ inside) up

/-- Where the levels decrease upwards, no record is above itself. -/
theorem acyclicRecords_of_levels (lower : ∀ record ∈ records, ∀ parent ∈ records,
    parent.intentCode = record.parentCode.getD [] → parent.level < record.level) :
    AcyclicRecords records := by
  intro record member cycle
  have up_lt : ∀ parent, TransGen (ParentRecord records) record parent →
      parent ∈ records ∧ parent.level < record.level := by
    intro parent up
    induction up with
    | single link => exact ⟨link.1, lower _ member _ link.1 link.2⟩
    | tail _ link ih => exact ⟨link.1, (lower _ ih.1 _ link.1 link.2).trans ih.2⟩
  exact lt_irrefl _ (up_lt record cycle).2

end Records

section Forest

variable {records : List IntentNodeRecord} {nodes : List TreeNode} {tree : IntentTreeData}

theorem Built.parentOf_eq (built : Built nodes tree) :
    tree.parentOf = findParent (idToNodeOf nodes) nodes := by
  funext i
  rw [IntentTreeData.parentOf, parentIn_of_skeleton built.skeleton, parentIn_linkedNodes]

theorem Built.length_eq (built : Built nodes tree) : tree.allNodes.length = nodes.length := by
  rw [length_of_skeleton built.skeleton, length_linkedNodes]

theorem Built.mem_roots (built : Built nodes tree) (i : ℕ) :
    i ∈ tree.roots ↔ i < tree.allNodes.length ∧ tree.parentOf i = none := by
  rw [built.roots, List.mem_filter, List.mem_range, decide_eq_true_eq, built.length_eq,
    built.parentOf_eq]

theorem Built.mem_children (built : Built nodes tree) (i j : ℕ) :
    j ∈ childrenIn tree.allNodes i ↔ tree.parentOf j = some i := by
  rw [childrenIn_of_skeleton built.skeleton, mem_childrenIn_linkedNodes, built.parentOf_eq]

/-- The path of a node ends at a root of the tree. -/
theorem Built.exists_root (built : Built nodes tree) {i : ℕ} {path : List ℕ}
    (inside : i < tree.allNodes.length) (ascent : Ascent tree.parentOf i path) :
    ∃ root ∈ tree.roots, ReflTransGen (Link tree.parentOf) i root := by
  obtain ⟨root, top, up⟩ := ascent.exists_root
  refine ⟨root, (built.mem_roots root).mpr ⟨?_, top⟩, up⟩
  rcases up.cases_tail with rfl | ⟨child, -, link⟩
  · exact inside
  · rw [built.parentOf_eq] at link
    rw [built.length_eq]
    exact (lt_of_findParent link).2

/-- The tree is a forest if every node has a path to a root. -/
theorem Built.forest (built : Built nodes tree)
    (grounded : ∀ i < tree.allNodes.length, ∃ path, Ascent tree.parentOf i path) : tree.Forest := by
  have links : (fun parent child => child ∈ childrenIn tree.allNodes parent) =
      Function.swap (Link tree.parentOf) := by
    funext parent child
    exact propext (built.mem_children parent child)
  have reaches : ∀ i < tree.allNodes.length,
      ∃ root ∈ tree.roots, ReflTransGen (Link tree.parentOf) i root := by
    intro i inside
    obtain ⟨path, ascent⟩ := grounded i inside
    exact built.exists_root inside ascent
  refine ⟨built.mem_roots, reaches, fun i inside => ?_, built.mem_children, fun i => ?_,
    fun i node here => ?_, fun i => ?_, fun code i found => ?_⟩
  · obtain ⟨root, member, up⟩ := reaches i inside
    rw [links]
    refine ⟨root, ⟨member, reflTransGen_swap.mpr up⟩, ?_⟩
    rintro root' ⟨member', down⟩
    exact root_unique ((built.mem_roots root').mp member').2 ((built.mem_roots root).mp member).2
      (reflTransGen_swap.mp down) up
  · rw [childrenIn_of_skeleton built.skeleton]
    exact nodup_childrenIn_linkedNodes nodes i
  · obtain ⟨root, member, up⟩ := reaches i (List.getElem?_eq_some_iff.mp here).1
    rw [built.parentOf_eq, ← parentIn_linkedNodes] at up
    obtain ⟨node', path, there, ascent, full⟩ := built.filled root member i up
    rw [here] at there
    cases there
    rw [built.parentOf_eq, ← parentIn_linkedNodes]
    refine ⟨path, ascent, ?_⟩
    rw [full, namesOn_of_skeleton built.skeleton]
  · rw [built.leafNodes, List.mem_filter, List.mem_range]
    constructor
    · rintro ⟨-, leaf⟩
      obtain ⟨node, here, leaf⟩ := (Option.any_eq_true _ _).mp leaf
      exact ⟨node, here, List.isEmpty_iff.mp leaf⟩
    · rintro ⟨node, here, leaf⟩
      refine ⟨(List.getElem?_eq_some_iff.mp here).1, (Option.any_eq_true _ _).mpr ?_⟩
      exact ⟨node, here, List.isEmpty_iff.mpr leaf⟩
  · rw [built.idToNode] at found
    obtain ⟨node, here, -⟩ := exists_of_idToNode found
    have inside := (List.getElem?_eq_some_iff.mp here).1
    obtain ⟨path, ascent⟩ := grounded i (built.length_eq ▸ inside)
    exact ⟨exists_resolveCategoryNode ascent, exists_resolveDomainNode ascent⟩

/-- The parents of the nodes are nodes. -/
theorem Built.closed (built : Built nodes tree) : ∀ i ∈ Finset.range tree.allNodes.length,
    ∀ j, tree.parentOf i = some j → j ∈ Finset.range tree.allNodes.length := by
  intro i _ j link
  rw [built.parentOf_eq] at link
  rw [Finset.mem_range, built.length_eq]
  exact (lt_of_findParent link).2

/-- Every node has a path to a root exactly if no record is above itself. -/
theorem Built.exists_ascent_iff (built : Built (nodesOf records) tree)
    (distinct : (records.map IntentNodeRecord.intentCode).Nodup) :
    (∀ i < tree.allNodes.length, ∃ path, Ascent tree.parentOf i path) ↔ AcyclicRecords records := by
  have grounded := ParentLinks.exists_ascent_iff built.closed
  simp only [Finset.mem_range] at grounded
  rw [acyclicRecords_iff distinct, ← built.parentOf_eq, ← built.length_eq, ← grounded]

/-- A tree is always returned, and it is a forest exactly if no record is above itself. -/
theorem forest_iff_acyclicRecords (distinct : (records.map IntentNodeRecord.intentCode).Nodup) :
    (∃ tree, BuildsIntentTree records tree) ∧
      ∀ tree, BuildsIntentTree records tree → (tree.Forest ↔ AcyclicRecords records) := by
  obtain ⟨tree, builds, built⟩ := exists_built records
  refine ⟨⟨tree, builds⟩, fun tree' builds' => ?_⟩
  obtain rfl := builds.unique builds'
  rw [← built.exists_ascent_iff distinct]
  refine ⟨fun forest i inside => ?_, built.forest⟩
  obtain ⟨root, member, up⟩ := forest.reaches i inside
  exact exists_ascent_of_root ((forest.roots root).mp member).2 up

def returnPolicyRecords : List IntentNodeRecord := [
  { intentCode := .lit "product", name := .lit "Products", level := 0, parentCode := none
    kind := 0 },
  { intentCode := .lit "digital", name := .lit "Digital", level := 1
    parentCode := some (.lit "product"), kind := 0 },
  { intentCode := .lit "return-policy", name := .lit "Returns", level := 2
    parentCode := some (.lit "digital"), kind := 0, topK := some 4 }]

theorem returnPolicyRecords_acyclic : AcyclicRecords returnPolicyRecords :=
  acyclicRecords_of_levels (by decide)

theorem returnPolicyRecords_forest :
    ∃ tree, BuildsIntentTree returnPolicyRecords tree ∧ tree.Forest := by
  obtain ⟨⟨tree, built⟩, iff⟩ := @forest_iff_acyclicRecords returnPolicyRecords (by decide)
  exact ⟨tree, built, (iff tree built).mpr returnPolicyRecords_acyclic⟩

def selfParentRecord : IntentNodeRecord :=
  { intentCode := .lit "returns", name := .lit "Returns", level := 2
    parentCode := some (.lit "returns"), kind := 0 }

/-- A record that names itself as its parent: the tree has no root. -/
theorem selfParentRecord_not_forest : ¬ ∀ records tree,
    (records.map IntentNodeRecord.intentCode).Nodup → BuildsIntentTree records tree →
      tree.Forest := by
  intro all
  have nodes : nodesOf [selfParentRecord] = [recordToNode selfParentRecord] := by
    rw [nodesOf, List.mergeSort_singleton, List.map_singleton]
  have built : buildIntentTree 1 [selfParentRecord] =
      some { roots := [], leafNodes := [], idToNode := [(.lit "returns", 0)]
             allNodes := [{ recordToNode selfParentRecord with
               parent := some 0, children := [0] }] } := by
    rw [buildIntentTree, nodes]
    rfl
  obtain ⟨root, member, -⟩ := (all [selfParentRecord] _ (List.nodup_singleton _)
    ⟨1, built⟩).reaches 0 Nat.one_pos
  exact List.not_mem_nil member

end Forest

end HeyeeAgent.Rag
