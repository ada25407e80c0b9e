import HeyeeAgent.Forest.ParentLinks
import HeyeeAgent.Python.Object
import HeyeeAgent.Python.StrMethods
import HeyeeAgent.Rag.IntentModels

/-! # The intent tree

`build_intent_tree` links the nodes of the records and writes the paths from the roots down, and the
guidance service walks up. A node object is its place among the nodes, so a node and its parent may
be one object. The code recurses and loops without a bound; a bound stands for that here.
-/

namespace HeyeeAgent.Rag

open Python

structure IntentNodeRecord where
  intentCode : Str
  name : Str
  level : ℤ
  parentCode : Option Str
  kind : ℤ
  collectionName : Option Str := none
  topK : Option ℤ := none
  mcpToolId : Option Str := none
  paramPromptTemplate : Option Str := none
  sortOrder : ℤ := 0
deriving DecidableEq

/-- A node object with its links -/
structure TreeNode extends IntentNode where
  parentId : Option Str := none
  parent : Option ℕ := none
  children : List ℕ := []
deriving DecidableEq

structure IntentTreeData where
  roots : List ℕ
  allNodes : List TreeNode
  leafNodes : List ℕ
  idToNode : Dict Str ℕ

/-- `_level` -/
def IntentLevel.ofValue : ℤ → IntentLevel
  | 0 => .domain
  | 1 => .category
  | _ => .topic

/-- `_kind` -/
def IntentKind.ofValue : ℤ → IntentKind
  | 1 => .system
  | 2 => .mcp
  | _ => .kb

def recordToNode (record : IntentNodeRecord) : TreeNode where
  id := record.intentCode
  name := record.name
  level := .ofValue record.level
  parentId := record.parentCode
  kind := .ofValue record.kind
  collectionName := record.collectionName
  mcpToolId := record.mcpToolId
  topK := record.topK
  paramPromptTemplate := record.paramPromptTemplate

def TreeNode.isLeaf (node : TreeNode) : Bool := node.children.isEmpty

/-- The parent of a node that is not linked yet -/
def findParent (idToNode : Dict Str ℕ) (nodes : List TreeNode) (i : ℕ) : Option ℕ :=
  (nodes[i]?).bind fun node => idToNode.get (node.parentId.getD [])

/-- A turn of the loop that links the nodes and collects the roots -/
def linkNode (idToNode : Dict Str ℕ) (state : List TreeNode × List ℕ) (i : ℕ) :
    List TreeNode × List ℕ :=
  let (nodes, roots) := state
  match findParent idToNode nodes i with
  | none => (nodes, roots ++ [i])
  | some parent =>
    ((nodes.modify i fun node => { node with parent := some parent }).modify parent fun node =>
      { node with children := node.children ++ [i] }, roots)

/-- `_fill_full_path`, none where the bound is too small. -/
def fillFullPath : ℕ → List TreeNode → ℕ → List Str → Option (List TreeNode)
  | 0, _, _, _ => none
  | fuel + 1, nodes, i, ancestors =>
    match nodes[i]? with
    | none => some nodes
    | some node =>
      let path := ancestors ++ [node.name]
      node.children.foldlM (fun nodes child => fillFullPath fuel nodes child path)
        (nodes.modify i fun node => { node with fullPath := Str.join (.lit " > ") path })

/-- The nodes of the records in their order -/
def nodesOf (records : List IntentNodeRecord) : List TreeNode :=
  (records.mergeSort fun record other => record.sortOrder ≤ other.sortOrder).map recordToNode

def idToNodeOf (nodes : List TreeNode) : Dict Str ℕ :=
  Dict.comprehend (fun entry => entry.1.id) Prod.snd nodes.zipIdx

def buildIntentTree (fuel : ℕ) (records : List IntentNodeRecord) : Option IntentTreeData := do
  let nodes := nodesOf records
  let idToNode := idToNodeOf nodes
  let (linked, roots) := (List.range nodes.length).foldl (linkNode idToNode) (nodes, [])
  let allNodes ← roots.foldlM (fun nodes root => fillFullPath fuel nodes root []) linked
  let leafNodes := (List.range allNodes.length).filter fun i => (allNodes[i]?).any TreeNode.isLeaf
  return { roots, allNodes, leafNodes, idToNode }

/-- `parent` of a node object -/
def parentIn (nodes : List TreeNode) (i : ℕ) : Option ℕ := (nodes[i]?).bind TreeNode.parent

/-- `children` of a node object -/
def childrenIn (nodes : List TreeNode) (i : ℕ) : List ℕ :=
  ((nodes[i]?).map TreeNode.children).getD []

namespace IntentTreeData

variable (tree : IntentTreeData)

def parentOf (i : ℕ) : Option ℕ := parentIn tree.allNodes i

def levelOf (i : ℕ) : Option IntentLevel := (tree.allNodes[i]?).map fun node => node.level

/-- `_resolve_category_node`, none where the bound is too small. -/
def resolveCategoryNode : ℕ → ℕ → Option ℕ
  | 0, _ => none
  | fuel + 1, current =>
    match tree.parentOf current with
    | none => some current
    | some parent =>
      if tree.levelOf current = some .category then some current
      else resolveCategoryNode fuel parent

/-- `_resolve_domain_node`, none where the bound is too small. -/
def resolveDomainNode : ℕ → Option ℕ → Option (Option ℕ)
  | 0, _ => none
  | _ + 1, none => some none
  | fuel + 1, some current =>
    if tree.levelOf current = some .domain then some (some current)
    else resolveDomainNode fuel (tree.parentOf current)

end IntentTreeData

section Linking

variable {idToNode : Dict Str ℕ} {nodes : List TreeNode} {i j k : ℕ}

/-- The nodes of which the first ones have been linked -/
def linkedUpTo (parent : ℕ → Option ℕ) (nodes : List TreeNode) (k : ℕ) : List TreeNode :=
  nodes.mapIdx fun i node =>
    { node with
      parent := if i < k then parent i else none
      children := (List.range k).filter fun j => parent j = some i }

theorem getElem?_linkedUpTo (parent : ℕ → Option ℕ) (nodes : List TreeNode) (k i : ℕ) :
    (linkedUpTo parent nodes k)[i]? = (nodes[i]?).map fun node =>
      { node with
        parent := if i < k then parent i else none
        children := (List.range k).filter fun j => parent j = some i } := by
  rw [linkedUpTo, List.getElem?_mapIdx]

/-- Linking leaves the parent ids. -/
theorem findParent_linkedUpTo (parent : ℕ → Option ℕ) :
    findParent idToNode (linkedUpTo parent nodes k) i = findParent idToNode nodes i := by
  rw [findParent, findParent, getElem?_linkedUpTo]
  cases nodes[i]? <;> rfl

theorem linkedUpTo_succ_of_root {parent : ℕ → Option ℕ} (root : parent k = none) :
    linkedUpTo parent nodes (k + 1) = linkedUpTo parent nodes k := by
  refine List.ext_getElem? fun i => ?_
  rw [getElem?_linkedUpTo, getElem?_linkedUpTo]
  refine congrArg (fun link => Option.map link nodes[i]?) (funext fun node => ?_)
  have same : (if i < k + 1 then parent i else none) = if i < k then parent i else none := by
    rcases Nat.lt_trichotomy i k with less | rfl | more
    · rw [if_pos less, if_pos (Nat.lt_succ_of_lt less)]
    · rw [if_pos (Nat.lt_succ_self i), if_neg (lt_irrefl i), root]
    · rw [if_neg more.not_gt, if_neg (by omega)]
  rw [same, List.range_succ, List.filter_append, List.filter_singleton, root]
  simp

theorem linkedUpTo_succ_of_parent {parent : ℕ → Option ℕ} {p : ℕ} (link : parent k = some p) :
    ((linkedUpTo parent nodes k).modify k fun node => { node with parent := some p }).modify p
      (fun node => { node with children := node.children ++ [k] }) =
        linkedUpTo parent nodes (k + 1) := by
  refine List.ext_getElem? fun i => ?_
  rw [List.getElem?_modify, List.getElem?_modify, getElem?_linkedUpTo, getElem?_linkedUpTo]
  cases nodes[i]? with
  | none => rfl
  | some node =>
    have parents : (if i < k + 1 then parent i else none) =
        if k = i then some p else if i < k then parent i else none := by
      rcases Nat.lt_trichotomy i k with less | rfl | more
      · rw [if_pos (Nat.lt_succ_of_lt less), if_neg less.ne', if_pos less]
      · rw [if_pos (Nat.lt_succ_self i), if_pos rfl, link]
      · rw [if_neg (by omega), if_neg more.ne, if_neg more.not_gt]
    have children : (List.range (k + 1)).filter (fun j => parent j = some i) =
        if p = i then ((List.range k).filter fun j => parent j = some i) ++ [k]
          else (List.range k).filter fun j => parent j = some i := by
      rw [List.range_succ, List.filter_append, List.filter_singleton, link]
      split_ifs with same
      · rw [decide_eq_true (congrArg some same), cond_true]
      · rw [decide_eq_false fun both => same (Option.some_inj.mp both), cond_false,
          List.append_nil]
    rw [parents, children]
    by_cases first : k = i <;> by_cases second : p = i <;> simp [first, second]

/-- The loop links every node to its parent and takes those without one as the roots. -/
theorem foldl_linkNode (unlinked : ∀ node ∈ nodes, node.parent = none ∧ node.children = [])
    (k : ℕ) :
    (List.range k).foldl (linkNode idToNode) (nodes, []) =
      (linkedUpTo (findParent idToNode nodes) nodes k,
        (List.range k).filter fun i => findParent idToNode nodes i = none) := by
  induction k with
  | zero =>
    have same : nodes = linkedUpTo (findParent idToNode nodes) nodes 0 := by
      refine List.ext_getElem? fun i => ?_
      rw [getElem?_linkedUpTo]
      cases here : nodes[i]? with
      | none => rfl
      | some node =>
        obtain ⟨parent, children⟩ := unlinked node (List.mem_of_getElem? here)
        rw [Option.map_some, if_neg i.not_lt_zero, ← parent, List.range_zero, List.filter_nil,
          ← children]
    exact Prod.ext same rfl
  | succ k ih =>
    rw [List.range_succ, List.foldl_append, ih, List.foldl_cons, List.foldl_nil, linkNode,
      findParent_linkedUpTo, List.filter_append, List.filter_singleton]
    cases link : findParent idToNode nodes k with
    | none =>
      dsimp only
      rw [linkedUpTo_succ_of_root link, decide_eq_true rfl, cond_true]
    | some p =>
      dsimp only
      rw [linkedUpTo_succ_of_parent link, decide_eq_false (by simp), cond_false,
        List.append_nil]

end Linking

section Filling

variable {linked nodes nodes' : List TreeNode} {i j : ℕ} {path : List ℕ}

/-- The nodes but for their paths -/
def skeleton (nodes : List TreeNode) : List TreeNode :=
  nodes.map fun node => { node with fullPath := [] }

/-- The names of the nodes on a path, from the root down -/
def namesOn (nodes : List TreeNode) (path : List ℕ) : List Str :=
  path.reverse.filterMap fun i => (nodes[i]?).map fun node => node.name

/-- The node has the names on its path as its full path. -/
def Filled (linked nodes : List TreeNode) (i : ℕ) : Prop :=
  ∃ node path, nodes[i]? = some node ∧ ParentLinks.Ascent (parentIn linked) i path ∧
    node.fullPath = Str.join (.lit " > ") (namesOn linked path)

/-- Only paths are written, and all are right that were right before or belong to a set. -/
structure Fills (linked nodes nodes' : List TreeNode) (reached : ℕ → Prop) : Prop where
  skeleton : skeleton nodes' = skeleton linked
  keeps : ∀ i, Filled linked nodes i → Filled linked nodes' i
  fills : ∀ i, reached i → Filled linked nodes' i

/-- Parents and children agree. -/
def Agree (nodes : List TreeNode) : Prop :=
  ∀ i j, j ∈ childrenIn nodes i ↔ parentIn nodes j = some i

theorem exists_of_skeleton (same : skeleton nodes = skeleton nodes') {node : TreeNode}
    (here : nodes[i]? = some node) : ∃ node', nodes'[i]? = some node' ∧ node'.name = node.name ∧
      node'.parent = node.parent ∧ node'.children = node.children := by
  have both := congrArg (fun nodes => nodes[i]?) same
  simp only [skeleton, List.getElem?_map, here, Option.map_some] at both
  obtain ⟨node', there, equal⟩ := Option.map_eq_some_iff.mp both.symm
  refine ⟨node', there, ?_, ?_, ?_⟩
  · exact congrArg (fun node => node.name) equal
  · exact congrArg (fun node => node.parent) equal
  · exact congrArg (fun node => node.children) equal

theorem skeleton_modify (path : Str) :
    skeleton (nodes.modify i fun node => { node with fullPath := path }) = skeleton nodes := by
  refine List.ext_getElem? fun j => ?_
  rw [skeleton, skeleton, List.getElem?_map, List.getElem?_map, List.getElem?_modify]
  cases nodes[j]? with
  | none => rfl
  | some node =>
    simp only [Option.map_eq_map, Option.map_some]
    split_ifs <;> rfl

theorem lt_of_parentIn (link : parentIn nodes i = some j) : i < nodes.length := by
  obtain ⟨node, here, -⟩ := Option.bind_eq_some_iff.mp link
  exact (List.getElem?_eq_some_iff.mp here).1

theorem lt_of_mem_childrenIn (member : j ∈ childrenIn nodes i) : i < nodes.length := by
  by_contra outside
  rw [childrenIn, List.getElem?_eq_none (not_lt.mp outside)] at member
  exact List.not_mem_nil member

/-- The loops around the recursion -/
theorem exists_foldlM_fills {fill : List TreeNode → ℕ → Option (List TreeNode)} {items : List ℕ}
    {reached : ℕ → ℕ → Prop}
    (each : ∀ i ∈ items, ∀ nodes, skeleton nodes = skeleton linked →
      ∃ nodes', fill nodes i = some nodes' ∧ Fills linked nodes nodes' (reached i))
    (same : skeleton nodes = skeleton linked) :
    ∃ nodes', items.foldlM fill nodes = some nodes' ∧
      Fills linked nodes nodes' fun j => ∃ i ∈ items, reached i j := by
  induction items generalizing nodes with
  | nil =>
    refine ⟨nodes, rfl, same, fun _ => id, ?_⟩
    rintro j ⟨i, member, -⟩
    exact absurd member List.not_mem_nil
  | cons i items ih =>
    obtain ⟨first, filled, fills⟩ := each i List.mem_cons_self nodes same
    obtain ⟨last, rest, fills'⟩ := ih (fun i member => each i (List.mem_cons_of_mem _ member))
      fills.skeleton
    refine ⟨last, ?_, fills'.skeleton, fun j before => fills'.keeps j (fills.keeps j before), ?_⟩
    · rw [List.foldlM_cons, filled]
      exact rest
    · rintro j ⟨i', member, below⟩
      rcases List.mem_cons.mp member with rfl | later
      · exact fills'.keeps j (fills.fills j below)
      · exact fills'.fills j ⟨i', later, below⟩

theorem namesOn_cons {node : TreeNode} (here : linked[i]? = some node) :
    namesOn linked (i :: path) = namesOn linked path ++ [node.name] := by
  rw [namesOn, List.reverse_cons, List.filterMap_append, List.filterMap_cons, here]
  rfl

/-- The path of one node is written. -/
theorem fills_modify {node : TreeNode} (same : skeleton nodes = skeleton linked)
    (here : nodes[i]? = some node)
    (ascent : ParentLinks.Ascent (parentIn linked) i path) :
    Fills linked nodes (nodes.modify i fun node =>
      { node with fullPath := Str.join (.lit " > ") (namesOn linked path) }) (· = i) := by
  have filled : Filled linked (nodes.modify i fun node =>
      { node with fullPath := Str.join (.lit " > ") (namesOn linked path) }) i := by
    refine ⟨{ node with fullPath := Str.join (.lit " > ") (namesOn linked path) }, path, ?_,
      ascent, rfl⟩
    rw [List.getElem?_modify_eq, here]
    rfl
  refine ⟨(skeleton_modify _).trans same, fun j before => ?_, fun j at_node => at_node ▸ filled⟩
  rcases eq_or_ne j i with rfl | other
  · exact filled
  · rw [Filled, List.getElem?_modify_ne _ _ other.symm]
    exact before

/-- The recursion from a node writes the paths of all nodes below it. -/
theorem exists_fillFullPath (agree : Agree linked) (fuel : ℕ)
    (same : skeleton nodes = skeleton linked) (inside : i < linked.length)
    (ascent : ParentLinks.Ascent (parentIn linked) i (i :: path))
    (enough : linked.length < fuel + (i :: path).length) :
    ∃ nodes', fillFullPath fuel nodes i (namesOn linked path) = some nodes' ∧
      Fills linked nodes nodes' fun j =>
        Relation.ReflTransGen (ParentLinks.Link (parentIn linked)) j i := by
  induction fuel generalizing nodes i path with
  | zero =>
    have closed : ∀ a ∈ Finset.range linked.length, ∀ b, parentIn linked a = some b →
        b ∈ Finset.range linked.length := by
      intro a _ b link
      exact Finset.mem_range.mpr (lt_of_mem_childrenIn ((agree b a).mpr link))
    have short := ascent.length_le closed (Finset.mem_range.mpr inside)
    rw [Finset.card_range] at short
    omega
  | succ fuel ih =>
    obtain ⟨node, here, name, -, children⟩ := exists_of_skeleton same.symm
      (List.getElem?_eq_getElem inside)
    have names : namesOn linked path ++ [node.name] = namesOn linked (i :: path) := by
      rw [namesOn_cons (List.getElem?_eq_getElem inside), name]
    have written := fills_modify same here ascent
    have each : ∀ child ∈ node.children, ∀ nodes, skeleton nodes = skeleton linked →
        ∃ nodes', fillFullPath fuel nodes child (namesOn linked (i :: path)) = some nodes' ∧
          Fills linked nodes nodes' fun j =>
            Relation.ReflTransGen (ParentLinks.Link (parentIn linked)) j child := by
      intro child member nodes same
      have link : parentIn linked child = some i := by
        refine (agree i child).mp ?_
        rwa [childrenIn, List.getElem?_eq_getElem inside, Option.map_some, Option.getD_some,
          ← children]
      refine ih same (lt_of_parentIn link) (.step link ascent) ?_
      simp only [List.length_cons] at enough ⊢
      omega
    obtain ⟨nodes', filled, fills⟩ := exists_foldlM_fills each written.skeleton
    refine ⟨nodes', ?_, fills.skeleton, fun j before => fills.keeps j (written.keeps j before), ?_⟩
    · rw [fillFullPath, here]
      dsimp only
      rw [names]
      exact filled
    · intro j below
      rcases below.cases_tail with at_node | ⟨child, below, link⟩
      · exact fills.keeps j (written.fills j at_node.symm)
      · refine fills.fills j ⟨child, ?_, below⟩
        have member := (agree i child).mpr link
        rwa [childrenIn, List.getElem?_eq_getElem inside, Option.map_some, Option.getD_some,
          ← children] at member

end Filling

end HeyeeAgent.Rag
