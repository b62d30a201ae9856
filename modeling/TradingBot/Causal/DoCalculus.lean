import TradingBot.Foundation.Saturation
import TradingBot.Foundation.SimplePath

/-!
# Adjustment sets

`CausalGraph` and the backdoor part of `DoCalculusEngine` of `do_calculus.py`. Python sets are lists
without repetition that are gone through in an order of their own; what is proved holds for every
such order. The set of visited nodes of the path search is the path itself. The texts of the answers
are kept as what they name.
-/

open Relation
open SimplePath (Leads)

namespace TradingBot.Causal

/-- `CausalGraphType`, as far as edges are added. -/
inductive CausalGraphType where
  | directed
  | bidirected
  deriving DecidableEq

/-- `Edge`. -/
structure Edge where
  source : String
  target : String
  edgeType : CausalGraphType
  deriving DecidableEq

/-- A Python set with an element added. -/
def setAdd {α : Type} [DecidableEq α] (set : List α) (element : α) : List α :=
  if element ∈ set then set else set ++ [element]

/-- `CausalGraph`. -/
structure CausalGraph where
  nodes : List String
  edges : List Edge
  /-- The children of each node. -/
  adjacency : Dict String (List String)
  /-- The parents of each node. -/
  reverseAdjacency : Dict String (List String)
  observed : List String
  unobserved : List String

/-- Why a set is an adjustment set or not. -/
inductive Reason where
  | descendant (node treatment : String)
  /-- "Backdoor path {path} is not blocked by {adjustment_set}". -/
  | notBlocked (path adjustmentSet : List String)
  /-- "Valid adjustment set". -/
  | valid

namespace CausalGraph

def init : CausalGraph := ⟨[], [], .empty, .empty, [], []⟩

def addNode (graph : CausalGraph) (name : String) (observed : Bool) : CausalGraph :=
  { graph with
    nodes := setAdd graph.nodes name
    observed := if observed then setAdd graph.observed name else graph.observed
    unobserved := if observed then graph.unobserved else setAdd graph.unobserved name }

def addDirectedEdge (graph : CausalGraph) (source target : String) : CausalGraph :=
  { graph with
    nodes := setAdd (setAdd graph.nodes source) target
    edges := setAdd graph.edges ⟨source, target, .directed⟩
    adjacency := graph.adjacency.put source
      (setAdd ((graph.adjacency.get source).getD []) target)
    reverseAdjacency := graph.reverseAdjacency.put target
      (setAdd ((graph.reverseAdjacency.get target).getD []) source) }

/-- `add_bidirected_edge`, without the pairs that nothing reads. -/
def addBidirectedEdge (graph : CausalGraph) (node1 node2 : String) : CausalGraph :=
  { graph with
    nodes := setAdd (setAdd graph.nodes node1) node2
    edges := setAdd graph.edges ⟨node1, node2, .bidirected⟩ }

def getParents (graph : CausalGraph) (node : String) : List String :=
  (graph.reverseAdjacency.get node).getD []

def getChildren (graph : CausalGraph) (node : String) : List String :=
  (graph.adjacency.get node).getD []

section Operations

variable (traversal : Traversal String) (graph : CausalGraph)

/-- `get_ancestors`; there are at most as many passes as nodes, and one more. -/
def getAncestors (nodes : List String) : Option (List String) :=
  Saturation.close (fun node => traversal.order (graph.getParents node)) traversal
    (graph.nodes.length + 1) nodes

/-- `get_descendants`; there are at most as many passes as nodes, and one more. -/
def getDescendants (nodes : List String) : Option (List String) :=
  Saturation.close (fun node => traversal.order (graph.getChildren node)) traversal
    (graph.nodes.length + 1) nodes

def isColliderOnPath (node : String) (path : List String) : Bool :=
  if node ∉ path ∨ path.length < 3 then false
  else
    let idx := path.idxOf node
    if idx = 0 ∨ idx = path.length - 1 then false
    else match path[idx - 1]?, path[idx + 1]? with
      | some prevNode, some nextNode =>
        node ∈ graph.getChildren prevNode ∧ node ∈ graph.getChildren nextNode
      | _, _ => false

/-- The children and parents of a node. -/
def neighbors (node : String) : List String :=
  traversal.order (graph.getChildren node ∪ graph.getParents node)

/-- `_find_all_paths`; a path that is longer than the maximal length has no room. -/
def findAllPaths (start goal : String) (exclude : List String) (maxLength : Nat) :
    List (List String) :=
  SimplePath.search
    (fun current => (graph.neighbors traversal current).filter fun node => node ∉ exclude)
    goal maxLength start [start]

/-- `_find_backdoor_paths`, with the maximal length that `_find_all_paths` has by default. -/
def findBackdoorPaths (treatment outcome : String) : List (List String) :=
  (traversal.order (graph.getParents treatment)).flatMap fun parent =>
    (graph.findAllPaths traversal parent outcome [treatment] 10).map fun path => parent :: path

/-- Whether a node of a path blocks it. -/
def blocksPath (path adjustmentSet : List String) (treatment node : String) : Option Bool :=
  if node = treatment then some false
  else if graph.isColliderOnPath node path then
    (graph.getDescendants traversal [node]).map fun descendants =>
      !(decide (node ∈ adjustmentSet) || adjustmentSet.any fun other => other ∈ descendants)
  else some (decide (node ∈ adjustmentSet))

/-- `_is_path_blocked`, for the nodes of a path that are left. -/
def isPathBlockedFrom (path adjustmentSet : List String) (treatment : String) :
    List String → Option Bool
  | [] => some false
  | node :: rest => do
    let blocks ← graph.blocksPath traversal path adjustmentSet treatment node
    if blocks then some true else isPathBlockedFrom path adjustmentSet treatment rest

def isPathBlocked (path adjustmentSet : List String) (treatment : String) : Option Bool :=
  graph.isPathBlockedFrom traversal path adjustmentSet treatment path

/-- The first of the paths that are left that is not blocked. -/
def checkPaths (adjustmentSet : List String) (treatment : String) :
    List (List String) → Option (Bool × Reason)
  | [] => some (true, .valid)
  | path :: rest => do
    let blocked ← graph.isPathBlocked traversal path adjustmentSet treatment
    if blocked then checkPaths adjustmentSet treatment rest
    else some (false, .notBlocked path adjustmentSet)

def isValidAdjustmentSet (treatment outcome : String) (adjustmentSet : List String) :
    Option (Bool × Reason) := do
  let descendants ← graph.getDescendants traversal [treatment]
  match (traversal.order adjustmentSet).find? fun node =>
      node ∈ descendants ∧ node ≠ treatment with
  | some node => some (false, .descendant node treatment)
  | none =>
    graph.checkPaths traversal adjustmentSet treatment
      (graph.findBackdoorPaths traversal treatment outcome)

end Operations

/-- A call that adds to the graph. -/
inductive Call where
  | addNode (name : String) (observed : Bool)
  | addDirectedEdge (source target : String)
  | addBidirectedEdge (node1 node2 : String)

/-- The graph after a call. -/
def apply (graph : CausalGraph) : Call → CausalGraph
  | .addNode name observed => graph.addNode name observed
  | .addDirectedEdge source target => graph.addDirectedEdge source target
  | .addBidirectedEdge node1 node2 => graph.addBidirectedEdge node1 node2

/-- The graph that calls build. -/
def build (calls : List Call) : CausalGraph := calls.foldl apply init

variable {graph : CausalGraph} {calls : List Call} {source target node treatment outcome : String}
  {path adjustmentSet : List String}

/-! ## The arcs -/

/-- A node is a direct cause of another. -/
def Causes (graph : CausalGraph) (source target : String) : Prop :=
  ⟨source, target, .directed⟩ ∈ graph.edges

/-- The lists of children and parents are those of the directed edges, which are between nodes. -/
structure Agrees (graph : CausalGraph) : Prop where
  children : ∀ source target, target ∈ graph.getChildren source ↔ graph.Causes source target
  parents : ∀ source target, source ∈ graph.getParents target ↔ graph.Causes source target
  inside : ∀ source target, graph.Causes source target →
    source ∈ graph.nodes ∧ target ∈ graph.nodes

theorem mem_setAdd {α : Type} [DecidableEq α] {set : List α} {element other : α} :
    other ∈ setAdd set element ↔ other = element ∨ other ∈ set := by
  unfold setAdd
  split
  · next there => exact ⟨.inr, fun found => found.elim (fun same => same ▸ there) id⟩
  · rw [List.mem_append, List.mem_singleton, or_comm]

theorem mem_put_setAdd {sets : Dict String (List String)} {key element other member : String} :
    member ∈ ((sets.put key (setAdd ((sets.get key).getD []) element)).get other).getD [] ↔
      (other = key ∧ member = element) ∨ member ∈ (sets.get other).getD [] := by
  rw [Dict.get_put]
  by_cases same : other = key
  · rw [if_pos same, Option.getD_some, mem_setAdd, same, eq_self, true_and]
  · rw [if_neg same, or_iff_right fun both => same both.1]

theorem Agrees.apply (agrees : graph.Agrees) (call : Call) : (graph.apply call).Agrees := by
  obtain ⟨children, parents, inside⟩ := agrees
  cases call with
  | addNode name observed =>
    refine ⟨children, parents, fun source target causes => ?_⟩
    obtain ⟨left, right⟩ := inside source target causes
    exact ⟨mem_setAdd.mpr (.inr left), mem_setAdd.mpr (.inr right)⟩
  | addDirectedEdge first second =>
    have causes : ∀ source target, (graph.addDirectedEdge first second).Causes source target ↔
        (source = first ∧ target = second) ∨ graph.Causes source target := by
      intro source target
      show (⟨source, target, .directed⟩ : Edge) ∈ setAdd graph.edges _ ↔ _
      rw [mem_setAdd, Edge.mk.injEq]
      simp [Causes]
    refine ⟨fun source target => ?_, fun source target => ?_, fun source target caused => ?_⟩
    · refine Iff.trans mem_put_setAdd (Iff.trans (or_congr Iff.rfl (children source target)) ?_)
      exact (causes source target).symm
    · refine Iff.trans mem_put_setAdd (Iff.trans (or_congr and_comm (parents source target)) ?_)
      exact (causes source target).symm
    · show source ∈ setAdd (setAdd graph.nodes first) second ∧
        target ∈ setAdd (setAdd graph.nodes first) second
      simp only [mem_setAdd]
      obtain ⟨rfl, rfl⟩ | before := (causes source target).mp caused
      · exact ⟨.inr (.inl rfl), .inl rfl⟩
      · obtain ⟨left, right⟩ := inside source target before
        exact ⟨.inr (.inr left), .inr (.inr right)⟩
  | addBidirectedEdge first second =>
    have causes : ∀ source target, (graph.addBidirectedEdge first second).Causes source target ↔
        graph.Causes source target := by
      intro source target
      show (⟨source, target, .directed⟩ : Edge) ∈ setAdd graph.edges _ ↔ _
      rw [mem_setAdd, Edge.mk.injEq]
      simp [Causes]
    refine ⟨fun source target => (children source target).trans (causes source target).symm,
      fun source target => (parents source target).trans (causes source target).symm,
      fun source target caused => ?_⟩
    obtain ⟨left, right⟩ := inside source target ((causes source target).mp caused)
    exact ⟨mem_setAdd.mpr (.inr (mem_setAdd.mpr (.inr left))),
      mem_setAdd.mpr (.inr (mem_setAdd.mpr (.inr right)))⟩

/-- Every graph that is built keeps its two maps in agreement. -/
theorem agrees_build (calls : List Call) : (build calls).Agrees := by
  have folded : ∀ (graph : CausalGraph), graph.Agrees → (calls.foldl CausalGraph.apply graph).Agrees
      := by
    induction calls with
    | nil => exact fun graph agrees => agrees
    | cons call rest ih => exact fun graph agrees => ih (graph.apply call) (agrees.apply call)
  refine folded init ⟨fun source target => ?_, fun source target => ?_,
    fun source target caused => ?_⟩
  · exact iff_of_false List.not_mem_nil List.not_mem_nil
  · exact iff_of_false List.not_mem_nil List.not_mem_nil
  · cases caused

theorem causes_apply (graph : CausalGraph) (call : Call) (source target : String) :
    (graph.apply call).Causes source target ↔
      call = .addDirectedEdge source target ∨ graph.Causes source target := by
  cases call with
  | addNode name observed =>
    rw [or_iff_right nofun]
    exact Iff.rfl
  | addDirectedEdge first second =>
    refine Iff.trans mem_setAdd ?_
    rw [Edge.mk.injEq, Call.addDirectedEdge.injEq]
    simp [Causes, eq_comm]
  | addBidirectedEdge first second =>
    refine Iff.trans mem_setAdd ?_
    rw [Edge.mk.injEq, or_iff_right (by simp), or_iff_right nofun]
    exact Iff.rfl

theorem causes_build (calls : List Call) (source target : String) :
    (build calls).Causes source target ↔ .addDirectedEdge source target ∈ calls := by
  have folded : ∀ graph : CausalGraph, (calls.foldl CausalGraph.apply graph).Causes source target ↔
      .addDirectedEdge source target ∈ calls ∨ graph.Causes source target := by
    induction calls with
    | nil => exact fun graph => (or_iff_right List.not_mem_nil).symm
    | cons call rest ih =>
      intro graph
      rw [List.foldl_cons, ih, causes_apply, List.mem_cons, or_left_comm, ← or_assoc,
        eq_comm (a := call)]
  exact (folded init).trans (or_iff_left List.not_mem_nil)

/-! ## Ancestors and descendants -/

/-- `get_descendants` ends with what the nodes reach. -/
theorem Agrees.descendants (agrees : graph.Agrees) (traversal : Traversal String)
    {nodes : List String} (distinct : nodes.Nodup) :
    ∃ descendants, graph.getDescendants traversal nodes = some descendants ∧ descendants.Nodup ∧
      ∀ node, node ∈ descendants ↔ ∃ first ∈ nodes, ReflTransGen graph.Causes first node := by
  obtain ⟨closed, closes, nodup, exact_⟩ := @Saturation.close_spec _ _
    (fun node => traversal.order (graph.getChildren node)) nodes (nodes ++ graph.nodes)
    (graph.nodes.length + 1) traversal distinct
    (fun element member => List.mem_append_left _ member)
    (fun source _ element member => by
      rw [(traversal.perm _).mem_iff, agrees.children] at member
      exact List.mem_append_right _ (agrees.inside source element member).2)
    (by rw [List.length_append]; omega)
  refine ⟨closed, closes, nodup, fun node => ?_⟩
  rw [exact_]
  have arcs : (fun first second => second ∈ traversal.order (graph.getChildren first)) =
      graph.Causes := by
    funext first second
    rw [(traversal.perm _).mem_iff, agrees.children]
  rw [arcs]

theorem Agrees.ancestors (agrees : graph.Agrees) (traversal : Traversal String)
    {nodes : List String} (distinct : nodes.Nodup) :
    ∃ ancestors, graph.getAncestors traversal nodes = some ancestors ∧ ancestors.Nodup ∧
      ∀ node, node ∈ ancestors ↔ ∃ last ∈ nodes, ReflTransGen graph.Causes node last := by
  obtain ⟨closed, closes, nodup, exact_⟩ := @Saturation.close_spec _ _
    (fun node => traversal.order (graph.getParents node)) nodes (nodes ++ graph.nodes)
    (graph.nodes.length + 1) traversal distinct
    (fun element member => List.mem_append_left _ member)
    (fun source _ element member => by
      rw [(traversal.perm _).mem_iff, agrees.parents] at member
      exact List.mem_append_right _ (agrees.inside element source member).1)
    (by rw [List.length_append]; omega)
  refine ⟨closed, closes, nodup, fun node => ?_⟩
  rw [exact_]
  have arcs : (fun first second => second ∈ traversal.order (graph.getParents first)) =
      Function.swap graph.Causes := by
    funext first second
    rw [(traversal.perm _).mem_iff, agrees.parents]
  rw [arcs]
  simp only [reflTransGen_swap]

/-- In a graph that calls have built the ancestors and the descendants of a set, gone through in any
order, are exactly the nodes with a path of added arcs to and from it. -/
theorem reaches_exact (calls : List Call) (traversal : Traversal String) {nodes : List String}
    (distinct : nodes.Nodup) :
    ∃ ancestors descendants, (build calls).getAncestors traversal nodes = some ancestors ∧
      (build calls).getDescendants traversal nodes = some descendants ∧
      ancestors.Nodup ∧ descendants.Nodup ∧
      (∀ node, node ∈ ancestors ↔ ∃ last ∈ nodes,
        ReflTransGen (fun source target => .addDirectedEdge source target ∈ calls) node last) ∧
      ∀ node, node ∈ descendants ↔ ∃ first ∈ nodes,
        ReflTransGen (fun source target => .addDirectedEdge source target ∈ calls) first node := by
  have agrees := agrees_build calls
  have causes : (build calls).Causes =
      fun source target => .addDirectedEdge source target ∈ calls := by
    funext source target
    rw [causes_build]
  obtain ⟨ancestors, up, upOnce, above⟩ := agrees.ancestors traversal distinct
  obtain ⟨descendants, down, downOnce, below⟩ := agrees.descendants traversal distinct
  rw [causes] at above below
  exact ⟨ancestors, descendants, up, down, upOnce, downOnce, above, below⟩

/-- A sentiment that drives a supply shock and, through it and directly, a price. -/
def confounded : List Call :=
  [.addNode "Market_Sentiment" true, .addDirectedEdge "Market_Sentiment" "Supply_Shock",
    .addDirectedEdge "Market_Sentiment" "Price_Impact",
    .addDirectedEdge "Supply_Shock" "Price_Impact"]

/-- A set gone through as it is listed. -/
def asListed : Traversal String := ⟨fun elements => elements, fun elements => .refl elements⟩

/-- What the supply shock causes and what causes it. -/
theorem reaches_shock : ∃ ancestors descendants,
    (build confounded).getAncestors asListed ["Supply_Shock"] = some ancestors ∧
      (build confounded).getDescendants asListed ["Supply_Shock"] = some descendants ∧
      "Market_Sentiment" ∈ ancestors ∧ "Price_Impact" ∈ descendants := by
  obtain ⟨ancestors, descendants, up, down, -, -, above, below⟩ :=
    reaches_exact confounded asListed (List.nodup_singleton "Supply_Shock")
  refine ⟨ancestors, descendants, up, down, ?_, ?_⟩
  · rw [above]
    exact ⟨"Supply_Shock", List.mem_cons_self, .single (by simp [confounded])⟩
  · rw [below]
    exact ⟨"Supply_Shock", List.mem_cons_self, .single (by simp [confounded])⟩

/-! ## Blocked paths -/

/-- A position of a path at which the arcs of both neighbours meet. -/
def ColliderAt (graph : CausalGraph) (path : List String) (position : Nat) : Prop :=
  ∃ before prev node next, position = before + 1 ∧ path[before]? = some prev ∧
    path[before + 1]? = some node ∧ path[before + 2]? = some next ∧
      graph.Causes prev node ∧ graph.Causes next node

/-- A node of a path blocks it: one where arcs meet if it causes nothing in the set, another one if
it is in the set. -/
def BlocksAt (graph : CausalGraph) (path adjustmentSet : List String) (treatment : String)
    (position : Nat) (node : String) : Prop :=
  path[position]? = some node ∧ node ≠ treatment ∧
    (graph.ColliderAt path position ∧
        (∀ other ∈ adjustmentSet, ¬ ReflTransGen graph.Causes node other) ∨
      ¬ graph.ColliderAt path position ∧ node ∈ adjustmentSet)

/-- Some node of a path blocks it. -/
def Blocked (graph : CausalGraph) (path adjustmentSet : List String) (treatment : String) : Prop :=
  ∃ position node, graph.BlocksAt path adjustmentSet treatment position node

theorem Agrees.isColliderOnPath_iff (agrees : graph.Agrees) (simple : path.Nodup)
    (first : path.head? = some source) {position : Nat} (here : path[position]? = some node) :
    graph.isColliderOnPath node (source :: path) = true ↔ graph.ColliderAt path position := by
  obtain ⟨inside, at_⟩ := List.getElem?_eq_some_iff.mp here
  have index : path.idxOf node = position := by
    rw [← at_, simple.idxOf_getElem]
  have head : path[0]? = some source := by rw [← List.head?_eq_getElem?, first]
  have member : node ∈ source :: path :=
    List.mem_cons_of_mem source (List.mem_of_getElem? here)
  cases position with
  | zero =>
    have same : node = source := Option.some.inj (here.symm.trans head)
    have zero : (source :: path).idxOf node = 0 := by rw [same, List.idxOf_cons_self]
    refine iff_of_false ?_ fun ⟨before, _, _, _, next, _⟩ => Nat.succ_ne_zero before next.symm
    unfold isColliderOnPath
    simp [zero]
  | succ before =>
    have other : source ≠ node := by
      intro same
      have start : path.idxOf node = 0 := by
        rw [← same]
        obtain ⟨inside_, at_⟩ := List.getElem?_eq_some_iff.mp head
        rw [← at_, simple.idxOf_getElem]
      omega
    have shifted : (source :: path).idxOf node = before + 2 := by
      rw [List.idxOf_cons_ne _ other, index]
    have prev : path[before]? = some path[before] := List.getElem?_eq_getElem (by omega)
    unfold isColliderOnPath
    simp only [member, not_true_eq_false, false_or, shifted, List.length_cons,
      Nat.add_one_sub_one, List.getElem?_cons_succ]
    rw [if_neg (by omega)]
    cases after : path[before + 2]? with
    | none =>
      have last : path.length ≤ before + 2 := List.getElem?_eq_none_iff.mp after
      rw [if_pos (by omega)]
      refine iff_of_false Bool.false_ne_true ?_
      rintro ⟨other, _, _, next, same, _, _, there, _⟩
      obtain rfl : before = other := by omega
      cases after.symm.trans there
    | some next =>
      have more := (List.getElem?_eq_some_iff.mp after).1
      rw [if_neg (by omega)]
      simp only [prev, decide_eq_true_iff, agrees.children]
      constructor
      · intro ⟨left, right⟩
        exact ⟨before, _, node, next, rfl, prev, here, after, left, right⟩
      · rintro ⟨other, first_, node_, next_, same, one, two, three, left, right⟩
        obtain rfl : before = other := by omega
        cases prev.symm.trans one
        cases here.symm.trans two
        cases after.symm.trans three
        exact ⟨left, right⟩

theorem Agrees.blocksPath_iff (agrees : graph.Agrees) (traversal : Traversal String)
    (simple : path.Nodup) (first : path.head? = some source) {position : Nat}
    (here : path[position]? = some node) :
    ∃ blocks, graph.blocksPath traversal (source :: path) adjustmentSet treatment node =
        some blocks ∧
      (blocks = true ↔ graph.BlocksAt path adjustmentSet treatment position node) := by
  unfold blocksPath BlocksAt
  by_cases treated : node = treatment
  · exact ⟨false, if_pos treated, by simp [treated]⟩
  · rw [if_neg treated]
    by_cases collider : graph.ColliderAt path position
    · rw [if_pos ((agrees.isColliderOnPath_iff simple first here).mpr collider)]
      obtain ⟨descendants, found, -, reached⟩ :=
        agrees.descendants traversal (List.nodup_singleton node)
      refine ⟨_, by rw [found]; rfl, ?_⟩
      simp only [List.mem_singleton, exists_eq_left] at reached
      simp only [Bool.not_eq_true', Bool.or_eq_false_iff, decide_eq_false_iff_not,
        List.any_eq_false, decide_eq_true_iff, reached, here, collider, true_and, not_true_eq_false,
        false_and, or_false, ne_eq, treated, not_false_eq_true]
      exact and_iff_right_of_imp fun apart member => apart node member .refl
    · rw [if_neg (by rw [agrees.isColliderOnPath_iff simple first here]; exact collider)]
      exact ⟨_, rfl, by simp [here, collider, treated]⟩

theorem Agrees.isPathBlocked_iff (agrees : graph.Agrees) (traversal : Traversal String)
    (simple : path.Nodup) (first : path.head? = some source) :
    ∃ blocked, graph.isPathBlocked traversal (source :: path) adjustmentSet treatment =
        some blocked ∧ (blocked = true ↔ graph.Blocked path adjustmentSet treatment) := by
  have nodes : ∀ nodes : List String, (∀ node ∈ nodes, node ∈ path) →
      ∃ blocked, graph.isPathBlockedFrom traversal (source :: path) adjustmentSet treatment nodes =
          some blocked ∧ (blocked = true ↔ ∃ node ∈ nodes, ∃ position,
            graph.BlocksAt path adjustmentSet treatment position node) := by
    intro nodes inside
    induction nodes with
    | nil => exact ⟨false, rfl, by simp⟩
    | cons node rest ih =>
      obtain ⟨onPath, later⟩ := List.forall_mem_cons.mp inside
      obtain ⟨position, bound, at_⟩ := List.getElem_of_mem onPath
      have here : path[position]? = some node := List.getElem?_eq_some_iff.mpr ⟨bound, at_⟩
      have only : ∀ other, graph.BlocksAt path adjustmentSet treatment other node →
          other = position := by
        intro other blocks
        obtain ⟨bound_, same⟩ := List.getElem?_eq_some_iff.mp blocks.1
        exact (List.Nodup.getElem_inj_iff simple).mp (same.trans at_.symm)
      obtain ⟨blocks, tested, exact_⟩ :=
        @Agrees.blocksPath_iff _ _ _ treatment _ adjustmentSet agrees traversal simple first _ here
      obtain ⟨blocked, rested, exact_'⟩ := ih later
      rw [isPathBlockedFrom, tested]
      cases blocks with
      | true =>
        exact ⟨true, rfl, iff_of_true rfl ⟨node, List.mem_cons_self, position, exact_.mp rfl⟩⟩
      | false =>
        refine ⟨blocked, rested, exact_'.trans ⟨fun ⟨other, member, found⟩ =>
          ⟨other, List.mem_cons_of_mem node member, found⟩, ?_⟩⟩
        rintro ⟨other, member, place, found⟩
        obtain rfl | after := List.mem_cons.mp member
        · obtain rfl := only place found
          cases exact_.mpr found
        · exact ⟨other, after, place, found⟩
  have head : source ∈ path := List.mem_of_head? first
  obtain ⟨blocked, tested, exact_⟩ := nodes (source :: path)
    (List.forall_mem_cons.mpr ⟨head, fun node member => member⟩)
  refine ⟨blocked, tested, exact_.trans ⟨fun ⟨node, _, position, blocks⟩ =>
    ⟨position, node, blocks⟩, fun ⟨position, node, blocks⟩ => ⟨node, ?_, position, blocks⟩⟩⟩
  exact List.mem_cons_of_mem source (List.mem_of_getElem? blocks.1)

/-! ## Adjustment sets -/

/-- A path from a cause of the treatment to the outcome, along arcs in either direction, that meets
no node twice and avoids the treatment after its start, of at most ten nodes. -/
def Backdoor (graph : CausalGraph) (treatment outcome : String) (path : List String) : Prop :=
  ∃ parent, graph.Causes parent treatment ∧ path.length ≤ 10 ∧ path.head? = some parent ∧
    path.getLast? = some outcome ∧ path.Nodup ∧ path.IsChain fun first second =>
      (graph.Causes first second ∨ graph.Causes second first) ∧ second ≠ treatment

/-- The backdoor criterion, for paths of at most ten nodes. -/
structure BackdoorCriterion (graph : CausalGraph) (treatment outcome : String)
    (adjustmentSet : List String) : Prop where
  /-- The set has no other node that the treatment causes. -/
  notCaused : ∀ node ∈ adjustmentSet, node ≠ treatment →
    ¬ ReflTransGen graph.Causes treatment node
  /-- Every backdoor path is blocked. -/
  blocked : ∀ path, graph.Backdoor treatment outcome path →
    graph.Blocked path adjustmentSet treatment

/-- What a reason says of the set is true. -/
def Justified (graph : CausalGraph) (treatment outcome : String) (adjustmentSet : List String) :
    Reason → Prop
  | .descendant node _ =>
    node ∈ adjustmentSet ∧ node ≠ treatment ∧ ReflTransGen graph.Causes treatment node
  | .notBlocked listed _ => ∃ parent path, listed = parent :: path ∧
    graph.Backdoor treatment outcome path ∧ ¬ graph.Blocked path adjustmentSet treatment
  | .valid => graph.BackdoorCriterion treatment outcome adjustmentSet

theorem Agrees.mem_findBackdoorPaths (agrees : graph.Agrees) (traversal : Traversal String)
    {listed : List String} :
    listed ∈ graph.findBackdoorPaths traversal treatment outcome ↔
      ∃ parent path, listed = parent :: path ∧ path.head? = some parent ∧
        graph.Backdoor treatment outcome path := by
  have steps : ∀ first second, second ∈ (graph.neighbors traversal first).filter (fun node =>
      decide (node ∉ [treatment])) ↔
        (graph.Causes first second ∨ graph.Causes second first) ∧ second ≠ treatment := by
    intro first second
    rw [List.mem_filter, neighbors, (traversal.perm _).mem_iff, List.mem_union_iff,
      agrees.children, agrees.parents]
    simp
  unfold findBackdoorPaths findAllPaths Backdoor
  simp only [List.mem_flatMap, List.mem_map, (traversal.perm _).mem_iff, agrees.parents,
    SimplePath.mem_search_start]
  constructor
  · rintro ⟨parent, causes, path, ⟨⟨first, last, chain, simple⟩, short⟩, rfl⟩
    simp only [steps] at chain
    exact ⟨parent, path, rfl, first, parent, causes, short, first, last, simple, chain⟩
  · rintro ⟨parent, path, rfl, first, other, causes, short, again, last, simple, chain⟩
    cases first.symm.trans again
    refine ⟨parent, causes, path, ⟨⟨first, last, ?_, simple⟩, short⟩, rfl⟩
    simpa only [steps] using chain

/-- The check of the paths that are left answers whether all of them are blocked, and names one that
is not. -/
theorem Agrees.checkPaths_spec (agrees : graph.Agrees) (traversal : Traversal String)
    {paths : List (List String)} (listed : ∀ path ∈ paths, ∃ parent rest,
      path = parent :: rest ∧ rest.head? = some parent ∧ graph.Backdoor treatment outcome rest) :
    ∃ valid reason, graph.checkPaths traversal adjustmentSet treatment paths =
        some (valid, reason) ∧
      (valid = true ∧ reason = .valid ∧ (∀ parent path, parent :: path ∈ paths →
        graph.Blocked path adjustmentSet treatment) ∨
      valid = false ∧ ∃ parent path, reason = .notBlocked (parent :: path) adjustmentSet ∧
        graph.Backdoor treatment outcome path ∧
          ¬ graph.Blocked path adjustmentSet treatment) := by
  induction paths with
  | nil => exact ⟨true, .valid, rfl, .inl ⟨rfl, rfl, nofun⟩⟩
  | cons path rest ih =>
    obtain ⟨⟨parent, inner, rfl, first, backdoor⟩, later⟩ := List.forall_mem_cons.mp listed
    obtain ⟨blocked, tested, exact_⟩ := @Agrees.isPathBlocked_iff _ _ treatment _ adjustmentSet
      agrees traversal backdoor.choose_spec.2.2.2.2.1 first
    rw [checkPaths, tested]
    cases blocked with
    | true =>
      obtain ⟨valid, reason, checked, spec⟩ := ih later
      refine ⟨valid, reason, checked, spec.imp (fun ⟨yes, why, all⟩ => ⟨yes, why, ?_⟩) id⟩
      intro other path member
      obtain same | after := List.mem_cons.mp member
      · obtain ⟨rfl, rfl⟩ := List.cons.inj same
        exact exact_.mp rfl
      · exact all other path after
    | false =>
      refine ⟨false, _, rfl, .inr ⟨rfl, parent, inner, rfl, backdoor, fun is => ?_⟩⟩
      cases exact_.mpr is

/-- The check of a set answers whether it meets the backdoor criterion, with a reason that is true.
-/
theorem Agrees.isValidAdjustmentSet_spec (agrees : graph.Agrees) (traversal : Traversal String)
    (treatment outcome : String) (adjustmentSet : List String) :
    ∃ valid reason, graph.isValidAdjustmentSet traversal treatment outcome adjustmentSet =
        some (valid, reason) ∧
      (valid = true ↔ graph.BackdoorCriterion treatment outcome adjustmentSet) ∧
      (valid = true ↔ reason = .valid) ∧
      graph.Justified treatment outcome adjustmentSet reason := by
  obtain ⟨descendants, found, -, reached⟩ :=
    agrees.descendants traversal (List.nodup_singleton treatment)
  simp only [List.mem_singleton, exists_eq_left] at reached
  unfold isValidAdjustmentSet
  simp only [found, Option.bind_eq_bind, Option.bind_some]
  cases offending : (traversal.order adjustmentSet).find? fun node =>
      decide (node ∈ descendants ∧ node ≠ treatment) with
  | some node =>
    have caused : node ∈ descendants ∧ node ≠ treatment := by
      simpa using List.find?_some offending
    have member : node ∈ adjustmentSet :=
      (traversal.perm _).mem_iff.mp (List.mem_of_find?_eq_some offending)
    have reaches := (reached node).mp caused.1
    refine ⟨false, _, rfl, iff_of_false Bool.false_ne_true fun criterion => ?_,
      by simp, member, caused.2, reaches⟩
    exact criterion.notCaused node member caused.2 reaches
  | none =>
    have free : ∀ node ∈ adjustmentSet, node ≠ treatment →
        ¬ ReflTransGen graph.Causes treatment node := by
      intro node member other reaches
      have missed := List.find?_eq_none.mp offending node ((traversal.perm _).mem_iff.mpr member)
      exact missed (decide_eq_true ⟨(reached node).mpr reaches, other⟩)
    obtain ⟨valid, reason, checked, spec⟩ := @Agrees.checkPaths_spec _ treatment outcome
      adjustmentSet agrees traversal (graph.findBackdoorPaths traversal treatment outcome)
      fun path member => (agrees.mem_findBackdoorPaths traversal).mp member
    refine ⟨valid, reason, checked, ?_⟩
    obtain ⟨rfl, rfl, all⟩ | ⟨rfl, parent, path, rfl, backdoor, open_⟩ := spec
    · have criterion : graph.BackdoorCriterion treatment outcome adjustmentSet := by
        refine ⟨free, fun path backdoor => ?_⟩
        obtain ⟨parent, causes, short, first, rest⟩ := backdoor
        exact all parent path ((agrees.mem_findBackdoorPaths traversal).mpr
          ⟨parent, path, rfl, first, parent, causes, short, first, rest⟩)
      exact ⟨iff_of_true rfl criterion, iff_of_true rfl rfl, criterion⟩
    · refine ⟨iff_of_false Bool.false_ne_true fun criterion => ?_, by simp, parent, path, rfl,
        backdoor, open_⟩
      exact open_ (criterion.blocked path backdoor)

end CausalGraph

end TradingBot.Causal
