import Mathlib.Data.Prod.Lex
import Mathlib.Data.String.Basic
import Rem6.Lib.CycleSearch
import Rem6.Lib.Run
import Rem6.Lib.SortedMap

/-!
# The Wait-For Graph

Who waits for whom: partitions, components, resources and transactions are the
nodes, and an edge of some kind stands for a wait that was observed, with the
ticks of its first and last observation. Edges are kept in a map ordered by
source, target and kind.

The graph answers whether there is a deadlock by looking for a cycle, from every
node in turn and with one set of finished nodes for all of them. The search is
the one of `Rem6.Lib.CycleSearch`; `deadlockDiagnostic_spec` reads its
correctness back as a statement about the graph.

Node labels are plain strings here: the graph never looks into one. An edge that
is observed more often than a word can count is out of reach.

## Main definitions

* `WaitForNode`, `WaitForEdge`, `WaitForGraph`: Nodes, waits and the graph.
* `WaitForGraph.recordWait`, `removeWait`, `clearWaitsFrom`, `clearWaitsTo`: The
  calls that change it.
* `WaitForGraph.deadlockDiagnostic`: The search.

## Theorems

* `deadlockDiagnostic_spec`: A deadlock is reported exactly when waits form a
  cycle, and what is reported is one.
-/

namespace Rem6.Kernel

open Lib SortedMap CycleSearch

inductive WaitForNode where
  | partition (index : Nat)
  | component (label : String)
  | resource (label : String)
  | transaction (label : String)
deriving DecidableEq, Repr

/-- Variants in the order of their declaration, then what they carry. -/
def WaitForNode.orderKey : WaitForNode → Nat ×ₗ Nat ×ₗ String
  | .partition index => toLex (0, toLex (index, ""))
  | .component label => toLex (1, toLex (0, label))
  | .resource label => toLex (2, toLex (0, label))
  | .transaction label => toLex (3, toLex (0, label))

theorem WaitForNode.orderKey_injective : Function.Injective WaitForNode.orderKey := by
  intro a b h
  cases a <;> cases b <;> simp [WaitForNode.orderKey] at h ⊢
  all_goals exact h

instance : LinearOrder WaitForNode :=
  LinearOrder.lift' WaitForNode.orderKey WaitForNode.orderKey_injective

inductive WaitForEdgeKind where
  | resource | message | protocol | queue | credit | hostAction | barrier
deriving DecidableEq, Repr

def WaitForEdgeKind.orderKey : WaitForEdgeKind → Nat
  | .resource => 0
  | .message => 1
  | .protocol => 2
  | .queue => 3
  | .credit => 4
  | .hostAction => 5
  | .barrier => 6

instance : LinearOrder WaitForEdgeKind :=
  LinearOrder.lift' WaitForEdgeKind.orderKey (by intro a b h; cases a <;> cases b <;> trivial)

/-- A wait of one node for another. -/
structure WaitForEdge where
  (source target : WaitForNode)
  kind : WaitForEdgeKind
  (firstObservedTick lastObservedTick observationCount : Nat)
deriving DecidableEq, Repr

open WaitForEdge

namespace WaitForEdge

def new (source target : WaitForNode) (kind : WaitForEdgeKind) (tick : Nat) : WaitForEdge :=
  ⟨source, target, kind, tick, tick, 1⟩

def observe (edge : WaitForEdge) (tick : Nat) : WaitForEdge :=
  { edge with
    firstObservedTick := min edge.firstObservedTick tick
    lastObservedTick := max edge.lastObservedTick tick
    observationCount := edge.observationCount + 1 }

/-- What the graph keeps its edges by. -/
def key (edge : WaitForEdge) : WaitForNode ×ₗ WaitForNode ×ₗ WaitForEdgeKind :=
  toLex (edge.source, toLex (edge.target, edge.kind))

end WaitForEdge

structure DeadlockDiagnostic where
  cycleEdges : List WaitForEdge
  cycleNodes : List WaitForNode
  edgeKinds : List WaitForEdgeKind
  (firstObservedTick lastObservedTick : Nat)
deriving DecidableEq, Repr

/-- The nodes are listed along the cycle and end where they began. -/
def DeadlockDiagnostic.new (cycleEdges : List WaitForEdge) : DeadlockDiagnostic where
  cycleEdges
  cycleNodes := (cycleEdges.head?.map (·.source)).toList ++ cycleEdges.map (·.target)
  edgeKinds := cycleEdges.map (·.kind)
  firstObservedTick := (cycleEdges.map (·.firstObservedTick)).min?.getD 0
  lastObservedTick := (cycleEdges.map (·.lastObservedTick)).max?.getD 0

inductive WaitForGraphError where
  | selfWait
deriving DecidableEq, Repr

structure WaitForGraph where
  edges : List WaitForEdge
  sorted : Sorted key edges

namespace WaitForGraph

def new : WaitForGraph := ⟨[], List.Pairwise.nil⟩

variable (graph : WaitForGraph)

/-- A wait that is there already is observed once more. -/
def recordWait (source target : WaitForNode) (kind : WaitForEdgeKind) (tick : Nat) :
    Except WaitForGraphError WaitForGraph :=
  if source = target then .error .selfWait
  else
    let edge := WaitForEdge.new source target kind tick
    if graph.edges.any fun stored => stored.key = edge.key then
      .ok {
        edges := graph.edges.map fun stored =>
          if stored.key = edge.key then stored.observe tick else stored
        sorted := sorted_map graph.sorted fun stored => by split <;> rfl }
    else .ok ⟨insert key edge graph.edges, sorted_insert graph.sorted edge⟩

/-- Keep the edges that pass a test. -/
def retain (keep : WaitForEdge → Bool) : WaitForGraph :=
  ⟨graph.edges.filter keep, sorted_filter graph.sorted keep⟩

def removeWait (source target : WaitForNode) (kind : WaitForEdgeKind) : WaitForGraph :=
  graph.retain fun edge => edge.key ≠ toLex (source, toLex (target, kind))

def clearWaitsFrom (source : WaitForNode) : WaitForGraph :=
  graph.retain fun edge => edge.source ≠ source

def clearWaitsTo (target : WaitForNode) : WaitForGraph :=
  graph.retain fun edge => edge.target ≠ target

/-- The nodes of the edges, each once and in order. -/
def nodes : List WaitForNode :=
  (graph.edges.flatMap fun edge => [edge.source, edge.target]).foldl
    (fun found node => insert id node found) []

def deadlockDiagnostic : Option DeadlockDiagnostic :=
  match search source target graph.edges (graph.nodes.length + 1) graph.nodes [] with
  | some (some cycle) => some (.new cycle)
  | _ => none

end WaitForGraph

inductive WaitForCall where
  | recordWait (source target : WaitForNode) (kind : WaitForEdgeKind) (tick : Nat)
  | removeWait (source target : WaitForNode) (kind : WaitForEdgeKind)
  | clearWaitsFrom (source : WaitForNode)
  | clearWaitsTo (target : WaitForNode)
deriving DecidableEq, Repr

namespace WaitForGraph

variable (graph : WaitForGraph)

/-- The graph after a call. A refused wait leaves it as it was. -/
def next : WaitForCall → WaitForGraph
  | .recordWait source target kind tick =>
    match graph.recordWait source target kind tick with
    | .ok graph' => graph'
    | .error _ => graph
  | .removeWait source target kind => graph.removeWait source target kind
  | .clearWaitsFrom source => graph.clearWaitsFrom source
  | .clearWaitsTo target => graph.clearWaitsTo target

/-- One node waits for another. -/
def Waits : WaitForNode → WaitForNode → Prop := Step source target graph.edges

theorem waits_recordWait {source target} (hne : source ≠ target) (graph : WaitForGraph)
    (kind : WaitForEdgeKind) (tick : Nat) (a b : WaitForNode) :
    (graph.next (.recordWait source target kind tick)).Waits a b ↔
      graph.Waits a b ∨ a = source ∧ b = target := by
  have hsame : ∀ edge : WaitForEdge,
      (if edge.key = (WaitForEdge.new source target kind tick).key then edge.observe tick
        else edge).source = edge.source ∧
      (if edge.key = (WaitForEdge.new source target kind tick).key then edge.observe tick
        else edge).target = edge.target := by
    intro edge
    split <;> exact ⟨rfl, rfl⟩
  simp only [next, recordWait, if_neg hne, Waits, Step]
  by_cases hstr : graph.edges.any
      fun stored => stored.key = (WaitForEdge.new source target kind tick).key
  · obtain ⟨stored, hmem, hkey⟩ := List.any_eq_true.1 hstr
    have hkey := of_decide_eq_true hkey
    simp only [hstr, if_true, List.mem_map, exists_exists_and_eq_and, hsame]
    refine ⟨.inl, fun h => h.elim id ?_⟩
    rintro ⟨rfl, rfl⟩
    exact ⟨stored, hmem, congrArg (fun key => (ofLex key).1) hkey,
      congrArg (fun key => (ofLex (ofLex key).2).1) hkey⟩
  · simp only [if_neg hstr, mem_insert graph.sorted]
    constructor
    · rintro ⟨edge, rfl | ⟨hmem, -⟩, rfl, rfl⟩
      · exact .inr ⟨rfl, rfl⟩
      · exact .inl ⟨edge, hmem, rfl, rfl⟩
    · rintro (⟨edge, hmem, hends⟩ | ⟨rfl, rfl⟩)
      · refine ⟨edge, .inr ⟨hmem, fun hkey => hstr ?_⟩, hends⟩
        exact List.any_eq_true.2 ⟨edge, hmem, decide_eq_true hkey⟩
      · exact ⟨_, .inl rfl, rfl, rfl⟩

theorem mem_collected {node} (found collected : List WaitForNode) (hsorted : Sorted id collected) :
    (node ∈ found.foldl (fun set node => insert id node set) collected ↔
        node ∈ collected ∨ node ∈ found) := by
  induction found generalizing collected with
  | nil => simp
  | cons head rest ih =>
    rw [List.foldl_cons, ih _ (sorted_insert hsorted head), mem_insert hsorted, List.mem_cons]
    by_cases h : node = head
    · simp [h]
    · simp [h, id_eq]

theorem mem_nodes {node} :
    node ∈ graph.nodes ↔ ∃ edge ∈ graph.edges, node = edge.source ∨ node = edge.target := by
  rw [nodes, mem_collected _ _ List.Pairwise.nil]
  simp

/-- Every node that waits for itself, over whatever ways, is a node of the
    graph. -/
theorem mem_nodes_of_waits {node} (h : Relation.TransGen graph.Waits node node) :
    node ∈ graph.nodes := by
  rcases Relation.TransGen.head'_iff.mp h with ⟨next, ⟨edge, hedge, hsrc, -⟩, -⟩
  exact graph.mem_nodes.mpr ⟨edge, hedge, .inl hsrc.symm⟩

/-- The search finds a cycle or there is none. -/
theorem deadlockDiagnostic_cases :
    (∃ cycle, graph.deadlockDiagnostic = some (.new cycle) ∧
      IsCycle source target graph.edges cycle) ∨
    graph.deadlockDiagnostic = none ∧ ∀ node, ¬ Relation.TransGen graph.Waits node node := by
  have htar : ∀ edge ∈ graph.edges, edge.target ∈ graph.nodes := fun edge hedge =>
    graph.mem_nodes.mpr ⟨edge, hedge, .inr rfl⟩
  unfold deadlockDiagnostic
  rcases search_spec htar (Nat.lt_succ_self _) graph.nodes []
    (List.Subset.refl _) .nil with ⟨cycle, hfound, hcyc⟩ | ⟨hnone, finished, hpost, -, hall⟩
  · rw [hfound]
    exact .inl ⟨cycle, rfl, hcyc⟩
  · rw [hnone]
    exact .inr ⟨rfl, fun node hnode => hpost.acyclic (hall (graph.mem_nodes_of_waits hnode)) hnode⟩

/-- In every graph that calls can build, a deadlock is reported exactly when some
    node waits for itself, and the edges of the report are waits of the graph
    that form a simple cycle. -/
theorem deadlockDiagnostic_spec (calls : List WaitForCall) :
    ((run next new calls).deadlockDiagnostic.isSome ↔
      ∃ node, Relation.TransGen (run next new calls).Waits node node) ∧
    ∀ diagnostic, (run next new calls).deadlockDiagnostic = some diagnostic →
      IsCycle source target (run next new calls).edges diagnostic.cycleEdges := by
  generalize run next new calls = graph
  rcases graph.deadlockDiagnostic_cases with ⟨cycle, hfound, hcycle⟩ | ⟨hnone, hacyclic⟩
  · rw [hfound]
    refine ⟨⟨fun _ => hcycle.transGen, fun _ => rfl⟩, fun diagnostic h => ?_⟩
    cases h
    exact hcycle
  · rw [hnone]
    refine ⟨⟨fun h => absurd h (by simp), ?_⟩, fun diagnostic h => ?_⟩
    · rintro ⟨node, hnode⟩
      exact absurd hnode (hacyclic node)
    · cases h

end WaitForGraph

end Rem6.Kernel
