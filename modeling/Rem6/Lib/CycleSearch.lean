import Mathlib.Data.List.Chain
import Mathlib.Data.List.Nodup
import Mathlib.Data.List.Perm.Subperm
import Mathlib.Logic.Relation

/-!
# Searching a Graph for a Cycle

Depth-first search over a list of edges. The search keeps the path it is on, as
nodes and as edges, and the set of nodes it is done with. An edge back to a node
of the path closes a cycle, and the search returns the edges from that node on.
A node whose edges all lead to nothing is finished and never entered again.

Completeness rests on the order in which nodes are finished. Every edge out of a
finished node leads to a node that was finished before it, so the finished nodes
are listed against the direction of the edges (`Postorder`), and no cycle runs
through them. Soundness is that of the path: it follows edges, and its nodes are
distinct.

The recursion is bounded by fuel. A path has no more nodes than the graph, so
one unit for each node and one more is enough.

## Main definitions

* `Step`: Some edge leads from a node to another.
* `IsCycle`: Edges that follow each other, through distinct nodes, back to where
  they began.
* `searchEdges`, `searchFrom`, `search`: The search, one node after another.
* `Postorder`: A list of nodes whose edges all lead further down the list.

## Theorems

* `Postorder.acyclic`: Nodes listed that way are on no cycle.
* `Path.cycle`: An edge back to the path closes a cycle.
* `search_spec`: The search finds a cycle, or the graph has none.
-/

namespace Rem6.Lib

open List

namespace CycleSearch

variable {ν ε : Type} [DecidableEq ν] (source target : ε → ν) (edges : List ε)

/-- Some edge leads from one node to the other. -/
def Step (a b : ν) : Prop := ∃ edge ∈ edges, source edge = a ∧ target edge = b

/-- Edges of the graph that follow each other, through distinct nodes, back to
    the node they began at. -/
structure IsCycle (cycle : List ε) : Prop where
  ne_nil : cycle ≠ []
  stored : ∀ edge ∈ cycle, edge ∈ edges
  chained : cycle.IsChain fun edge next => target edge = source next
  closed : ∀ first ∈ cycle.head?, ∀ last ∈ cycle.getLast?, target last = source first
  simple : (cycle.map source).Nodup

/-- What a search comes back with: a cycle, if it found one, and the nodes it
    has finished. -/
abbrev Outcome (ν ε : Type) := Option (List ε) × List ν

/-- Try the edges out of the last node of the path. -/
def searchEdges (visit : ν → List ε → List ν → Option (Outcome ν ε)) (pathNodes : List ν)
    (pathEdges : List ε) : List ε → List ν → Option (Outcome ν ε)
  | [], finished => some (none, finished)
  | edge :: rest, finished =>
    match pathNodes.idxOf? (target edge) with
    | some index => some (some (pathEdges.drop index ++ [edge]), finished)
    | none =>
      match visit (target edge) (pathEdges ++ [edge]) finished with
      | some (none, finished) => searchEdges visit pathNodes pathEdges rest finished
      | outcome => outcome

/-- Search from a node that a path arrives at, none when the fuel runs out. -/
def searchFrom : Nat → ν → List ν → List ε → List ν → Option (Outcome ν ε)
  | 0, _, _, _, _ => none
  | fuel + 1, node, pathNodes, pathEdges, finished =>
    if node ∈ finished then some (none, finished)
    else
      match searchEdges target
          (fun next path finished => searchFrom fuel next (pathNodes ++ [node]) path finished)
          (pathNodes ++ [node]) pathEdges (edges.filter fun edge => source edge = node)
          finished with
      | some (none, finished) => some (none, node :: finished)
      | outcome => outcome

/-- Search from every node in turn, with the finished nodes of the searches
    before. -/
def search (fuel : Nat) : List ν → List ν → Option (Option (List ε))
  | [], _ => some none
  | node :: rest, finished =>
    match searchFrom source target edges fuel node [] [] finished with
    | none => none
    | some (some cycle, _) => some (some cycle)
    | some (none, finished) => search fuel rest finished

variable {source target edges}

/-! ## Finished nodes -/

variable (source target edges) in
/-- Every edge out of a node leads to one further down the list. -/
inductive Postorder : List ν → Prop
  | nil : Postorder []
  | cons {node : ν} {finished : List ν} : node ∉ finished →
      (∀ edge ∈ edges, source edge = node → target edge ∈ finished) →
      Postorder finished → Postorder (node :: finished)

namespace Postorder

variable {finished : List ν}

variable {a b : ν}

omit [DecidableEq ν] in
theorem closed (h : Postorder source target edges finished) (ha : a ∈ finished)
    (hstep : Step source target edges a b) : b ∈ finished := by
  induction h with
  | nil => cases ha
  | cons _ hedg _ ih =>
    refine mem_cons_of_mem _ ?_
    rcases mem_cons.mp ha with rfl | ha
    · rcases hstep with ⟨edge, hedge, hsrc, rfl⟩
      exact hedg edge hedge hsrc
    · exact ih ha

omit [DecidableEq ν] in
theorem closed_trans (h : Postorder source target edges finished) (ha : a ∈ finished)
    (hway : Relation.TransGen (Step source target edges) a b) : b ∈ finished := by
  induction hway with
  | single hstep => exact h.closed ha hstep
  | tail _ hstep ih => exact h.closed ih hstep

omit [DecidableEq ν] in
/-- No way leads from a listed node back to it: after the first step it is in
    the part of the list below. -/
theorem acyclic (h : Postorder source target edges finished) (ha : a ∈ finished) :
    ¬ Relation.TransGen (Step source target edges) a a := by
  induction h with
  | nil => cases ha
  | cons hnew hedg hrest ih =>
    intro hcyc
    rcases mem_cons.mp ha with rfl | ha
    · rcases Relation.TransGen.head'_iff.mp hcyc with ⟨b, ⟨edge, hedge, hsrc, rfl⟩, hback⟩
      have hbelow := hedg edge hedge hsrc
      rcases Relation.reflTransGen_iff_eq_or_transGen.mp hback with heq | hway
      · exact hnew (heq ▸ hbelow)
      · exact hnew (hrest.closed_trans hbelow hway)
    · exact ih ha hcyc

end Postorder

/-! ## The path -/

variable (source target edges) in
/-- A path of edges through distinct nodes that arrives at a node. -/
structure Path (pathNodes : List ν) (pathEdges : List ε) (node : ν) : Prop where
  nodes : pathEdges.map source = pathNodes
  stored : ∀ edge ∈ pathEdges, edge ∈ edges
  chained : pathEdges.IsChain fun edge next => target edge = source next
  arrives : ∀ last ∈ pathEdges.getLast?, target last = node
  nodup : (pathNodes ++ [node]).Nodup

namespace Path

variable {pathNodes : List ν} {pathEdges : List ε} {node : ν}

omit [DecidableEq ν] in
theorem start (node : ν) : Path source target edges [] [] node where
  nodes := rfl
  stored := by simp
  chained := IsChain.nil
  arrives := fun _ h => by cases h
  nodup := nodup_singleton node

variable {edge : ε}

omit [DecidableEq ν] in
theorem chained_append (h : Path source target edges pathNodes pathEdges node)
    (hsrc : source edge = node) :
    (pathEdges ++ [edge]).IsChain fun edge next => target edge = source next := by
  rw [isChain_append]
  refine ⟨h.chained, isChain_singleton _, fun last hlast next hnext => ?_⟩
  rw [head?_cons, Option.mem_def, Option.some.injEq] at hnext
  rw [h.arrives last hlast, ← hnext, hsrc]

omit [DecidableEq ν] in
theorem nodes_append (h : Path source target edges pathNodes pathEdges node)
    (hsrc : source edge = node) : (pathEdges ++ [edge]).map source = pathNodes ++ [node] := by
  rw [map_append, h.nodes, map_singleton, hsrc]

omit [DecidableEq ν] in
theorem stored_append (h : Path source target edges pathNodes pathEdges node)
    (hedge : edge ∈ edges) : ∀ other ∈ pathEdges ++ [edge], other ∈ edges := by
  intro other hoth
  rcases mem_append.mp hoth with hoth | hoth
  · exact h.stored other hoth
  · rwa [mem_singleton.mp hoth]

omit [DecidableEq ν] in
theorem extend (h : Path source target edges pathNodes pathEdges node) (hedge : edge ∈ edges)
    (hsrc : source edge = node) (hnew : target edge ∉ pathNodes ++ [node]) :
    Path source target edges (pathNodes ++ [node]) (pathEdges ++ [edge]) (target edge) where
  nodes := h.nodes_append hsrc
  stored := h.stored_append hedge
  chained := h.chained_append hsrc
  arrives := by
    intro last hlast
    rw [getLast?_concat, Option.mem_def, Option.some.injEq] at hlast
    rw [hlast]
  nodup := by
    rw [nodup_append]
    refine ⟨h.nodup, nodup_singleton _, fun a ha b hb => ?_⟩
    rw [mem_singleton.mp hb]
    rintro rfl
    exact hnew ha

omit [DecidableEq ν] in
/-- An edge back to a node of the path closes a cycle. -/
theorem cycle {index} (h : Path source target edges pathNodes pathEdges node) (hedge : edge ∈ edges)
    (hsrc : source edge = node) (hback : (pathNodes ++ [node])[index]? = some (target edge)) :
    IsCycle source target edges (pathEdges.drop index ++ [edge]) := by
  -- The cycle is the end of the path with the edge, from the node it leads back to.
  have hlen : index < pathNodes.length + 1 := by
    have hlt := (List.getElem?_eq_some_iff.mp hback).1
    rwa [length_append, length_singleton] at hlt
  have hdrop : pathEdges.drop index ++ [edge] = (pathEdges ++ [edge]).drop index := by
    rw [drop_append_of_le_length]
    rw [← h.nodes, length_map] at hlen
    omega
  refine ⟨append_ne_nil_of_right_ne_nil _ (cons_ne_nil _ _), ?_, ?_, ?_, ?_⟩
  · intro other hoth
    rw [hdrop] at hoth
    exact h.stored_append hedge other (mem_of_mem_drop hoth)
  · rw [hdrop]
    exact (h.chained_append hsrc).drop index
  · intro first hfirst last hlast
    rw [getLast?_concat, Option.mem_def, Option.some.injEq] at hlast
    rw [hdrop, head?_drop, Option.mem_def] at hfirst
    have hnode : ((pathEdges ++ [edge]).map source)[index]? = some (source first) := by
      rw [getElem?_map, hfirst, Option.map_some]
    rw [h.nodes_append hsrc, hback, Option.some.injEq] at hnode
    rw [← hlast, hnode]
  · rw [hdrop, map_drop, h.nodes_append hsrc]
    exact h.nodup.sublist (drop_sublist _ _)

end Path

/-! ## The search -/

variable (source target edges) in
/-- The outcome is a cycle, or more finished nodes, none of them on the path. -/
def Sound (pathNodes finished : List ν) : Outcome ν ε → Prop
  | (some cycle, _) => IsCycle source target edges cycle
  | (none, finished') => Postorder source target edges finished' ∧ finished ⊆ finished' ∧
      ∀ node ∈ pathNodes, node ∉ finished'

variable {pathNodes nodes : List ν} {node : ν}

/-- Trying edges that can be followed finds a cycle or finishes their targets. -/
theorem searchEdges_spec {pathEdges} (visit : ν → List ε → List ν → Option (Outcome ν ε))
    (hpath : Path source target edges pathNodes pathEdges node) :
    ∀ (tried : List ε) (finished : List ν), (∀ edge ∈ tried, edge ∈ edges ∧ source edge = node) →
      (∀ edge ∈ tried, target edge ∉ pathNodes ++ [node] → ∀ finished,
        Postorder source target edges finished → (∀ n ∈ pathNodes ++ [node], n ∉ finished) →
        ∃ oc, visit (target edge) (pathEdges ++ [edge]) finished = some oc ∧ Sound source target
          edges (pathNodes ++ [node]) finished oc ∧ (oc.1 = none → target edge ∈ oc.2)) →
      Postorder source target edges finished → (∀ n ∈ pathNodes ++ [node], n ∉ finished) →
      ∃ oc, searchEdges target visit (pathNodes ++ [node]) pathEdges tried finished = some oc ∧
        Sound source target edges (pathNodes ++ [node]) finished oc ∧
        (oc.1 = none → ∀ edge ∈ tried, target edge ∈ oc.2) := by
  intro tried
  induction tried with
  | nil =>
    intro finished _ _ hpost hoff
    exact ⟨_, rfl, ⟨hpost, Subset.refl _, hoff⟩, fun _ edge h => absurd h not_mem_nil⟩
  | cons edge rest ih =>
    intro finished htried hvisit hpost hoff
    have hedge := htried edge mem_cons_self
    rw [searchEdges]
    cases hidx : (pathNodes ++ [node]).idxOf? (target edge) with
    | some idx =>
      have hback : (pathNodes ++ [node])[idx]? = some (target edge) := by
        rw [idxOf?, findIdx?_eq_some_iff_getElem] at hidx
        rcases hidx with ⟨hlt, heq, -⟩
        rw [getElem?_eq_getElem hlt, beq_iff_eq.mp heq]
      exact ⟨_, rfl, hpath.cycle hedge.1 hedge.2 hback, fun h => by cases h⟩
    | none =>
      have hnew : target edge ∉ pathNodes ++ [node] := idxOf?_eq_none_iff.mp hidx
      rcases hvisit edge mem_cons_self hnew finished hpost hoff with
        ⟨⟨found, finished'⟩, hfound, hsound, hdone⟩
      simp only [hfound]
      cases found with
      | some cycle => exact ⟨_, rfl, hsound, fun h => by cases h⟩
      | none =>
        -- The other edges are tried with what this one finished.
        rcases hsound with ⟨hpost', hsub, hoff'⟩
        rcases ih finished' (fun other h => htried other (mem_cons_of_mem _ h))
          (fun other h => hvisit other (mem_cons_of_mem _ h)) hpost' hoff' with
          ⟨⟨found, finished''⟩, hfound, hsound, hrest⟩
        refine ⟨_, hfound, ?_, ?_⟩
        · cases found with
          | some cycle => exact hsound
          | none => exact ⟨hsound.1, Subset.trans hsub hsound.2.1, hsound.2.2⟩
        · intro hnone other hoth
          cases hnone
          rcases mem_cons.mp hoth with rfl | hoth
          · exact hsound.2.1 (hdone rfl)
          · exact hrest rfl other hoth

/-- A search with enough fuel finds a cycle or finishes the node it started
    from. The fuel is enough because the path cannot be longer than the graph. -/
theorem searchFrom_spec (htar : ∀ edge ∈ edges, target edge ∈ nodes) (fuel : Nat) (node : ν)
    (pathNodes : List ν) (pathEdges : List ε) (finished : List ν)
    (hpath : Path source target edges pathNodes pathEdges node) (hnod : pathNodes ++ [node] ⊆ nodes)
    (hfuel : nodes.length < fuel + pathNodes.length)
    (hpost : Postorder source target edges finished) (hoff : (∀ n ∈ pathNodes, n ∉ finished)) :
    ∃ oc, searchFrom source target edges fuel node pathNodes pathEdges finished = some oc ∧
        Sound source target edges pathNodes finished oc ∧
        (oc.1 = none → node ∈ oc.2) := by
  induction fuel generalizing node pathNodes pathEdges finished with
  | zero =>
    have hle := (hpath.nodup.subperm hnod).length_le
    rw [length_append, length_singleton] at hle
    omega
  | succ fuel ih =>
    rw [searchFrom]
    split
    next hmem => exact ⟨_, rfl, ⟨hpost, Subset.refl _, hoff⟩, fun _ => hmem⟩
    next hmem =>
      have hoffAll : ∀ n ∈ pathNodes ++ [node], n ∉ finished := by
        intro n hn
        rcases mem_append.mp hn with hn | hn
        · exact hoff n hn
        · rw [mem_singleton.mp hn]
          exact hmem
      have htried : ∀ edge ∈ edges.filter (fun edge => source edge = node),
          edge ∈ edges ∧ source edge = node := by
        intro edge hedge
        simpa only [decide_eq_true_eq] using mem_filter.mp hedge
      have hvisit : ∀ edge ∈ edges.filter (fun edge => source edge = node), target edge ∉ pathNodes
          ++ [node] → ∀ finished, Postorder source target edges finished →
          (∀ n ∈ pathNodes ++ [node], n ∉ finished) →
          ∃ oc, searchFrom source target edges fuel (target edge) (pathNodes ++ [node])
              (pathEdges ++ [edge]) finished = some oc ∧
            Sound source target edges (pathNodes ++ [node]) finished oc ∧
            (oc.1 = none → target edge ∈ oc.2) := by
        intro edge hedge hnew finished hpost hoff
        have hedge' := htried edge hedge
        refine ih (target edge) (pathNodes ++ [node]) (pathEdges ++ [edge]) finished
          (hpath.extend hedge'.1 hedge'.2 hnew) ?_ ?_ hpost hoff
        · rw [append_subset]
          refine ⟨hnod, fun n hn => ?_⟩
          rw [mem_singleton.mp hn]
          exact htar edge hedge'.1
        · rw [length_append, length_singleton]
          omega
      rcases searchEdges_spec (fun next path finished =>
          searchFrom source target edges fuel next (pathNodes ++ [node]) path finished)
        hpath _ finished htried hvisit hpost hoffAll with
          ⟨⟨found, finished'⟩, hfound, hsound, hdone⟩
      simp only [hfound]
      cases found with
      | some cycle => exact ⟨_, rfl, hsound, fun h => by cases h⟩
      | none =>
        -- All edges lead to finished nodes, so this one is finished next.
        rcases hsound with ⟨hpost', hsub, hoff'⟩
        have hself : node ∉ finished' := hoff' node (mem_append_right _ (mem_singleton_self _))
        refine ⟨_, rfl, ⟨.cons hself (fun edge hedge hsrc => hdone rfl edge ?_) hpost',
          fun n hn => mem_cons_of_mem _ (hsub hn), fun n hn => ?_⟩,
          fun _ => mem_cons_self⟩
        · rw [mem_filter, decide_eq_true_eq]
          exact ⟨hedge, hsrc⟩
        · rw [mem_cons, not_or]
          refine ⟨?_, hoff' n (mem_append_left _ hn)⟩
          rintro rfl
          exact (nodup_append.mp hpath.nodup).2.2 n hn n (mem_singleton_self _) rfl

/-- The search over some nodes finds a cycle, or finishes all of them. -/
theorem search_spec {fuel} (htar : ∀ edge ∈ edges, target edge ∈ nodes)
    (hfuel : nodes.length < fuel)
    (tried finished : List ν) (htried : tried ⊆ nodes)
    (hpost : Postorder source target edges finished) :
    (∃ cycle, search source target edges fuel tried finished = some (some cycle) ∧
        IsCycle source target edges cycle) ∨
      search source target edges fuel tried finished = some none ∧
        ∃ finished', Postorder source target edges finished' ∧ finished ⊆ finished' ∧
          tried ⊆ finished' := by
  induction tried generalizing finished with
  | nil => exact .inr ⟨rfl, finished, hpost, Subset.refl _, nil_subset _⟩
  | cons node rest ih =>
    rw [cons_subset] at htried
    rcases searchFrom_spec htar fuel node [] [] finished (Path.start node)
      (by rw [nil_append, cons_subset]; exact ⟨htried.1, nil_subset _⟩)
      (by rwa [length_nil, Nat.add_zero]) hpost
      (by simp) with ⟨⟨found, finished'⟩, hfound, hsound, hdone⟩
    rw [search, hfound]
    cases found with
    | some cycle => exact .inl ⟨cycle, rfl, hsound⟩
    | none =>
      rcases ih finished' htried.2 hsound.1 with hcyc | ⟨hnone, last, hlast, hsub, hrest⟩
      · exact .inl hcyc
      · refine .inr ⟨hnone, last, hlast, Subset.trans hsound.2.1 hsub, ?_⟩
        rw [cons_subset]
        exact ⟨hsub (hdone rfl), hrest⟩

omit [DecidableEq ν] in
theorem transGen_of_chain :
    ∀ (chain : List ε), (∀ edge ∈ chain, edge ∈ edges) →
      (chain.IsChain fun edge next => target edge = source next) →
      ∀ first ∈ chain.head?, ∀ last ∈ chain.getLast?,
        Relation.TransGen (Step source target edges) (source first) (target last) := by
  intro chain
  induction chain with
  | nil =>
    intro _ _ first hfirst
    cases hfirst
  | cons edge rest ih =>
    intro hstr hcha first hfirst last hlast
    rw [head?_cons, Option.mem_def] at hfirst
    cases hfirst
    have hstep : Step source target edges (source edge) (target edge) :=
      ⟨edge, hstr edge mem_cons_self, rfl, rfl⟩
    cases rest with
    | nil =>
      rw [getLast?_singleton, Option.mem_def] at hlast
      cases hlast
      exact .single hstep
    | cons next =>
      rw [isChain_cons_cons] at hcha
      refine .head hstep ?_
      rw [hcha.1]
      rw [getLast?_cons_cons] at hlast
      exact ih (fun other h => hstr other (mem_cons_of_mem _ h)) hcha.2 next rfl last hlast

omit [DecidableEq ν] in
theorem IsCycle.transGen {cycle} (h : IsCycle source target edges cycle) :
    ∃ node, Relation.TransGen (Step source target edges) node node := by
  rcases exists_cons_of_ne_nil h.ne_nil with ⟨first, rest, rfl⟩
  refine ⟨source first, ?_⟩
  have hlast : (first :: rest).getLast? = some ((first :: rest).getLast h.ne_nil) :=
    getLast?_eq_some_getLast h.ne_nil
  have hway := transGen_of_chain _ h.stored h.chained first rfl _ hlast
  rwa [h.closed first rfl _ hlast] at hway

end CycleSearch

end Rem6.Lib
