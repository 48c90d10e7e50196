import Mathlib.Order.Basic
import Rem6.Fabric.Hops
import Rem6.Kernel.WaitFor

/-!
# Waits in the Fabric

The fabric logs the ticks at which a packet waited for a lane, for a link or for
a credit, and draws the wait-for graph of a tick from the log. What a packet
waits for a router stage is put into the timing of its hop and into no log. So
the graph is exact as long as every hop finds its router stage free.

## Main definitions

* `FabricModel.waitForGraphAt`: The graph.
* `FabricHopTiming.Waiting`: A packet is ready to move on a hop and has not started.
* `FreeHop`, `RanFree`: Hops that find their router stage free.

## Theorems

* `mem_waitRecords`: The log has the waits for a lane, without gaps.
* `waitForGraphAt_exact`: The graph has an edge for the packets that wait.
* `router_wait_missing`: A wait that is in no graph.
-/

namespace Rem6.Fabric

open Lib Kernel

def FabricWaitKind.edgeKind : FabricWaitKind → WaitForEdgeKind
  | .queue | .link => .queue
  | .credit => .credit

def FabricWaitKind.resourceSuffix : FabricWaitKind → String
  | .queue => "lane"
  | .link => "link"
  | .credit => "credit"

def waitForLabelSegment (label : String) : String :=
  .ofList (label.toUTF8.toList.map fun byte =>
    let char := Char.ofNat byte.toNat
    if char.isAlphanum ∨ char ∈ ['.', '_', '-', ':'] then char else '_')

def fabricPacketNode (packet : Nat) : WaitForNode := .transaction ("fabric.packet." ++ packet.repr)

def fabricResourceNode (link : FabricLinkId) (virtualNetwork : Nat) (kind : FabricWaitKind) :
    WaitForNode :=
  let scope := if kind = .link then "." else ".vn." ++ virtualNetwork.repr ++ "."
  .resource ("fabric." ++ waitForLabelSegment link ++ scope ++ kind.resourceSuffix)

def FabricWaitRecord.isActiveAt (wait : FabricWaitRecord) (tick : Nat) : Bool :=
  wait.firstBlockedTick ≤ tick ∧ tick < wait.unblockedTick

/-- The nodes are of different kinds, so no wait is refused. -/
def recordWaitInterval (graph : WaitForGraph) (wait : FabricWaitRecord) (first last : Nat) :
    WaitForGraph :=
  let record (tick : Nat) := WaitForCall.recordWait (fabricPacketNode wait.packet)
    (fabricResourceNode wait.link wait.virtualNetwork wait.kind) wait.kind.edgeKind tick
  if last ≠ first then (graph.next (record first)).next (record last)
  else graph.next (record first)

def FabricModel.waitForGraphAt (model : FabricModel) (tick : Nat) : WaitForGraph :=
  (model.waitLog.filter (·.isActiveAt tick)).foldl (recordWaitInterval · · tick tick) .new

/-! ## Edges -/

theorem waitForGraphAt_waits (model : FabricModel) (tick : Nat) (a b : WaitForNode) :
    (model.waitForGraphAt tick).Waits a b ↔ ∃ wait ∈ model.waitLog, wait.isActiveAt tick ∧
      a = fabricPacketNode wait.packet ∧
      b = fabricResourceNode wait.link wait.virtualNetwork wait.kind := by
  have hfold : ∀ (waits : List FabricWaitRecord) (graph : WaitForGraph),
      (waits.foldl (recordWaitInterval · · tick tick) graph).Waits a b ↔
        graph.Waits a b ∨ ∃ wait ∈ waits, a = fabricPacketNode wait.packet ∧
          b = fabricResourceNode wait.link wait.virtualNetwork wait.kind := by
    intro waits
    induction waits with
    | nil => simp
    | cons wait waits ih =>
      intro graph
      rw [List.foldl_cons, ih, recordWaitInterval, if_neg (not_not_intro rfl),
        WaitForGraph.waits_recordWait (by simp [fabricPacketNode, fabricResourceNode])]
      simp only [List.mem_cons, exists_eq_or_imp, or_assoc]
  have hnone : ¬ WaitForGraph.new.Waits a b := by
    rintro ⟨edge, hedge, -⟩
    cases hedge
  rw [FabricModel.waitForGraphAt, hfold, or_iff_right hnone]
  simp only [List.mem_filter, and_assoc]

/-- The name of a packet's node says which packet it is. -/
theorem fabricPacketNode_inj {a b} (h : fabricPacketNode a = fabricPacketNode b) : a = b := by
  have hdigits := (String.append_right_inj _).1 (WaitForNode.transaction.inj h)
  rw [Nat.repr_eq_ofList_toDigits, Nat.repr_eq_ofList_toDigits, String.ofList_inj] at hdigits
  rw [← Nat.ofDigitChars_ten_toDigits (n := a), hdigits, Nat.ofDigitChars_ten_toDigits]

variable {model model' : FabricModel} {r : ReservedHop} {resv : FabricLaneReservation}

/-- Some record is active at a tick exactly if the packet then waits for its lane. -/
theorem mem_waitRecords (h : Hopped model r resv model') (tick : Nat) :
    (∃ wait ∈ waitRecords r.packet r.hop r.timing.laneReadyTick resv, wait.isActiveAt tick) ↔
      r.timing.laneReadyTick ≤ tick ∧ tick < r.timing.startTick := by
  have hstart := h.reserves.start_le
  have hdel := h.reserves.delay
  rw [h.start]
  unfold waitRecords
  simp only [FabricWaitRecord.isActiveAt, decide_eq_true_eq]
  split
  next => simp; omega
  next =>
    split
    next => simp
    next => split <;> simp <;> omega

theorem waitRecords_of {pkt hop ready wait} (h : wait ∈ waitRecords pkt hop ready resv) :
    wait.packet = pkt.id ∧ wait.link = hop.link ∧
      wait.virtualNetwork = hop.virtualNetwork.getD pkt.virtualNetwork := by
  simp only [waitRecords] at h
  split at h
  next => cases h
  next =>
    split at h
    next =>
      obtain rfl := List.mem_singleton.1 h
      exact ⟨rfl, rfl, rfl⟩
    next =>
      rcases List.mem_append.1 h with h | h
      · split at h
        next =>
          obtain rfl := List.mem_singleton.1 h
          exact ⟨rfl, rfl, rfl⟩
        next => cases h
      · obtain rfl := List.mem_singleton.1 h
        exact ⟨rfl, rfl, rfl⟩

/-! ## Hops -/

/-- The packet is ready to move on the hop, past its router stage or into its
    lane, and has not started. -/
def FabricHopTiming.Waiting (timing : FabricHopTiming) (tick : Nat) : Prop :=
  (∃ router ∈ timing.router, router.readyTick ≤ tick ∧ tick < router.startTick) ∨
    timing.laneReadyTick ≤ tick ∧ tick < timing.startTick

/-- A hop whose router stage, if it has one, is free when the packet comes. -/
def FreeHop (model : FabricModel) (r : ReservedHop) (model' : FabricModel) : Prop :=
  HopStep model r model' ∧ ∀ stage ∈ r.hop.routerStage,
    model.inputNext stage ≤ r.timing.ingressTick ∧ model.outputNext stage ≤ r.timing.ingressTick

/-- Calls that all go well, and find the router stage of every hop free. -/
def RanFree (calls : List FabricCall) (model : FabricModel) (transfers : List FabricTransfer)
    (model' : FabricModel) : Prop :=
  performAll calls model = (.ok transfers, model') ∧ ∃ reserved,
    Trace FreeHop model reserved model' ∧
      reserved.map (fun r => (r.packet, r.timing)) = transfers.flatMap (·.taken)

/-- The log has what it had and the waits of the hops that were reserved since. -/
structure LogsWaits (before : FabricModel) (past : List ReservedHop) (model : FabricModel) :
    Prop where
  logged : ∀ r ∈ past, ∀ tick, r.timing.Waiting tick → ∃ wait ∈ model.waitLog,
    wait.isActiveAt tick ∧ wait.packet = r.packet.id ∧ wait.link = r.timing.link ∧
      wait.virtualNetwork = r.timing.virtualNetwork
  known : ∀ wait ∈ model.waitLog, wait ∈ before.waitLog ∨
    ∃ r ∈ past, wait.packet = r.packet.id ∧ ∀ tick, wait.isActiveAt tick → r.timing.Waiting tick

theorem FreeHop.waiting_iff (h : FreeHop model r model') (hhopped : Hopped model r resv model')
    (tick : Nat) :
    r.timing.Waiting tick ↔ r.timing.laneReadyTick ≤ tick ∧ tick < r.timing.startTick := by
  refine or_iff_right ?_
  rintro ⟨router, hmem, hready, hstart⟩
  have hrouter := hhopped.router
  rw [hmem] at hrouter
  obtain ⟨⟨hstage, hingress⟩, _⟩ := reserveRouter_ok hrouter
  obtain ⟨hinp, houtput⟩ := h.2 router.stage hstage
  omega

theorem LogsWaits.step {before past} (h : LogsWaits before past model)
    (hfree : FreeHop model r model') :
    LogsWaits before (past ++ [r]) model' := by
  obtain ⟨resv, hhopped⟩ := hfree.1.hopped
  have hwaits := fun tick => (hfree.waiting_iff hhopped tick).trans
    (mem_waitRecords hhopped tick).symm
  refine ⟨fun a ha tick hwaiting => ?_, fun wait hmem => ?_⟩
  · rw [hhopped.waitLog]
    rcases List.mem_append.1 ha with ha | ha
    · obtain ⟨wait, hmem, hwait⟩ := h.logged a ha tick hwaiting
      exact ⟨wait, List.mem_append_left _ hmem, hwait⟩
    · obtain rfl := List.mem_singleton.1 ha
      obtain ⟨wait, hmem, hact⟩ := (hwaits tick).1 hwaiting
      obtain ⟨hpkt, hlink, hnet⟩ := waitRecords_of hmem
      refine ⟨wait, List.mem_append_right _ hmem, hact, hpkt, hlink.trans hhopped.link.symm, ?_⟩
      exact hnet.trans (congrArg (fun lane => (ofLex lane).2) hhopped.lane).symm
  · rw [hhopped.waitLog] at hmem
    rcases List.mem_append.1 hmem with hmem | hmem
    · rcases h.known wait hmem with hold | ⟨a, ha, hwait⟩
      · exact .inl hold
      · exact .inr ⟨a, List.mem_append_left _ ha, hwait⟩
    · refine .inr ⟨r, by simp, (waitRecords_of hmem).1, fun tick hact => ?_⟩
      exact (hwaits tick).2 ⟨wait, hmem, hact⟩

/-- When every hop finds its router stage free, the graph of a tick has an edge
    from a packet that waits on a hop to a resource of that hop, and none from a
    packet that waits on no hop. -/
theorem waitForGraphAt_exact (calls : List FabricCall) (model model' : FabricModel)
    (transfers : List FabricTransfer) (h : RanFree calls model transfers model') (tick : Nat) :
    (∀ taken ∈ transfers.flatMap (·.taken), taken.2.Waiting tick → ∃ kind,
      (model'.waitForGraphAt tick).Waits (fabricPacketNode taken.1.id)
        (fabricResourceNode taken.2.link taken.2.virtualNetwork kind)) ∧
    ∀ packet target, (model'.waitForGraphAt tick).Waits (fabricPacketNode packet) target →
      (model.waitForGraphAt tick).Waits (fabricPacketNode packet) target ∨
        ∃ taken ∈ transfers.flatMap (·.taken), taken.1.id = packet ∧ taken.2.Waiting tick := by
  obtain ⟨-, reserved, htrace, htaken⟩ := h
  have hlogs : LogsWaits model reserved model' :=
    htrace.invariant (LogsWaits model) (fun _ _ _ _ hpast hfree => hpast.step hfree) []
      ⟨by simp, fun _ => .inl⟩
  rw [← htaken]
  simp only [List.forall_mem_map, waitForGraphAt_waits]
  refine ⟨fun r hr hwaiting => ?_, ?_⟩
  · obtain ⟨wait, hmem, hactive, hpacket, hlink, hnetwork⟩ := hlogs.logged r hr tick hwaiting
    exact ⟨wait.kind, wait, hmem, hactive, by rw [hpacket], by rw [hlink, hnetwork]⟩
  · rintro packet target ⟨wait, hmem, hactive, hpacket, htarget⟩
    rcases hlogs.known wait hmem with hold | ⟨r, hr, hid, hwaiting⟩
    · exact .inl ⟨wait, hold, hactive, hpacket, htarget⟩
    · exact .inr ⟨_, List.mem_map_of_mem hr, by rw [← hid, fabricPacketNode_inj hpacket],
        hwaiting tick hactive⟩

def plainHop : FabricPathHop := { link := "l", latency := 3, bandwidthBytesPerTick := 1 }

def sameLane : List FabricCall :=
  [.transmit 0 ⟨0, 4, 0⟩ [plainHop], .transmit 1 ⟨1, 4, 0⟩ [plainHop]]

/-- The second of two packets waits for their lane at tick three. -/
theorem waitForGraphAt_exact_lane :
    ∃ transfers model', RanFree sameLane .new transfers model' ∧ ∃ kind,
      (model'.waitForGraphAt 3).Waits (fabricPacketNode 1) (fabricResourceNode "l" 0 kind) := by
  have hperform : performAll sameLane .new = (.ok _, _) := rfl
  have hrun : RanFree sameLane .new _ _ := ⟨hperform,
    [⟨⟨0, 4, 0⟩, plainHop, ⟨"l", 0, none, 0, 0, 4, 4, 7⟩⟩,
      ⟨⟨1, 4, 0⟩, plainHop, ⟨"l", 0, none, 1, 4, 4, 8, 11⟩⟩],
    .cons ⟨⟨0, 0, rfl⟩, by simp [plainHop]⟩ (.cons ⟨⟨0, 1, rfl⟩, by simp [plainHop]⟩ (.nil _)), rfl⟩
  have hwaits := (waitForGraphAt_exact _ _ _ _ hrun 3).1 (⟨1, 4, 0⟩, ⟨"l", 0, none, 1, 4, 4, 8, 11⟩)
    (List.mem_cons_of_mem _ (List.mem_singleton_self _)) (.inr (by decide))
  exact ⟨_, _, hrun, hwaits⟩

/-- Two packets that leave a router by the same port, for different links. -/
def samePort : List FabricCall :=
  [.transmit 0 ⟨0, 4, 0⟩ [⟨"l", 3, 1, none, none, none, some ⟨"r", 0, 0, 0, 2⟩, by simp⟩],
    .transmit 0 ⟨1, 4, 0⟩ [⟨"m", 3, 1, none, none, none, some ⟨"r", 1, 0, 0, 2⟩, by simp⟩]]

/-- The second packet waits for its router stage at tick one, and the graph of
    that tick is empty. -/
theorem router_wait_missing :
    ∃ transfers model', performAll samePort .new = (.ok transfers, model') ∧
      ∃ taken ∈ transfers.flatMap (·.taken), taken.2.Waiting 1 ∧
        ∀ target, ¬ (model'.waitForGraphAt 1).Waits (fabricPacketNode taken.1.id) target := by
  have hrun : performAll samePort .new = (.ok _, _) := rfl
  refine ⟨_, _, hrun, _, List.mem_cons_of_mem _ (List.mem_singleton_self _),
    .inl ⟨_, rfl, by decide⟩, fun target hwaits => ?_⟩
  obtain ⟨wait, hmem, -⟩ := (waitForGraphAt_waits _ _ _ _).1 hwaits
  cases hmem

end Rem6.Fabric
