import Rem6.Cache.Controller
import Rem6.Coherence.Backing
import Rem6.Directory.Lines

/-!
# The Line Harnesses

One line, the controllers of some agents, a directory and a backing line,
wired together. `submitCpuRequest` carries a processor request through to its
end before it returns: the controller, and on a miss the directory, the snoops,
the data and the fill.

The four harnesses are one program. `HarnessRules` collects what differs: the
tables of the protocol and of its directory, how a grant becomes a fill event,
which decisions write the owner's data back into the backing line, and whether
owner data is attached to an answer that returns none. The choice of write-back
is the one that decides coherence: MESI writes back on every read snoop, CHI
when a unique owner is downgraded, and MSI and MOESI never.

A call that fails part-way keeps what it did. The directory has then recorded a
decision the caches did not carry out.

## Main definitions

* `HarnessRules`: What one harness is made of.
* `Harness`: The state of a harness.
* `directoryResponse`: Carry out a decision and produce the fill.
* `submitCpuRequest`: One processor request.
* `msiHarness`, `mesiHarness`, `moesiHarness`, `chiHarness`: The four harnesses.
-/

namespace Rem6.Coherence

open Memory Protocol Cache Directory

inductive HarnessError (S E : Type) where
  | wrongLine (expected actual : Nat)
  | duplicateCache (agent : AgentId)
  | unknownCache (agent : AgentId)
  | lineBusy (state : S)
  | missingDirectoryGrant (request : MemoryRequestId)
  | unexpectedGrantState (state : S)
  | grantDataUnavailable (agent : AgentId) (line : Nat)
  | cache (error : CacheControllerError S E)
  | directory (error : DirectoryError)
  | backing (error : BackingError)
  | memory (error : MemoryError)
deriving DecidableEq, Repr

/-- A response handed to the processor. -/
structure CpuResponseRecord where
  tick : Nat
  cacheResult : ResultKind
  request : MemoryRequestId
  status : ResponseStatus
  data : Option (List UInt8)
deriving DecidableEq, Repr

inductive SubmitKind where
  | immediateHit | scheduledMiss | coalescedMiss
deriving DecidableEq, Repr

structure SubmitResult (D S E : Type) where
  kind : SubmitKind
  cacheResult : ResultKind
  directoryDecision : Option (DirectoryDecision D S E)

/-- What one of the four harnesses is made of. -/
structure HarnessRules (D S E : Type) where
  protocol : LineProtocol S E
  directory : DirectoryRules D S E
  /-- The fill event of a grant. The MSI controller needs none. -/
  fillEvent : DirectoryDecision D S E → Except (HarnessError S E) (Option E)
  /-- The decision puts the owner's data into the backing line. -/
  writesBack : DirectoryDecision D S E → Bool
  /-- Owner data only goes with an answer that returns data. -/
  ownerDataOnRead : Bool
  /-- An agent that is listed twice is an error. -/
  refusesDuplicates : Bool

structure Harness (D S E : Type) where
  line : Nat
  directory : Nat → D
  caches : AgentId → Option (CacheController S E)
  backing : LineBackingStore
  cpuResponses : List CpuResponseRecord
  directoryDecisions : List (DirectoryDecision D S E)

namespace Harness

variable {D S E : Type}

/-- Add a controller per agent. -/
def addCaches (R : HarnessRules D S E) (layout : CacheLineLayout) (lineAddress : Nat)
    (caches : AgentId → Option (CacheController S E)) :
    List AgentId → Except (HarnessError S E) (AgentId → Option (CacheController S E))
  | [] => .ok caches
  | agent :: rest =>
    if R.refusesDuplicates && (caches agent).isSome then .error (.duplicateCache agent)
    else
      addCaches R layout lineAddress
        (Function.update caches agent
          (some (CacheController.new R.protocol agent layout lineAddress))) rest

/-- A fresh harness. The backing line has to start where the line does; nothing
    compares its length with the layout. -/
def new (R : HarnessRules D S E) (layout : CacheLineLayout) (lineAddress : Nat)
    (backing : LineBackingStore) (agents : List AgentId) :
    Except (HarnessError S E) (Harness D S E) :=
  let line := layout.lineAddress lineAddress
  if backing.lineAddress ≠ line then .error (.wrongLine line backing.lineAddress)
  else
    match addCaches R layout line (fun _ => none) agents with
    | .error e => .error e
    | .ok caches =>
      .ok
        { line, caches, backing
          directory := fun _ => R.directory.empty
          cpuResponses := []
          directoryDecisions := [] }

def setCache (h : Harness D S E) (agent : AgentId) (c : CacheController S E) : Harness D S E :=
  { h with caches := Function.update h.caches agent (some c) }

@[simp]
theorem setCache_self (h : Harness D S E) (ag : AgentId) (c : CacheController S E) :
    (h.setCache ag c).caches ag = some c := by
  simp [setCache]

variable {b ag : Memory.AgentId}

@[simp]
theorem setCache_of_ne (h : Harness D S E) (c : CacheController S E) (hb : b ≠ ag) :
    (h.setCache ag c).caches b = h.caches b := by
  simp only [setCache, Function.update_of_ne hb]

theorem of_setCache {c d} {h : Harness D S E} (hd : (h.setCache ag c).caches b = some d) :
    b = ag ∧ c = d ∨ b ≠ ag ∧ h.caches b = some d := by
  by_cases hb : b = ag
  · rw [hb, setCache_self, Option.some.injEq] at hd
    exact .inl ⟨hb, hd⟩
  · exact .inr ⟨hb, h.setCache_of_ne c hb ▸ hd⟩

/-- What holds of a controller that is put back and held of the others before holds
    of all of them. -/
theorem forall_setCache {c} {h : Harness D S E} {P : AgentId → CacheController S E → Prop}
    (hself : P ag c) (hoths : ∀ b d, b ≠ ag → h.caches b = some d → P b d) :
    ∀ b d, (h.setCache ag c).caches b = some d → P b d := by
  intro b d hd
  rcases of_setCache hd with ⟨rfl, rfl⟩ | ⟨hb, hd⟩
  · exact hself
  · exact hoths b d hb hd

theorem setCache_eq_self {c} {h : Harness D S E} (hc : h.caches ag = some c) :
    h.setCache ag c = h := by
  rw [setCache, ← hc, Function.update_eq_self]

def mapCacheError : CacheControllerError S E → HarnessError S E
  | .lineBusy state => .lineBusy state
  | e => .cache e

def responseRecord (tick : Nat) (cacheResult : ResultKind) (response : MemoryResponse) :
    CpuResponseRecord :=
  ⟨tick, cacheResult, response.requestId, response.status, response.data⟩

/-- Hand the response of a result to the processor, if it has one. -/
def recordCpuResponse (h : Harness D S E) (result : CacheControllerResult S) : Harness D S E :=
  match result.targetOutcome with
  | none => h
  | some response =>
    { h with cpuResponses := h.cpuResponses ++ [responseRecord 0 result.kind response] }

/-- The data of the cache a grant names as its source. -/
def sourceData (h : Harness D S E) (grant : DirectoryGrant S) :
    Except (HarnessError S E) (Option (List UInt8)) :=
  match grant.dataSource with
  | .backingMemory | .noData => .ok none
  | .ownerCache agent =>
    match h.caches agent with
    | none => .error (.unknownCache agent)
    | some c =>
      match c.data with
      | none => .error (.grantDataUnavailable agent grant.line)
      | some data => .ok (some data)

/-- Put the source's data into the backing line, if there is any and the
    decision asks for it. -/
def writeBack (h : Harness D S E) (wanted : Bool) (data : Option (List UInt8)) :
    Except (HarnessError S E) (Harness D S E) :=
  match wanted, data with
  | true, some data =>
    match h.backing.replaceData data with
    | .error e => .error (.backing e)
    | .ok backing => .ok { h with backing }
  | _, _ => .ok h

/-- Deliver the snoops of a decision, in order, up to the first that fails. -/
def deliverSnoops [DecidableEq S] (P : LineProtocol S E) (h : Harness D S E) :
    List (DirectorySnoop E) → Except (HarnessError S E) Unit × Harness D S E
  | [] => (.ok (), h)
  | snoop :: rest =>
    match h.caches snoop.target with
    | none => (.error (.unknownCache snoop.target), h)
    | some c =>
      match CacheController.acceptSnoop P c snoop.event with
      | (.error e, c) => (.error (mapCacheError e), h.setCache snoop.target c)
      | (.ok _, c) => deliverSnoops P (h.setCache snoop.target c) rest

/-- Produce the answer a grant promises, once the snoops are done. -/
def grantResponse (R : HarnessRules D S E) (h : Harness D S E) (request : MemoryRequest)
    (source : DirectoryDataSource) (data : Option (List UInt8)) :
    Except (HarnessError S E) MemoryResponse × Harness D S E :=
  match source with
  | .backingMemory =>
    ((h.backing.respond request).1.mapError .backing,
      { h with backing := (h.backing.respond request).2 })
  | .ownerCache _ =>
    let attached := if R.ownerDataOnRead && !request.returnsData then none else data
    ((MemoryResponse.completed request attached).mapError .memory, h)
  | .noData => ((MemoryResponse.completed request none).mapError .memory, h)

/-- Carry out a decision of the directory and produce the fill. -/
def directoryResponse [DecidableEq S] (R : HarnessRules D S E) (h : Harness D S E)
    (request : MemoryRequest) (decision : DirectoryDecision D S E) :
    Except (HarnessError S E) MemoryResponse × Harness D S E :=
  match decision.grant with
  | none => (.error (.missingDirectoryGrant request.id), h)
  | some grant =>
    match h.sourceData grant with
    | .error e => (.error e, h)
    | .ok data =>
      match h.writeBack (R.writesBack decision) data with
      | .error e => (.error e, h)
      | .ok h =>
        match h.deliverSnoops R.protocol decision.snoops with
        | (.error e, h) => (.error e, h)
        | (.ok (), h) => h.grantResponse R request grant.dataSource data

/-- The second half of a miss: the directory decides, the decision is carried
    out, and the controller that missed is filled. -/
def resolveMiss [DecidableEq S] (R : HarnessRules D S E) (h : Harness D S E) (agent : AgentId)
    (cacheResult : ResultKind) (downstream : MemoryRequest) :
    Except (HarnessError S E) (SubmitResult D S E) × Harness D S E :=
  match accept R.directory h.directory downstream with
  | (.error e, directory) => (.error (.directory e), { h with directory })
  | (.ok decision, directory) =>
    let h := { h with directory }
    match R.fillEvent decision with
    | .error e => (.error e, h)
    | .ok event =>
      match h.directoryResponse R downstream decision with
      | (.error e, h) => (.error e, h)
      | (.ok response, h) =>
        let h := { h with directoryDecisions := h.directoryDecisions ++ [decision] }
        match h.caches agent with
        | none => (.error (.unknownCache agent), h)
        | some c =>
          match CacheController.acceptFill R.protocol c response event with
          | (.error e, c) => (.error (mapCacheError e), h.setCache agent c)
          | (.ok fill, c) =>
            (.ok ⟨.scheduledMiss, cacheResult, some decision⟩,
              (h.setCache agent c).recordCpuResponse fill)

/-- One processor request, carried through to its end. -/
def submitCpuRequest [DecidableEq S] (R : HarnessRules D S E) (h : Harness D S E)
    (agent : AgentId) (request : MemoryRequest) :
    Except (HarnessError S E) (SubmitResult D S E) × Harness D S E :=
  match h.caches agent with
  | none => (.error (.unknownCache agent), h)
  | some c =>
    match CacheController.acceptCpuRequest R.protocol c request with
    | (.error e, c) => (.error (mapCacheError e), h.setCache agent c)
    | (.ok result, c) =>
      let h := h.setCache agent c
      match result.targetOutcome with
      | some _ => (.ok ⟨.immediateHit, result.kind, none⟩, h.recordCpuResponse result)
      | none =>
        match result.downstreamRequest with
        | none => (.error (.cache .noPendingMiss), h)
        | some downstream => h.resolveMiss R agent result.kind downstream

end Harness

/-! ## The four harnesses -/

/-- The fill event of the granted state, where the protocol has one for it. -/
def grantFillEvent {D S E : Type} (event : S → Option E) (decision : DirectoryDecision D S E) :
    Except (HarnessError S E) (Option E) :=
  match decision.grant with
  | none => .error (.missingDirectoryGrant decision.request)
  | some grant =>
    match event grant.state with
    | some event => .ok (some event)
    | none => .error (.unexpectedGrantState grant.state)

def mesiFillEvent : MesiState → Option MesiEvent
  | .shared => some .dataShared
  | .exclusive => some .dataExclusive
  | .modified => some .dataModified
  | _ => none

def moesiFillEvent : MoesiState → Option MoesiEvent
  | .shared => some .dataShared
  | .exclusive => some .dataExclusive
  | .modified => some .dataModified
  | _ => none

def chiFillEvent : ChiState → Option ChiEvent
  | .sharedClean => some .compDataSharedClean
  | .sharedDirty => some .compDataSharedDirty
  | .uniqueClean => some .compDataUniqueClean
  | .uniqueDirty => some .compDataUniqueDirty
  | _ => none

/-- `DirectoryLineHarness`. -/
def msiHarness : HarnessRules (OwnerLine MsiState) MsiState MsiEvent where
  protocol := msi
  directory := msiDirectory
  fillEvent _ := .ok none
  writesBack _ := false
  ownerDataOnRead := false
  refusesDuplicates := false

/-- `MesiDirectoryLineHarness`. -/
def mesiHarness : HarnessRules (OwnerLine MesiState) MesiState MesiEvent where
  protocol := mesi
  directory := mesiDirectory
  fillEvent := grantFillEvent mesiFillEvent
  writesBack decision := decision.snoops.any fun snoop => snoop.event = .snoopRead
  ownerDataOnRead := false
  refusesDuplicates := true

/-- `MoesiDirectoryLineHarness`. -/
def moesiHarness : HarnessRules (OwnerLine MoesiState) MoesiState MoesiEvent where
  protocol := moesi
  directory := moesiDirectory
  fillEvent := grantFillEvent moesiFillEvent
  writesBack _ := false
  ownerDataOnRead := true
  refusesDuplicates := true

def decisionDowngradesUniqueOwner (decision : DirectoryDecision ChiLine ChiState ChiEvent) : Bool :=
  decision.before.uniqueOwner.isSome && decision.snoops.any fun snoop => snoop.event = .snoopShared

/-- `ChiDirectoryLineHarness`. -/
def chiHarness : HarnessRules ChiLine ChiState ChiEvent where
  protocol := chi
  directory := chiDirectory
  fillEvent := grantFillEvent chiFillEvent
  writesBack := decisionDowngradesUniqueOwner
  ownerDataOnRead := true
  refusesDuplicates := true

end Rem6.Coherence
