import Rem6.Memory.Request

/-!
# Directories

What the four directories share. A directory keeps one record per line and
answers a request with a decision: which caches to snoop, what state to grant,
and where the data comes from. The record after the decision is stored before
anybody acts on it, so a harness that fails to carry a decision out leaves the
directory ahead of the caches.

`accept` is the dispatch on the operation, which is the same in all four; what
the six handlers do with a record is `DirectoryRules`. A line without a record
has the empty record, and a record that became empty is dropped, so a total
function from lines to records says the same as the source's map.

## Main definitions

* `DirectorySnoop`, `DirectoryGrant`, `DirectoryDecision`: What is decided.
* `DirectoryRules`: The handlers of one directory.
* `accept`: Decide on a request and store the new record.

## Theorems

* `accept_of_kind`: The dispatch, for the three requests a controller sends.
-/

namespace Rem6.Directory

open Memory

structure DirectorySnoop (E : Type) where
  target : AgentId
  event : E
deriving DecidableEq, Repr

/-- Where the data of a grant comes from. The MSI directory calls an owner cache
    a modified owner and the MESI directory an owned cache. -/
inductive DirectoryDataSource where
  | backingMemory
  | ownerCache (agent : AgentId)
  | noData
deriving DecidableEq, Repr

structure DirectoryGrant (S : Type) where
  request : MemoryRequestId
  line : Nat
  state : S
  dataSource : DirectoryDataSource
deriving DecidableEq, Repr

/-- A decision, with the record before and after it. -/
structure DirectoryDecision (D S E : Type) where
  line : Nat
  request : MemoryRequestId
  (before after : D)
  snoops : List (DirectorySnoop E)
  grant : Option (DirectoryGrant S)

inductive DirectoryError where
  | upgradeRequesterNotSharer (line : Nat) (requester : AgentId)
  | writebackFromNonOwner (line : Nat) (requester : AgentId) (owner : Option AgentId)
  | evictFromNonHolder (line : Nat) (requester : AgentId)
deriving DecidableEq, Repr

/-- What a handler that grants the line does: the record it leaves, the caches
    it snoops, the state it grants and the source of the data. -/
structure Handled (D S E : Type) where
  after : D
  snoops : List (DirectorySnoop E)
  state : S
  dataSource : DirectoryDataSource

/-- The handlers of one directory, on the record of one line. The last three
    give a line back and grant nothing. -/
structure DirectoryRules (D S E : Type) where
  empty : D
  (acceptReadShared acceptReadUnique : D → AgentId → Handled D S E)
  acceptUpgrade : Nat → D → AgentId → Except DirectoryError (Handled D S E)
  (acceptDirtyWriteback acceptWriteClean : Nat → D → AgentId → Except DirectoryError D)
  acceptCleanDeparture : Nat → D → AgentId → Except DirectoryError D

variable {D S E : Type}

/-- The decision a granting handler leads to. -/
def Handled.decision (handled : Handled D S E) (line : Nat) (request : MemoryRequestId)
    (before : D) : DirectoryDecision D S E where
  line
  request
  before
  after := handled.after
  snoops := handled.snoops
  grant := some ⟨request, line, handled.state, handled.dataSource⟩

/-- Decide on a request, by the record of its line. -/
def decideLine (R : DirectoryRules D S E) (line : Nat) (before : D) (request : MemoryRequest) :
    Except DirectoryError (DirectoryDecision D S E) :=
  let requester := request.id.agent
  let departs (after : Except DirectoryError D) : Except DirectoryError (DirectoryDecision D S E) :=
    after.map fun after => ⟨line, request.id, before, after, [], none⟩
  match request.operation with
  | .noAccess => .ok ⟨line, request.id, before, before, [], none⟩
  | .instructionFetch | .readShared | .loadLocked | .prefetchRead =>
    .ok ((R.acceptReadShared before requester).decision line request.id before)
  | .readUnique | .lockedRmwRead | .storeConditionalUpgradeFail | .write | .cacheBlockZero
  | .storeConditional | .storeConditionalFail | .lockedRmwWrite | .atomic | .atomicNoReturn
  | .prefetchWrite | .invalidateWritable =>
    .ok ((R.acceptReadUnique before requester).decision line request.id before)
  | .storeConditionalUpgrade | .upgrade =>
    (R.acceptUpgrade line before requester).map (·.decision line request.id before)
  | .writebackDirty => departs (R.acceptDirtyWriteback line before requester)
  | .writeClean | .cleanShared => departs (R.acceptWriteClean line before requester)
  | .writebackClean | .cleanEvict | .invalidate =>
    departs (R.acceptCleanDeparture line before requester)

/-- Decide on a request and store the record it leaves. -/
def accept (R : DirectoryRules D S E) (lines : Nat → D) (request : MemoryRequest) :
    Except DirectoryError (DirectoryDecision D S E) × (Nat → D) :=
  match decideLine R request.lineAddress (lines request.lineAddress) request with
  | .error e => (.error e, lines)
  | .ok decision => (.ok decision, Function.update lines request.lineAddress decision.after)

/-- The three requests a controller sends downstream. -/
inductive RequestKind where
  | readShared | readUnique | upgrade
deriving DecidableEq, Repr

def RequestKind.operation : RequestKind → MemoryOperation
  | .readShared => .readShared
  | .readUnique => .readUnique
  | .upgrade => .upgrade

/-- What the directory does for one of the three. -/
def handle (R : DirectoryRules D S E) (line : Nat) (before : D) (requester : AgentId) :
    RequestKind → Except DirectoryError (Handled D S E)
  | .readShared => .ok (R.acceptReadShared before requester)
  | .readUnique => .ok (R.acceptReadUnique before requester)
  | .upgrade => R.acceptUpgrade line before requester

/-- The dispatch, for a request a controller sends. -/
theorem accept_of_kind {line ag req kind} (R : DirectoryRules D S E) (lines : Nat → D)
    (hop : req.operation = kind.operation) (hline : req.lineAddress = line)
    (hag : req.id.agent = ag) :
    accept R lines req = match handle R line (lines line) ag kind with
        | .error e => (.error e, lines)
        | .ok handled => (.ok (handled.decision line req.id (lines line)),
            Function.update lines line handled.after) := by
  subst hline hag
  unfold accept decideLine
  cases kind with
  | readShared | readUnique =>
    simp only [hop, RequestKind.operation, handle]
    rfl
  | upgrade =>
    simp only [hop, RequestKind.operation, handle]
    cases R.acceptUpgrade req.lineAddress (lines req.lineAddress) req.id.agent with
    | error e | ok handled => rfl

end Rem6.Directory
