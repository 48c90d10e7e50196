import Rem6.Cache.Accepts
import Rem6.Cache.WriteQueue
import Rem6.Lib.Assoc

/-!
# The MSI Cache Bank

A cache bank is a collection of line controllers behind a miss queue and a write
queue. Requests for a line that is being fetched wait in the miss queue, what
has to go back to memory waits in the write queue, and a directory or one of two
tag stores tells the bank which lines have to make room for a filled one.

Which lines make room is left open. The replacement directory, the sector tags
and the compressed tags are parameters with a state of their own and any answers
at all, so whatever is proved holds of every replacement policy, every way of
sharing a tag and every compression.

A method fails where the source returns an error and keeps what it did so far.
The error `panicked` stands for an `expect` of the source that does not hold.

## Main definitions

* `TagRules`, `Backends`: What the bank asks of the components it is built with.
* `MsiCacheBank`: The bank.
* `acceptCpuRequest`, `acceptFill`, `acceptSnoop`, `issueWriteQueue`: Its
  methods.
* `BankCall`, `MsiCacheBank.perform`, `MsiCacheBank.next`: The same as one type of
  calls.
-/

namespace Rem6.Cache

open Memory Protocol Lib Fallible CacheWriteQueue MemoryResponse Assoc

abbrev MsiController := CacheController MsiState MsiEvent

inductive TargetOutcome where
  | respond (response : MemoryResponse)
  | noResponse
deriving DecidableEq, Repr

/-- A component that decides which lines make room, with its answer to a line
    that is taken in. -/
structure TagRules (τ ε ρ : Type) where
  install : Nat → Option Nat → Fallible τ ε ρ
  (touch invalidate : Nat → Fallible τ ε Unit)
  restore : τ → Fallible τ ε Unit

/-- The components a bank may be built with. The directory gives up one line at
    a time, a tag that is shared gives up several. -/
structure Backends (δ τ κ ε : Type) where
  directory : TagRules δ ε (Option Nat)
  sectors : TagRules τ ε (List Nat)
  compressed : TagRules κ ε (List Nat)

/-- What a response from memory is awaited for. -/
inductive PendingBankFill where
  | line (line : Nat) (mshr : Option Nat)
  | uncacheable (original : MemoryRequest) (blockedBy : Option Nat)

inductive MsiCacheBankError (ε : Type) where
  | controller (error : CacheControllerError MsiState MsiEvent)
  | mshr (error : MshrQueueError)
  | writeQueue (error : CacheWriteQueueError)
  | backend (error : ε)
  | wrongAgent (expected actual : AgentId)
  | lineLayoutMismatch (request : MemoryRequestId) (expected actual : Nat)
  | writeQueueDisabled
  | writeQueueConflict (line : Nat)
  | pendingUncacheableConflict (line : Nat)
  | uncacheableBypassRequiresCleanLine (line : Nat)
  | dirtyReplacementRequiresWriteQueue (line : Nat)
  | transientReplacementRequiresStableLine (line : Nat)
  | unknownPendingFill (response : MemoryRequestId)
  | unknownUncacheableWriteResponse (response : MemoryRequestId)
  | unknownSnoopLine (line : Nat)
  | snapshotIdentityMismatch (line : Nat)
  | snapshotMshrModeMismatch | panicked
deriving DecidableEq, Repr

/-- What a bank reports. -/
structure MsiCacheBankResult where
  kind : ResultKind
  state : MsiState
  downstreamRequest : Option MemoryRequest
  postFillDownstreamRequests : List MemoryRequest
  targetOutcomes : List TargetOutcome

structure MsiCacheBank (δ τ κ : Type) where
  agent : AgentId
  layout : CacheLineLayout
  nextSequence : Nat
  lines : Nat → Option MsiController
  pendingFills : List (MemoryRequestId × PendingBankFill)
  inflightUncacheableWrites : List (MemoryRequestId × MemoryRequest)
  mshr : Option MshrQueue
  writeQueue : Option CacheWriteQueue
  replacementDirectory : Option δ
  sectorTags : Option τ
  compressedTags : Option κ

namespace MsiCacheBank

variable {δ τ κ ε α : Type}

/-- A computation of the bank. -/
abbrev Bank (δ τ κ ε α : Type) : Type := Fallible (MsiCacheBank δ τ κ) (MsiCacheBankError ε) α

/-- A bank without lines, over whatever it is configured with. -/
def new (agent : AgentId) (layout : CacheLineLayout) (mshrConfig : Option MshrQueueConfig)
    (writeQueueConfig : Option CacheWriteQueueConfig) (directory : Option δ) (sectors : Option τ)
    (compressed : Option κ) : MsiCacheBank δ τ κ where
  agent
  layout
  nextSequence := 0
  lines := fun _ => none
  pendingFills := []
  inflightUncacheableWrites := []
  mshr := mshrConfig.map MshrQueue.new
  writeQueue := writeQueueConfig.map CacheWriteQueue.new
  replacementDirectory := directory
  sectorTags := sectors
  compressedTags := compressed

/-! ## Parts -/

variable (bank : MsiCacheBank δ τ κ)

def setLine (line : Nat) (c : Option MsiController) : MsiCacheBank δ τ κ :=
  { bank with lines := Function.update bank.lines line c }

variable {line other : Nat}

@[simp]
theorem lines_setLine_self {c} : (bank.setLine line c).lines line = c := Function.update_self ..

theorem lines_setLine_of_ne {c} (h : other ≠ line) :
    (bank.setLine line c).lines other = bank.lines other :=
  Function.update_of_ne h ..

def residentState (line : Nat) : Option MsiState := (bank.lines line).map (·.state)

/-- The state of a line, invalid where the bank has none. -/
def stateAt (line : Nat) : MsiState := (bank.residentState line).getD .invalid

/-- A computation on the write queue. -/
def onWriteQueue (m : Fallible CacheWriteQueue CacheWriteQueueError α) : Bank δ τ κ ε α :=
  fun bank =>
    match bank.writeQueue with
    | none => (.error .writeQueueDisabled, bank)
    | some queue => ((m queue).1.mapError .writeQueue, { bank with writeQueue := some (m queue).2 })

/-- A computation on the miss queue. -/
def onMshr (m : Fallible MshrQueue MshrQueueError α) : Bank δ τ κ ε α :=
  fun bank =>
    match bank.mshr with
    | none => (.error .panicked, bank)
    | some queue => ((m queue).1.mapError .mshr, { bank with mshr := some (m queue).2 })

/-- A computation on a component, if the bank has it. -/
def onComponent {θ : Type} (part : MsiCacheBank δ τ κ → Option θ)
    (put : MsiCacheBank δ τ κ → θ → MsiCacheBank δ τ κ) (m : Fallible θ ε α) :
    Bank δ τ κ ε (Option α) :=
  fun bank =>
    match part bank with
    | none => (.ok none, bank)
    | some component => (((m component).1.map some).mapError .backend, put bank (m component).2)

def onDirectory (m : Fallible δ ε α) : Bank δ τ κ ε (Option α) :=
  onComponent (·.replacementDirectory)
    (fun bank d => { bank with replacementDirectory := some d }) m

def onSectors (m : Fallible τ ε α) : Bank δ τ κ ε (Option α) :=
  onComponent (·.sectorTags) (fun bank t => { bank with sectorTags := some t }) m

def onCompressed (m : Fallible κ ε α) : Bank δ τ κ ε (Option α) :=
  onComponent (·.compressedTags) (fun bank t => { bank with compressedTags := some t }) m

/-! ## Checks -/

def validateRequestAgent (request : MemoryRequest) : Except (MsiCacheBankError ε) Unit :=
  if request.id.agent ≠ bank.agent then .error (.wrongAgent bank.agent request.id.agent)
  else .ok ()

def validateWriteQueueRequest (request : MemoryRequest) : Except (MsiCacheBankError ε) Unit := do
  bank.validateRequestAgent request
  if request.lineLayout.bytes ≠ bank.layout.bytes then
    .error (.lineLayoutMismatch request.id bank.layout.bytes request.lineLayout.bytes)
  else .ok ()

def writeQueuePendingConflict (line : Nat) (secure : Bool) : Option Nat :=
  bank.writeQueue.bind fun queue => queue.pendingConflict (bank.layout.lineAddress line) secure

/-- A line with an uncacheable atomic on its way is left alone. -/
def pendingAtomicConflict (line : Nat) : Bool :=
  bank.pendingFills.any fun entry =>
    match entry.2 with
    | .uncacheable original _ => original.lineAddress = line && original.operation.isAtomic
    | .line _ _ => false

def memoryError (e : MemoryError) : MsiCacheBankError ε := .controller (.memory e)

/-- A result of the bank's own, answered at once or not at all. -/
def plainResult (kind : ResultKind) (state : MsiState) (downstream : Option MemoryRequest)
    (outcome : Option MemoryResponse) : MsiCacheBankResult :=
  ⟨kind, state, downstream, [], (outcome.map .respond).toList⟩

def ofController (result : CacheControllerResult MsiState) : MsiCacheBankResult :=
  plainResult result.kind result.state result.downstreamRequest result.targetOutcome

section

variable (request : MemoryRequest)

def noAccess (line : Nat) :
    Except (MsiCacheBankError ε) MsiCacheBankResult :=
  match completed request none with
  | .error e => .error (memoryError e)
  | .ok response => .ok (plainResult .hit (bank.stateAt line) none (some response))

/-- A read of a line with queued writes is answered from the queue where it has
    all the bytes; every other request for such a line is refused. -/
def acceptWriteQueueConflict :
    Except (MsiCacheBankError ε) (Option MsiCacheBankResult) :=
  let line := request.lineAddress
  if (bank.writeQueuePendingConflict line false).isNone then .ok none
  else if request.returnsData && !request.carriesData && !request.operation.requiresWritable then
    match bank.writeQueue with
    | none => .error .writeQueueDisabled
    | some queue =>
      match queue.satisfyRead request.range.start request.size false with
      | .error e => .error (.writeQueue e)
      | .ok none => .error (.writeQueueConflict line)
      | .ok (some data) =>
        match completed request (some data) with
        | .error e => .error (memoryError e)
        | .ok response => .ok (some (plainResult .hit (bank.stateAt line) none (some response)))
  else .error (.writeQueueConflict line)

/-- Reads that only need the line, one line, may share a fetch. -/
def isCoalescibleRead : Bool :=
  match request.operation with
  | .instructionFetch | .readShared | .prefetchRead => request.lineSpan = 1
  | _ => false

def isMsiWrite : Bool :=
  match request.operation with
  | .instructionFetch | .readShared | .prefetchRead => false
  | _ => true

def isCleanMaintenance : Bool :=
  match request.operation with
  | .cleanShared | .invalidate => true
  | _ => false

end

def canMergePendingReadMiss (line : Nat) (request : MemoryRequest) : Bool :=
  isCoalescibleRead request && (bank.mshr.bind (·.findLine line)).isSome

/-- A request that is about to miss needs a free entry. -/
def shouldPreflightMshrAllocation (line : Nat) (request : MemoryRequest) : Bool :=
  match bank.mshr with
  | none => false
  | some queue =>
    if (queue.findLine line).isSome then false
    else
      match bank.residentState line with
      | none | some .invalid => true
      | some .shared => isMsiWrite request
      | some _ => false

/-! ## Making room -/

/-- Only clean lines that are not being fetched make room. -/
def validateVictim (victim : Nat) : Except (MsiCacheBankError ε) Unit :=
  match bank.residentState victim with
  | some .modified => .error (.dirtyReplacementRequiresWriteQueue victim)
  | some .invalidToShared | some .invalidToModified | some .sharedToModified =>
    .error (.transientReplacementRequiresStableLine victim)
  | some .shared | some .invalid | none => .ok ()

def validateCleanStableVictims : List Nat → Except (MsiCacheBankError ε) Unit
  | [] => .ok ()
  | victim :: rest => do
    bank.validateVictim victim
    validateCleanStableVictims rest

/-- Give a line up, and with it what was awaited for it. -/
def evict (victim : Nat) : MsiCacheBank δ τ κ :=
  { bank.setLine victim none with
    pendingFills := bank.pendingFills.filter fun entry =>
      match entry.2 with
      | .line line _ => line ≠ victim
      | .uncacheable _ _ => true }

variable (B : Backends δ τ κ ε)

/-- Take a line into one of the tag stores. The store is put back as it was when
    one of the lines it gives up has to stay. -/
def installTagLine {θ : Type} (part : MsiCacheBank δ τ κ → Option θ)
    (on : {α : Type} → Fallible θ ε α → Bank δ τ κ ε (Option α))
    (rules : TagRules θ ε (List Nat)) (line : Nat) (bits : Option Nat) : Bank δ τ κ ε Unit := do
  let bank ← get
  match part bank with
  | none => pure ()
  | some snapshot =>
    let victims := (← on (rules.install line bits)).getD []
    match bank.validateCleanStableVictims victims with
    | .error e => do
      let _ ← on (rules.restore snapshot)
      fail e
    | .ok () =>
      modify fun bank => (victims.filter (· ≠ bank.layout.lineAddress line)).foldl evict bank

def installReplacementLine (line : Nat) (bits : Option Nat) : Bank δ τ κ ε Unit := do
  let bank ← get
  match bank.replacementDirectory with
  | some _ =>
    match (← onDirectory (B.directory.install line bits)).join with
    | none => pure ()
    | some victim =>
      if victim = bank.layout.lineAddress line then pure ()
      else do
        check (bank.validateVictim victim)
        modify (evict · victim)
  | none =>
    if bank.sectorTags.isSome then installTagLine (·.sectorTags) onSectors B.sectors line bits
    else installTagLine (·.compressedTags) onCompressed B.compressed line bits

def removeResidentLine (line : Nat) : Bank δ τ κ ε Unit := do
  modify (setLine · line none)
  let _ ← onDirectory (B.directory.invalidate line)
  let _ ← onSectors (B.sectors.invalidate line)
  let _ ← onCompressed (B.compressed.invalidate line)

def touchReplacementLine (line : Nat) : Bank δ τ κ ε Unit := do
  let _ ← onDirectory (B.directory.touch line)
  let _ ← onSectors (B.sectors.touch line)
  let _ ← onCompressed (B.compressed.touch line)

/-! ## Uncacheable requests -/

/-- The write-back of a line that is modified. -/
def dirtyResidentWritebackRequest (line : Nat) :
    Except (MsiCacheBankError ε) (Option MemoryRequest) :=
  match bank.lines line with
  | none => .ok none
  | some c =>
    if c.state ≠ .modified then .ok none
    else
      match c.data with
      | none => .error (.controller (.lineDataUnavailable line))
      | some data =>
        match MemoryRequest.writebackDirty ⟨bank.agent, bank.nextSequence⟩ line data
            bank.layout with
        | .error e => .error (memoryError e)
        | .ok request => .ok (some request)

def requireWriteQueueEntries (entries : Nat) : Except (MsiCacheBankError ε) Unit :=
  match bank.writeQueue with
  | none => .error .writeQueueDisabled
  | some queue =>
    if queue.config.entries < queue.allocatedCount + entries then
      .error (.writeQueue (.entrySlotsFull queue.config.entries queue.config.reserve))
    else .ok ()

def canBypassUncacheableResidentLine (line : Nat) : Bool :=
  match bank.residentState line with
  | none | some .invalid | some .shared => true
  | _ => false

/-- Queue the write-back of a modified line and let the line go. -/
def enqueueDirtyResidentWritebackAndRemove (request : MemoryRequest) (line : Nat)
    (requiredEntries : Nat) : Bank δ τ κ ε (Option Nat) := do
  let bank ← get
  match ← check (bank.dirtyResidentWritebackRequest line) with
  | none => pure none
  | some writeback => do
    check (bank.validateWriteQueueRequest request)
    check (bank.requireWriteQueueEntries requiredEntries)
    let update ← onWriteQueue (enqueueWriteback writeback false 0)
    modify fun bank => { bank with nextSequence := bank.nextSequence + 1 }
    removeResidentLine B line
    pure (some update.handle)

def insertPendingFill (id : MemoryRequestId) (pending : PendingBankFill) : Bank δ τ κ ε Unit :=
  modify fun bank => { bank with pendingFills := insert bank.pendingFills id pending }

def acceptUncacheableRequest (request : MemoryRequest) : Bank δ τ κ ε MsiCacheBankResult := do
  let line := request.lineAddress
  match ← enqueueDirtyResidentWritebackAndRemove B request line 1 with
  | some writeback => do
    insertPendingFill request.id (.uncacheable request (some writeback))
    pure (plainResult .miss .invalid none none)
  | none => do
    let bank ← get
    if bank.canBypassUncacheableResidentLine line then do
      removeResidentLine B line
      insertPendingFill request.id (.uncacheable request none)
      pure (plainResult .miss .invalid (some request) none)
    else fail (.uncacheableBypassRequiresCleanLine line)

def acceptUncacheableWriteRequest (request : MemoryRequest) : Bank δ τ κ ε MsiCacheBankResult := do
  let line := request.lineAddress
  match ← enqueueDirtyResidentWritebackAndRemove B request line 2 with
  | some _ => do
    let _ ← onWriteQueue (enqueueUncacheableWrite request false 0)
    pure (plainResult .miss .invalid none none)
  | none => do
    let bank ← get
    if bank.canBypassUncacheableResidentLine line then do
      check (bank.validateWriteQueueRequest request)
      let _ ← onWriteQueue (enqueueUncacheableWrite request false 0)
      removeResidentLine B line
      pure (plainResult .miss .invalid none none)
    else fail (.uncacheableBypassRequiresCleanLine line)

/-! ## Cacheable requests -/

/-- The controller of the line, a new one where the bank has none. -/
def controllerAt (line : Nat) : MsiController :=
  (bank.lines line).getD (CacheController.new msi bank.agent bank.layout line)

/-- Hand the request to the controller of its line. All lines of the bank share
    one sequence of numbers. -/
def acceptAtController (qos : Option MshrQosClass) (request : MemoryRequest) :
    Bank δ τ κ ε MsiCacheBankResult := do
  let bank ← get
  let line := request.lineAddress
  let accepted := CacheController.acceptCpuRequest msi
    { bank.controllerAt line with nextSequence := bank.nextSequence } request
  modify (setLine · line (some accepted.2))
  let result ← check (accepted.1.mapError .controller)
  modify fun bank => { bank with nextSequence := accepted.2.nextSequence }
  match result.downstreamRequest with
  | some downstream =>
    if bank.mshr.isSome then do
      let update ← onMshr (fun queue => queue.allocateOrMerge request 0 .demand true qos)
      insertPendingFill downstream.id (.line line (some update.handle))
    else insertPendingFill downstream.id (.line line none)
  | none => if result.kind = .hit then touchReplacementLine B line else pure ()
  pure (ofController result)

/-- A cacheable request that no queued write is in the way of. -/
def acceptCacheableRequest (qos : Option MshrQosClass) (request : MemoryRequest) :
    Bank δ τ κ ε MsiCacheBankResult := do
  let bank ← get
  let line := request.lineAddress
  if isCleanMaintenance request then
    pure (plainResult .miss (bank.stateAt (bank.layout.lineAddress line)) (some request) none)
  else if request.operation = .writeClean then do
    check (bank.validateWriteQueueRequest request)
    let _ ← onWriteQueue (enqueueWriteback request false 0)
    pure (plainResult .miss (bank.stateAt line) none none)
  else if bank.canMergePendingReadMiss line request then do
    let _ ← onMshr (fun queue => queue.allocateOrMerge request 0 .demand true qos)
    pure (plainResult .miss (bank.stateAt line) none none)
  else if bank.shouldPreflightMshrAllocation line request then
    match bank.mshr with
    | none => fail .panicked
    | some queue => do
      check ((queue.canAllocateEntry .demand).mapError .mshr)
      acceptAtController B qos request
  else acceptAtController B qos request

def acceptCpuRequest (qos : Option MshrQosClass) (request : MemoryRequest) :
    Bank δ τ κ ε MsiCacheBankResult := do
  let bank ← get
  check (bank.validateRequestAgent request)
  let line := request.lineAddress
  if request.operation = .noAccess then check (bank.noAccess request line)
  else if bank.pendingAtomicConflict line then fail (.pendingUncacheableConflict line)
  else if request.uncacheable then
    if (bank.writeQueuePendingConflict line false).isSome then fail (.writeQueueConflict line)
    else if request.operation = .write then acceptUncacheableWriteRequest B request
    else acceptUncacheableRequest B request
  else
    match ← check (bank.acceptWriteQueueConflict request) with
    | some result => pure result
    | none => acceptCacheableRequest B qos request

/-! ## Fills -/

/-- The answer of memory to an uncacheable request. -/
def uncacheableFillOutcome (original : MemoryRequest) (response : MemoryResponse) :
    Except MemoryError MemoryResponse :=
  match response.status with
  | .completed => completed original response.data
  | .retry => .ok (retry original)
  | .storeConditionalFailed => storeConditionalFailed original

def forwardedRequests (targets : List MshrTarget) : List MemoryRequest :=
  (targets.filter fun target => target.postFillAction = .forwardDownstream).map (·.request)

/-- The requests that have to be passed on once the line is there. -/
def postFillRequests (mshr : Option Nat) : Except (MsiCacheBankError ε) (List MemoryRequest) :=
  match mshr with
  | none => .ok []
  | some handle =>
    match bank.mshr with
    | none => .error .snapshotMshrModeMismatch
    | some queue =>
      match queue.entries.find? fun entry => entry.handle = handle with
      | none => .error (.mshr (.unknownEntry handle))
      | some entry => .ok (forwardedRequests entry.targets)

/-- Passing the request on takes a place in the write queue. -/
def isQueueBacked (request : MemoryRequest) : Except (MsiCacheBankError ε) Bool :=
  match request.operation with
  | .writeClean | .writebackClean | .writebackDirty | .cleanEvict => .ok true
  | .cleanShared | .invalidate => .ok false
  | operation => .error (.writeQueue (.writebackOperationRequired operation))

/-- How many places the requests take. -/
def countQueueBacked : List MemoryRequest → Except (MsiCacheBankError ε) Nat
  | [] => .ok 0
  | request :: rest => do
    bank.validateWriteQueueRequest request
    let backed ← isQueueBacked request
    let count ← countQueueBacked rest
    .ok (if backed then count + 1 else count)

def preflightDownstreamRequests (requests : List MemoryRequest) :
    Except (MsiCacheBankError ε) Unit := do
  let count ← bank.countQueueBacked requests
  if count = 0 then .ok () else bank.requireWriteQueueEntries count

def enqueueDownstreamRequests : List MemoryRequest → Bank δ τ κ ε Unit
  | [] => pure ()
  | request :: rest => do
    if ← check (isQueueBacked request) then
      let _ ← onWriteQueue (enqueueWriteback request false 0)
    enqueueDownstreamRequests rest

/-- The bytes of a request on the line the bank now has. -/
def cachedSliceForRequest (request : MemoryRequest) : Except (MsiCacheBankError ε) (List UInt8) :=
  match (bank.lines request.lineAddress).bind (·.data) with
  | none => .error (.controller (.lineDataUnavailable request.lineAddress))
  | some data =>
    if data.length < request.lineOffset + request.size.bytes then
      .error (.controller (.accessOutsideLine request.lineAddress request.range.start request.size))
    else .ok (request.slice data)

/-- The answer of a request that waited for the line, made up from the line as
    it is after the fill. -/
def completeMshrTarget (request : MemoryRequest) : Except (MsiCacheBankError ε) TargetOutcome :=
  if request.responseRequired = false then .ok .noResponse
  else do
    let data ← if request.returnsData then (bank.cachedSliceForRequest request).map some
      else .ok none
    match completed request data with
    | .error e => .error (memoryError e)
    | .ok response => .ok (.respond response)

def targetOutcomesForCompletion :
    List MshrTarget → Except (MsiCacheBankError ε) (List TargetOutcome)
  | [] => .ok []
  | target :: rest =>
    if target.postFillAction = .satisfyLocally then do
      let outcome ← bank.completeMshrTarget target.request
      let outcomes ← targetOutcomesForCompletion rest
      .ok (outcome :: outcomes)
    else targetOutcomesForCompletion rest

/-- Put a controller back as it was. Reservations are not part of a snapshot. -/
def restoreController (c snapshot : MsiController) : Except (MsiCacheBankError ε) MsiController :=
  if c.agent = snapshot.agent ∧ c.line = snapshot.line ∧ c.layout.bytes = snapshot.layout.bytes then
    match snapshot.data with
    | none => .ok { snapshot with lockedReservations := fun _ => none }
    | some data =>
      if data.length ≠ c.layout.bytes then
        .error (.controller (.lineDataSizeMismatch c.layout.bytes data.length))
      else .ok { snapshot with lockedReservations := fun _ => none }
  else .error (.snapshotIdentityMismatch c.line)

/-- Undo a fill that found no room. -/
def undoFill (line : Nat) (snapshot : MsiController) (directory : Option δ) :
    Bank δ τ κ ε Unit := do
  let bank ← get
  match bank.lines line with
  | none => fail .panicked
  | some c => do
    let restored ← check (restoreController c snapshot)
    modify (setLine · line (some restored))
    match directory with
    | none => pure ()
    | some directory => do
      let _ ← onDirectory (B.directory.restore directory)

/-- Answer the requests that waited for the line. -/
def finishMiss (result : CacheControllerResult MsiState) (handle : Nat) :
    Bank δ τ κ ε MsiCacheBankResult := do
  let bank ← get
  if bank.mshr.isNone then fail .snapshotMshrModeMismatch
  else do
    let completion ← onMshr (fun queue => queue.complete handle)
    let forwarded := forwardedRequests completion.targets
    enqueueDownstreamRequests forwarded
    let bank ← get
    let outcomes ← check (bank.targetOutcomesForCompletion completion.targets)
    pure ⟨result.kind, result.state, result.downstreamRequest, forwarded, outcomes⟩

/-- The fill of a line. -/
def acceptLineFill (response : MemoryResponse) (bits : Option Nat) (line : Nat)
    (mshr : Option Nat) : Bank δ τ κ ε MsiCacheBankResult := do
  let bank ← get
  let forwarded ← check (bank.postFillRequests mshr)
  check (bank.preflightDownstreamRequests forwarded)
  match bank.lines line with
  | none => fail .panicked
  | some c => do
    let filled := c.acceptFill msi response none
    modify (setLine · line (some filled.2))
    let result ← check (filled.1.mapError .controller)
    handle (installReplacementLine B line bits) fun e => do
      undoFill B line c bank.replacementDirectory
      fail e
    modify fun bank => { bank with pendingFills := remove bank.pendingFills response.requestId }
    match mshr with
    | some handle => finishMiss result handle
    | none => pure (ofController result)

def acceptFill (response : MemoryResponse) (bits : Option Nat) :
    Bank δ τ κ ε MsiCacheBankResult := do
  let bank ← get
  match find bank.pendingFills response.requestId with
  | none => fail (.unknownPendingFill response.requestId)
  | some (.uncacheable original _) => do
    let outcome ← check ((uncacheableFillOutcome original response).mapError memoryError)
    modify fun bank => { bank with pendingFills := remove bank.pendingFills response.requestId }
    pure (plainResult .fill .invalid none (some outcome))
  | some (.line line mshr) => acceptLineFill B response bits line mshr

/-! ## Snoops and issues -/

def acceptSnoop (address : Nat) (event : MsiEvent) : Bank δ τ κ ε MsiCacheBankResult := do
  let bank ← get
  let line := bank.layout.lineAddress address
  match bank.lines line with
  | none => fail (.unknownSnoopLine line)
  | some c => do
    let snooped := c.acceptSnoop msi event
    modify (setLine · line (some snooped.2))
    let result ← check (snooped.1.mapError .controller)
    pure (ofController result)

/-- The pending request that waited for this write-back. -/
def blockedFill (issue : CacheWriteQueueIssue) : Option (MemoryRequestId × MemoryRequest) :=
  bank.pendingFills.findSome? fun entry =>
    match entry.2 with
    | .uncacheable original blockedBy =>
      if blockedBy = some issue.handle ∧ original.lineAddress = issue.request.lineAddress then
        some (entry.1, original)
      else none
    | .line _ _ => none

/-- A write-back takes the request along that waited for it. -/
def attachPostIssueUncacheableRead (issue : CacheWriteQueueIssue) :
    Bank δ τ κ ε CacheWriteQueueIssue := do
  let bank ← get
  if issue.kind ≠ .writebackDirty then pure issue
  else
    match bank.blockedFill issue with
    | none => pure issue
    | some (id, original) => do
      insertPendingFill id (.uncacheable original none)
      pure { issue with postIssueDownstreamRequest := some original }

def issueWriteQueue (tick : Nat) : Bank δ τ κ ε (Option CacheWriteQueueIssue) := do
  match ← onWriteQueue (issueNext tick) with
  | none => pure none
  | some issue => do
    let issue ← attachPostIssueUncacheableRead issue
    if issue.kind = .uncacheableWrite then
      modify fun bank =>
        { bank with
          inflightUncacheableWrites :=
            insert bank.inflightUncacheableWrites issue.request.id issue.request }
    pure (some issue)

/-- Queue a request on behalf of somebody else. -/
def enqueueWrite (request : MemoryRequest) (secure : Bool) (readyTick : Nat)
    (uncacheable useReserve : Bool) : Bank δ τ κ ε CacheWriteQueueUpdate := do
  let bank ← get
  check (bank.validateWriteQueueRequest request)
  onWriteQueue (enqueue request secure readyTick uncacheable useReserve)

def acceptUncacheableWriteResponse (response : MemoryResponse) : Bank δ τ κ ε TargetOutcome := do
  let bank ← get
  match find bank.inflightUncacheableWrites response.requestId with
  | none => fail (.unknownUncacheableWriteResponse response.requestId)
  | some original => do
    let outcome ← check ((uncacheableFillOutcome original response).mapError memoryError)
    modify fun bank =>
      { bank with
        inflightUncacheableWrites := remove bank.inflightUncacheableWrites response.requestId }
    pure (.respond outcome)

end MsiCacheBank

/-- A call of the bank. Queueing comes in four variants in the source, with and
    without the reserve, for cacheable and uncacheable writes. -/
inductive BankCall where
  | acceptCpuRequest (qos : Option MshrQosClass) (request : MemoryRequest)
  | acceptFill (response : MemoryResponse) (compressedSizeBits : Option Nat)
  | acceptSnoop (address : Nat) (event : MsiEvent)
  | issueWriteQueue (tick : Nat)
  | enqueueWrite (request : MemoryRequest) (secure : Bool) (readyTick : Nat)
      (uncacheable useReserve : Bool)
  | acceptUncacheableWriteResponse (response : MemoryResponse)

/-- What a call returns. -/
inductive BankAnswer where
  | accepted (result : MsiCacheBankResult)
  | issued (issue : Option CacheWriteQueueIssue)
  | queued (update : CacheWriteQueueUpdate)
  | responded (outcome : TargetOutcome)

namespace MsiCacheBank

variable {δ τ κ ε : Type} (B : Backends δ τ κ ε)

def perform : BankCall → Bank δ τ κ ε BankAnswer
  | .acceptCpuRequest qos request => do return .accepted (← acceptCpuRequest B qos request)
  | .acceptFill response bits => do return .accepted (← acceptFill B response bits)
  | .acceptSnoop address event => do return .accepted (← acceptSnoop address event)
  | .issueWriteQueue tick => do return .issued (← issueWriteQueue tick)
  | .enqueueWrite request secure readyTick uncacheable useReserve => do
    return .queued (← enqueueWrite request secure readyTick uncacheable useReserve)
  | .acceptUncacheableWriteResponse response => do
    return .responded (← acceptUncacheableWriteResponse response)

/-- The bank after a call. -/
def next (bank : MsiCacheBank δ τ κ) (call : BankCall) : MsiCacheBank δ τ κ :=
  (perform B call bank).2

end MsiCacheBank

end Rem6.Cache
