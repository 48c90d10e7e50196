import Rem6.Memory.Flat
import Rem6.Protocol.Lines

/-!
# The Cache Controllers

The controller of one agent's copy of one line, for every protocol at once. The
MSI, MESI, MOESI and CHI controllers are the same program over four tables: the
table decides whether a processor request hits, what goes downstream when it
does not, and which fill ends the wait.

Methods take the controller and return it together with the answer, because a
method that fails keeps what it did before it failed. A miss that cannot be
sent downstream, for one, leaves the line waiting for a fill that never comes,
and a hit that is refused for its size has already moved the line to modified.

## Main definitions

* `CacheController`: The controller's record.
* `completeCpuRequest`: Serve a processor request on the line's data.
* `acceptCpuRequest`: Hit, or miss and send a request downstream.
* `acceptFill`, `acceptSnoop`: The answers of the directory side.
-/

namespace Rem6.Cache

open Memory Protocol Lib MemoryResponse

/-- Why a controller refuses. -/
inductive CacheControllerError (S E : Type) where
  | wrongLine (expected actual : Nat)
  | lineBusy (state : S)
  | noPendingMiss
  | unexpectedFill (expected actual : MemoryRequestId)
  | unexpectedFillEvent (event : E)
  | lineDataUnavailable (line : Nat)
  | lineDataSizeMismatch (expected actual : Nat)
  | accessOutsideLine (line address : Nat) (size : AccessSize)
  | protocol (error : ProtocolError S E)
  | memory (error : MemoryError)
deriving DecidableEq, Repr

inductive ResultKind where
  | hit | miss | fill | snoop
deriving DecidableEq, Repr

/-- What a method reports: a response to the processor, or a request to send
    downstream, or neither. -/
structure CacheControllerResult (S : Type) where
  kind : ResultKind
  state : S
  downstreamRequest : Option MemoryRequest
  targetOutcome : Option MemoryResponse

/-- The request a miss is waiting to serve, and the downstream request whose
    answer it waits for. Only the MSI controller fixes the fill event here. -/
structure PendingMiss (E : Type) where
  original : MemoryRequest
  downstream : MemoryRequestId
  fillEvent : Option E

structure CacheController (S E : Type) where
  agent : AgentId
  layout : CacheLineLayout
  line : Nat
  state : S
  nextSequence : Nat
  data : Option (List UInt8)
  pending : Option (PendingMiss E)
  lockedReservations : AgentId → Option Nat

namespace CacheController

variable {S E : Type}

/-- An idle controller without the line. -/
def new (P : LineProtocol S E) (agent : AgentId) (layout : CacheLineLayout)
    (lineAddress : Nat) : CacheController S E where
  agent
  layout
  line := layout.lineAddress lineAddress
  state := P.invalid
  nextSequence := 0
  data := none
  pending := none
  lockedReservations := fun _ => none

/-- Serving the request only needs the line to be readable. Every other request
    asks for the line to write it, even one that stores nothing. -/
def isCpuRead : MemoryOperation → Bool
  | .instructionFetch | .readShared | .loadLocked | .prefetchRead => true
  | _ => false

def cpuEvent (P : LineProtocol S E) (request : MemoryRequest) : E :=
  if isCpuRead request.operation then P.cpuRead else P.cpuWrite

variable (c : CacheController S E)

section

variable (request : MemoryRequest)

def trackLoadLocked : CacheController S E :=
  { c with
    lockedReservations := Function.update c.lockedReservations request.id.agent
      (some request.llscReservationAddress) }

def storeConditionalAllowed : Bool :=
  c.lockedReservations request.id.agent = some request.llscReservationAddress

/-- Drop every reservation the access touches, whoever holds it. -/
def clearLockedReservations : CacheController S E :=
  { c with
    lockedReservations := fun agent =>
      (c.lockedReservations agent).filter fun reserved =>
        !request.overlapsLlscReservation reserved }

def checkedOffset : Except (CacheControllerError S E) Nat :=
  if c.layout.bytes < request.lineOffset + request.size.bytes then
    .error (.accessOutsideLine c.line request.range.start request.size)
  else .ok request.lineOffset

def readSlice : Except (CacheControllerError S E) (List UInt8) := do
  let offset ← c.checkedOffset request
  match c.data with
  | none => .error (.lineDataUnavailable c.line)
  | some data => .ok ((data.drop offset).take request.size.bytes)

def applyStoreData (payload : List UInt8) :
    Except (CacheControllerError S E) (CacheController S E) := do
  let offset ← c.checkedOffset request
  match c.data with
  | none => .error (.lineDataUnavailable c.line)
  | some data => .ok { c with data := some (overlay request.maskAt offset payload data) }

def applyStore :
    Except (CacheControllerError S E) (CacheController S E) :=
  match request.data with
  | none => .error (.memory (.missingRequestData request.id))
  | some payload => c.applyStoreData request payload

/-- The response of a request, as the controllers pass it on. -/
def respond (response : Except MemoryError MemoryResponse) :
    Except (CacheControllerError S E) MemoryResponse :=
  response.mapError .memory

/-- Store, drop the reservations the store touches, and answer. A store that is
    refused changes nothing; an answer that is refused comes too late. -/
def finishStore
    (stored : Except (CacheControllerError S E) (CacheController S E))
    (answer : Option (List UInt8)) :
    Except (CacheControllerError S E) MemoryResponse × CacheController S E :=
  match stored with
  | .error e => (.error e, c)
  | .ok c => (respond (completed request answer), c.clearLockedReservations request)

/-- Serve a processor request on the data of the line. -/
def completeCpuRequest :
    Except (CacheControllerError S E) MemoryResponse × CacheController S E :=
  if request.operation.isAtomic then
    match c.readSlice request with
    | .error e => (.error e, c)
    | .ok data =>
      match request.atomicWriteData data with
      | .error e => (.error (.memory e), c)
      | .ok new =>
        c.finishStore request (c.applyStoreData request new)
          (if request.returnsData then some data else none)
  else if request.operation = .loadLocked then
    match c.readSlice request with
    | .error e => (.error e, c)
    | .ok data => (respond (completed request (some data)), c.trackLoadLocked request)
  else if request.operation = .storeConditional then
    if c.storeConditionalAllowed request then c.finishStore request (c.applyStore request) none
    else (respond (storeConditionalFailed request), c)
  else if request.operation = .storeConditionalFail then
    (respond (storeConditionalFailed request), c)
  else if request.carriesData then c.finishStore request (c.applyStore request) none
  else if request.returnsData then
    match c.readSlice request with
    | .error e => (.error e, c)
    | .ok data => (respond (completed request (some data)), c)
  else (respond (completed request none), c)

end

/-- The request a miss sends downstream: the whole line for reading, ownership
    of a copy already held, or the whole line for writing. The sequence number
    is spent even when the request cannot be built. -/
def downstreamRequest (P : LineProtocol S E) (c : CacheController S E)
    (request : MemoryRequest) (before : S) :
    Except (CacheControllerError S E) MemoryRequest × CacheController S E :=
  let id : MemoryRequestId := ⟨c.agent, c.nextSequence⟩
  let downstream :=
    if isCpuRead request.operation then
      MemoryRequest.readShared id c.line c.layout.lineSize c.layout
    else if P.upgradesFrom before then MemoryRequest.newUpgrade id c.line ⟨1, Nat.one_pos⟩ c.layout
    else MemoryRequest.readUnique id c.line c.layout.lineSize c.layout
  ((downstream.mapError .memory).map (·.withSourceAttributes request),
    { c with nextSequence := c.nextSequence + 1 })

/-- A request from the processor: answered at once on a hit, and on a miss
    turned into a request to the directory. -/
def acceptCpuRequest (P : LineProtocol S E) (c : CacheController S E)
    (request : MemoryRequest) :
    Except (CacheControllerError S E) (CacheControllerResult S) × CacheController S E :=
  if request.lineAddress ≠ c.line then (.error (.wrongLine c.line request.lineAddress), c)
  else if request.operation = .noAccess then
    ((respond (completed request none)).map fun response => ⟨.hit, c.state, none, some response⟩, c)
  else if P.isTransient c.state then (.error (.lineBusy c.state), c)
  else
    match P.apply c.agent c.line c.state (cpuEvent P request) with
    | .error e => (.error (.protocol e), c)
    | .ok after =>
      if P.isTransient after then
        match downstreamRequest P { c with state := after } request c.state with
        | (.error e, c) => (.error e, c)
        | (.ok downstream, c) =>
          (.ok ⟨.miss, after, some downstream, none⟩,
            { c with pending := some ⟨request, downstream.id, P.missFillEvent after⟩ })
      else
        match completeCpuRequest { c with state := after } request with
        | (.error e, c) => (.error e, c)
        | (.ok response, c) => (.ok ⟨.hit, after, none, some response⟩, c)

/-- Take the data a fill brought, if it brought any. New data ends every
    reservation on the old. -/
def installData (data : Option (List UInt8)) :
    Except (CacheControllerError S E) (CacheController S E) :=
  match data with
  | none => .ok c
  | some data =>
    if data.length ≠ c.layout.bytes then .error (.lineDataSizeMismatch c.layout.bytes data.length)
    else .ok { c with data := some data, lockedReservations := fun _ => none }

/-- The directory's answer to a miss: move the line, take the data and serve the
    request that was waiting. The event is the one the directory granted; the
    MSI controller is given none and uses the one it fixed when it missed. -/
def acceptFill (P : LineProtocol S E) (c : CacheController S E) (response : MemoryResponse)
    (granted : Option E) :
    Except (CacheControllerError S E) (CacheControllerResult S) × CacheController S E :=
  match granted.filter fun event => !P.isDataResponse event with
  | some event => (.error (.unexpectedFillEvent event), c)
  | none =>
    match c.pending with
    | none => (.error .noPendingMiss, c)
    | some pending =>
      if response.requestId ≠ pending.downstream then
        (.error (.unexpectedFill pending.downstream response.requestId), c)
      else
        let c := { c with pending := none }
        match granted.or pending.fillEvent with
        -- A controller that is given no event has fixed one when it missed.
        | none => (.error .noPendingMiss, c)
        | some event =>
          match P.apply c.agent c.line c.state event with
          | .error e => (.error (.protocol e), c)
          | .ok after =>
            let c := { c with state := after }
            match c.installData response.data with
            | .error e => (.error e, c)
            | .ok c =>
              match c.completeCpuRequest pending.original with
              | (.error e, c) => (.error e, c)
              | (.ok response, c) => (.ok ⟨.fill, after, none, some response⟩, c)

/-- A snoop from the directory. A line that becomes invalid gives up its data
    and its reservations. -/
def acceptSnoop [DecidableEq S] (P : LineProtocol S E) (c : CacheController S E) (event : E) :
    Except (CacheControllerError S E) (CacheControllerResult S) × CacheController S E :=
  match P.apply c.agent c.line c.state event with
  | .error e => (.error (.protocol e), c)
  | .ok after =>
    let c := { c with state := after }
    (.ok ⟨.snoop, after, none, none⟩,
      if after = P.invalid then { c with data := none, lockedReservations := fun _ => none }
      else c)

end CacheController

end Rem6.Cache
