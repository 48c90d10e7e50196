import Rem6.Memory.Types

/-!
# The Four Line Protocols

The state machines of the MSI, MESI, MOESI and CHI crates. Each is a table from
a line state and an event to the next state; an entry that is missing is an
event the line refuses.

The four controllers that drive these tables differ in the table and in four
small choices, and in nothing else. `LineProtocol` is what a controller needs
to know about its table, so that the controller is written once. The entries
are the source's, including those no harness can reach, such as the shared
dirty states of CHI.

A refusal carries the source's reason: a processor request to a line that is
already waiting is busy, anything else is unexpected. The actions a transition
lists and the trace it leaves are not modelled, since nothing reads them back.

## Main definitions

* `LineProtocol`: A table, with what a controller has to know about it.
* `MsiState`, `MesiState`, `MoesiState`, `ChiState`: The line states.
* `msi`, `mesi`, `moesi`, `chi`: The four protocols.
* `LineProtocol.apply`: One event, or the reason it is refused.
* `MoesiSnapshot.validate`: The MOESI crate's check on a vector of line states.
-/

namespace Rem6.Protocol

open Memory

/-- Why a line refuses an event. -/
inductive ProtocolError (S E : Type) where
  | busy (agent : AgentId) (line : Nat) (state : S) (event : E)
  | unexpectedEvent (agent : AgentId) (line : Nat) (state : S) (event : E)
deriving DecidableEq, Repr

/-- A line state machine, and what the controllers have to know about it. -/
structure LineProtocol (S E : Type) where
  invalid : S
  isStable : S → Bool
  (cpuRead cpuWrite : E)
  (isCpuRequest isDataResponse : E → Bool)
  /-- The table: the state after an accepted event. -/
  transition : S → E → Option S
  /-- A write from this state asks for ownership only, the data being held. -/
  upgradesFrom : S → Bool
  /-- The fill event a miss waits for, where the controller fixes it when it
      misses. The other controllers take it from the directory's grant. -/
  missFillEvent : S → Option E

variable {S E : Type}

def LineProtocol.isTransient (P : LineProtocol S E) (state : S) : Bool := !P.isStable state

/-- One event on a line. -/
def LineProtocol.apply (P : LineProtocol S E) (agent : AgentId) (line : Nat) (state : S)
    (event : E) : Except (ProtocolError S E) S :=
  match P.transition state event with
  | some after => .ok after
  | none =>
    if P.isTransient state && P.isCpuRequest event then .error (.busy agent line state event)
    else .error (.unexpectedEvent agent line state event)

variable {st after : S} {line : Nat}

theorem LineProtocol.apply_of_some {ev ag} {P : LineProtocol S E}
    (h : P.transition st ev = some after) :
    P.apply ag line st ev = .ok after := by
  rw [LineProtocol.apply, h]

theorem LineProtocol.apply_eq_ok {ag ev} {P : LineProtocol S E} :
    P.apply ag line st ev = .ok after ↔ P.transition st ev = some after := by
  refine ⟨fun h => ?_, LineProtocol.apply_of_some⟩
  unfold LineProtocol.apply at h
  cases ht : P.transition st ev with
  | some s =>
    rw [ht] at h
    exact congrArg some (Except.ok.inj h)
  | none =>
    simp only [ht] at h
    split at h <;> cases h

/-! ## MSI -/

inductive MsiState where
  | invalid | shared | modified | invalidToShared | invalidToModified | sharedToModified
deriving DecidableEq, Repr

inductive MsiEvent where
  | cpuRead | cpuWrite | dataShared | dataModified | snoopRead | snoopWrite
deriving DecidableEq, Repr

def MsiEvent.isCpuRequest : MsiEvent → Bool
  | .cpuRead | .cpuWrite => true
  | _ => false

def MsiEvent.isDataResponse : MsiEvent → Bool
  | .dataShared | .dataModified => true
  | _ => false

def MsiState.isStable : MsiState → Bool
  | .invalid | .shared | .modified => true
  | _ => false

def MsiState.transition : MsiState → MsiEvent → Option MsiState
  | .invalid, .cpuRead => some .invalidToShared
  | .invalid, .cpuWrite => some .invalidToModified
  | .invalid, .snoopRead | .invalid, .snoopWrite => some .invalid
  | .shared, .cpuRead => some .shared
  | .shared, .cpuWrite => some .sharedToModified
  | .shared, .snoopRead => some .shared
  | .shared, .snoopWrite => some .invalid
  | .modified, .cpuRead | .modified, .cpuWrite => some .modified
  | .modified, .snoopRead => some .shared
  | .modified, .snoopWrite => some .invalid
  | .invalidToShared, .dataShared => some .shared
  | .invalidToModified, .dataModified | .sharedToModified, .dataModified => some .modified
  | _, _ => none

/-- The MSI controller fixes the fill event when it misses. -/
def MsiState.missFillEvent : MsiState → Option MsiEvent
  | .invalidToShared => some .dataShared
  | .invalidToModified | .sharedToModified => some .dataModified
  | _ => none

def msi : LineProtocol MsiState MsiEvent where
  invalid := .invalid
  isStable := MsiState.isStable
  cpuRead := .cpuRead
  cpuWrite := .cpuWrite
  isCpuRequest := MsiEvent.isCpuRequest
  isDataResponse := MsiEvent.isDataResponse
  transition := MsiState.transition
  upgradesFrom state := state = .shared
  missFillEvent := MsiState.missFillEvent

/-! ## MESI -/

inductive MesiState where
  | invalid | shared | exclusive | modified | invalidToShared | invalidToExclusive
  | invalidToModified | sharedToModified
deriving DecidableEq, Repr

inductive MesiEvent where
  | cpuRead | cpuWrite | dataShared | dataExclusive | dataModified | snoopRead | snoopWrite
deriving DecidableEq, Repr

def MesiEvent.isCpuRequest : MesiEvent → Bool
  | .cpuRead | .cpuWrite => true
  | _ => false

def MesiEvent.isDataResponse : MesiEvent → Bool
  | .dataShared | .dataExclusive | .dataModified => true
  | _ => false

def MesiState.isStable : MesiState → Bool
  | .invalid | .shared | .exclusive | .modified => true
  | _ => false

def MesiState.isValid : MesiState → Bool
  | .shared | .exclusive | .modified => true
  | _ => false

def MesiState.isOwned : MesiState → Bool
  | .exclusive | .modified => true
  | _ => false

def MesiState.transition : MesiState → MesiEvent → Option MesiState
  | .invalid, .cpuRead => some .invalidToExclusive
  | .invalid, .cpuWrite => some .invalidToModified
  | .invalid, .snoopRead | .invalid, .snoopWrite => some .invalid
  | .shared, .cpuRead => some .shared
  | .shared, .cpuWrite => some .sharedToModified
  | .shared, .snoopRead => some .shared
  | .shared, .snoopWrite => some .invalid
  | .exclusive, .cpuRead => some .exclusive
  | .exclusive, .cpuWrite => some .modified
  | .exclusive, .snoopRead => some .shared
  | .exclusive, .snoopWrite => some .invalid
  | .modified, .cpuRead | .modified, .cpuWrite => some .modified
  | .modified, .snoopRead => some .shared
  | .modified, .snoopWrite => some .invalid
  | .invalidToShared, .dataShared | .invalidToExclusive, .dataShared => some .shared
  | .invalidToExclusive, .dataExclusive => some .exclusive
  | .invalidToModified, .dataModified | .sharedToModified, .dataModified => some .modified
  | _, _ => none

def mesi : LineProtocol MesiState MesiEvent where
  invalid := .invalid
  isStable := MesiState.isStable
  cpuRead := .cpuRead
  cpuWrite := .cpuWrite
  isCpuRequest := MesiEvent.isCpuRequest
  isDataResponse := MesiEvent.isDataResponse
  transition := MesiState.transition
  upgradesFrom state := state = .shared
  missFillEvent _ := none

/-! ## MOESI -/

inductive MoesiState where
  | invalid | shared | exclusive | owned | modified | invalidToShared | invalidToExclusive
  | invalidToModified | sharedToModified | ownedToModified
deriving DecidableEq, Repr

inductive MoesiEvent where
  | cpuRead | cpuWrite | dataShared | dataExclusive | dataModified | snoopRead | snoopWrite
deriving DecidableEq, Repr

def MoesiEvent.isCpuRequest : MoesiEvent → Bool
  | .cpuRead | .cpuWrite => true
  | _ => false

def MoesiEvent.isDataResponse : MoesiEvent → Bool
  | .dataShared | .dataExclusive | .dataModified => true
  | _ => false

def MoesiState.isStable : MoesiState → Bool
  | .invalid | .shared | .exclusive | .owned | .modified => true
  | _ => false

def MoesiState.isValid : MoesiState → Bool
  | .shared | .exclusive | .owned | .modified => true
  | _ => false

def MoesiState.isDirtyOwner : MoesiState → Bool
  | .owned | .modified => true
  | _ => false

def MoesiState.transition : MoesiState → MoesiEvent → Option MoesiState
  | .invalid, .cpuRead => some .invalidToExclusive
  | .invalid, .cpuWrite => some .invalidToModified
  | .invalid, .snoopRead | .invalid, .snoopWrite => some .invalid
  | .shared, .cpuRead => some .shared
  | .shared, .cpuWrite => some .sharedToModified
  | .shared, .snoopRead => some .shared
  | .shared, .snoopWrite => some .invalid
  | .exclusive, .cpuRead => some .exclusive
  | .exclusive, .cpuWrite => some .modified
  | .exclusive, .snoopRead => some .shared
  | .exclusive, .snoopWrite => some .invalid
  | .owned, .cpuRead => some .owned
  | .owned, .cpuWrite => some .ownedToModified
  | .owned, .snoopRead => some .owned
  | .owned, .snoopWrite => some .invalid
  | .modified, .cpuRead | .modified, .cpuWrite => some .modified
  | .modified, .snoopRead => some .owned
  | .modified, .snoopWrite => some .invalid
  | .invalidToShared, .dataShared | .invalidToExclusive, .dataShared => some .shared
  | .invalidToExclusive, .dataExclusive => some .exclusive
  | .invalidToModified, .dataModified | .sharedToModified, .dataModified
  | .ownedToModified, .dataModified => some .modified
  | _, _ => none

def moesi : LineProtocol MoesiState MoesiEvent where
  invalid := .invalid
  isStable := MoesiState.isStable
  cpuRead := .cpuRead
  cpuWrite := .cpuWrite
  isCpuRequest := MoesiEvent.isCpuRequest
  isDataResponse := MoesiEvent.isDataResponse
  transition := MoesiState.transition
  upgradesFrom state := state = .shared || state = .owned
  missFillEvent _ := none

/-- Why a vector of MOESI states is incoherent. -/
inductive MoesiSnapshotError where
  | multipleDirtyOwners (line : Nat) (owners : List AgentId)
  | multipleOwners (line : Nat) (owners : List AgentId)
  | exclusiveWithSharers (line : Nat) (owner : AgentId) (sharers : List AgentId)
  | modifiedWithSharers (line : Nat) (owner : AgentId) (sharers : List AgentId)
deriving DecidableEq, Repr

/-- The line states of the caches the snapshot was given, in its order. -/
structure MoesiSnapshot where
  line : Nat
  caches : List (AgentId × MoesiState)
deriving DecidableEq, Repr

/-- The agents of a snapshot whose state passes a test. -/
def MoesiSnapshot.agentsIn (snapshot : MoesiSnapshot) (test : MoesiState → Bool) : List AgentId :=
  (snapshot.caches.filter fun c => test c.2).map Prod.fst

/-- An owner that has to be alone is refused together with any other holder. -/
def checkAlone (owner : Option AgentId) (others : List AgentId)
    (error : AgentId → List AgentId → MoesiSnapshotError) : Except MoesiSnapshotError Unit :=
  match owner with
  | some owner => if others ≠ [] then .error (error owner others) else .ok ()
  | none => .ok ()

/-- The MOESI crate's own check on a vector of line states. -/
def MoesiSnapshot.validate (snapshot : MoesiSnapshot) : Except MoesiSnapshotError Unit :=
  let dirtyOwners := snapshot.agentsIn MoesiState.isDirtyOwner
  let owners := snapshot.agentsIn fun s => s = .exclusive || s = .owned || s = .modified
  if 1 < dirtyOwners.length then .error (.multipleDirtyOwners snapshot.line dirtyOwners)
  else if 1 < owners.length then .error (.multipleOwners snapshot.line owners)
  else do
    checkAlone (snapshot.agentsIn fun s => s = .exclusive).head?
      (snapshot.agentsIn fun s => s = .shared || s = .owned) (.exclusiveWithSharers snapshot.line)
    checkAlone (snapshot.agentsIn fun s => s = .modified).head?
      (snapshot.agentsIn fun s => s = .shared) (.modifiedWithSharers snapshot.line)

/-! ## CHI -/

inductive ChiState where
  | invalid | sharedClean | sharedDirty | uniqueClean | uniqueDirty | invalidToSharedClean
  | invalidToUniqueDirty | sharedCleanToUniqueClean | sharedDirtyToUniqueDirty
deriving DecidableEq, Repr

inductive ChiEvent where
  | cpuRead | cpuWrite | compDataSharedClean | compDataSharedDirty | compDataUniqueClean
  | compDataUniqueDirty | snoopShared | snoopUnique
deriving DecidableEq, Repr

def ChiState.isStable : ChiState → Bool
  | .invalid | .sharedClean | .sharedDirty | .uniqueClean | .uniqueDirty => true
  | _ => false

def ChiState.isValid : ChiState → Bool
  | .sharedClean | .sharedDirty | .uniqueClean | .uniqueDirty => true
  | _ => false

def ChiState.isUnique : ChiState → Bool
  | .uniqueClean | .uniqueDirty => true
  | _ => false

def ChiEvent.isCpuRequest : ChiEvent → Bool
  | .cpuRead | .cpuWrite => true
  | _ => false

def ChiEvent.isDataResponse : ChiEvent → Bool
  | .compDataSharedClean | .compDataSharedDirty | .compDataUniqueClean
  | .compDataUniqueDirty => true
  | _ => false

def ChiState.transition : ChiState → ChiEvent → Option ChiState
  | .invalid, .cpuRead => some .invalidToSharedClean
  | .invalid, .cpuWrite => some .invalidToUniqueDirty
  | .invalid, .snoopShared | .invalid, .snoopUnique => some .invalid
  | .sharedClean, .cpuRead => some .sharedClean
  | .sharedDirty, .cpuRead => some .sharedDirty
  | .uniqueClean, .cpuRead => some .uniqueClean
  | .uniqueDirty, .cpuRead => some .uniqueDirty
  | .sharedClean, .cpuWrite => some .sharedCleanToUniqueClean
  | .sharedDirty, .cpuWrite => some .sharedDirtyToUniqueDirty
  | .uniqueClean, .cpuWrite | .uniqueDirty, .cpuWrite => some .uniqueDirty
  | .sharedClean, .snoopShared => some .sharedClean
  | .sharedDirty, .snoopShared => some .sharedDirty
  | .uniqueClean, .snoopShared | .uniqueDirty, .snoopShared => some .sharedClean
  | .sharedClean, .snoopUnique | .sharedDirty, .snoopUnique | .uniqueClean, .snoopUnique
  | .uniqueDirty, .snoopUnique => some .invalid
  | .invalidToSharedClean, .compDataSharedClean => some .sharedClean
  | .invalidToSharedClean, .compDataSharedDirty => some .sharedDirty
  | .sharedCleanToUniqueClean, .compDataUniqueClean => some .uniqueClean
  | .invalidToUniqueDirty, .compDataUniqueDirty | .sharedCleanToUniqueClean, .compDataUniqueDirty
  | .sharedDirtyToUniqueDirty, .compDataUniqueDirty | .invalidToUniqueDirty, .compDataUniqueClean
  | .sharedDirtyToUniqueDirty, .compDataUniqueClean => some .uniqueDirty
  | _, _ => none

def chi : LineProtocol ChiState ChiEvent where
  invalid := .invalid
  isStable := ChiState.isStable
  cpuRead := .cpuRead
  cpuWrite := .cpuWrite
  isCpuRequest := ChiEvent.isCpuRequest
  isDataResponse := ChiEvent.isDataResponse
  transition := ChiState.transition
  upgradesFrom state := state = .sharedClean || state = .sharedDirty
  missFillEvent _ := none

end Rem6.Protocol
