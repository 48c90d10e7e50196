import Rem6.Directory.Basic
import Rem6.Protocol.Lines

/-!
# The Four Directories

How the MSI, MESI, MOESI and CHI directories answer a request, on the record of
one line.

The first three keep an owner and a set of sharers and share the handlers that
take a line away from everybody or give it back; these are written once, over
the states and events of the protocol. They differ in who may own a line and in
what a reader is told:

* MSI grants a reader shared, always. The owner it displaces is downgraded and
  supplies the data.
* MESI grants the first reader exclusive.
* MOESI keeps a dirty owner as owner when a peer reads, so a line can have an
  owner and sharers. Its upgrade handler is the one that differs: a requester
  that is a sharer takes the line from an owner, too. A requester that is the
  owner is granted modified and *nobody is snooped*, whatever the sharers.

CHI keeps the state of every sharer.

The MSI directory stores the owner alone, an owner being modified; here every
record carries the owner's state.

## Main definitions

* `OwnerLine`, `ChiLine`: The records.
* `msiDirectory`, `mesiDirectory`, `moesiDirectory`, `chiDirectory`: The rules.
-/

namespace Rem6.Directory

open Memory Protocol

/-- A set of agents, in order. -/
abbrev AgentSet := Std.TreeSet AgentId compare

/-- The record of the MSI, MESI and MOESI directories. -/
structure OwnerLine (S : Type) where
  owner : Option (AgentId × S)
  sharers : AgentSet

open OwnerLine

namespace OwnerLine

variable {S E : Type}

def empty : OwnerLine S := ⟨none, ∅⟩

def isOwner (line : OwnerLine S) (agent : AgentId) : Bool :=
  match line.owner with
  | some (owner, _) => owner = agent
  | none => false

/-- One snoop for every sharer but the requester, in the order of the agents. -/
def snoopSharers (line : OwnerLine S) (requester : AgentId) (event : E) : List (DirectorySnoop E) :=
  (line.sharers.toList.filter (· ≠ requester)).map fun sharer => ⟨sharer, event⟩

/-- Take the line away from everybody and give it to the requester. -/
def acceptReadUnique (modified : S) (snoopWrite : E) (line : OwnerLine S)
    (requester : AgentId) : Handled (OwnerLine S) S E :=
  let taken (snoops : List (DirectorySnoop E)) (source : DirectoryDataSource) :
      Handled (OwnerLine S) S E :=
    ⟨⟨some (requester, modified), ∅⟩, snoops ++ line.snoopSharers requester snoopWrite,
      modified, source⟩
  match line.owner with
  | some (owner, _) =>
    if owner = requester then taken [] .noData
    else taken [⟨owner, snoopWrite⟩] (.ownerCache owner)
  | none => taken [] (if requester ∈ line.sharers then .noData else .backingMemory)

/-- Ownership of a copy already held. MSI and MESI have no owner beside sharers,
    so only the sharers are snooped. -/
def acceptUpgrade (modified : S) (snoopWrite : E) (address : Nat) (line : OwnerLine S)
    (requester : AgentId) : Except DirectoryError (Handled (OwnerLine S) S E) :=
  if line.isOwner requester then
    .ok ⟨{ line with owner := some (requester, modified) }, [], modified, .noData⟩
  else if requester ∈ line.sharers then
    .ok ⟨⟨some (requester, modified), ∅⟩, line.snoopSharers requester snoopWrite, modified, .noData⟩
  else .error (.upgradeRequesterNotSharer address requester)

def acceptDirtyWriteback (address : Nat) (line : OwnerLine S) (requester : AgentId) :
    Except DirectoryError (OwnerLine S) :=
  if line.isOwner requester then .ok { line with owner := none }
  else .error (.writebackFromNonOwner address requester (line.owner.map Prod.fst))

def acceptWriteClean (address : Nat) (line : OwnerLine S) (requester : AgentId) :
    Except DirectoryError (OwnerLine S) :=
  if line.isOwner requester then .ok ⟨none, line.sharers.insert requester⟩
  else if requester ∈ line.sharers then .ok line
  else .error (.evictFromNonHolder address requester)

def acceptCleanDeparture (address : Nat) (line : OwnerLine S) (requester : AgentId) :
    Except DirectoryError (OwnerLine S) :=
  if line.isOwner requester then .ok { line with owner := none }
  else if requester ∈ line.sharers then .ok { line with sharers := line.sharers.erase requester }
  else .error (.evictFromNonHolder address requester)

end OwnerLine

/-! ## MSI -/

def msiReadShared (line : OwnerLine MsiState) (requester : AgentId) :
    Handled (OwnerLine MsiState) MsiState MsiEvent :=
  match line.owner with
  | some (owner, _) =>
    if owner = requester then ⟨line, [], .modified, .noData⟩
    else
      ⟨⟨none, (line.sharers.insert owner).insert requester⟩, [⟨owner, .snoopRead⟩], .shared,
        .ownerCache owner⟩
  | none => ⟨⟨none, line.sharers.insert requester⟩, [], .shared, .backingMemory⟩

def msiDirectory : DirectoryRules (OwnerLine MsiState) MsiState MsiEvent where
  empty := .empty
  acceptReadShared := msiReadShared
  acceptReadUnique := acceptReadUnique .modified .snoopWrite
  acceptUpgrade := acceptUpgrade .modified .snoopWrite
  acceptDirtyWriteback
  acceptWriteClean
  acceptCleanDeparture

/-! ## MESI -/

def mesiReadShared (line : OwnerLine MesiState) (requester : AgentId) :
    Handled (OwnerLine MesiState) MesiState MesiEvent :=
  match line.owner with
  | some (owner, state) =>
    if owner = requester then ⟨line, [], state, .noData⟩
    else
      ⟨⟨none, (line.sharers.insert owner).insert requester⟩, [⟨owner, .snoopRead⟩], .shared,
        .ownerCache owner⟩
  | none =>
    if line.sharers.isEmpty then
      ⟨⟨some (requester, .exclusive), line.sharers⟩, [], .exclusive, .backingMemory⟩
    else ⟨⟨none, line.sharers.insert requester⟩, [], .shared, .backingMemory⟩

def mesiDirectory : DirectoryRules (OwnerLine MesiState) MesiState MesiEvent where
  empty := .empty
  acceptReadShared := mesiReadShared
  acceptReadUnique := acceptReadUnique .modified .snoopWrite
  acceptUpgrade := acceptUpgrade .modified .snoopWrite
  acceptDirtyWriteback
  acceptWriteClean
  acceptCleanDeparture

/-! ## MOESI -/

/-- A dirty owner stays the owner when a peer reads. An owner recorded as
    exclusive becomes a sharer, though its cache may have been written since. -/
def moesiReadShared (line : OwnerLine MoesiState) (requester : AgentId) :
    Handled (OwnerLine MoesiState) MoesiState MoesiEvent :=
  match line.owner with
  | some (owner, state) =>
    if owner = requester then ⟨line, [], state, .noData⟩
    else
      let after : OwnerLine MoesiState :=
        match state with
        | .modified | .owned => ⟨some (owner, .owned), line.sharers.insert requester⟩
        | .exclusive => ⟨none, (line.sharers.insert owner).insert requester⟩
        | _ => ⟨none, line.sharers.insert requester⟩
      ⟨after, [⟨owner, .snoopRead⟩], .shared, .ownerCache owner⟩
  | none =>
    if line.sharers.isEmpty then
      ⟨⟨some (requester, .exclusive), line.sharers⟩, [], .exclusive, .backingMemory⟩
    else
      ⟨⟨none, line.sharers.insert requester⟩, [], .shared,
        if requester ∈ line.sharers then .noData else .backingMemory⟩

/-- The owner is granted modified without a snoop, and its sharers stay listed.
    A sharer takes the line from an owner as well as from the other sharers. -/
def moesiUpgrade (address : Nat) (line : OwnerLine MoesiState) (requester : AgentId) :
    Except DirectoryError (Handled (OwnerLine MoesiState) MoesiState MoesiEvent) :=
  if line.isOwner requester then
    .ok ⟨{ line with owner := some (requester, .modified) }, [], .modified, .noData⟩
  else if requester ∈ line.sharers then
    let taken (snoops : List (DirectorySnoop MoesiEvent)) (source : DirectoryDataSource) :
        Handled (OwnerLine MoesiState) MoesiState MoesiEvent :=
      ⟨⟨some (requester, .modified), ∅⟩, snoops ++ line.snoopSharers requester .snoopWrite,
        .modified, source⟩
    match line.owner with
    | some (owner, _) => .ok (taken [⟨owner, .snoopWrite⟩] (.ownerCache owner))
    | none => .ok (taken [] .noData)
  else .error (.upgradeRequesterNotSharer address requester)

def moesiDirectory : DirectoryRules (OwnerLine MoesiState) MoesiState MoesiEvent where
  empty := .empty
  acceptReadShared := moesiReadShared
  acceptReadUnique := acceptReadUnique .modified .snoopWrite
  acceptUpgrade := moesiUpgrade
  acceptDirtyWriteback
  acceptWriteClean
  acceptCleanDeparture

/-- The directory's own view as a vector of line states: the owner first, then
    the sharers. -/
def OwnerLine.protocolSnapshot (line : OwnerLine MoesiState) (address : Nat) : MoesiSnapshot :=
  ⟨address, line.owner.toList ++ line.sharers.toList.map fun sharer => (sharer, .shared)⟩

/-! ## CHI -/

/-- The record of the CHI directory. -/
structure ChiLine where
  uniqueOwner : Option (AgentId × ChiState)
  sharers : Std.TreeMap AgentId ChiState compare

namespace ChiLine

def empty : ChiLine := ⟨none, ∅⟩

variable (line : ChiLine)

def isUniqueOwner (agent : AgentId) : Bool :=
  match line.uniqueOwner with
  | some (owner, _) => owner = agent
  | none => false

def isDirty : ChiState → Bool
  | .sharedDirty | .uniqueDirty => true
  | _ => false

/-- The first sharer, in the order of the agents, that holds the line dirty. -/
def firstDirtySharerExcept (except : Option AgentId) : Option AgentId :=
  (line.sharers.toList.find? fun s => some s.1 ≠ except && isDirty s.2).map Prod.fst

def snoopSharers (requester : AgentId) : List (DirectorySnoop ChiEvent) :=
  (line.sharers.keys.filter (· ≠ requester)).map fun sharer => ⟨sharer, .snoopUnique⟩

def acceptReadShared (requester : AgentId) : Handled ChiLine ChiState ChiEvent :=
  match line.uniqueOwner with
  | some (owner, state) =>
    if owner = requester then ⟨line, [], state, .noData⟩
    else
      ⟨⟨none, (line.sharers.insert owner .sharedClean).insert requester .sharedClean⟩,
        [⟨owner, .snoopShared⟩], .sharedClean, .ownerCache owner⟩
  | none =>
    match line.sharers[requester]? with
    | some state => ⟨line, [], state, .noData⟩
    | none =>
      let after : ChiLine := ⟨none, line.sharers.insert requester .sharedClean⟩
      match line.firstDirtySharerExcept (some requester) with
      | some source => ⟨after, [⟨source, .snoopShared⟩], .sharedClean, .ownerCache source⟩
      | none => ⟨after, [], .sharedClean, .backingMemory⟩

def acceptReadUnique (requester : AgentId) : Handled ChiLine ChiState ChiEvent :=
  let taken (snoops : List (DirectorySnoop ChiEvent)) (source : DirectoryDataSource) :
      Handled ChiLine ChiState ChiEvent :=
    ⟨⟨some (requester, .uniqueDirty), ∅⟩, snoops ++ line.snoopSharers requester, .uniqueDirty,
      source⟩
  match line.uniqueOwner with
  | some (owner, _) =>
    if owner = requester then taken [] .noData
    else taken [⟨owner, .snoopUnique⟩] (.ownerCache owner)
  | none =>
    match line.firstDirtySharerExcept (some requester) with
    | some owner => taken [] (.ownerCache owner)
    | none => taken [] (if requester ∈ line.sharers then .noData else .backingMemory)

def acceptUpgrade (address : Nat) (line : ChiLine) (requester : AgentId) :
    Except DirectoryError (Handled ChiLine ChiState ChiEvent) :=
  if line.isUniqueOwner requester then
    .ok ⟨{ line with uniqueOwner := some (requester, .uniqueDirty) }, [], .uniqueDirty, .noData⟩
  else if requester ∈ line.sharers then
    .ok ⟨⟨some (requester, .uniqueDirty), ∅⟩, line.snoopSharers requester, .uniqueDirty,
      match line.firstDirtySharerExcept (some requester) with
      | some owner => .ownerCache owner
      | none => .noData⟩
  else .error (.upgradeRequesterNotSharer address requester)

/-- The holder a refused write-back is told about. -/
def dirtyHolder : Option AgentId :=
  ((line.uniqueOwner.filter fun owner => isDirty owner.2).map Prod.fst).or
    (line.firstDirtySharerExcept none)

def acceptDirtyWriteback (address : Nat) (line : ChiLine) (requester : AgentId) :
    Except DirectoryError ChiLine :=
  if line.isUniqueOwner requester then .ok { line with uniqueOwner := none }
  else if (line.sharers[requester]?).any isDirty then
    .ok { line with sharers := line.sharers.erase requester }
  else .error (.writebackFromNonOwner address requester line.dirtyHolder)

def acceptWriteClean (address : Nat) (line : ChiLine) (requester : AgentId) :
    Except DirectoryError ChiLine :=
  if line.isUniqueOwner requester then .ok ⟨none, line.sharers.insert requester .sharedClean⟩
  else if requester ∈ line.sharers then
    .ok { line with sharers := line.sharers.insert requester .sharedClean }
  else .error (.evictFromNonHolder address requester)

def acceptCleanDeparture (address : Nat) (line : ChiLine) (requester : AgentId) :
    Except DirectoryError ChiLine :=
  if line.isUniqueOwner requester then .ok { line with uniqueOwner := none }
  else if requester ∈ line.sharers then .ok { line with sharers := line.sharers.erase requester }
  else .error (.evictFromNonHolder address requester)

end ChiLine

def chiDirectory : DirectoryRules ChiLine ChiState ChiEvent where
  empty := .empty
  acceptReadShared := ChiLine.acceptReadShared
  acceptReadUnique := ChiLine.acceptReadUnique
  acceptUpgrade := ChiLine.acceptUpgrade
  acceptDirtyWriteback := ChiLine.acceptDirtyWriteback
  acceptWriteClean := ChiLine.acceptWriteClean
  acceptCleanDeparture := ChiLine.acceptCleanDeparture

end Rem6.Directory
