import Rem6.Coherence.Steps

/-!
# Disciplines

A discipline says how the directory's record describes the caches. A protocol
is `Sound` for a discipline when its two tables keep it, which is a statement
about the tables alone: nothing in it mentions a controller, data or a failure.
This module states what is asked of the tables and what the harness that runs
them is then promised; `Rem6.Coherence.Soundness` proves the promise.

What a good copy is stays a parameter, so that one step lemma serves claims
about the bytes, about the states alone, and about reservations. Serving a
request changes what is good: `Serves` relates the two predicates, and the
single-writer part of a discipline is what makes the change safe, since a
request that may store is only served when nobody else has a copy.

Where the backing line does not have the length of the cached line the harness
can fail half-way, and then directory and caches part. There are two such
failures: a line too short to be read, and a line of another size that an
owner's data does not fit.

## Main definitions

* `Discipline`: How a record describes the caches, and when backing is current.
* `SourceOk`, `Granted`: A miss that the tables carry through.
* `Sound`: The tables keep a discipline.
* `Coherent`: A harness that follows a discipline.
* `Serves`: What is good after a request, given what was good before.
* `Refusal`, `Outcome`: What a request can lead to.
-/

namespace Rem6.Coherence

open Memory Protocol Cache Directory

variable {D S E : Type}

/-- How the record of the directory describes the caches. -/
structure Discipline (D S : Type) where
  /-- The record and the states of the caches fit together. -/
  agree : D → (AgentId → S) → Prop
  /-- By this record no copy is newer than the backing line. -/
  clean : D → Prop
  /-- By this record no cache is asked for the line's data. -/
  unowned : D → Prop
  /-- The requests the discipline covers, by record, requester and whether the
      request only reads. -/
  allowed : D → AgentId → Bool → Prop

/-- Where the data of a grant comes from, and why it is there. -/
inductive SourceOk (R : HarnessRules D S E) (Δ : Discipline D S) (record : D)
    (states : AgentId → S) (agent : AgentId) (kind : RequestKind) : DirectoryDataSource → Prop where
  /-- The backing line serves a requester that has nothing. -/
  | backing (hinvalid : states agent = R.protocol.invalid) (hunowned : Δ.unowned record) :
      SourceOk R Δ record states agent kind .backingMemory
  /-- An owner has the line. Its data is not attached to a grant of ownership. -/
  | owner (owner : AgentId) (hne : owner ≠ agent) (hheld : states owner ≠ R.protocol.invalid)
      (hattach : kind = .upgrade → R.ownerDataOnRead = true) :
      SourceOk R Δ record states agent kind (.ownerCache owner)
  /-- Without data only ownership is granted. -/
  | none (hkind : kind = .upgrade) : SourceOk R Δ record states agent kind .noData

/-- The fill of a grant moves a line that waits to the granted state. The event
    is the one the harness reads off the grant, or the one fixed by the miss. -/
def Fills (R : HarnessRules D S E) (record : D) (handled : Handled D S E) (waiting : S) : Prop :=
  ∃ granted event, (∀ line id, R.fillEvent (handled.decision line id record) = .ok granted) ∧
    granted.filter (fun e => !R.protocol.isDataResponse e) = none ∧
    granted.or (R.protocol.missFillEvent waiting) = some event ∧
    R.protocol.transition waiting event = some handled.state

/-- What the tables do with a miss, from the request downstream to the fill. -/
structure Granted (R : HarnessRules D S E) [DecidableEq S] (Δ : Discipline D S) (record : D)
    (states : AgentId → S) (agent : AgentId) (read : Bool) (waiting : S) where
  handled : Handled D S E
  handle_eq : ∀ line, handle R.directory line record agent
    (missKind R.protocol read (states agent)) = .ok handled
  fills : Fills R record handled waiting
  stable : R.protocol.isStable handled.state = true
  valid : handled.state ≠ R.protocol.invalid
  /-- The other caches, once the snoops are delivered. -/
  after : AgentId → S
  snooped : snoopStates R.protocol (Function.update states agent R.protocol.invalid)
    handled.snoops = some after
  agree : Δ.agree handled.after (Function.update after agent handled.state)
  alone : read = false → (∀ b, b ≠ agent → after b = R.protocol.invalid) ∧ ¬ Δ.clean handled.after
  source : SourceOk R Δ record states agent (missKind R.protocol read (states agent))
    handled.dataSource
  /-- Whether the decision writes the owner's data back. -/
  writesBack : Bool
  writesBack_eq : ∀ line id, R.writesBack (handled.decision line id record) = writesBack
  clean : Δ.clean handled.after →
    Δ.clean record ∨ (writesBack = true ∧ ∃ owner, handled.dataSource = .ownerCache owner)

section Source

variable {R : HarnessRules D S E} {Δ : Discipline D S} {record : D} {states : AgentId → S}
  {agent : AgentId} {kind : RequestKind} {source : DirectoryDataSource}

section

variable (h : SourceOk R Δ record states agent kind source)
include h

theorem SourceOk.of_backing
    (hsrc : source = .backingMemory) : states agent = R.protocol.invalid ∧ Δ.unowned record := by
  cases h with
  | backing hinv hunowned => exact ⟨hinv, hunowned⟩
  | owner | none => cases hsrc

theorem SourceOk.of_owner {owner : AgentId}
    (hsrc : source = .ownerCache owner) :
    owner ≠ agent ∧ states owner ≠ R.protocol.invalid ∧
      (kind = .upgrade → R.ownerDataOnRead = true) := by
  cases h with
  | backing | none => cases hsrc
  | owner other hne hheld hattach =>
    rw [DirectoryDataSource.ownerCache.injEq] at hsrc
    exact hsrc ▸ ⟨hne, hheld, hattach⟩

theorem SourceOk.of_none
    (hsrc : source = .noData) : kind = .upgrade := by
  cases h with
  | backing | owner => cases hsrc
  | none hkind => exact hkind

end

end Source

/-- The tables of a harness keep a discipline. -/
structure Sound (R : HarnessRules D S E) [DecidableEq S] (Δ : Discipline D S) : Prop where
  invalid_stable : R.protocol.isStable R.protocol.invalid = true
  invalid_upgrade : R.protocol.upgradesFrom R.protocol.invalid = false
  /-- A settled line takes every request of the processor. -/
  accepts : ∀ state read, R.protocol.isStable state = true →
    ∃ after, R.protocol.transition state (requestEvent R.protocol read) = some after
  /-- Only a held line hits. It stays held, and a hit that may store is alone. -/
  hit : ∀ record states agent read after, Δ.agree record states → Δ.allowed record agent read →
    R.protocol.isStable (states agent) = true → R.protocol.transition (states agent)
    (requestEvent R.protocol read) = some after → R.protocol.isStable after = true →
    states agent ≠ R.protocol.invalid ∧ after ≠ R.protocol.invalid ∧
      Δ.agree record (Function.update states agent after) ∧
      (read = false → (∀ b, b ≠ agent → states b = R.protocol.invalid) ∧ ¬ Δ.clean record)
  miss : ∀ record states agent read waiting, Δ.agree record states → Δ.allowed record agent read →
    R.protocol.isStable (states agent) = true → R.protocol.transition (states agent)
    (requestEvent R.protocol read) = some waiting → R.protocol.isStable waiting = false → Nonempty
    (Granted R Δ record states agent read waiting)

/-- A harness that follows a discipline. -/
structure Coherent (R : HarnessRules D S E) (Δ : Discipline D S) (layout : CacheLineLayout)
    (line size : Nat) (Good : CopyPred) (h : Harness D S E) : Prop where
  line_eq : h.line = line
  aligned : layout.lineAddress line = line
  backing_line : h.backing.lineAddress = line
  backing_size : h.backing.layout.bytes = size
  copies : ∀ agent c, h.caches agent = some c → CopyOk R.protocol layout line Good agent c
  /-- Only on a line at the top of the address space can a miss get stuck. -/
  idle : line + layout.bytes < wordLimit →
    ∀ agent c, h.caches agent = some c → R.protocol.isStable c.state = true
  /-- There every miss gets stuck, so nobody holds the line. -/
  unheld : wordLimit ≤ line + layout.bytes → ∀ agent, h.states R.protocol agent = R.protocol.invalid
  agree : Δ.agree (h.directory line) (h.states R.protocol)
  backed : Δ.clean (h.directory line) → layout.bytes ≤ size →
    ∀ agent, Good agent (h.backing.data.take layout.bytes) fun _ => none

/-- A copy that is handed on is good, without the reservations of the giver. -/
def Copyable (Good : CopyPred) : Prop :=
  ∀ a b data reservations, Good a data reservations → Good b data fun _ => none

/-- What is good after a request was served, given what was good before. The
    copy it was served on changes by the request; where the request only reads,
    the other copies stay. -/
structure Serves (layout : CacheLineLayout) (agent : AgentId) (request : MemoryRequest)
    (Good Good' : CopyPred) : Prop where
  own : ∀ data reservations, data.length = layout.bytes → Good agent data reservations →
    (request.carriesData = true → request.lineOffset + request.size.bytes ≤ layout.bytes) →
    Good' agent (request.lineEffect data) (request.reservationEffect reservations)
  others : CacheController.isCpuRead request.operation = true →
    ∀ b data reservations, Good b data reservations → Good' b data reservations

/-- Why a request is refused without effect. -/
inductive Refusal (layout : CacheLineLayout) (line : Nat) (h : Harness D S E) (agent : AgentId)
    (request : MemoryRequest) : Prop where
  | unknownAgent (hnone : h.caches agent = none)
  | wrongLine (hline : request.lineAddress ≠ line)
  | topmost (htop : wordLimit ≤ line + layout.bytes)
  | unexpected (hnone : request.responseRequired = false)
  | outside (hout : layout.bytes < request.lineOffset + request.size.bytes)
  | atomicWidth (hatomic : request.operation.isAtomic = true)
      (hwidth : request.supportedWidth = false)

/-- What a request can lead to, from a coherent harness. -/
inductive Outcome (R : HarnessRules D S E) [DecidableEq S] (Δ : Discipline D S)
    (layout : CacheLineLayout) (line size : Nat) (Good : CopyPred) (h : Harness D S E)
    (agent : AgentId) (request : MemoryRequest) :
    Except (HarnessError S E) (SubmitResult D S E) × Harness D S E → Prop where
  /-- The request was served on a good copy of the line. -/
  | served (result : SubmitResult D S E) (h' : Harness D S E) (kind : ResultKind)
      (data : List UInt8) (reservations : AgentId → Option Nat) (hline : request.lineAddress = line)
      (hlen : data.length = layout.bytes) (hgood : Good agent data reservations)
      (hfit : request.carriesData = true ∨ request.returnsData = true →
        request.lineOffset + request.size.bytes ≤ layout.bytes)
      (hreserved : request.operation = .storeConditional →
        reservations request.id.agent = some request.llscReservationAddress)
      (hcoherent : ∀ Good', Serves layout agent request Good Good' →
        Coherent R Δ layout line size Good' h')
      (hresponse : h'.cpuResponses
        = h.cpuResponses ++ [⟨0, kind, request.id, .completed, request.answer data⟩]) :
      Outcome R Δ layout line size Good h agent request (.ok result, h')
  /-- A request that accesses nothing was answered. -/
  | idled (result : SubmitResult D S E) (h' : Harness D S E) (hop : request.operation = .noAccess)
      (hcoherent : Coherent R Δ layout line size Good h')
      (hresponse : h'.cpuResponses = h.cpuResponses ++ [⟨0, .hit, request.id, .completed, none⟩]) :
      Outcome R Δ layout line size Good h agent request (.ok result, h')
  /-- A conditional store was answered as failed. -/
  | conditionFailed (result : SubmitResult D S E) (h' : Harness D S E) (kind : ResultKind)
      (hop : request.operation = .storeConditional ∨ request.operation = .storeConditionalFail)
      (hcoherent : Coherent R Δ layout line size Good h')
      (hresponse : h'.cpuResponses
        = h.cpuResponses ++ [⟨0, kind, request.id, .storeConditionalFailed, none⟩]) :
      Outcome R Δ layout line size Good h agent request (.ok result, h')
  /-- The request was refused. -/
  | refused (e : HarnessError S E) (h' : Harness D S E) (why : Refusal layout line h agent request)
      (hcoherent : Coherent R Δ layout line size Good h')
      (hresponse : h'.cpuResponses = h.cpuResponses) :
      Outcome R Δ layout line size Good h agent request (.error e, h')
  /-- A store that expects no answer happened, and the answer was refused. -/
  | unanswered (e : HarnessError S E) (h' : Harness D S E)
      (hnone : request.responseRequired = false) (hcarry : request.carriesData = true)
      (hcoherent : ∀ Good', Serves layout agent request Good Good' →
        Coherent R Δ layout line size Good' h')
      (hresponse : h'.cpuResponses = h.cpuResponses) :
      Outcome R Δ layout line size Good h agent request (.error e, h')
  /-- The backing line is too short to be read. -/
  | starved (e : HarnessError S E) (h' : Harness D S E) (hshort : size < layout.bytes)
      (hresponse : h'.cpuResponses = h.cpuResponses) :
      Outcome R Δ layout line size Good h agent request (.error e, h')
  /-- The owner's data does not fit the backing line. The directory has decided,
      and nobody was told. -/
  | unwritten (e : HarnessError S E) (c : CacheController S E) (waiting : S)
      (hsize : size ≠ layout.bytes)
      (hwaiting : R.protocol.isStable waiting = false) (hstate : c.state = waiting)
      (hagent : c.agent = agent) (hlayout : c.layout = layout) (hline : c.line = line)
      (granted : Granted R Δ (h.directory line) (h.states R.protocol) agent
        (CacheController.isCpuRead request.operation) waiting)
      (hwrites : granted.writesBack = true)
      (howner : ∃ owner, granted.handled.dataSource = .ownerCache owner) :
      Outcome R Δ layout line size Good h agent request (.error e, { h.setCache agent c with
          directory := Function.update h.directory line granted.handled.after })

end Rem6.Coherence
