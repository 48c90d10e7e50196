import Rem6.Interrupt.Controller
import Rem6.Lib.Assoc
import Rem6.Memory.Request

/-!
# The Platform-Level Interrupt Controller

The registers through which harts see the interrupt controller. Each context has
enable bits, a threshold and a register that claims when it is read and
completes when it is written. A context also has an output wire that is up while
there is something to claim.

The wire and the claim select from the pending lines on their own, over lists in
different orders, and they agree: both take the highest priority above the
threshold, and the lowest line among equals (`argmin_key_eq`, `mem_outputs_iff`).
What a claim reads is the line as a word of 32 bits, in which zero means that
nothing was claimed. A line that is zero, or that does not fit, is claimed and
not reported (`claimRead_hides_line_zero`).

## Main definitions

* `PlicMmioDevice`: Where the registers are, and the contexts.
* `PlicMmioDevice.respondAtTick`: An access to the registers.
* `PlicMmioDevice.contextOutputStates`: The output wires.
* `PlicMmioDevice.Selects`: The line that a context is to be given.
* `PlicMmioDevice.Encodable`: What may be claimed can be read.

## Theorems

* `respondAtTick_claimRead`: A read of a claim register is a claim.
* `claimFiltered_line`: The claim and the wire select the same line.
* `claimRead_agrees`: What a read of the claim register says and does.
-/

namespace Rem6.Interrupt

open Lib Memory InterruptController Fallible SortedMap

/-! ## Accesses -/

inductive MmioOperation where
  | read | write
deriving DecidableEq, Repr

inductive MmioAccess where
  | readOnly | writeOnly | readWrite
deriving DecidableEq, Repr

structure MmioRequest where
  id : Nat
  operation : MmioOperation
  range : AddressRange
  data : Option (List UInt8) := none
  byteMask : Option ByteMask := none
deriving DecidableEq, Repr

structure MmioResponse where
  request : Nat
  data : Option (List UInt8)
deriving DecidableEq, Repr

/-- The errors that the registers can answer with. -/
inductive MmioError where
  | unmappedAddress (address : Nat)
  | accessDenied (request : Nat) (operation : MmioOperation) (access : MmioAccess)
  | missingWriteData (request : Nat)
  | missingByteMask (request : Nat)
  | payloadSizeMismatch (request expected actual : Nat)
  | byteMaskSizeMismatch (request expected actual : Nat)
  | accessSizeMismatch (request expected actual : Nat)
  | deviceError (request : Nat) (message : String)
deriving DecidableEq, Repr

def InterruptEventKind.name : InterruptEventKind → String
  | .assert => "Assert"
  | .deassert => "Deassert"
  | .claim => "Claim"
  | .complete => "Complete"

def InterruptError.message : InterruptError → String
  | .duplicateLine line => s!"interrupt line {line} is already registered"
  | .duplicateSnapshotPriority line => s!"interrupt snapshot has duplicate priority for line {line}"
  | .duplicateSnapshotPending line => s!"interrupt snapshot has duplicate pending line {line}"
  | .duplicateSnapshotClaim target targetPartition =>
    s!"interrupt snapshot has duplicate claim for target {target} partition {targetPartition}"
  | .missingSnapshotPriority line => s!"interrupt snapshot is missing priority for line {line}"
  | .unknownLine line => s!"unknown interrupt line {line}"
  | .alreadyPending line source => s!"interrupt line {line} is already pending from source {source}"
  | .notPending line => s!"interrupt line {line} is not pending"
  | .sourceMismatch line expected actual =>
    s!"interrupt line {line} is pending from source {expected}, not source {actual}"
  | .routeMismatch line expected actual =>
    s!"interrupt line {line} delivery route targets partition {actual.targetPartition} " ++
      s!"target {actual.target}, expected partition {expected.targetPartition} " ++
      s!"target {expected.target}"
  | .noClaimedInterrupt target targetPartition =>
    s!"target {target} partition {targetPartition} has no claimed interrupt"
  | .claimMismatch target targetPartition expected actual =>
    s!"target {target} partition {targetPartition} claimed line {expected}, not line {actual}"
  | .nonSignalDelivery kind => s!"{kind.name} is not a signal delivery event"

/-! ## Words -/

/-- The four bytes of a word, the lowest first. -/
def le32 (value : Nat) : List UInt8 :=
  [UInt8.ofNat value, UInt8.ofNat (value / 2 ^ 8), UInt8.ofNat (value / 2 ^ 16),
    UInt8.ofNat (value / 2 ^ 24)]

def fromLe32 : List UInt8 → Nat
  | [first, second, third, fourth] =>
    first.toNat + 2 ^ 8 * second.toNat + 2 ^ 16 * third.toNat + 2 ^ 24 * fourth.toNat
  | _ => 0

theorem fromLe32_le32 {value} (h : value < 2 ^ 32) : fromLe32 (le32 value) = value := by
  unfold le32 fromLe32
  simp only [UInt8.toNat_ofNat']
  omega

/-! ## Registers -/

def plicRegisterBytes : Nat := 4
def plicPendingBaseOffset : Nat := 0x1000
def plicEnableBaseOffset : Nat := 0x2000
def plicEnableContextStride : Nat := 0x80
def plicContextBaseOffset : Nat := 0x200000
def plicContextStride : Nat := 0x1000
def plicThresholdOffset : Nat := 0
def plicClaimCompleteOffset : Nat := 4

abbrev PlicContextKey := Nat × Nat

structure PlicContextRoute where
  (context target targetPartition : Nat)
deriving DecidableEq, Repr

structure PlicOutputLine where
  (line priority : Nat)
deriving DecidableEq, Repr

structure PlicContextOutputState where
  (context target targetPartition : Nat)
  output : Option PlicOutputLine
deriving DecidableEq, Repr

structure PlicMmioState where
  enabled : List (PlicContextKey × List Nat) := []
  thresholds : List (PlicContextKey × Nat) := []
deriving DecidableEq, Repr

namespace PlicMmioState

variable (state : PlicMmioState)

section

variable (key : PlicContextKey)

def lines : List Nat := (Assoc.find state.enabled key).getD []

def isEnabled (line : Nat) : Bool := decide (line ∈ state.lines key)

def threshold : Nat := (Assoc.find state.thresholds key).getD 0

def readEnableWord (word mask : Nat) : Nat :=
  ((state.lines key).filter fun line => line / 32 = word).foldl
    (fun bits line => bits ||| 1 <<< (line % 32)) 0 &&& mask

def writeEnableWord (word value mask : Nat) : PlicMmioState :=
  let value := value &&& mask
  let kept := (state.lines key).filter fun line => line / 32 ≠ word
  let lines := (List.range 32).foldl (fun lines bit =>
      if value.testBit bit then insert id (word * 32 + bit) lines else lines)
    kept
  { state with enabled := Assoc.insert state.enabled key lines }

end

end PlicMmioState

/-- The controller and the registers of the device, which share it. -/
structure PlicWorld where
  controller : InterruptController := {}
  state : PlicMmioState := {}
deriving DecidableEq, Repr

/-- The contexts are a map from their numbers. -/
structure PlicMmioDevice where
  base : Nat
  sourceCount : Option Nat
  contexts : List (Nat × PlicContextKey)
  sorted : Sorted Prod.fst contexts

abbrev PlicResponse := Fallible PlicWorld MmioError MmioResponse

namespace PlicMmioDevice

def withContexts (base : Nat) (routes : List PlicContextRoute) (sourceCount : Option Nat) :
    PlicMmioDevice where
  base
  sourceCount
  contexts := ofList Prod.fst
    (routes.map fun route => (route.context, route.target, route.targetPartition))
  sorted := sorted_foldl_insert _ .nil

def new (base target targetPartition : Nat) : PlicMmioDevice :=
  withContexts base [⟨0, target, targetPartition⟩] none

variable (device : PlicMmioDevice)

def sourceInRange (line : Nat) : Bool :=
  (device.sourceCount.map fun count => decide (line ≤ count)).getD true

def sourceWordInRange (word : Nat) : Bool :=
  (device.sourceCount.map fun count => decide (word ≤ count / 32)).getD true

def sourceWordMask (word : Nat) : Nat :=
  match device.sourceCount with
  | none => 2 ^ 32 - 1
  | some count =>
    if word < count / 32 then 2 ^ 32 - 1
    else if word > count / 32 then 0
    else 2 ^ (count % 32 + 1) - 1

def sourceOutOfRangeMessage (line : Nat) : String :=
  match device.sourceCount with
  | some count => s!"PLIC source {line} exceeds declared source count {count}"
  | none => s!"PLIC source {line} is out of range"

/-! ## Output wires -/

def contextRoutes : List PlicContextRoute :=
  device.contexts.map fun entry => ⟨entry.1, entry.2.1, entry.2.2⟩

/-- Higher priorities come first, and lower lines among equals. -/
def outputOrder (output : PlicOutputLine) : Natᵒᵈ ×ₗ Nat :=
  toLex (OrderDual.toDual output.priority, output.line)

/-- The lines that may raise the wire of a context. -/
def outputs (world : PlicWorld) (key : PlicContextKey) : List PlicOutputLine :=
  (((world.controller.sortedPending.filter fun pending =>
        pending.target = key.1 ∧ pending.targetPartition = key.2).filter fun pending =>
      device.sourceInRange pending.line).filter fun pending =>
    world.state.isEnabled key pending.line).filterMap fun pending =>
      match world.controller.priority pending.line with
      | .error _ => none
      | .ok priority =>
        if priority > world.state.threshold key then some ⟨pending.line, priority⟩ else none

def contextOutputLine (world : PlicWorld) (key : PlicContextKey) : Option PlicOutputLine :=
  if toLex key ∈ world.controller.sortedClaimed.map InterruptClaim.key then none
  else (device.outputs world key).argmin outputOrder

def contextOutputStates (world : PlicWorld) : List PlicContextOutputState :=
  device.contextRoutes.map fun route =>
    ⟨route.context, route.target, route.targetPartition,
      device.contextOutputLine world (route.target, route.targetPartition)⟩

/-! ## Responses -/

variable (request : MmioRequest)

def completed (data : Option (List UInt8)) : PlicResponse := pure ⟨request.id, data⟩

def unmapped : MmioError := .unmappedAddress request.range.start

def u32FromWrite : Except MmioError Nat :=
  match request.data with
  | none => .error (.missingWriteData request.id)
  | some data =>
    if data.length ≠ plicRegisterBytes then
      .error (.payloadSizeMismatch request.id plicRegisterBytes data.length)
    else
      match request.byteMask with
      | none => .error (.missingByteMask request.id)
      | some mask =>
        if mask.bits.length ≠ plicRegisterBytes then
          .error (.byteMaskSizeMismatch request.id plicRegisterBytes mask.bits.length)
        else .ok (fromLe32 (data.zipWith (fun byte keep => if keep then byte else 0) mask.bits))

/-- An operation of the controller whose error becomes one of the device. -/
def onController {α : Type} (operation : Fallible InterruptController InterruptError α) :
    Fallible PlicWorld MmioError α :=
  within PlicWorld.controller (fun controller world => { world with controller })
    (fun error => .deviceError request.id error.message) operation

def respondPriority (line : Nat) : PlicResponse :=
  if !device.sourceInRange line then fail (unmapped request)
  else
    match request.operation with
    | .read => do
      let priority ← onController request fun controller => (controller.priority line, controller)
      completed request (some (le32 priority))
    | .write => do
      let priority ← check (u32FromWrite request)
      onController request (setPriority line priority)
      completed request none

def respondPending (word : Nat) : PlicResponse :=
  if !device.sourceWordInRange word then fail (unmapped request)
  else
    match request.operation with
    | .read => do
      let world ← get
      let bits := ((world.controller.sortedPending.filter fun pending =>
          device.sourceInRange pending.line).filter fun pending => pending.line / 32 = word).foldl
        (fun bits pending => bits ||| 1 <<< (pending.line % 32)) 0
      completed request (some (le32 bits))
    | .write => fail (.accessDenied request.id .write .readOnly)

def respondEnable (key : PlicContextKey) (word : Nat) : PlicResponse :=
  if !device.sourceWordInRange word then fail (unmapped request)
  else
    let mask := device.sourceWordMask word
    match request.operation with
    | .read => do
      let world ← get
      completed request (some (le32 (world.state.readEnableWord key word mask)))
    | .write => do
      let value ← check (u32FromWrite request)
      modify fun world => { world with state := world.state.writeEnableWord key word value mask }
      completed request none

def respondThreshold (key : PlicContextKey) : PlicResponse :=
  match request.operation with
  | .read => do
    let world ← get
    completed request (some (le32 (world.state.threshold key)))
  | .write => do
    let threshold ← check (u32FromWrite request)
    modify fun world =>
      { world with
        state := { world.state with
          thresholds := Assoc.insert world.state.thresholds key threshold } }
    completed request none

/-- The lines that a context accepts. -/
def accepts (state : PlicMmioState) (key : PlicContextKey) (pending : PendingInterrupt)
    (priority : Nat) : Bool :=
  device.sourceInRange pending.line && state.isEnabled key pending.line &&
    decide (priority > state.threshold key)

def respondClaimComplete (tick : Nat) (request : MmioRequest) (key : PlicContextKey) :
    PlicResponse :=
  match request.operation with
  | .read => fun world =>
    let claimed := world.controller.claimFiltered key.1 key.2 tick (device.accepts world.state key)
    -- the claim is made whether or not its line fits the register
    let after := { world with controller := claimed.2 }
    match claimed.1 with
    | none => (.ok ⟨request.id, some (le32 0)⟩, after)
    | some claim =>
      if claim.line < 2 ^ 32 then (.ok ⟨request.id, some (le32 claim.line)⟩, after)
      else (.error (.deviceError request.id "PLIC claim line does not fit u32"), after)
  | .write => do
    let line ← check (u32FromWrite request)
    if !device.sourceInRange line then
      fail (.deviceError request.id (device.sourceOutOfRangeMessage line))
    else do
      onController request (complete key.1 key.2 line tick)
      completed request none

def validateSize : Except MmioError Unit :=
  if request.range.size.bytes ≠ plicRegisterBytes then
    .error (.accessSizeMismatch request.id plicRegisterBytes request.range.size.bytes)
  else .ok ()

def offset : Except MmioError Nat :=
  if request.range.start < device.base then .error (unmapped request)
  else
    let offset := request.range.start - device.base
    if offset % plicRegisterBytes ≠ 0 then .error (unmapped request) else .ok offset

def contextKey (context : Nat) (request : MmioRequest) : Except MmioError PlicContextKey :=
  match get Prod.fst context device.contexts with
  | some entry => .ok entry.2
  | none => .error (unmapped request)

/-- An access to the registers, by the offset of its address. -/
def respondAt (tick : Nat) (request : MmioRequest) (offset : Nat) : PlicResponse :=
  if offset < plicPendingBaseOffset then device.respondPriority request (offset / 4)
  else if offset < plicEnableBaseOffset then
    device.respondPending request ((offset - plicPendingBaseOffset) / 4)
  else if offset < plicContextBaseOffset then
    let window := offset - plicEnableBaseOffset
    let wordOffset := window % plicEnableContextStride
    if wordOffset % 4 = 0 then do
      let key ← check (device.contextKey (window / plicEnableContextStride) request)
      device.respondEnable request key (wordOffset / 4)
    else fail (unmapped request)
  else do
    let window := offset - plicContextBaseOffset
    let contextOffset := window % plicContextStride
    let key ← check (device.contextKey (window / plicContextStride) request)
    if contextOffset = plicThresholdOffset then respondThreshold request key
    else if contextOffset = plicClaimCompleteOffset then
      device.respondClaimComplete tick request key
    else fail (unmapped request)

def respondAtTick (tick : Nat) (request : MmioRequest) : PlicResponse := do
  check (validateSize request)
  let offset ← check (device.offset request)
  device.respondAt tick request offset

/-! ## The wire and the claim -/

/-- The register that a context claims from. -/
def ClaimRead (context : Nat) (request : MmioRequest) : Prop :=
  request.operation = .read ∧ request.range.size.bytes = plicRegisterBytes ∧
    request.range.start = device.base +
      (plicContextBaseOffset + context * plicContextStride + plicClaimCompleteOffset)

/-- The line that a context is to be given: in range, enabled and above the
    threshold, with the highest priority, and the lowest among equals. -/
structure Selects (world : PlicWorld) (key : PlicContextKey) (output : PlicOutputLine) : Prop where
  pending : ∃ pending ∈ world.controller.pending,
    pending.line = output.line ∧ pending.target = key.1 ∧ pending.targetPartition = key.2
  inRange : device.sourceInRange output.line = true
  enabled : world.state.isEnabled key output.line = true
  priority : output.priority = world.controller.priorityFor output.line
  above : world.state.threshold key < output.priority
  first : ∀ other ∈ world.controller.pending, other.target = key.1 → other.targetPartition = key.2 →
    device.sourceInRange other.line = true → world.state.isEnabled key other.line = true →
    world.state.threshold key < world.controller.priorityFor other.line →
      world.controller.priorityFor other.line < output.priority ∨
        (world.controller.priorityFor other.line = output.priority ∧ output.line ≤ other.line)

/-- The line that a context is to be given, if there is one, can be read from its
    register. -/
def Encodable (world : PlicWorld) (key : PlicContextKey) : Prop :=
  ∀ output, device.Selects world key output → 0 < output.line ∧ output.line < 2 ^ 32

section Agreement

variable {device} {world : PlicWorld} {key : PlicContextKey}

/-- Least elements of two lists have one key when the lists have the same keys. -/
theorem argmin_key_eq {α β κ : Type} [LinearOrder κ] {f : α → κ} {g : β → κ} (first : List α)
    (second : List β) (h : ∀ k, (∃ a ∈ first, f a = k) ↔ ∃ b ∈ second, g b = k) :
    (first.argmin f).map f = (second.argmin g).map g := by
  cases hfirst : first.argmin f with
  | none =>
    cases hsecond : second.argmin g with
    | none => rfl
    | some b =>
      obtain ⟨a, ha, -⟩ := (h (g b)).2 ⟨b, List.argmin_mem hsecond, rfl⟩
      simp [List.argmin_eq_none.1 hfirst] at ha
  | some a =>
    obtain ⟨b, hb, hba⟩ := (h (f a)).1 ⟨a, List.argmin_mem hfirst, rfl⟩
    cases hsecond : second.argmin g with
    | none => simp [List.argmin_eq_none.1 hsecond] at hb
    | some b' =>
      obtain ⟨a', ha', hab⟩ := (h (g b')).2 ⟨b', List.argmin_mem hsecond, rfl⟩
      refine congrArg some (le_antisymm ?_ ?_)
      · rw [← hab]
        exact List.le_of_mem_argmin ha' hfirst
      · rw [← hba]
        exact List.le_of_mem_argmin hb hsecond

theorem mem_outputs {output} (hwf : world.controller.WellFormed) :
    output ∈ device.outputs world key ↔
      ∃ entry ∈ world.controller.claimable key.1 key.2 (device.accepts world.state key),
        output = ⟨entry.1.line, entry.2⟩ := by
  unfold outputs
  simp only [List.mem_filterMap, List.mem_filter, decide_eq_true_eq, mem_claimable]
  have hprio : ∀ pending ∈ world.controller.pending,
      world.controller.priority pending.line = .ok (world.controller.priorityFor pending.line) := by
    intro pending hpend
    have hroute := hwf.routeFor_of_mem (hwf.pendingRouted pending hpend)
    unfold priority
    rw [show pending.line = pending.route.line from rfl, hroute]
    rfl
  constructor
  · rintro ⟨pending, ⟨⟨⟨hmem, htgt⟩, hrange⟩, hena⟩, hsome⟩
    have hpend := world.controller.perm_sortedPending.mem_iff.1 hmem
    rw [hprio pending hpend] at hsome
    simp only at hsome
    split at hsome
    next habove =>
      refine ⟨(pending, world.controller.priorityFor pending.line), ⟨⟨hpend, htgt⟩, rfl, ?_, ?_⟩,
        (Option.some.inj hsome).symm⟩
      · exact (Nat.zero_le _).trans_lt habove
      · simp only [accepts, hrange, hena, decide_eq_true habove, Bool.and_self]
    next => exact absurd hsome (by simp only [reduceCtorEq, not_false_eq_true])
  · rintro ⟨entry, ⟨⟨hpend, htgt⟩, hent, -, hacc⟩, rfl⟩
    simp only [accepts, Bool.and_eq_true, decide_eq_true_eq] at hacc
    obtain ⟨⟨hrange, hena⟩, habove⟩ := hacc
    refine ⟨entry.1, ⟨⟨⟨world.controller.perm_sortedPending.mem_iff.2 hpend, htgt⟩, hrange⟩,
      hena⟩, ?_⟩
    rw [hprio entry.1 hpend, ← hent]
    simp [if_pos habove]

theorem argmin_claimable (hwf : world.controller.WellFormed) :
    ((world.controller.claimable key.1 key.2 (device.accepts world.state key)).argmin
        claimOrder).map (fun entry => (⟨entry.1.line, entry.2⟩ : PlicOutputLine)) =
      (device.outputs world key).argmin outputOrder := by
  have hkeys := argmin_key_eq (f := claimOrder) (g := outputOrder)
    (world.controller.claimable key.1 key.2 (device.accepts world.state key))
    (device.outputs world key) fun k => by
      simp only [mem_outputs hwf]
      constructor
      · rintro ⟨entry, hent, rfl⟩
        exact ⟨_, ⟨entry, hent, rfl⟩, rfl⟩
      · rintro ⟨output, ⟨entry, hent, rfl⟩, rfl⟩
        exact ⟨entry, hent, rfl⟩
  -- a key says what the line and the priority are
  have hinj : Function.Injective (Option.map outputOrder) :=
    Option.map_injective fun first second h => by
      obtain ⟨hprio, hline⟩ := Prod.mk.inj (toLex.injective h)
      obtain ⟨_, _⟩ := first
      obtain ⟨_, _⟩ := second
      exact congr (congrArg PlicOutputLine.mk hline) (OrderDual.toDual.injective hprio)
  apply hinj
  rw [Option.map_map, ← hkeys]
  rfl

theorem mem_outputs_of_pending (hwf : world.controller.WellFormed) {other : PendingInterrupt}
    (hmem : other ∈ world.controller.pending) (hto : other.target = key.1)
    (hpartition : other.targetPartition = key.2)
    (hrange : device.sourceInRange other.line = true)
    (henabled : world.state.isEnabled key other.line = true)
    (habove : world.state.threshold key < world.controller.priorityFor other.line) :
    ⟨other.line, world.controller.priorityFor other.line⟩ ∈ device.outputs world key := by
  refine (mem_outputs hwf).2 ⟨(other, world.controller.priorityFor other.line),
    mem_claimable.2 ⟨⟨hmem, hto, hpartition⟩, rfl, (Nat.zero_le _).trans_lt habove, ?_⟩, rfl⟩
  simp only [accepts, hrange, henabled, decide_eq_true habove, Bool.and_self]

theorem selects_of_argmin (hwf : world.controller.WellFormed) {output : PlicOutputLine}
    (h : (device.outputs world key).argmin outputOrder = some output) :
    device.Selects world key output := by
  obtain ⟨entry, hent, rfl⟩ := (mem_outputs hwf).1 (List.argmin_mem h)
  obtain ⟨⟨hpend, htgt⟩, hprio, -, hacc⟩ := mem_claimable.1 hent
  simp only [accepts, Bool.and_eq_true, decide_eq_true_eq] at hacc
  refine ⟨⟨entry.1, hpend, rfl, htgt⟩, hacc.1.1, hacc.1.2, hprio, hacc.2,
    fun other hmem hto hpartition hrange henabled habove => ?_⟩
  have hle := List.le_of_mem_argmin
    (mem_outputs_of_pending hwf hmem hto hpartition hrange henabled habove) h
  unfold outputOrder at hle
  rw [Prod.Lex.toLex_le_toLex] at hle
  exact hle.imp id fun heq => ⟨(OrderDual.toDual.injective heq.1).symm, heq.2⟩

theorem Selects.unique {first second : PlicOutputLine} (hfirst : device.Selects world key first)
    (hsecond : device.Selects world key second) : first = second := by
  have hle : ∀ {a b : PlicOutputLine}, device.Selects world key a → device.Selects world key b →
      b.priority < a.priority ∨ b.priority = a.priority ∧ a.line ≤ b.line := by
    intro a b ha hb
    obtain ⟨pending, hmem, hline, hto, hpartition⟩ := hb.pending
    have hfirst := ha.first pending hmem hto hpartition
    rw [hline, ← hb.priority] at hfirst
    exact hfirst hb.inRange hb.enabled hb.above
  have hforth := hle hfirst hsecond
  have hback := hle hsecond hfirst
  obtain ⟨line, priority⟩ := first
  obtain ⟨line', priority'⟩ := second
  rw [PlicOutputLine.mk.injEq]
  dsimp only at hforth hback
  omega

/-- A read of the claim register is a claim. -/
theorem respondAtTick_claimRead {context} {request : MmioRequest}
    (hread : device.ClaimRead context request)
    (hkey : get Prod.fst context device.contexts = some (context, key)) {tick : Nat} :
    device.respondAtTick tick request world
      = device.respondClaimComplete tick request key world := by
  obtain ⟨-, hsize, hstart⟩ := hread
  have hval : validateSize request = .ok () := if_neg (not_not.2 hsize)
  have hoff : device.offset request =
      .ok (plicContextBaseOffset + context * plicContextStride + plicClaimCompleteOffset) := by
    unfold offset
    rw [hstart, if_neg (not_lt.2 (Nat.le_add_right ..)), Nat.add_sub_cancel_left]
    refine if_neg (not_not.2 ?_)
    unfold plicContextBaseOffset plicContextStride plicClaimCompleteOffset plicRegisterBytes
    omega
  have hwin : plicContextBaseOffset + context * plicContextStride + plicClaimCompleteOffset -
      plicContextBaseOffset = context * plicContextStride + plicClaimCompleteOffset := by omega
  have hdiv : (context * plicContextStride + plicClaimCompleteOffset) / plicContextStride =
      context := by
    unfold plicContextStride plicClaimCompleteOffset
    omega
  have hmod : (context * plicContextStride + plicClaimCompleteOffset) % plicContextStride =
      plicClaimCompleteOffset := by
    unfold plicContextStride plicClaimCompleteOffset
    omega
  have hctx : device.contextKey context request = .ok key := by
    unfold contextKey
    rw [hkey]
  unfold respondAtTick
  rw [check_bind_of_ok hval, check_bind_of_ok hoff]
  unfold respondAt
  rw [if_neg (by unfold plicContextBaseOffset plicPendingBaseOffset; omega),
    if_neg (by unfold plicContextBaseOffset plicEnableBaseOffset; omega), if_neg (by omega)]
  simp only [hwin, hdiv, hmod]
  rw [check_bind_of_ok hctx, if_neg (by decide), if_pos trivial]

/-- What a read of the claim register of a context says and does. -/
structure ClaimAgrees (device : PlicMmioDevice) (world : PlicWorld) (context : Nat)
    (key : PlicContextKey) (outcome : Except MmioError MmioResponse × PlicWorld) : Prop where
  reported : ∀ n, n ≠ 0 →
    ((∃ response, outcome.1 = .ok response ∧ response.data.map fromLe32 = some n) ↔
      ∃ state ∈ device.contextOutputStates world, state.context = context ∧
        ∃ output, state.output = some output ∧ output.line = n)
  selected : ∀ state ∈ device.contextOutputStates world, state.context = context →
    ∀ output, state.output = some output → device.Selects world key output
  unchanged : (∀ response, outcome.1 = .ok response → response.data.map fromLe32 = some 0) →
    outcome.2.controller.pending = world.controller.pending ∧
      outcome.2.controller.claimed = world.controller.claimed

theorem output_of_mem_contextOutputStates {ctx}
    (hkey : get Prod.fst ctx device.contexts = some (ctx, key)) {state : PlicContextOutputState}
    (hctx : state.context = ctx) :
    state ∈ device.contextOutputStates world ↔
      state = ⟨ctx, key.1, key.2, device.contextOutputLine world key⟩ := by
  have hmem := (get_eq_some hkey).1
  unfold contextOutputStates contextRoutes
  simp only [List.map_map, List.mem_map, Function.comp_apply]
  constructor
  · rintro ⟨entry, hent, rfl⟩
    have heq : entry = (ctx, key) := device.sorted.eq_of_key_eq hent hmem hctx
    rw [heq]
  · rintro rfl
    exact ⟨(ctx, key), hmem, rfl⟩

/-- A claim takes the line of the wire, or nothing. -/
theorem claimFiltered_line (device : PlicMmioDevice) (hwf : world.controller.WellFormed)
    (hfree : get InterruptClaim.key (toLex key) world.controller.claimed = none) (tick : Nat) :
    (∀ output, ¬ device.Selects world key output) ∧
        device.contextOutputLine world key = none ∧
        world.controller.claimFiltered key.1 key.2 tick (device.accepts world.state key) =
          (none, world.controller) ∨
      ∃ output claim, device.contextOutputLine world key = some output ∧
        device.Selects world key output ∧ claim.line = output.line ∧
        (world.controller.claimFiltered key.1 key.2 tick (device.accepts world.state key)).1 =
          some claim ∧
        (world.controller.claimFiltered key.1 key.2 tick
          (device.accepts world.state key)).2.pending ≠ world.controller.pending := by
  have hopen : ¬ toLex key ∈ world.controller.sortedClaimed.map InterruptClaim.key := by
    intro hmem
    obtain ⟨claim, hclaim, heq⟩ := List.mem_map.1 hmem
    exact get_eq_none_iff.1 hfree claim (world.controller.perm_sortedClaimed.mem_iff.1 hclaim) heq
  have hline : device.contextOutputLine world key =
      (device.outputs world key).argmin outputOrder := if_neg hopen
  unfold claimFiltered
  rw [show (toLex (key.1, key.2) : Nat ×ₗ Nat) = toLex key from rfl, hfree]
  cases hfirst : (world.controller.claimable key.1 key.2 (device.accepts world.state key)).argmin
      claimOrder with
  | none =>
    have hnone : (device.outputs world key).argmin outputOrder = none := by
      rw [← argmin_claimable hwf, hfirst]
      rfl
    refine .inl ⟨fun output hselects => ?_, hline.trans hnone, rfl⟩
    obtain ⟨pending, hmem, hline, hto, hpartition⟩ := hselects.pending
    have houtput := mem_outputs_of_pending hwf hmem hto hpartition (hline ▸ hselects.inRange)
      (hline ▸ hselects.enabled) (hline ▸ hselects.priority ▸ hselects.above)
    rw [List.argmin_eq_none.1 hnone] at houtput
    cases houtput
  | some entry =>
    have houtput :
        (device.outputs world key).argmin outputOrder = some ⟨entry.1.line, entry.2⟩ := by
      rw [← argmin_claimable hwf, hfirst]
      rfl
    refine .inr ⟨_, _, hline.trans houtput, selects_of_argmin hwf houtput, rfl, rfl,
      fun hsame => ?_⟩
    have hmem := (mem_claimable.1 (List.argmin_mem hfirst)).1.1
    rw [← hsame] at hmem
    exact (mem_erase.1 hmem).2 rfl

/-- For every controller that calls build, and every context without a claim, the
    claim register is exact as long as the line to be given can be read: a read
    returns a line exactly when the wire of the context is up, and then the line of
    the wire, and one that returns zero or an error leaves the pending lines and the
    claims alone. -/
theorem claimRead_agrees (device : PlicMmioDevice) (calls : List InterruptCall)
    (state : PlicMmioState) {context : Nat} {key : PlicContextKey} {request : MmioRequest}
    (tick : Nat) (hread : device.ClaimRead context request)
    (hkey : get Prod.fst context device.contexts = some (context, key))
    (hfree : get InterruptClaim.key (toLex key) (run perform {} calls).claimed = none) :
    ClaimAgrees device ⟨run perform {} calls, state⟩ context key
        (device.respondAtTick tick request ⟨run perform {} calls, state⟩) ↔
      device.Encodable ⟨run perform {} calls, state⟩ key := by
  have hwf := run_wellFormed calls
  rw [respondAtTick_claimRead hread hkey]
  generalize hworld : (⟨run perform {} calls, state⟩ : PlicWorld) = world at *
  have hctrl : world.controller = run perform {} calls := by rw [← hworld]
  rw [← hctrl] at hwf hfree
  -- the wire of the context, among those of all contexts
  have hwire : ∀ {output}, (∃ state ∈ device.contextOutputStates world, state.context = context ∧
      state.output = some output) ↔ device.contextOutputLine world key = some output := by
    intro output
    constructor
    · rintro ⟨state, hmem, hcontext, houtput⟩
      rwa [(output_of_mem_contextOutputStates hkey hcontext).1 hmem] at houtput
    · intro houtput
      exact ⟨_, (output_of_mem_contextOutputStates hkey rfl).2 rfl, rfl, houtput⟩
  unfold respondClaimComplete
  rw [hread.1]
  rcases claimFiltered_line device hwf hfree tick with
    ⟨hselects, hnone, hclaim⟩ | ⟨output, claim, hline, hselects, hsame, hclaim, hpending⟩
  · simp only [hclaim]
    have hdown : ∀ state ∈ device.contextOutputStates world, state.context = context →
        ∀ output, state.output ≠ some output := fun state hmem hcontext output houtput => by
      have hline := hwire.1 ⟨state, hmem, hcontext, houtput⟩
      cases hnone.symm.trans hline
    refine iff_of_true ⟨fun n hn => ⟨?_, ?_⟩, fun state hmem hcontext output houtput =>
      absurd houtput (hdown state hmem hcontext output), fun _ => ⟨rfl, rfl⟩⟩
      fun output houtput => absurd houtput (hselects output)
    · rintro ⟨response, hresponse, hword⟩
      rw [← Except.ok.inj hresponse] at hword
      exact absurd (Option.some.inj hword).symm hn
    · rintro ⟨state, hmem, hcontext, output, houtput, -⟩
      exact absurd houtput (hdown state hmem hcontext output)
  · simp only [hclaim, hsame]
    constructor
    · -- a read that hides the line has taken it all the same
      intro hagrees output' hselects'
      cases hselects.unique hselects'
      by_contra hhidden
      have hunchanged := hagrees.unchanged
      split_ifs at hunchanged with hfits
      · have hzero : output.line = 0 := by omega
        rw [hzero] at hunchanged
        refine hpending (hunchanged fun response hresponse => ?_).1
        rw [← Except.ok.inj hresponse]
        rfl
      · exact hpending (hunchanged fun response hresponse => by cases hresponse).1
    intro hencodable
    obtain ⟨hpos, hfits⟩ := hencodable output hselects
    have hword := fromLe32_le32 hfits
    simp only [if_pos hfits]
    refine ⟨fun n _ => ⟨?_, ?_⟩, fun state hmem hcontext output' houtput => ?_, fun hzero => ?_⟩
    · rintro ⟨response, hresponse, hn⟩
      rw [← Except.ok.inj hresponse, Option.map_some, hword, Option.some.injEq] at hn
      obtain ⟨state, hmem, hcontext, houtput⟩ := hwire.2 hline
      exact ⟨state, hmem, hcontext, _, houtput, hn⟩
    · rintro ⟨state, hmem, hcontext, output', houtput, rfl⟩
      cases hline.symm.trans (hwire.1 ⟨state, hmem, hcontext, houtput⟩)
      exact ⟨_, rfl, congrArg some hword⟩
    · cases hline.symm.trans (hwire.1 ⟨state, hmem, hcontext, houtput⟩)
      exact hselects
    · have hn := hzero _ rfl
      rw [Option.map_some, hword, Option.some.injEq] at hn
      omega

/-- A device with one context, and a read of its claim register. -/
def smallPlic : PlicMmioDevice := new 0 0 0

def claimRequest : MmioRequest :=
  { id := 9, operation := .read, range := ⟨0x200004, ⟨4, by decide⟩, by decide⟩ }

/-- The controller with one pending line, which the context has enabled. -/
def raised (line : Nat) : List InterruptCall := [.registerLine line 0, .assert line 1 10]

def enabledState (line : Nat) : PlicMmioState := { enabled := [((0, 0), [line])] }

theorem claimRead_agrees_seven :
    smallPlic.ClaimRead 0 claimRequest ∧
      ClaimAgrees smallPlic ⟨run perform {} (raised 7), enabledState 7⟩ 0 (0, 0)
        (smallPlic.respondAtTick 20 claimRequest ⟨run perform {} (raised 7), enabledState 7⟩) := by
  have hread : smallPlic.ClaimRead 0 claimRequest := ⟨rfl, rfl, rfl⟩
  refine ⟨hread, (claimRead_agrees smallPlic (raised 7) (enabledState 7) 20 hread rfl rfl).mpr ?_⟩
  intro output hselects
  obtain ⟨pending, hpending, hline, -⟩ := hselects.pending
  rw [← hline, List.mem_singleton.1 hpending]
  decide

/-- Line zero raises the wire. Reading the claim register says that there is
    nothing to claim, and the line is not pending any more. -/
theorem claimRead_hides_line_zero :
    (∃ state ∈ smallPlic.contextOutputStates ⟨run perform {} (raised 0), enabledState 0⟩,
      state.context = 0 ∧ state.output = some ⟨0, 1⟩) ∧
    (smallPlic.respondAtTick 20 claimRequest ⟨run perform {} (raised 0), enabledState 0⟩).1 =
      .ok ⟨9, some (le32 0)⟩ ∧
    (run perform {} (raised 0)).pending = [⟨0, 0, 0, 1, 10⟩] ∧
    (smallPlic.respondAtTick 20 claimRequest
        ⟨run perform {} (raised 0), enabledState 0⟩).2.controller.pending =
      [] := by
  decide

end Agreement

end PlicMmioDevice

end Rem6.Interrupt
