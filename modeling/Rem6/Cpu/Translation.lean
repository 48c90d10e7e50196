import Rem6.Isa.Sv39
import Rem6.Memory.Request
import Rem6.Memory.Translation

/-!
# Translating a Processor's Accesses

The requests for which a processor needs a physical address, and the resolver
that finds it by an Sv39 walk. A request covers a range of addresses; its
constructor checks the range, the payload and the atomic operation, and a
request carries the fact that it passed.

The resolver walks once, for the first address, and never looks at the size. The
address it returns is right for the whole access as long as the access ends
inside the superpage of the leaf that was found (`resolve_covers_leaf`). An access
that runs into the next page is answered all the same, with the address that
follows, whatever the page table says about that page
(`resolve_runs_into_unmapped`). So the accesses that are answered rightly with any
page table are those inside one page, and those that are never mapped
(`resolve_covers`): for every other one there is a table whose pages all lie in one
place, `stacked`.

## Main definitions

* `CpuTranslationRequest`: A request that passed its constructor's checks.
* `RiscvSv39PageTableResolver.resolve`: The resolver.

## Theorems

* `RiscvSv39PageTableResolver.resolve_covers_leaf`: Every byte of an access inside
  one superpage is where the answer says.
* `RiscvSv39PageTableResolver.resolve_covers`: The accesses that are answered rightly
  with any page table.
* `RiscvSv39PageTableResolver.resolve_runs_into_unmapped`: An access over the end
  of the superpage.
-/

namespace Rem6.Cpu

open Isa Memory RiscvSv39VirtualAddress

abbrev MemoryRouteId := Nat

abbrev TransportEndpointId := String

inductive CpuTranslatedMemoryOperation where
  | instructionFetch | read | loadLocked | write | storeConditional | atomic
deriving DecidableEq, Repr

/-- The errors that the constructor can return. -/
inductive CpuTranslationFrontendError where
  | memory (error : MemoryError)
  | missingWriteData (request : MemoryRequestId)
  | payloadSizeMismatch (request : MemoryRequestId) (expected : AccessSize) (actual : Nat)
  | missingByteMask (request : MemoryRequestId)
  | byteMaskSizeMismatch (request : MemoryRequestId) (expected : AccessSize) (actual : Nat)
  | unexpectedWriteData (request : MemoryRequestId)
  | unexpectedByteMask (request : MemoryRequestId)
deriving DecidableEq, Repr

namespace CpuTranslationRequest

def validatePayload (id : MemoryRequestId) (size : AccessSize)
    (operation : CpuTranslatedMemoryOperation) (writeData : Option (List UInt8))
    (byteMask : Option ByteMask) : Except CpuTranslationFrontendError Unit :=
  match operation with
  | .write | .storeConditional | .atomic =>
    match writeData with
    | none => .error (.missingWriteData id)
    | some data =>
      if data.length ≠ size.bytes then .error (.payloadSizeMismatch id size data.length)
      else
        match byteMask with
        | none => .error (.missingByteMask id)
        | some mask =>
          if mask.bits.length ≠ size.bytes then
            .error (.byteMaskSizeMismatch id size mask.bits.length)
          else .ok ()
  | .instructionFetch | .read | .loadLocked =>
    if writeData.isSome then .error (.unexpectedWriteData id)
    else if byteMask.isSome then .error (.unexpectedByteMask id)
    else .ok ()

def validateAtomicOp (id : MemoryRequestId) (operation : CpuTranslatedMemoryOperation)
    (atomicOp : Option MemoryAtomicOp) : Except CpuTranslationFrontendError Unit :=
  match operation, atomicOp with
  | .atomic, some _ => .ok ()
  | .atomic, none => .error (.memory (.missingAtomicOp id))
  | _, some _ => .error (.memory (.unexpectedAtomicOp id))
  | _, none => .ok ()

/-- The checks of the constructor after that of the range. -/
def validate (id : MemoryRequestId) (size : AccessSize) (operation : CpuTranslatedMemoryOperation)
    (writeData : Option (List UInt8)) (byteMask : Option ByteMask)
    (atomicOp : Option MemoryAtomicOp) : Except CpuTranslationFrontendError Unit := do
  validatePayload id size operation writeData byteMask
  validateAtomicOp id operation atomicOp

end CpuTranslationRequest

structure CpuTranslationRequest where
  addressSpace : TranslationAddressSpaceId := 0
  translationId : TranslationRequestId
  memoryRequestId : MemoryRequestId
  route : MemoryRouteId
  endpoint : TransportEndpointId
  range : AddressRange
  operation : CpuTranslatedMemoryOperation
  sv39AccessContext : RiscvSv39AccessContext := { privilege := .machine }
  writeData : Option (List UInt8) := none
  byteMask : Option ByteMask := none
  atomicOp : Option MemoryAtomicOp := none
  /-- The constructor accepted the payload. -/
  valid : CpuTranslationRequest.validate memoryRequestId range.size operation writeData byteMask
    atomicOp = .ok ()

namespace CpuTranslationRequest

def virtualAddress (request : CpuTranslationRequest) : Nat := request.range.start

def new (translationId : TranslationRequestId) (memoryRequestId : MemoryRequestId)
    (route : MemoryRouteId) (endpoint : TransportEndpointId) (virtualAddress : Nat)
    (size : AccessSize) (operation : CpuTranslatedMemoryOperation)
    (writeData : Option (List UInt8)) (byteMask : Option ByteMask)
    (atomicOp : Option MemoryAtomicOp) :
    Except CpuTranslationFrontendError CpuTranslationRequest :=
  match AddressRange.new virtualAddress size with
  | .error error => .error (.memory error)
  | .ok range =>
    match hvalid : validate memoryRequestId range.size operation writeData byteMask atomicOp with
    | .error error => .error error
    | .ok () => .ok {
        translationId, memoryRequestId, route, endpoint, range, operation, writeData, byteMask
        atomicOp, valid := hvalid }

def withSv39AccessContext (request : CpuTranslationRequest) (context : RiscvSv39AccessContext) :
    CpuTranslationRequest :=
  { request with sv39AccessContext := context }

end CpuTranslationRequest

/-! ## The resolver -/

structure CpuTranslatedMemoryRequest where
  request : CpuTranslationRequest
  physicalAddress : Nat

structure CpuTranslationFaultRecord where
  translationId : TranslationRequestId
  memoryRequestId : MemoryRequestId
  route : MemoryRouteId
  endpoint : TransportEndpointId
  range : AddressRange
  operation : CpuTranslatedMemoryOperation
  fault : TranslationFault
deriving DecidableEq, Repr

inductive CpuTranslationOutcome where
  | mapped (request : CpuTranslatedMemoryRequest)
  | fault (record : CpuTranslationFaultRecord)

def cpuTranslationOutcomeFromResolution (request : CpuTranslationRequest) :
    TranslationResolution → CpuTranslationOutcome
  | .mapped physicalAddress => .mapped ⟨request, physicalAddress⟩
  | .fault fault => .fault ⟨request.translationId, request.memoryRequestId, request.route,
      request.endpoint, request.range, request.operation, fault⟩

def sv39AccessKind : CpuTranslatedMemoryOperation → RiscvSv39AccessKind
  | .instructionFetch => .instructionFetch
  | .read | .loadLocked => .load
  | .write => .store
  | .storeConditional | .atomic => .atomic

def sv39TranslationFaultKind : RiscvSv39PageFault → TranslationFaultKind
  | .permissionDenied _ => .permissionFault
  | _ => .pageFault

structure RiscvSv39TranslationResult where
  outcome : CpuTranslationOutcome
  resolution : TranslationResolution
  pteAddresses : List Nat
  leafLevel : Option RiscvSv39PageTableLevel
  pageFault : Option RiscvSv39PageFault

namespace RiscvSv39TranslationResult

def mapped (request : CpuTranslationRequest) (physicalAddress : Nat) (pteAddresses : List Nat)
    (leafLevel : RiscvSv39PageTableLevel) : RiscvSv39TranslationResult where
  outcome := cpuTranslationOutcomeFromResolution request (.mapped physicalAddress)
  resolution := .mapped physicalAddress
  pteAddresses
  leafLevel := some leafLevel
  pageFault := none

def fault (request : CpuTranslationRequest) (pageFault : RiscvSv39PageFault)
    (pteAddresses : List Nat) : RiscvSv39TranslationResult where
  outcome := cpuTranslationOutcomeFromResolution request
    (.fault ⟨request.virtualAddress, sv39TranslationFaultKind pageFault⟩)
  resolution := .fault ⟨request.virtualAddress, sv39TranslationFaultKind pageFault⟩
  pteAddresses
  leafLevel := none
  pageFault := some pageFault

end RiscvSv39TranslationResult

structure RiscvSv39PageTableResolver where
  rootTablePpn : Nat
deriving DecidableEq, Repr

namespace RiscvSv39PageTableResolver

def resolve (resolver : RiscvSv39PageTableResolver) (request : CpuTranslationRequest)
    (readPte : Nat → Except RiscvSv39PageFault RiscvSv39Pte) : RiscvSv39TranslationResult :=
  match new request.virtualAddress with
  | .error fault => .fault request fault []
  | .ok virtualAddress =>
    match walkSv39PageTableWithContext resolver.rootTablePpn virtualAddress
        (sv39AccessKind request.operation) request.sv39AccessContext readPte with
    | (.error fault, pteAddresses) => .fault request fault pteAddresses
    | (.ok walk, pteAddresses) => .mapped request walk.physicalAddress pteAddresses walk.leafLevel

variable {resolver : RiscvSv39PageTableResolver} {request : CpuTranslationRequest}
  {readPte : Nat → Except RiscvSv39PageFault RiscvSv39Pte}

/-- A request that is mapped has a canonical address and a walk that ended at a
    leaf. -/
theorem walk_of_mapped {paddr} (h : (resolver.resolve request readPte).resolution = .mapped paddr) :
    ∃ (hcan : isCanonicalSv39Address request.virtualAddress = true)
      (walk : RiscvSv39WalkResult) (pteAddresses : List Nat),
      walkSv39PageTableWithContext resolver.rootTablePpn ⟨request.virtualAddress, hcan⟩
        (sv39AccessKind request.operation) request.sv39AccessContext readPte
          = (.ok walk, pteAddresses) ∧
      walk.physicalAddress = paddr ∧
      (resolver.resolve request readPte).leafLevel = some walk.leafLevel := by
  unfold resolve at h ⊢
  by_cases hcan : isCanonicalSv39Address request.virtualAddress = true
  · have hnew : new request.virtualAddress = .ok ⟨request.virtualAddress, hcan⟩ := dif_pos hcan
    rw [hnew] at h ⊢
    simp only at h ⊢
    rcases hwalk : walkSv39PageTableWithContext resolver.rootTablePpn ⟨request.virtualAddress, hcan⟩
      (sv39AccessKind request.operation) request.sv39AccessContext readPte with ⟨res, pteAddresses⟩
    rw [hwalk] at h
    cases res with
    | error fault =>
      cases h
    | ok walk => exact ⟨hcan, walk, pteAddresses, hwalk, TranslationResolution.mapped.inj h, rfl⟩
  · have hnew : new request.virtualAddress
        = .error (.nonCanonicalVirtualAddress request.virtualAddress) := dif_neg hcan
    rw [hnew] at h
    cases h

theorem resolve_of_walk {pteAddresses walk}
    (hcan : isCanonicalSv39Address request.virtualAddress = true)
    (hwalk : walkSv39PageTableWithContext resolver.rootTablePpn
      ⟨request.virtualAddress, hcan⟩ (sv39AccessKind request.operation)
      request.sv39AccessContext readPte = (.ok walk, pteAddresses)) :
    (resolver.resolve request readPte).resolution = .mapped walk.physicalAddress := by
  have hnew : new request.virtualAddress = .ok ⟨request.virtualAddress, hcan⟩ := dif_pos hcan
  rw [resolve, hnew]
  simp only
  rw [hwalk]
  rfl

/-- If the access ends inside the superpage of the leaf that was found for its
    first byte, each of its bytes is mapped to where the answer puts it. -/
theorem resolve_covers_leaf (resolver : RiscvSv39PageTableResolver)
    (request : CpuTranslationRequest) (readPte : Nat → Except RiscvSv39PageFault RiscvSv39Pte)
    (physicalAddress : Nat)
    (hmapped : (resolver.resolve request readPte).resolution = .mapped physicalAddress)
    (hwithin : ∀ level, (resolver.resolve request readPte).leafLevel = some level →
      request.range.start % 2 ^ level.shift + request.range.size.bytes ≤ 2 ^ level.shift)
    (index : Nat) (hindex : index < request.range.size.bytes) (byte : CpuTranslationRequest)
    (hstart : byte.range.start = request.range.start + index)
    (hoperation : byte.operation = request.operation)
    (hcontext : byte.sv39AccessContext = request.sv39AccessContext) :
    (resolver.resolve byte readPte).resolution = .mapped (physicalAddress + index) := by
  rcases walk_of_mapped hmapped with ⟨hcanonical, walk, pteAddresses, hwalk, rfl, hleaf⟩
  have hpage : request.virtualAddress % 2 ^ walk.leafLevel.shift + index
      < 2 ^ walk.leafLevel.shift := by
    have hfits := hwithin walk.leafLevel hleaf
    unfold CpuTranslationRequest.virtualAddress
    omega
  have hbyte : byte.virtualAddress = request.virtualAddress + index := hstart
  have hcanonicalByte : isCanonicalSv39Address byte.virtualAddress = true := by
    have hle : walk.leafLevel.shift ≤ 38 := walk.leafLevel.shift_le.trans (by decide)
    rwa [hbyte, isCanonicalSv39Address_congr (shiftRight_add_of_within hpage hle)]
  rw [← hoperation, ← hcontext] at hwalk
  exact resolve_of_walk hcanonicalByte (walk_add_of_within hwalk hbyte hpage)

/-! ## Pages in one place -/

/-- An entry that leads to a lower table. -/
def tableEntry (ppn : Nat) : RiscvSv39Pte := ⟨BitVec.ofNat 64 (ppn <<< 10 ||| 1)⟩

/-- An entry that maps to the first page, for any access in the context. -/
def pageEntry (context : RiscvSv39AccessContext) : RiscvSv39Pte :=
  ⟨if context.privilege = .user then 0xdf#64 else 0xcf#64⟩

/-- Entries under a root table that map every page to the first one. The two lower
    tables are in pages other than the root. -/
def stacked (rootTablePpn : Nat) (context : RiscvSv39AccessContext) (address : Nat) :
    Except RiscvSv39PageFault RiscvSv39Pte :=
  let middle := if rootTablePpn = 1 then 3 else 1
  let last := if rootTablePpn = 2 then 3 else 2
  .ok (if address >>> 12 = last then pageEntry context
    else if address >>> 12 = middle then tableEntry last else tableEntry middle)

theorem advance_tableEntry {state : RiscvSv39WalkState} {level : RiscvSv39PageTableLevel}
    {ppn : Nat}
    (hppn : ppn = 1 ∨ ppn = 2 ∨ ppn = 3) (hlower : state.pendingLevel.nextLower = some level) :
    let pteAddress := ppn <<< 12 + state.virtualAddress.vpn level * 8
    state.advance (tableEntry ppn) = .ok (.readPte { state with
      tablePpn := ppn
      pendingLevel := level
      pendingPteAddress := pteAddress
      pteAddresses := state.pteAddresses ++ [pteAddress] }) := by
  have hentry : (tableEntry ppn).validate = .ok () ∧ (tableEntry ppn).isLeaf = false ∧
      (tableEntry ppn).physicalPageNumber = ppn ∧ ppn ≤ 2 ^ 44 - 1 := by
    rcases hppn with rfl | rfl | rfl <;> decide
  obtain ⟨hvalid, hleaf, hnumber, hrange⟩ := hentry
  simp only [RiscvSv39WalkState.advance, hvalid, hleaf, hlower, hnumber, Bool.false_eq_true,
    RiscvSv39WalkState.fromTable, pageTableEntryAddress, if_neg (not_lt.mpr hrange), if_false]
  rfl

theorem advance_pageEntry {state : RiscvSv39WalkState} (hlevel : state.pendingLevel = .level0) :
    state.advance (pageEntry state.context) = .ok (.complete
      ⟨state.virtualAddress.raw % 4096, .level0, pageEntry state.context, state.pteAddresses⟩) := by
  have hentry : (pageEntry state.context).validate = .ok () ∧
      (pageEntry state.context).isLeaf = true ∧ (pageEntry state.context).leafBase .level0 = 0 ∧
      (pageEntry state.context).checkLeaf .level0 state.access state.context = .ok () := by
    rcases state.context with ⟨privilege, sum, mxr⟩
    cases privilege <;> cases state.access <;> cases sum <;> cases mxr <;> decide
  obtain ⟨hvalid, hleaf, hbase, hcheck⟩ := hentry
  have haddress : (pageEntry state.context).leafAddress state.virtualAddress .level0 = _ :=
    leafAddress_eq
  rw [hbase, Nat.zero_add] at haddress
  simp only [RiscvSv39WalkState.advance, hvalid, hleaf, hlevel, if_true,
    RiscvSv39WalkState.leafPhysicalAddress_of_ok hcheck, haddress]
  rfl

/-- Every walk through them ends in the first page. -/
theorem walk_stacked {rootTablePpn : Nat} (hroot : rootTablePpn ≤ 2 ^ 44 - 1)
    (address : RiscvSv39VirtualAddress) (access : RiscvSv39AccessKind)
    (context : RiscvSv39AccessContext) :
    ∃ walk pteAddresses, walkSv39PageTableWithContext rootTablePpn address access context
        (stacked rootTablePpn context) = (.ok walk, pteAddresses) ∧
      walk.physicalAddress = address.raw % 4096 := by
  have hpage : ∀ ppn level, (ppn <<< 12 + address.vpn level * 8) >>> 12 = ppn := by
    intro ppn level
    have hvpn : address.vpn level < 2 ^ 9 := Nat.and_lt_two_pow _ (by decide)
    omega
  have htables : ∃ middle last, (middle = 1 ∨ middle = 3) ∧ (last = 2 ∨ last = 3) ∧
      (∀ vaddr, vaddr >>> 12 = rootTablePpn →
        stacked rootTablePpn context vaddr = .ok (tableEntry middle)) ∧
      (∀ vaddr, vaddr >>> 12 = middle →
        stacked rootTablePpn context vaddr = .ok (tableEntry last)) ∧
      ∀ vaddr, vaddr >>> 12 = last →
        stacked rootTablePpn context vaddr = .ok (pageEntry context) := by
    refine ⟨if rootTablePpn = 1 then 3 else 1, if rootTablePpn = 2 then 3 else 2, ?_⟩
    simp only [stacked]
    grind
  obtain ⟨middle, last, hmiddle, hlast, hreadRoot, hreadMiddle, hreadLast⟩ := htables
  let state (ppn : Nat) (level : RiscvSv39PageTableLevel) (pteAddresses : List Nat) :=
    RiscvSv39WalkState.mk address access context ppn level (ppn <<< 12 + address.vpn level * 8)
      (pteAddresses ++ [ppn <<< 12 + address.vpn level * 8])
  let Ends (ppn : Nat) (level : RiscvSv39PageTableLevel) : Prop := ∀ pteAddresses read,
    ∃ walk read', walkLoop (stacked rootTablePpn context) (state ppn level pteAddresses) read =
      (.ok walk, read') ∧ walk.physicalAddress = address.raw % 4096
  have hend : Ends last .level0 := fun pteAddresses read => ⟨_, _, walkLoop_of_complete
    (state last .level0 pteAddresses) (hreadLast _ (hpage _ .level0)) (advance_pageEntry rfl) read,
    rfl⟩
  have hup : ∀ {upper ppn level next}, ppn = 1 ∨ ppn = 2 ∨ ppn = 3 →
      RiscvSv39PageTableLevel.nextLower level = some next →
      (∀ vaddr, vaddr >>> 12 = upper →
        stacked rootTablePpn context vaddr = .ok (tableEntry ppn)) →
      Ends ppn next → Ends upper level := by
    intro upper ppn level next hppn hlower hread hends pteAddresses read
    have hstep := walkLoop_of_readPte (state upper level pteAddresses) (hread _ (hpage _ level))
      (advance_tableEntry hppn hlower) read
    rw [hstep]
    exact hends _ _
  have hstart : RiscvSv39WalkState.newWithContext rootTablePpn address access context
      = .ok (state rootTablePpn .level2 []) := by
    simp only [RiscvSv39WalkState.newWithContext, RiscvSv39WalkState.fromTable,
      pageTableEntryAddress, if_neg (not_lt.mpr hroot)]
    rfl
  rw [walkSv39PageTableWithContext, hstart]
  exact hup (by omega) rfl hreadRoot (hup (by omega) rfl hreadMiddle hend) [] []

theorem validate_byte {id : MemoryRequestId} {size : AccessSize}
    {operation : CpuTranslatedMemoryOperation} {writeData : Option (List UInt8)}
    {byteMask : Option ByteMask} {atomicOp : Option MemoryAtomicOp}
    (h : CpuTranslationRequest.validate id size operation writeData byteMask atomicOp = .ok ()) :
    CpuTranslationRequest.validate id ⟨1, Nat.one_pos⟩ operation (writeData.map fun _ => [0])
      (byteMask.map fun _ => fullMask) atomicOp = .ok () := by
  simp only [CpuTranslationRequest.validate, CpuTranslationRequest.validatePayload, fullMask,
    bind, Except.bind] at h ⊢
  cases operation <;> cases writeData <;> cases byteMask <;> simp at h ⊢ <;> grind

/-- The same operation on one byte of an access. -/
def byteOf (request : CpuTranslationRequest) (index : Nat)
    (hindex : index < request.range.size.bytes) : CpuTranslationRequest :=
  { request with
    range := ⟨request.range.start + index, ⟨1, Nat.one_pos⟩, by
      have hbound := request.range.bound
      dsimp only
      omega⟩
    writeData := request.writeData.map fun _ => [0]
    byteMask := request.byteMask.map fun _ => fullMask
    valid := validate_byte request.valid }

/-- An access is answered rightly with every page table exactly if it stays inside one
    page, or is never mapped because its address is not canonical or the root table is
    out of range. -/
theorem resolve_covers (resolver : RiscvSv39PageTableResolver) (request : CpuTranslationRequest) :
    (∀ readPte physicalAddress,
      (resolver.resolve request readPte).resolution = .mapped physicalAddress →
      ∀ index < request.range.size.bytes, ∀ byte : CpuTranslationRequest,
        byte.range.start = request.range.start + index → byte.range.size.bytes = 1 →
        byte.operation = request.operation →
        byte.sv39AccessContext = request.sv39AccessContext →
        (resolver.resolve byte readPte).resolution = .mapped (physicalAddress + index)) ↔
    2 ^ 44 ≤ resolver.rootTablePpn ∨ isCanonicalSv39Address request.range.start = false ∨
      request.range.start % 4096 + request.range.size.bytes ≤ 4096 := by
  constructor
  · intro hcovers
    by_contra hcondition
    simp only [not_or, not_le, Bool.not_eq_false] at hcondition
    obtain ⟨hroot, hcanonical, hcross⟩ := hcondition
    -- With every page mapped to page zero, the first byte of the next page is answered wrongly.
    have hresolve : ∀ other : CpuTranslationRequest,
        other.sv39AccessContext = request.sv39AccessContext →
        isCanonicalSv39Address other.range.start = true →
        (resolver.resolve other
          (stacked resolver.rootTablePpn request.sv39AccessContext)).resolution
          = .mapped (other.range.start % 4096) := by
      intro other hcontext hcanonical
      obtain ⟨walk, pteAddresses, hwalk, haddress⟩ := walk_stacked
        (Nat.le_sub_one_of_lt hroot) ⟨_, hcanonical⟩ (sv39AccessKind other.operation)
        request.sv39AccessContext
      rw [← hcontext] at hwalk ⊢
      rw [← haddress]
      exact resolve_of_walk hcanonical hwalk
    have hindex : 4096 - request.range.start % 4096 < request.range.size.bytes := by omega
    have hbyte := hcovers _ _ (hresolve request rfl hcanonical) _ hindex
      (byteOf request _ hindex) rfl rfl rfl rfl
    obtain ⟨hcanonicalByte, -⟩ := walk_of_mapped hbyte
    have haddress := (hresolve (byteOf request _ hindex) rfl hcanonicalByte).symm.trans hbyte
    simp only [TranslationResolution.mapped.injEq, byteOf] at haddress
    omega
  · intro hcondition readPte physicalAddress hmapped index hindex byte hstart _ hoperation hcontext
    refine resolve_covers_leaf resolver request readPte physicalAddress hmapped ?_ index hindex
      byte hstart hoperation hcontext
    obtain ⟨hcanonical, walk, pteAddresses, hwalk, -⟩ := walk_of_mapped hmapped
    rcases hcondition with hroot | hnot | hpage
    · simp only [walkSv39PageTableWithContext, RiscvSv39WalkState.newWithContext,
        RiscvSv39WalkState.fromTable, pageTableEntryAddress] at hwalk
      rw [if_pos (by omega)] at hwalk
      cases hwalk
    · rw [CpuTranslationRequest.virtualAddress, hnot] at hcanonical
      cases hcanonical
    · intro level _
      cases level <;> simp only [RiscvSv39PageTableLevel.shift, RiscvSv39PageTableLevel.number] <;>
        omega

/-! ## Over the end of a superpage -/

/-- A root table whose first entry maps the first gigabyte to itself, and whose
    other entries are not valid. -/
def oneGigapage (address : Nat) : Except RiscvSv39PageFault RiscvSv39Pte :=
  .ok ⟨if address = 0 then 0xcf#64 else 0#64⟩

/-- A read. -/
def readOf (address bytes : Nat) (hpos : 0 < bytes) (h : address + bytes < wordLimit) :
    CpuTranslationRequest where
  translationId := ⟨0, 0⟩
  memoryRequestId := ⟨0, 0⟩
  route := 0
  endpoint := ""
  range := ⟨address, ⟨bytes, hpos⟩, h⟩
  operation := .read
  valid := rfl

/-- A read of the last byte of the gigabyte and the first byte behind it is
    mapped, though the second byte is not. -/
theorem resolve_runs_into_unmapped :
    (resolve ⟨0⟩ (readOf 0x3fffffff 2 (by decide) (by decide)) oneGigapage).resolution
      = .mapped 0x3fffffff ∧
    (resolve ⟨0⟩ (readOf 0x40000000 1 (by decide) (by decide)) oneGigapage).resolution
      = .fault ⟨0x40000000, .pageFault⟩ := by
  constructor <;> decide +kernel

end RiscvSv39PageTableResolver

end Rem6.Cpu
