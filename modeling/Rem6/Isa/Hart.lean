import Mathlib.Logic.Function.Basic
import Rem6.Isa.Csr

/-!
# The State of a Hart

The registers of a hart, and the record that an executed instruction leaves. A
trap is taken either from a pending interrupt, before the instruction is looked
at, or by the instruction itself. It goes to the supervisor when it is delegated
and the hart is not in machine mode, and to the machine otherwise. So a trap
never lowers the privilege.

## Main definitions

* `RiscvHartState`: The registers.
* `RiscvExecutionRecord`: What an instruction did.
* `enterPendingInterrupt`, `enterSynchronousTrap`: The two ways into a trap.

## Theorems

* `enterSynchronousTrap_rank`, `enterPendingInterrupt_rank`: A trap never lowers
  the privilege.
-/

namespace Rem6.Isa

open RiscvPrivilegeMode

abbrev Register := Fin 32

instance neZero_registers : NeZero 32 := ⟨by decide⟩

abbrev FloatRegister := Fin 32

abbrev VectorRegister := Fin 32

def riscvVectorRegisterBytes : Nat := 16

abbrev VectorBytes := Fin riscvVectorRegisterBytes → BitVec 8

structure RiscvHartState where
  pc : BitVec 64
  hartId : BitVec 64 := 0
  xlen : RiscvGdbXlen := .rv64
  counters : RiscvCounterBank := {}
  (supervisorTrapVector supervisorScratch supervisorExceptionPc : BitVec 64 := 0)
  (supervisorTrapCause supervisorTrapValue supervisorEnvironmentConfig : BitVec 64 := 0)
  (supervisorCounterEnable machineEnvironmentConfig machineExceptionDelegation : BitVec 64 := 0)
  (machineInterruptDelegation machineCounterEnable machineCounterInhibit : BitVec 64 := 0)
  (machineInterruptEnable machineInterruptPending machineTrapVector machineScratch : BitVec 64 := 0)
  (machineExceptionPc machineTrapCause machineTrapValue translationSatp : BitVec 64 := 0)
  privilegeMode : RiscvPrivilegeMode := .machine
  status : RiscvStatusWord := ⟨0⟩
  floatStatus : RiscvFloatStatus := ⟨0⟩
  vectorConfig : RiscvVectorConfig := .invalid
  vectorFixedPoint : RiscvVectorFixedPointState := {}
  registers : Register → BitVec 64 := fun _ => 0
  floatRegisters : FloatRegister → BitVec 64 := fun _ => 0
  vectorRegisters : VectorRegister → VectorBytes := fun _ _ => 0

namespace RiscvHartState

section

variable (hart : RiscvHartState)

def read (register : Register) : BitVec 64 :=
  if register = 0 then 0 else hart.registers register

def write (register : Register) (value : BitVec 64) : RiscvHartState :=
  if register = 0 then hart
  else { hart with registers := Function.update hart.registers register value }

def readFloat (register : FloatRegister) : BitVec 64 :=
  hart.floatRegisters register

def writeFloat (register : FloatRegister) (value : BitVec 64) :
    RiscvHartState :=
  { hart with floatRegisters := Function.update hart.floatRegisters register value }

def readVector (register : VectorRegister) : VectorBytes :=
  hart.vectorRegisters register

def writeVector (register : VectorRegister) (value : VectorBytes) :
    RiscvHartState :=
  { hart with vectorRegisters := Function.update hart.vectorRegisters register value }

def raiseFloatExceptionFlags (flags : BitVec 64) : RiscvHartState :=
  { hart with floatStatus := hart.floatStatus.raiseExceptionFlags flags }

def readCounterEnableCsr : RiscvCounterEnableCsr → BitVec 64
  | .scounteren => hart.supervisorCounterEnable
  | .mcounteren => hart.machineCounterEnable

def writeCounterEnableCsr (csr : RiscvCounterEnableCsr)
    (value : BitVec 64) : RiscvHartState :=
  match csr with
  | .scounteren => { hart with supervisorCounterEnable := value }
  | .mcounteren => { hart with machineCounterEnable := value }

def readCounterInhibitCsr : RiscvCounterInhibitCsr → BitVec 64
  | .mcountinhibit => hart.machineCounterInhibit

def writeCounterInhibitCsr (csr : RiscvCounterInhibitCsr)
    (value : BitVec 64) : RiscvHartState :=
  match csr with
  | .mcountinhibit => { hart with machineCounterInhibit := csr.normalize value }

/-- The supervisor sees the interrupts that are delegated to it. -/
def readInterruptCsr : RiscvInterruptCsr → BitVec 64
  | .machineInterruptEnable => hart.machineInterruptEnable
  | .machineInterruptPending => hart.machineInterruptPending
  | .supervisorInterruptEnable => hart.machineInterruptEnable &&& hart.machineInterruptDelegation
  | .supervisorInterruptPending => hart.machineInterruptPending &&& hart.machineInterruptDelegation

def writeInterruptCsr (csr : RiscvInterruptCsr) (value : BitVec 64) :
    RiscvHartState :=
  match csr with
  | .machineInterruptEnable => { hart with machineInterruptEnable := value }
  | .machineInterruptPending => { hart with machineInterruptPending := value }
  | .supervisorInterruptEnable =>
    { hart with
      machineInterruptEnable :=
        splice hart.machineInterruptDelegation hart.machineInterruptEnable value }
  | .supervisorInterruptPending =>
    { hart with
      machineInterruptPending :=
        splice hart.machineInterruptDelegation hart.machineInterruptPending value }

end

end RiscvHartState

/-! ## What an instruction leaves -/

inductive MemoryWidth where
  | byte | halfword | word | doubleword
deriving DecidableEq, Repr

inductive AtomicMemoryOp where
  | swap | add | xor | or | and | minSigned | maxSigned | minUnsigned | maxUnsigned
deriving DecidableEq, Repr

/-- The accesses of the vector unit carry what that unit says of them. -/
inductive MemoryAccessKind (V : Type) where
  | load (rd : Register) (address : BitVec 64) (width : MemoryWidth) (signed : Bool)
  | floatLoad (rd : FloatRegister) (address : BitVec 64) (width : MemoryWidth)
  | loadReserved (rd : Register) (address : BitVec 64) (width : MemoryWidth)
      (acquire release : Bool)
  | storeConditional (rd : Register) (address : BitVec 64) (width : MemoryWidth)
      (value : BitVec 64) (acquire release : Bool)
  | atomicMemory (rd : Register) (address : BitVec 64) (width : MemoryWidth) (op : AtomicMemoryOp)
      (value : BitVec 64) (acquire release : Bool)
  | store (address : BitVec 64) (width : MemoryWidth) (value : BitVec 64)
  | floatStore (address : BitVec 64) (width : MemoryWidth) (value : BitVec 64)
  | vector (access : V)

inductive RiscvTrapKind where
  | illegalInstruction | environmentCall | breakpoint
  | instructionPageFault (address : BitVec 64)
  | loadPageFault (address : BitVec 64)
  | storePageFault (address : BitVec 64)
  | interrupt (code : BitVec 64)
deriving DecidableEq, Repr

structure RiscvTrap where
  kind : RiscvTrapKind
  pc : BitVec 64
deriving DecidableEq, Repr

inductive RiscvSystemEvent where
  | waitForInterrupt (pc : BitVec 64)
  | sfenceVma (pc : BitVec 64) (virtualAddress addressSpace : Option (BitVec 64))
  | gem5Exit (pc delay : BitVec 64)
  | gem5Fail (pc delay code : BitVec 64)
  | gem5ResetStats (pc delay period : BitVec 64)
  | gem5DumpStats (pc delay period : BitVec 64)
  | gem5DumpResetStats (pc delay period : BitVec 64)
  | gem5Checkpoint (pc delay period : BitVec 64)
  | gem5SwitchCpu (pc : BitVec 64)
  | gem5Hypercall (pc selector : BitVec 64) (arguments : List (BitVec 64))
  | gem5WorkBegin (pc workId threadId : BitVec 64)
  | gem5WorkEnd (pc workId threadId : BitVec 64)
deriving DecidableEq, Repr

structure RegisterWrite where
  register : Register
  value : BitVec 64
deriving DecidableEq, Repr

structure FloatRegisterWrite where
  register : FloatRegister
  value : BitVec 64
deriving DecidableEq, Repr

/-- The record of one instruction. `I` are the instructions, `V` the accesses of
    the vector unit. -/
structure RiscvExecutionRecord (I V : Type) where
  instruction : I
  instructionBytes : BitVec 8
  (pc nextPc : BitVec 64)
  registerWrites : List RegisterWrite := []
  floatRegisterWrites : List FloatRegisterWrite := []
  memoryAccess : Option (MemoryAccessKind V) := none
  trap : Option RiscvTrap := none
  systemEvent : Option RiscvSystemEvent := none

/-! ## Traps -/

def supervisorReturnAllowed (privilege : RiscvPrivilegeMode) : Bool :=
  match privilege with
  | .user => false
  | _ => true

def machineReturnAllowed (privilege : RiscvPrivilegeMode) : Bool :=
  match privilege with
  | .machine => true
  | _ => false

def interruptTrapCause (code : BitVec 64) : BitVec 64 := (1#64 <<< 63) ||| code

def machineTrapCause (kind : RiscvTrapKind) (privilege : RiscvPrivilegeMode) : BitVec 64 :=
  match kind with
  | .illegalInstruction => 2
  | .environmentCall =>
    match privilege with
    | .user => 8
    | .supervisor => 9
    | .machine => 11
  | .breakpoint => 3
  | .instructionPageFault _ => 12
  | .loadPageFault _ => 13
  | .storePageFault _ => 15
  | .interrupt code => interruptTrapCause code

def trapValue : RiscvTrapKind → BitVec 64
  | .instructionPageFault address | .loadPageFault address | .storePageFault address => address
  | .illegalInstruction | .environmentCall | .breakpoint | .interrupt _ => 0

/-- A vectored handler is entered at its own address for each interrupt. -/
def trapHandlerPc (vector : BitVec 64) (kind : RiscvTrapKind) : BitVec 64 :=
  let base := vector &&& ~~~0b11
  match (vector &&& 0b11).toNat, kind with
  | 1, .interrupt code => base + code * 4
  | _, _ => base

def machineInterruptAllowed (hart : RiscvHartState) (privilege : RiscvPrivilegeMode) : Bool :=
  match privilege with
  | .user | .supervisor => true
  | .machine => hart.status.mie

def supervisorInterruptAllowed (hart : RiscvHartState) (privilege : RiscvPrivilegeMode) : Bool :=
  match privilege with
  | .user => true
  | .supervisor => hart.status.sie
  | .machine => false

def standardInterruptPriority : List Nat := [11, 3, 7, 9, 1, 5, 13]

/-- The interrupt to take: the standard ones in their order, then the lowest. -/
def interruptCode (pending : BitVec 64) : Option (BitVec 64) :=
  match standardInterruptPriority.find? fun code => statusBit pending code with
  | some code => some (BitVec.ofNat 64 code)
  | none => if pending != 0 then some pending.ctz else none

def exceptionDelegatedToSupervisor (hart : RiscvHartState) (previousPrivilege : RiscvPrivilegeMode)
    (cause : BitVec 64) : Bool :=
  if previousPrivilege = .machine ∨ 64 ≤ cause.toNat then false
  else statusBit hart.machineExceptionDelegation cause.toNat

section Entry

variable {I V : Type}

section

variable (hart : RiscvHartState)

def enterSupervisorTrap (instruction : I) (instructionBytes : BitVec 8)
    (pc : BitVec 64) (kind : RiscvTrapKind) (cause : BitVec 64)
    (previousPrivilege : RiscvPrivilegeMode) : RiscvExecutionRecord I V × RiscvHartState :=
  let handlerPc := trapHandlerPc hart.supervisorTrapVector kind
  let status := hart.status
  ({ instruction, instructionBytes, pc,
      nextPc := handlerPc, trap := some ⟨kind, pc⟩ },
    { hart with
      supervisorExceptionPc := pc
      supervisorTrapCause := cause
      supervisorTrapValue := trapValue kind
      privilegeMode := .supervisor
      status := ((status.withSpp previousPrivilege).withSpie status.sie).withSie false
      pc := handlerPc })

def enterMachineTrap (instruction : I) (instructionBytes : BitVec 8)
    (pc : BitVec 64) (kind : RiscvTrapKind) : RiscvExecutionRecord I V × RiscvHartState :=
  let previousPrivilege := hart.privilegeMode
  let handlerPc := trapHandlerPc hart.machineTrapVector kind
  let status := hart.status
  ({ instruction, instructionBytes, pc,
      nextPc := handlerPc, trap := some ⟨kind, pc⟩ },
    { hart with
      machineExceptionPc := pc
      machineTrapCause := machineTrapCause kind previousPrivilege
      machineTrapValue := trapValue kind
      privilegeMode := .machine
      status := ((status.withMpp previousPrivilege).withMpie status.mie).withMie false
      pc := handlerPc })

def enterSynchronousTrap (instruction : I) (instructionBytes : BitVec 8)
    (pc : BitVec 64) (kind : RiscvTrapKind) : RiscvExecutionRecord I V × RiscvHartState :=
  let previousPrivilege := hart.privilegeMode
  let cause := machineTrapCause kind previousPrivilege
  if exceptionDelegatedToSupervisor hart previousPrivilege cause then
    enterSupervisorTrap hart instruction instructionBytes pc kind cause previousPrivilege
  else enterMachineTrap hart instruction instructionBytes pc kind

/-- The interrupt to take for the machine, if any may be taken. -/
def machineInterrupt : Option (BitVec 64) :=
  let pending := hart.machineInterruptPending &&& hart.machineInterruptEnable
  if machineInterruptAllowed hart hart.privilegeMode then
    interruptCode (pending &&& ~~~hart.machineInterruptDelegation)
  else none

/-- The interrupt to take for the supervisor, if any may be taken. -/
def supervisorInterrupt : Option (BitVec 64) :=
  let pending := hart.machineInterruptPending &&& hart.machineInterruptEnable
  if supervisorInterruptAllowed hart hart.privilegeMode then
    interruptCode (pending &&& hart.machineInterruptDelegation)
  else none

def enterPendingInterrupt (instruction : I) (instructionBytes : BitVec 8)
    (pc : BitVec 64) : Option (RiscvExecutionRecord I V × RiscvHartState) :=
  if hart.machineInterruptPending &&& hart.machineInterruptEnable = 0 then none
  else
    match machineInterrupt hart with
    | some code => some (enterMachineTrap hart instruction instructionBytes pc (.interrupt code))
    | none =>
      match supervisorInterrupt hart with
      | some code =>
        some (enterSupervisorTrap hart instruction instructionBytes pc (.interrupt code)
          (interruptTrapCause code) hart.privilegeMode)
      | none => none

end

variable {hart : RiscvHartState} {instruction : I} {instructionBytes : BitVec 8}
  {pc : BitVec 64} {kind : RiscvTrapKind}

theorem RiscvPrivilegeMode.rank_le_machine {privilege : RiscvPrivilegeMode} :
    privilege.rank ≤ machine.rank := by
  cases privilege <;> decide

theorem RiscvPrivilegeMode.rank_le_supervisor {privilege : RiscvPrivilegeMode}
    (h : privilege ≠ .machine) : privilege.rank ≤ supervisor.rank := by
  cases privilege with
  | user | supervisor => decide
  | machine => exact absurd rfl h

theorem ne_machine_of_delegated {previousPrivilege cause}
    (h : exceptionDelegatedToSupervisor hart previousPrivilege cause = true) :
    previousPrivilege ≠ .machine := by
  intro hmach
  unfold exceptionDelegatedToSupervisor at h
  rw [if_pos (.inl hmach)] at h
  exact Bool.false_ne_true h

theorem enterSynchronousTrap_rank :
    hart.privilegeMode.rank ≤
      (enterSynchronousTrap (V := V) hart instruction instructionBytes pc kind).2.privilegeMode.rank
    := by
  unfold enterSynchronousTrap
  simp only
  split
  next hdel => exact rank_le_supervisor (ne_machine_of_delegated hdel)
  next => exact rank_le_machine

theorem supervisorInterrupt_ne_machine {code} (h : supervisorInterrupt hart = some code) :
    hart.privilegeMode ≠ .machine := by
  intro hmach
  unfold supervisorInterrupt at h
  rw [hmach] at h
  exact absurd h (by simp [supervisorInterruptAllowed])

/-- An interrupt that is taken leaves a record of a trap and does not lower the
    privilege. -/
theorem enterPendingInterrupt_rank {V} {res : RiscvExecutionRecord I V × RiscvHartState}
    (h : enterPendingInterrupt hart instruction instructionBytes pc = some res) :
    res.1.trap ≠ none ∧ hart.privilegeMode.rank ≤ res.2.privilegeMode.rank := by
  unfold enterPendingInterrupt at h
  split at h
  · cases h
  · split at h
    · cases h
      exact ⟨Option.some_ne_none _, rank_le_machine⟩
    · split at h
      next code hcode =>
        cases h
        exact ⟨Option.some_ne_none _, rank_le_supervisor (supervisorInterrupt_ne_machine hcode)⟩
      next => cases h

end Entry

end Rem6.Isa
