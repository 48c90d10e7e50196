import Rem6.Isa.Vector

/-!
# Instructions

The instructions of a hart, as the decoder leaves them. The arithmetic of four
units is not modelled: vector integers other than averages, vector floats,
floats, and the addresses of vector memory accesses. A `RiscvUnits` stands for
it. It is a parameter of everything below, so what is proved holds whatever
those units compute. How they can change the hart is not left open: a float
instruction raises flags and writes one register, and a vector instruction
writes vector registers, float registers, float flags or the fixed-point state.

An instruction that names a control and status register needs a privilege, which
is read from the address of the register (`requiredCsrPrivilege`).

## Main definitions

* `RiscvUnits`: The arithmetic that is left open.
* `RiscvInstruction`: The instructions.
* `RiscvInstruction.requiredCsrPrivilege`: The privilege an instruction needs.
-/

namespace Rem6.Isa

inductive RiscvPseudoOp where
  | exit | fail | sum | resetStats | dumpStats | dumpResetStats | checkpoint | switchCpu | hypercall
  | workBegin | workEnd
deriving DecidableEq, Repr

inductive RiscvCsrOp where
  | read | write | set | clear
deriving DecidableEq, Repr

inductive RiscvCsrOperand where
  | register (register : Register)
  | immediate (value : BitVec 8)
deriving DecidableEq, Repr

/-- An instruction on one of a family of control and status registers. -/
structure RiscvCsrInstruction (C : Type) where
  rd : Register
  csr : C
  op : RiscvCsrOp
  operand : RiscvCsrOperand
deriving DecidableEq, Repr

structure RiscvFenceSet where
  (input output read write : Bool)
deriving DecidableEq, Repr

inductive RiscvVectorMaskMode where
  | masked | unmasked
deriving DecidableEq, Repr

inductive RiscvVectorMaskReductionInstruction where
  | popCount (rd : Register) (vs2 : VectorRegister) (mask : RiscvVectorMaskMode)
  | firstSet (rd : Register) (vs2 : VectorRegister) (mask : RiscvVectorMaskMode)
deriving DecidableEq, Repr

inductive RiscvVectorScalarMoveInstruction where
  | moveToScalar (rd : Register) (vs2 : VectorRegister)
  | moveFromScalar (vd : VectorRegister) (rs1 : Register)
deriving DecidableEq, Repr

/-- A change that a vector unit makes to the hart. -/
inductive VectorWrite where
  | vector (register : VectorRegister) (value : VectorBytes)
  | float (register : FloatRegister) (value : BitVec 64)
  | exceptionFlags (flags : BitVec 64)
  | fixedPoint (state : RiscvVectorFixedPointState)

def VectorWrite.apply (hart : RiscvHartState) : VectorWrite → RiscvHartState
  | .vector register value => hart.writeVector register value
  | .float register value => hart.writeFloat register value
  | .exceptionFlags flags => hart.raiseFloatExceptionFlags flags
  | .fixedPoint state => { hart with vectorFixedPoint := state }

/-- The units whose arithmetic is left open. A vector unit says whether the
    instruction is legal and what it writes; a float unit the flags it raises,
    the register it writes and the value, or that the instruction is illegal. -/
structure RiscvUnits where
  (VectorInteger VectorFloat FloatRegisterOp FloatIntegerOp VectorMemory VectorAccess : Type)
  vectorInteger : RiscvHartState → VectorInteger → Bool × List VectorWrite
  vectorFloat : RiscvHartState → VectorFloat → Bool × List VectorWrite
  floatRegister : RiscvHartState → FloatRegisterOp → Option (BitVec 64 × FloatRegister × BitVec 64)
  floatInteger : RiscvHartState → FloatIntegerOp → Option (BitVec 64 × Register × BitVec 64)
  vectorMemory : RiscvHartState → VectorMemory → Option (Option VectorAccess)

/-- The units of a hart without vectors and floats. -/
def RiscvUnits.none : RiscvUnits where
  VectorInteger := Empty
  VectorFloat := Empty
  FloatRegisterOp := Empty
  FloatIntegerOp := Empty
  VectorMemory := Empty
  VectorAccess := Empty
  vectorInteger _ op := op.elim
  vectorFloat _ op := op.elim
  floatRegister _ op := op.elim
  floatInteger _ op := op.elim
  vectorMemory _ op := op.elim

/-- Immediates are sign-extended to 64 bits. -/
inductive RiscvInstruction (units : RiscvUnits) where
  | lui (rd : Register) (imm : BitVec 64)
  | auipc (rd : Register) (imm : BitVec 64)
  | addi (rd rs1 : Register) (imm : BitVec 64)
  | slti (rd rs1 : Register) (imm : BitVec 64)
  | sltiu (rd rs1 : Register) (imm : BitVec 64)
  | xori (rd rs1 : Register) (imm : BitVec 64)
  | ori (rd rs1 : Register) (imm : BitVec 64)
  | andi (rd rs1 : Register) (imm : BitVec 64)
  | slli (rd rs1 : Register) (shamt : BitVec 8)
  | srli (rd rs1 : Register) (shamt : BitVec 8)
  | srai (rd rs1 : Register) (shamt : BitVec 8)
  | addiw (rd rs1 : Register) (imm : BitVec 64)
  | slliw (rd rs1 : Register) (shamt : BitVec 8)
  | srliw (rd rs1 : Register) (shamt : BitVec 8)
  | sraiw (rd rs1 : Register) (shamt : BitVec 8)
  | add (rd rs1 rs2 : Register)
  | sub (rd rs1 rs2 : Register)
  | sll (rd rs1 rs2 : Register)
  | slt (rd rs1 rs2 : Register)
  | sltu (rd rs1 rs2 : Register)
  | xor (rd rs1 rs2 : Register)
  | srl (rd rs1 rs2 : Register)
  | sra (rd rs1 rs2 : Register)
  | or (rd rs1 rs2 : Register)
  | and (rd rs1 rs2 : Register)
  | mul (rd rs1 rs2 : Register)
  | mulh (rd rs1 rs2 : Register)
  | mulhsu (rd rs1 rs2 : Register)
  | mulhu (rd rs1 rs2 : Register)
  | div (rd rs1 rs2 : Register)
  | divu (rd rs1 rs2 : Register)
  | rem (rd rs1 rs2 : Register)
  | remu (rd rs1 rs2 : Register)
  | mulw (rd rs1 rs2 : Register)
  | divw (rd rs1 rs2 : Register)
  | divuw (rd rs1 rs2 : Register)
  | remw (rd rs1 rs2 : Register)
  | remuw (rd rs1 rs2 : Register)
  | addw (rd rs1 rs2 : Register)
  | subw (rd rs1 rs2 : Register)
  | sllw (rd rs1 rs2 : Register)
  | srlw (rd rs1 rs2 : Register)
  | sraw (rd rs1 rs2 : Register)
  | beq (rs1 rs2 : Register) (offset : BitVec 64)
  | bne (rs1 rs2 : Register) (offset : BitVec 64)
  | blt (rs1 rs2 : Register) (offset : BitVec 64)
  | bge (rs1 rs2 : Register) (offset : BitVec 64)
  | bltu (rs1 rs2 : Register) (offset : BitVec 64)
  | bgeu (rs1 rs2 : Register) (offset : BitVec 64)
  | jal (rd : Register) (offset : BitVec 64)
  | jalr (rd rs1 : Register) (offset : BitVec 64)
  | vectorSetVli (rd rs1 : Register) (vtype : BitVec 64)
  | vectorSetIvli (rd : Register) (avl : BitVec 8) (vtype : BitVec 64)
  | vectorSetVl (rd rs1 rs2 : Register)
  | vectorMaskReduction (instruction : RiscvVectorMaskReductionInstruction)
  | vectorScalarMove (instruction : RiscvVectorScalarMoveInstruction)
  | vectorAveraging (instruction : RiscvVectorAveragingInstruction)
  | vectorInteger (op : units.VectorInteger)
  | vectorFloat (op : units.VectorFloat)
  | load (rd rs1 : Register) (offset : BitVec 64) (width : MemoryWidth) (signed : Bool)
  | store (rs1 rs2 : Register) (offset : BitVec 64) (width : MemoryWidth)
  | floatLoad (rd : FloatRegister) (rs1 : Register) (offset : BitVec 64) (width : MemoryWidth)
  | vectorMemory (op : units.VectorMemory)
  | floatStore (rs1 : Register) (rs2 : FloatRegister) (offset : BitVec 64) (width : MemoryWidth)
  | floatRegister (op : units.FloatRegisterOp)
  | floatInteger (op : units.FloatIntegerOp)
  | loadReserved (rd rs1 : Register) (width : MemoryWidth) (acquire release : Bool)
  | storeConditional (rd rs1 rs2 : Register) (width : MemoryWidth) (acquire release : Bool)
  | atomicMemory (rd rs1 rs2 : Register) (width : MemoryWidth) (op : AtomicMemoryOp)
      (acquire release : Bool)
  | fence (predecessor successor : RiscvFenceSet) (mode : BitVec 8)
  | fenceI | waitForInterrupt | supervisorReturn | machineReturn
  | sfenceVma (rs1 rs2 : Register)
  | gem5PseudoOp (op : RiscvPseudoOp)
  | machineInformationCsr (instruction : RiscvCsrInstruction RiscvMachineInformationCsr)
  | environmentConfigCsr (instruction : RiscvCsrInstruction RiscvEnvironmentConfigCsr)
  | counterEnableCsr (instruction : RiscvCsrInstruction RiscvCounterEnableCsr)
  | counterInhibitCsr (instruction : RiscvCsrInstruction RiscvCounterInhibitCsr)
  | readCounterCsr (rd : Register) (csr : RiscvCounterCsr)
  | readMachineCounterCsr (rd : Register) (csr : RiscvCounterCsr)
  | readCounterCsrWord (rd : Register) (csr : RiscvCounterCsrWord)
  | readMachineCounterCsrWord (rd : Register) (csr : RiscvCounterCsrWord)
  | writeCounterCsr (rd : Register) (csr : RiscvCounterCsr) (rs1 : Register)
  | setCounterCsr (rd : Register) (csr : RiscvCounterCsr) (rs1 : Register)
  | clearCounterCsr (rd : Register) (csr : RiscvCounterCsr) (rs1 : Register)
  | writeCounterCsrImmediate (rd : Register) (csr : RiscvCounterCsr) (zimm : BitVec 8)
  | setCounterCsrImmediate (rd : Register) (csr : RiscvCounterCsr) (zimm : BitVec 8)
  | clearCounterCsrImmediate (rd : Register) (csr : RiscvCounterCsr) (zimm : BitVec 8)
  | readFloatCsr (rd : Register) (csr : RiscvFloatCsr)
  | writeFloatCsr (rd : Register) (csr : RiscvFloatCsr) (rs1 : Register)
  | setFloatCsr (rd : Register) (csr : RiscvFloatCsr) (rs1 : Register)
  | clearFloatCsr (rd : Register) (csr : RiscvFloatCsr) (rs1 : Register)
  | writeFloatCsrImmediate (rd : Register) (csr : RiscvFloatCsr) (zimm : BitVec 8)
  | setFloatCsrImmediate (rd : Register) (csr : RiscvFloatCsr) (zimm : BitVec 8)
  | clearFloatCsrImmediate (rd : Register) (csr : RiscvFloatCsr) (zimm : BitVec 8)
  | vectorFixedPointCsr (instruction : RiscvCsrInstruction RiscvVectorFixedPointCsr)
  | readStatusCsr (rd : Register) (csr : RiscvStatusCsr)
  | writeStatusCsr (rd : Register) (csr : RiscvStatusCsr) (rs1 : Register)
  | setStatusCsr (rd : Register) (csr : RiscvStatusCsr) (rs1 : Register)
  | clearStatusCsr (rd : Register) (csr : RiscvStatusCsr) (rs1 : Register)
  | writeStatusCsrImmediate (rd : Register) (csr : RiscvStatusCsr) (zimm : BitVec 8)
  | setStatusCsrImmediate (rd : Register) (csr : RiscvStatusCsr) (zimm : BitVec 8)
  | clearStatusCsrImmediate (rd : Register) (csr : RiscvStatusCsr) (zimm : BitVec 8)
  | readInterruptCsr (rd : Register) (csr : RiscvInterruptCsr)
  | writeInterruptCsr (rd : Register) (csr : RiscvInterruptCsr) (rs1 : Register)
  | setInterruptCsr (rd : Register) (csr : RiscvInterruptCsr) (rs1 : Register)
  | clearInterruptCsr (rd : Register) (csr : RiscvInterruptCsr) (rs1 : Register)
  | writeInterruptCsrImmediate (rd : Register) (csr : RiscvInterruptCsr) (zimm : BitVec 8)
  | setInterruptCsrImmediate (rd : Register) (csr : RiscvInterruptCsr) (zimm : BitVec 8)
  | clearInterruptCsrImmediate (rd : Register) (csr : RiscvInterruptCsr) (zimm : BitVec 8)
  | readMachineTrapCsr (rd : Register) (csr : RiscvMachineTrapCsr)
  | writeMachineTrapCsr (rd : Register) (csr : RiscvMachineTrapCsr) (rs1 : Register)
  | setMachineTrapCsr (rd : Register) (csr : RiscvMachineTrapCsr) (rs1 : Register)
  | clearMachineTrapCsr (rd : Register) (csr : RiscvMachineTrapCsr) (rs1 : Register)
  | writeMachineTrapCsrImmediate (rd : Register) (csr : RiscvMachineTrapCsr) (zimm : BitVec 8)
  | setMachineTrapCsrImmediate (rd : Register) (csr : RiscvMachineTrapCsr) (zimm : BitVec 8)
  | clearMachineTrapCsrImmediate (rd : Register) (csr : RiscvMachineTrapCsr) (zimm : BitVec 8)
  | readSupervisorTrapCsr (rd : Register) (csr : RiscvSupervisorTrapCsr)
  | writeSupervisorTrapCsr (rd : Register) (csr : RiscvSupervisorTrapCsr) (rs1 : Register)
  | setSupervisorTrapCsr (rd : Register) (csr : RiscvSupervisorTrapCsr) (rs1 : Register)
  | clearSupervisorTrapCsr (rd : Register) (csr : RiscvSupervisorTrapCsr) (rs1 : Register)
  | writeSupervisorTrapCsrImmediate (rd : Register) (csr : RiscvSupervisorTrapCsr) (zimm : BitVec 8)
  | setSupervisorTrapCsrImmediate (rd : Register) (csr : RiscvSupervisorTrapCsr) (zimm : BitVec 8)
  | clearSupervisorTrapCsrImmediate (rd : Register) (csr : RiscvSupervisorTrapCsr) (zimm : BitVec 8)
  | translationCsr (instruction : RiscvCsrInstruction RiscvTranslationCsr)
  | ecall | ebreak

namespace RiscvInstruction

variable {units : RiscvUnits}

/-- The privilege that the register of an instruction needs. Every other
    instruction may be tried in any mode. -/
def requiredCsrPrivilege : RiscvInstruction units → Option RiscvPrivilegeMode
  | .machineInformationCsr instruction | .environmentConfigCsr instruction
  | .counterEnableCsr instruction | .counterInhibitCsr instruction =>
    some (Isa.requiredCsrPrivilege instruction.csr.address)
  | .readCounterCsr _ _ | .readCounterCsrWord _ _ => some .user
  | .readMachineCounterCsr _ _ | .readMachineCounterCsrWord _ _ | .writeCounterCsr _ _ _
  | .setCounterCsr _ _ _ | .clearCounterCsr _ _ _ | .writeCounterCsrImmediate _ _ _
  | .setCounterCsrImmediate _ _ _ | .clearCounterCsrImmediate _ _ _ => some .machine
  | .readFloatCsr _ csr | .writeFloatCsr _ csr _ | .setFloatCsr _ csr _ | .clearFloatCsr _ csr _
  | .writeFloatCsrImmediate _ csr _ | .setFloatCsrImmediate _ csr _
  | .clearFloatCsrImmediate _ csr _ => some (Isa.requiredCsrPrivilege csr.address)
  | .vectorFixedPointCsr instruction => some (Isa.requiredCsrPrivilege instruction.csr.address)
  | .readStatusCsr _ csr | .writeStatusCsr _ csr _ | .setStatusCsr _ csr _
  | .clearStatusCsr _ csr _ | .writeStatusCsrImmediate _ csr _ | .setStatusCsrImmediate _ csr _
  | .clearStatusCsrImmediate _ csr _ => some (Isa.requiredCsrPrivilege csr.address)
  | .readInterruptCsr _ csr | .writeInterruptCsr _ csr _ | .setInterruptCsr _ csr _
  | .clearInterruptCsr _ csr _ | .writeInterruptCsrImmediate _ csr _
  | .setInterruptCsrImmediate _ csr _ | .clearInterruptCsrImmediate _ csr _ =>
    some (Isa.requiredCsrPrivilege csr.address)
  | .readMachineTrapCsr _ csr | .writeMachineTrapCsr _ csr _ | .setMachineTrapCsr _ csr _
  | .clearMachineTrapCsr _ csr _ | .writeMachineTrapCsrImmediate _ csr _
  | .setMachineTrapCsrImmediate _ csr _ | .clearMachineTrapCsrImmediate _ csr _ =>
    some (Isa.requiredCsrPrivilege csr.address)
  | .readSupervisorTrapCsr _ csr | .writeSupervisorTrapCsr _ csr _ | .setSupervisorTrapCsr _ csr _
  | .clearSupervisorTrapCsr _ csr _ | .writeSupervisorTrapCsrImmediate _ csr _
  | .setSupervisorTrapCsrImmediate _ csr _ | .clearSupervisorTrapCsrImmediate _ csr _ =>
    some (Isa.requiredCsrPrivilege csr.address)
  | .translationCsr instruction => some (Isa.requiredCsrPrivilege instruction.csr.address)
  | _ => none

/-- The counter that an instruction reads without the machine's privilege. -/
def readCounter : RiscvInstruction units → Option RiscvCounterCsr
  | .readCounterCsr _ csr => some csr
  | .readCounterCsrWord _ csr => some csr.counter
  | _ => none

/-- The status register that an instruction names. -/
def statusCsr : RiscvInstruction units → Option RiscvStatusCsr
  | .readStatusCsr _ csr | .writeStatusCsr _ csr _ | .setStatusCsr _ csr _
  | .clearStatusCsr _ csr _ | .writeStatusCsrImmediate _ csr _ | .setStatusCsrImmediate _ csr _
  | .clearStatusCsrImmediate _ csr _ => some csr
  | _ => none

end RiscvInstruction

end Rem6.Isa
