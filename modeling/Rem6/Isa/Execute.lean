import Rem6.Isa.Instruction
import Rem6.Lib.Fallible

/-!
# Execution of an Instruction

One instruction is executed in place: the hart is written as the instruction
goes along, and the exits in the middle leave what was written. There are three
of them. The instruction may be illegal or trap by itself, which enters a trap
on the hart as it stands then; an address may overflow, which is an error; and a
unit may panic.

Before the instruction itself a pending interrupt is taken, and the privilege of
the register it names is checked. The instruction retires only at the end, where
the program counter and the counters move.

The control and status registers come in families that differ in the word they
read and write. A family is a `CsrPort`, and the instructions on it are
`csrRead` and `csrWrite`.

## Main definitions

* `RiscvLocals`, `Exec`: The state of an execution and its steps.
* `CsrPort`, `csrRead`, `csrWrite`: Access to a family of registers.
* `executeInstruction`: What each instruction does.
* `RiscvHartState.executeWithInstructionBytes`: The whole execution.
* `Executes`: The ways in which it comes back.

## Theorems

* `executes_of_eq_some`: There are no others.
* `body_of_untrapped`: An execution without a trap is one of the whole body.
-/

namespace Rem6.Isa

open Lib RiscvHartState Fallible BitVec

inductive RiscvError where
  | pcOverflow (pc offset : BitVec 64)
  | addressOverflow (value offset : BitVec 64)
deriving DecidableEq, Repr

/-! ## Integer arithmetic -/

def mulhSigned (lhs rhs : BitVec 64) : BitVec 64 :=
  ((lhs.signExtend 128 * rhs.signExtend 128).sshiftRight 64).setWidth 64

def mulhSignedUnsigned (lhs rhs : BitVec 64) : BitVec 64 :=
  ((lhs.signExtend 128 * rhs.setWidth 128).sshiftRight 64).setWidth 64

def mulhUnsigned (lhs rhs : BitVec 64) : BitVec 64 :=
  ((lhs.setWidth 128 * rhs.setWidth 128) >>> 64).setWidth 64

/-- Division that does not trap: by zero it gives the largest value, and the
    overflow of the signed one is the dividend. -/
def divSigned {w : Nat} (lhs rhs : BitVec w) : BitVec w :=
  if rhs = 0 then allOnes w
  else if lhs = intMin w ∧ rhs = allOnes w then lhs
  else lhs.sdiv rhs

def divUnsigned {w : Nat} (lhs rhs : BitVec w) : BitVec w :=
  if rhs = 0 then allOnes w else lhs / rhs

def remSigned {w : Nat} (lhs rhs : BitVec w) : BitVec w :=
  if rhs = 0 then lhs
  else if lhs = intMin w ∧ rhs = allOnes w then 0
  else lhs.srem rhs

def remUnsigned {w : Nat} (lhs rhs : BitVec w) : BitVec w := if rhs = 0 then lhs else lhs % rhs

def signExtendWord (value : BitVec 32) : BitVec 64 := value.signExtend 64

/-- An address and a signed offset. -/
def addSigned (value offset : BitVec 64) : Except RiscvError (BitVec 64) :=
  if 0 ≤ offset.toInt then
    if value.toNat + offset.toNat < 2 ^ 64 then .ok (value + offset)
    else .error (.addressOverflow value offset)
  else
    if offset.toInt.natAbs ≤ value.toNat then .ok (value + offset)
    else .error (.addressOverflow value offset)

/-! ## Steps of an execution -/

/-- What an execution has done so far. -/
structure RiscvLocals (units : RiscvUnits) where
  hart : RiscvHartState
  nextPc : BitVec 64
  registerWrites : List RegisterWrite := []
  floatRegisterWrites : List FloatRegisterWrite := []
  memoryAccess : Option (MemoryAccessKind units.VectorAccess) := none
  systemEvent : Option RiscvSystemEvent := none

/-- The ways out of an execution before its end. -/
inductive RiscvExit where
  | trap (kind : RiscvTrapKind)
  | error (error : RiscvError)
  | panic
deriving DecidableEq, Repr

abbrev Exec (units : RiscvUnits) (α : Type) : Type := Fallible (RiscvLocals units) RiscvExit α

variable {units : RiscvUnits}

def illegalInstruction : Exec units Unit := fail (.trap .illegalInstruction)

def orError {α : Type} (result : Except RiscvError α) : Exec units α :=
  check (result.mapError .error)

def modifyHart (change : RiscvHartState → RiscvHartState) : Exec units Unit :=
  modify fun locals => { locals with hart := change locals.hart }

def setNextPc (pc : BitVec 64) : Exec units Unit :=
  modify fun locals => { locals with nextPc := pc }

/-- Go on with the hart as it is. -/
def withHart (body : RiscvHartState → Exec units Unit) : Exec units Unit :=
  fun locals => body locals.hart locals

def writeRegister (register : Register) (value : BitVec 64) : Exec units Unit :=
  modify fun locals =>
    if register = 0 then locals
    else
      { locals with
        hart := locals.hart.write register value
        registerWrites := locals.registerWrites ++ [⟨register, value⟩] }

def writeFloatRegister (register : FloatRegister) (value : BitVec 64) : Exec units Unit :=
  modify fun locals =>
    { locals with
      hart := locals.hart.writeFloat register value
      floatRegisterWrites := locals.floatRegisterWrites ++ [⟨register, value⟩] }

variable (rd : Register)

/-- Write a value that is computed from the hart. -/
def compute (value : RiscvHartState → BitVec 64) : Exec units Unit :=
  withHart fun hart => writeRegister rd (value hart)

/-- Write a value that is computed from a word of the hart. -/
def computeWord (value : RiscvHartState → BitVec 32) : Exec units Unit :=
  compute rd fun hart => signExtendWord (value hart)

def branch (pc offset : BitVec 64) (taken : RiscvHartState → Bool) : Exec units Unit :=
  withHart fun hart =>
    if taken hart then do setNextPc (← orError (addSigned pc offset)) else pure ()

def accessMemory (access : RiscvHartState → MemoryAccessKind units.VectorAccess) :
    Exec units Unit :=
  modify fun locals => { locals with memoryAccess := some (access locals.hart) }

/-- An access at a register and an offset. -/
def accessMemoryAt (rs1 : Register) (offset : BitVec 64)
    (access : RiscvHartState → BitVec 64 → MemoryAccessKind units.VectorAccess) :
    Exec units Unit :=
  withHart fun hart => do
    let address ← orError (addSigned (hart.read rs1) offset)
    accessMemory fun hart => access hart address

def raiseEvent (event : RiscvHartState → RiscvSystemEvent) : Exec units Unit :=
  modify fun locals => { locals with systemEvent := some (event locals.hart) }

/-! ## Control and status registers -/

/-- The word behind a family of registers. -/
structure CsrPort (C : Type) where
  read : RiscvHartState → C → BitVec 64
  write : RiscvHartState → C → BitVec 64 → RiscvHartState

section Csr

variable {C : Type} (port : CsrPort C)

variable (rd : Register)

def csrRead (csr : C) : Exec units Unit := compute rd fun hart => port.read hart csr

/-- The value is computed first, then the old one goes to the register. -/
def csrWrite (csr : C) (value : RiscvHartState → BitVec 64) : Exec units Unit :=
  withHart fun hart => do
    writeRegister rd (port.read hart csr)
    modifyHart fun current => port.write current csr (value hart)

def csrSet (csr : C) (operand : RiscvHartState → BitVec 64) : Exec units Unit :=
  csrWrite port rd csr fun hart => port.read hart csr ||| operand hart

def csrClear (csr : C) (operand : RiscvHartState → BitVec 64) : Exec units Unit :=
  csrWrite port rd csr fun hart => port.read hart csr &&& ~~~operand hart

def RiscvCsrOperand.value (operand : RiscvCsrOperand) (hart : RiscvHartState) : BitVec 64 :=
  match operand with
  | .register source => hart.read source
  | .immediate value => value.setWidth 64

def executeCsr (instruction : RiscvCsrInstruction C) : Exec units Unit :=
  match instruction.op with
  | .read => csrRead port instruction.rd instruction.csr
  | .write => csrWrite port instruction.rd instruction.csr instruction.operand.value
  | .set => csrSet port instruction.rd instruction.csr instruction.operand.value
  | .clear => csrClear port instruction.rd instruction.csr instruction.operand.value

end Csr

def floatPort : CsrPort RiscvFloatCsr where
  read hart csr := csr.read hart.floatStatus
  write hart csr value := { hart with floatStatus := csr.write hart.floatStatus value }

def vectorFixedPointPort : CsrPort RiscvVectorFixedPointCsr where
  read hart csr := csr.read hart.vectorFixedPoint
  write hart csr value := { hart with vectorFixedPoint := csr.write hart.vectorFixedPoint value }

def environmentConfigPort : CsrPort RiscvEnvironmentConfigCsr where
  read hart
    | .senvcfg => hart.supervisorEnvironmentConfig
    | .menvcfg => hart.machineEnvironmentConfig
  write hart csr value :=
    match csr with
    | .senvcfg => { hart with supervisorEnvironmentConfig := value }
    | .menvcfg => { hart with machineEnvironmentConfig := value }

def counterEnablePort : CsrPort RiscvCounterEnableCsr where
  read := readCounterEnableCsr
  write := writeCounterEnableCsr

def counterInhibitPort : CsrPort RiscvCounterInhibitCsr where
  read := readCounterInhibitCsr
  write := writeCounterInhibitCsr

def statusPort : CsrPort RiscvStatusCsr where
  read hart csr := csr.readForXlen hart.xlen hart.status
  write hart csr value := { hart with status := csr.writeForXlen hart.xlen hart.status value }

def interruptPort : CsrPort RiscvInterruptCsr where
  read := readInterruptCsr
  write := writeInterruptCsr

def machineTrapPort : CsrPort RiscvMachineTrapCsr where
  read hart
    | .medeleg => hart.machineExceptionDelegation
    | .mideleg => hart.machineInterruptDelegation
    | .mtvec => hart.machineTrapVector
    | .mscratch => hart.machineScratch
    | .mepc => hart.machineExceptionPc
    | .mcause => hart.machineTrapCause
    | .mtval => hart.machineTrapValue
  write hart csr value :=
    match csr with
    | .medeleg => { hart with machineExceptionDelegation := value }
    | .mideleg => { hart with machineInterruptDelegation := value }
    | .mtvec => { hart with machineTrapVector := value }
    | .mscratch => { hart with machineScratch := value }
    | .mepc => { hart with machineExceptionPc := value }
    | .mcause => { hart with machineTrapCause := value }
    | .mtval => { hart with machineTrapValue := value }

def supervisorTrapPort : CsrPort RiscvSupervisorTrapCsr where
  read hart
    | .stvec => hart.supervisorTrapVector
    | .sscratch => hart.supervisorScratch
    | .sepc => hart.supervisorExceptionPc
    | .scause => hart.supervisorTrapCause
    | .stval => hart.supervisorTrapValue
  write hart csr value :=
    match csr with
    | .stvec => { hart with supervisorTrapVector := value }
    | .sscratch => { hart with supervisorScratch := value }
    | .sepc => { hart with supervisorExceptionPc := value }
    | .scause => { hart with supervisorTrapCause := value }
    | .stval => { hart with supervisorTrapValue := value }

def translationPort : CsrPort RiscvTranslationCsr where
  read hart
    | .satp => hart.translationSatp
  write hart csr value :=
    match csr with
    | .satp => { hart with translationSatp := value }

/-- The register is written only after the counter, which may refuse. -/
def writeCounterCsr (csr : RiscvCounterCsr) (value : RiscvHartState → BitVec 64) :
    Exec units Unit :=
  withHart fun hart =>
    if csr.machineAddress.isNone then illegalInstruction
    else
      match hart.counters.setMachine csr (value hart) with
      | none => pure ()
      | some counters => do
        modifyHart fun current => { current with counters }
        writeRegister rd (hart.counters.read csr)

def readMachineCounterCsr (csr : RiscvCounterCsr) : Exec units Unit :=
  if csr.machineAddress.isNone then illegalInstruction
  else compute rd fun hart => hart.counters.read csr

/-- The halves of a counter are there on a narrow hart only. -/
def readCounterCsrWord (csr : RiscvCounterCsrWord) : Exec units Unit :=
  withHart fun hart =>
    if hart.xlen = .rv32 then writeRegister rd ((hart.counters.readWord csr).setWidth 64)
    else illegalInstruction

def readMachineCounterCsrWord (csr : RiscvCounterCsrWord) : Exec units Unit :=
  withHart fun hart =>
    if hart.xlen = .rv32 ∧ csr.machineAddress.isSome then
      writeRegister rd ((hart.counters.readWord csr).setWidth 64)
    else illegalInstruction

def executeMachineInformationCsr (instruction : RiscvCsrInstruction RiscvMachineInformationCsr) :
    Exec units Unit :=
  if instruction.op ≠ .read ∧ instruction.csr.writeTraps then illegalInstruction
  else compute instruction.rd fun hart => instruction.csr.readForXlenBits hart.hartId hart.xlen.bits

/-! ## Units -/

def executeVectorUnit (unit : RiscvHartState → Bool × List VectorWrite) : Exec units Unit :=
  withHart fun hart => do
    modifyHart fun current => (unit hart).2.foldl VectorWrite.apply current
    if (unit hart).1 then pure () else illegalInstruction

def executeVectorAveraging (instruction : RiscvVectorAveragingInstruction) : Exec units Unit :=
  withHart fun hart =>
    match instruction.execute hart with
    | none => fail .panic
    | some (legal, after) => do
      modifyHart fun _ => after
      if legal then pure () else illegalInstruction

def executeFloatRegister (op : units.FloatRegisterOp) : Exec units Unit :=
  withHart fun hart =>
    match units.floatRegister hart op with
    | none => illegalInstruction
    | some (flags, rd, value) => do
      modifyHart fun current => current.raiseFloatExceptionFlags flags
      writeFloatRegister rd value

def executeFloatInteger (op : units.FloatIntegerOp) : Exec units Unit :=
  withHart fun hart =>
    match units.floatInteger hart op with
    | none => illegalInstruction
    | some (flags, rd, value) => do
      modifyHart fun current => current.raiseFloatExceptionFlags flags
      writeRegister rd value

def executeVectorMemory (op : units.VectorMemory) : Exec units Unit :=
  withHart fun hart =>
    match units.vectorMemory hart op with
    | none => illegalInstruction
    | some access => modify fun locals => { locals with memoryAccess := access.map .vector }

def writeVectorConfig (vtype avl : RiscvHartState → BitVec 64) : Exec units Unit :=
  withHart fun hart => do
    let config := RiscvVectorConfig.fromAvl (vtype hart) (avl hart)
    modifyHart fun current => { current with vectorConfig := config }
    writeRegister rd (config.vl.setWidth 64)

def readMaskBit (mask : VectorBytes) (elementIndex : Nat) : Bool :=
  if h : elementIndex / 8 < riscvVectorRegisterBytes then
    (mask ⟨elementIndex / 8, h⟩).getLsbD (elementIndex % 8)
  else false

/-- The number of active elements, when the configuration allows a reduction. -/
def maskReductionPlan (hart : RiscvHartState) : Option Nat :=
  let config := hart.vectorConfig
  match config.elementWidthBytes, RiscvVectorConfig.vlmax config.vtype with
  | some _, some limit =>
    if config.vl.toNat > limit ∨ (config.vl.toNat + 7) / 8 > riscvVectorRegisterBytes then none
    else some config.vl.toNat
  | _, _ => none

def maskSelected (hart : RiscvHartState) (mask : RiscvVectorMaskMode) (elementIndex : Nat) : Bool :=
  match mask with
  | .masked => readMaskBit (hart.readVector 0) elementIndex
  | .unmasked => true

def executeVectorMaskReduction (instruction : RiscvVectorMaskReductionInstruction) :
    Exec units Unit :=
  withHart fun hart =>
    match maskReductionPlan hart with
    | none => illegalInstruction
    | some activeElements =>
      let chosen := fun (vs2 : VectorRegister) (mask : RiscvVectorMaskMode) elementIndex =>
        maskSelected hart mask elementIndex && readMaskBit (hart.readVector vs2) elementIndex
      match instruction with
      | .popCount rd vs2 mask =>
        writeRegister rd
          (BitVec.ofNat 64 ((List.range activeElements).filter (chosen vs2 mask)).length)
      | .firstSet rd vs2 mask =>
        writeRegister rd (match (List.range activeElements).find? (chosen vs2 mask) with
            | some elementIndex => BitVec.ofNat 64 elementIndex
            | none => allOnes 64)

def signExtendLane (value elementBytes : Nat) : BitVec 64 :=
  if elementBytes * 8 = 64 then BitVec.ofNat 64 value
  else (BitVec.ofNat 64 value <<< (64 - elementBytes * 8)).sshiftRight (64 - elementBytes * 8)

/-- The start of a vector register as a buffer. -/
def vectorBuffer (bytes : VectorBytes) : Nat → BitVec 8 := copyFromSlice (fun _ => 0) 0 bytes

def executeVectorScalarMove (instruction : RiscvVectorScalarMoveInstruction) : Exec units Unit :=
  withHart fun hart =>
    match hart.vectorConfig.elementWidthBytes with
    | none => illegalInstruction
    | some elementBytes =>
      match instruction with
      | .moveToScalar rd vs2 =>
        let source := vectorBuffer (hart.readVector vs2)
        writeRegister rd (signExtendLane (fromLeBytes (slice source 0 elementBytes)) elementBytes)
      | .moveFromScalar vd rs1 =>
        if hart.vectorConfig.vl = 0 then pure ()
        else
          let destination := copyFromSlice (vectorBuffer (hart.readVector vd)) 0
            (toLeBytes elementBytes (hart.read rs1).toNat)
          modifyHart fun current =>
            current.writeVector vd (slice destination 0 riscvVectorRegisterBytes)

/-! ## System instructions -/

/-- The hart after a return to the mode that a supervisor's trap came from. -/
def supervisorReturned (hart : RiscvHartState) : RiscvHartState :=
  { hart with
    privilegeMode := hart.status.spp
    status :=
      (((hart.status.withSie hart.status.spie).withSpie true).withSpp .user).withMprv false }

def executeSupervisorReturn : Exec units Unit :=
  withHart fun hart =>
    if !supervisorReturnAllowed hart.privilegeMode then illegalInstruction
    else do
      setNextPc hart.supervisorExceptionPc
      modifyHart supervisorReturned

/-- The hart after a return to the mode that a machine's trap came from. -/
def machineReturned (hart : RiscvHartState) : RiscvHartState :=
  { hart with
    privilegeMode := hart.status.mpp
    status :=
      (((hart.status.withMie hart.status.mpie).withMpie true).withMpp .user).withMprv
        (hart.status.mpp = .machine ∧ hart.status.mprv) }

def executeMachineReturn : Exec units Unit :=
  withHart fun hart =>
    if !machineReturnAllowed hart.privilegeMode then illegalInstruction
    else do
      setNextPc hart.machineExceptionPc
      modifyHart machineReturned

def pseudoOpEvent (op : RiscvPseudoOp) (pc : BitVec 64) (hart : RiscvHartState) :
    Option RiscvSystemEvent :=
  let a0 := hart.read 10
  let a1 := hart.read 11
  match op with
  | .exit => some (.gem5Exit pc a0)
  | .fail => some (.gem5Fail pc a0 a1)
  | .sum => none
  | .resetStats => some (.gem5ResetStats pc a0 a1)
  | .dumpStats => some (.gem5DumpStats pc a0 a1)
  | .dumpResetStats => some (.gem5DumpResetStats pc a0 a1)
  | .checkpoint => some (.gem5Checkpoint pc a0 a1)
  | .switchCpu => some (.gem5SwitchCpu pc)
  | .hypercall =>
    some (.gem5Hypercall pc a0 [a1, hart.read 12, hart.read 13, hart.read 14, hart.read 15])
  | .workBegin => some (.gem5WorkBegin pc a0 a1)
  | .workEnd => some (.gem5WorkEnd pc a0 a1)

/-- The sum of the arguments is returned to the program; everything else is an
    event, and returns zero. -/
def executeGem5PseudoOp (op : RiscvPseudoOp) (pc : BitVec 64) : Exec units Unit :=
  withHart fun hart =>
    match pseudoOpEvent op pc hart with
    | none =>
      writeRegister 10 (hart.read 10 + hart.read 11 + hart.read 12 + hart.read 13 +
        hart.read 14 + hart.read 15)
    | some event => do
      writeRegister 10 0
      raiseEvent fun _ => event

/-! ## Every instruction -/

def executeInstruction (pc : BitVec 64) : RiscvInstruction units → Exec units Unit
  | .lui rd imm => compute rd fun _ => imm
  | .auipc rd imm => do writeRegister rd (← orError (addSigned pc imm))
  | .addi rd rs1 imm => compute rd fun hart => hart.read rs1 + imm
  | .slti rd rs1 imm => compute rd fun hart => if (hart.read rs1).slt imm then 1 else 0
  | .sltiu rd rs1 imm => compute rd fun hart => if (hart.read rs1).ult imm then 1 else 0
  | .xori rd rs1 imm => compute rd fun hart => hart.read rs1 ^^^ imm
  | .ori rd rs1 imm => compute rd fun hart => hart.read rs1 ||| imm
  | .andi rd rs1 imm => compute rd fun hart => hart.read rs1 &&& imm
  | .slli rd rs1 shamt => compute rd fun hart => hart.read rs1 <<< (shamt.toNat % 64)
  | .srli rd rs1 shamt => compute rd fun hart => hart.read rs1 >>> (shamt.toNat % 64)
  | .srai rd rs1 shamt => compute rd fun hart => (hart.read rs1).sshiftRight (shamt.toNat % 64)
  | .addiw rd rs1 imm => computeWord rd fun hart => (hart.read rs1).setWidth 32 + imm.setWidth 32
  | .slliw rd rs1 shamt =>
    computeWord rd fun hart => (hart.read rs1).setWidth 32 <<< (shamt.toNat % 32)
  | .srliw rd rs1 shamt =>
    computeWord rd fun hart => (hart.read rs1).setWidth 32 >>> (shamt.toNat % 32)
  | .sraiw rd rs1 shamt =>
    computeWord rd fun hart => ((hart.read rs1).setWidth 32).sshiftRight (shamt.toNat % 32)
  | .add rd rs1 rs2 => compute rd fun hart => hart.read rs1 + hart.read rs2
  | .sub rd rs1 rs2 => compute rd fun hart => hart.read rs1 - hart.read rs2
  | .sll rd rs1 rs2 => compute rd fun hart => hart.read rs1 <<< (hart.read rs2 &&& 0x3f).toNat
  | .slt rd rs1 rs2 => compute rd fun hart => if (hart.read rs1).slt (hart.read rs2) then 1 else 0
  | .sltu rd rs1 rs2 => compute rd fun hart => if (hart.read rs1).ult (hart.read rs2) then 1 else 0
  | .xor rd rs1 rs2 => compute rd fun hart => hart.read rs1 ^^^ hart.read rs2
  | .srl rd rs1 rs2 => compute rd fun hart => hart.read rs1 >>> (hart.read rs2 &&& 0x3f).toNat
  | .sra rd rs1 rs2 =>
    compute rd fun hart => (hart.read rs1).sshiftRight (hart.read rs2 &&& 0x3f).toNat
  | .or rd rs1 rs2 => compute rd fun hart => hart.read rs1 ||| hart.read rs2
  | .and rd rs1 rs2 => compute rd fun hart => hart.read rs1 &&& hart.read rs2
  | .mul rd rs1 rs2 => compute rd fun hart => hart.read rs1 * hart.read rs2
  | .mulh rd rs1 rs2 => compute rd fun hart => mulhSigned (hart.read rs1) (hart.read rs2)
  | .mulhsu rd rs1 rs2 => compute rd fun hart => mulhSignedUnsigned (hart.read rs1) (hart.read rs2)
  | .mulhu rd rs1 rs2 => compute rd fun hart => mulhUnsigned (hart.read rs1) (hart.read rs2)
  | .div rd rs1 rs2 => compute rd fun hart => divSigned (hart.read rs1) (hart.read rs2)
  | .divu rd rs1 rs2 => compute rd fun hart => divUnsigned (hart.read rs1) (hart.read rs2)
  | .rem rd rs1 rs2 => compute rd fun hart => remSigned (hart.read rs1) (hart.read rs2)
  | .remu rd rs1 rs2 => compute rd fun hart => remUnsigned (hart.read rs1) (hart.read rs2)
  | .mulw rd rs1 rs2 =>
    computeWord rd fun hart => (hart.read rs1).setWidth 32 * (hart.read rs2).setWidth 32
  | .divw rd rs1 rs2 =>
    computeWord rd fun hart => divSigned ((hart.read rs1).setWidth 32) ((hart.read rs2).setWidth 32)
  | .divuw rd rs1 rs2 =>
    computeWord rd fun hart =>
      divUnsigned ((hart.read rs1).setWidth 32) ((hart.read rs2).setWidth 32)
  | .remw rd rs1 rs2 =>
    computeWord rd fun hart => remSigned ((hart.read rs1).setWidth 32) ((hart.read rs2).setWidth 32)
  | .remuw rd rs1 rs2 =>
    computeWord rd fun hart =>
      remUnsigned ((hart.read rs1).setWidth 32) ((hart.read rs2).setWidth 32)
  | .addw rd rs1 rs2 =>
    computeWord rd fun hart => (hart.read rs1).setWidth 32 + (hart.read rs2).setWidth 32
  | .subw rd rs1 rs2 =>
    computeWord rd fun hart => (hart.read rs1).setWidth 32 - (hart.read rs2).setWidth 32
  | .sllw rd rs1 rs2 =>
    computeWord rd fun hart => (hart.read rs1).setWidth 32 <<< (hart.read rs2 &&& 0x1f).toNat
  | .srlw rd rs1 rs2 =>
    computeWord rd fun hart => (hart.read rs1).setWidth 32 >>> (hart.read rs2 &&& 0x1f).toNat
  | .sraw rd rs1 rs2 =>
    computeWord rd fun hart =>
      ((hart.read rs1).setWidth 32).sshiftRight (hart.read rs2 &&& 0x1f).toNat
  | .beq rs1 rs2 offset => branch pc offset fun hart => hart.read rs1 == hart.read rs2
  | .bne rs1 rs2 offset => branch pc offset fun hart => hart.read rs1 != hart.read rs2
  | .blt rs1 rs2 offset => branch pc offset fun hart => (hart.read rs1).slt (hart.read rs2)
  | .bge rs1 rs2 offset => branch pc offset fun hart => !(hart.read rs1).slt (hart.read rs2)
  | .bltu rs1 rs2 offset => branch pc offset fun hart => (hart.read rs1).ult (hart.read rs2)
  | .bgeu rs1 rs2 offset => branch pc offset fun hart => !(hart.read rs1).ult (hart.read rs2)
  | .jal rd offset => fun locals =>
    (do
      writeRegister rd locals.nextPc
      setNextPc (← orError (addSigned pc offset)) : Exec units Unit) locals
  | .jalr rd rs1 offset => fun locals =>
    (do
      writeRegister rd locals.nextPc
      let target ← orError (addSigned (locals.hart.read rs1) offset)
      setNextPc (target &&& ~~~1) : Exec units Unit) locals
  | .vectorSetVli rd rs1 vtype =>
    writeVectorConfig rd (fun _ => vtype) fun hart => vectorAvl hart rd rs1
  | .vectorSetIvli rd avl vtype => writeVectorConfig rd (fun _ => vtype) fun _ => avl.setWidth 64
  | .vectorSetVl rd rs1 rs2 =>
    writeVectorConfig rd (fun hart => hart.read rs2) fun hart => vectorAvl hart rd rs1
  | .vectorMaskReduction instruction => executeVectorMaskReduction instruction
  | .vectorScalarMove instruction => executeVectorScalarMove instruction
  | .vectorAveraging instruction => executeVectorAveraging instruction
  | .vectorInteger op => executeVectorUnit fun hart => units.vectorInteger hart op
  | .vectorFloat op => executeVectorUnit fun hart => units.vectorFloat hart op
  | .load rd rs1 offset width signed =>
    accessMemoryAt rs1 offset fun _ address => .load rd address width signed
  | .store rs1 rs2 offset width =>
    accessMemoryAt rs1 offset fun hart address => .store address width (hart.read rs2)
  | .floatLoad rd rs1 offset width =>
    accessMemoryAt rs1 offset fun _ address => .floatLoad rd address width
  | .vectorMemory op => executeVectorMemory op
  | .floatStore rs1 rs2 offset width =>
    accessMemoryAt rs1 offset fun hart address => .floatStore address width (hart.readFloat rs2)
  | .floatRegister op => executeFloatRegister op
  | .floatInteger op => executeFloatInteger op
  | .loadReserved rd rs1 width acquire release =>
    accessMemory fun hart => .loadReserved rd (hart.read rs1) width acquire release
  | .storeConditional rd rs1 rs2 width acquire release =>
    accessMemory fun hart =>
      .storeConditional rd (hart.read rs1) width (hart.read rs2) acquire release
  | .atomicMemory rd rs1 rs2 width op acquire release =>
    accessMemory fun hart =>
      .atomicMemory rd (hart.read rs1) width op (hart.read rs2) acquire release
  | .fence _ _ _ | .fenceI => pure ()
  | .waitForInterrupt => raiseEvent fun _ => .waitForInterrupt pc
  | .supervisorReturn => executeSupervisorReturn
  | .machineReturn => executeMachineReturn
  | .sfenceVma rs1 rs2 =>
    raiseEvent fun hart =>
      .sfenceVma pc (if rs1 ≠ 0 then some (hart.read rs1) else none)
        (if rs2 ≠ 0 then some (hart.read rs2) else none)
  | .gem5PseudoOp op => executeGem5PseudoOp op pc
  | .machineInformationCsr instruction => executeMachineInformationCsr instruction
  | .environmentConfigCsr instruction => executeCsr environmentConfigPort instruction
  | .counterEnableCsr instruction => executeCsr counterEnablePort instruction
  | .counterInhibitCsr instruction => executeCsr counterInhibitPort instruction
  | .readCounterCsr rd csr => compute rd fun hart => hart.counters.read csr
  | .readMachineCounterCsr rd csr => readMachineCounterCsr rd csr
  | .readCounterCsrWord rd csr => readCounterCsrWord rd csr
  | .readMachineCounterCsrWord rd csr => readMachineCounterCsrWord rd csr
  | .writeCounterCsr rd csr rs1 => writeCounterCsr rd csr fun hart => hart.read rs1
  | .setCounterCsr rd csr rs1 =>
    writeCounterCsr rd csr fun hart => hart.counters.read csr ||| hart.read rs1
  | .clearCounterCsr rd csr rs1 =>
    writeCounterCsr rd csr fun hart => hart.counters.read csr &&& ~~~hart.read rs1
  | .writeCounterCsrImmediate rd csr zimm => writeCounterCsr rd csr fun _ => zimm.setWidth 64
  | .setCounterCsrImmediate rd csr zimm =>
    writeCounterCsr rd csr fun hart => hart.counters.read csr ||| zimm.setWidth 64
  | .clearCounterCsrImmediate rd csr zimm =>
    writeCounterCsr rd csr fun hart => hart.counters.read csr &&& ~~~zimm.setWidth 64
  | .readFloatCsr rd csr => csrRead floatPort rd csr
  | .writeFloatCsr rd csr rs1 => csrWrite floatPort rd csr fun hart => hart.read rs1
  | .setFloatCsr rd csr rs1 => csrSet floatPort rd csr fun hart => hart.read rs1
  | .clearFloatCsr rd csr rs1 => csrClear floatPort rd csr fun hart => hart.read rs1
  | .writeFloatCsrImmediate rd csr zimm => csrWrite floatPort rd csr fun _ => zimm.setWidth 64
  | .setFloatCsrImmediate rd csr zimm => csrSet floatPort rd csr fun _ => zimm.setWidth 64
  | .clearFloatCsrImmediate rd csr zimm => csrClear floatPort rd csr fun _ => zimm.setWidth 64
  | .vectorFixedPointCsr instruction => executeCsr vectorFixedPointPort instruction
  | .readStatusCsr rd csr => csrRead statusPort rd csr
  | .writeStatusCsr rd csr rs1 => csrWrite statusPort rd csr fun hart => hart.read rs1
  | .setStatusCsr rd csr rs1 => csrSet statusPort rd csr fun hart => hart.read rs1
  | .clearStatusCsr rd csr rs1 => csrClear statusPort rd csr fun hart => hart.read rs1
  | .writeStatusCsrImmediate rd csr zimm => csrWrite statusPort rd csr fun _ => zimm.setWidth 64
  | .setStatusCsrImmediate rd csr zimm => csrSet statusPort rd csr fun _ => zimm.setWidth 64
  | .clearStatusCsrImmediate rd csr zimm => csrClear statusPort rd csr fun _ => zimm.setWidth 64
  | .readInterruptCsr rd csr => csrRead interruptPort rd csr
  | .writeInterruptCsr rd csr rs1 => csrWrite interruptPort rd csr fun hart => hart.read rs1
  | .setInterruptCsr rd csr rs1 => csrSet interruptPort rd csr fun hart => hart.read rs1
  | .clearInterruptCsr rd csr rs1 => csrClear interruptPort rd csr fun hart => hart.read rs1
  | .writeInterruptCsrImmediate rd csr zimm =>
    csrWrite interruptPort rd csr fun _ => zimm.setWidth 64
  | .setInterruptCsrImmediate rd csr zimm => csrSet interruptPort rd csr fun _ => zimm.setWidth 64
  | .clearInterruptCsrImmediate rd csr zimm =>
    csrClear interruptPort rd csr fun _ => zimm.setWidth 64
  | .readMachineTrapCsr rd csr => csrRead machineTrapPort rd csr
  | .writeMachineTrapCsr rd csr rs1 => csrWrite machineTrapPort rd csr fun hart => hart.read rs1
  | .setMachineTrapCsr rd csr rs1 => csrSet machineTrapPort rd csr fun hart => hart.read rs1
  | .clearMachineTrapCsr rd csr rs1 => csrClear machineTrapPort rd csr fun hart => hart.read rs1
  | .writeMachineTrapCsrImmediate rd csr zimm =>
    csrWrite machineTrapPort rd csr fun _ => zimm.setWidth 64
  | .setMachineTrapCsrImmediate rd csr zimm =>
    csrSet machineTrapPort rd csr fun _ => zimm.setWidth 64
  | .clearMachineTrapCsrImmediate rd csr zimm =>
    csrClear machineTrapPort rd csr fun _ => zimm.setWidth 64
  | .readSupervisorTrapCsr rd csr => csrRead supervisorTrapPort rd csr
  | .writeSupervisorTrapCsr rd csr rs1 =>
    csrWrite supervisorTrapPort rd csr fun hart => hart.read rs1
  | .setSupervisorTrapCsr rd csr rs1 => csrSet supervisorTrapPort rd csr fun hart => hart.read rs1
  | .clearSupervisorTrapCsr rd csr rs1 =>
    csrClear supervisorTrapPort rd csr fun hart => hart.read rs1
  | .writeSupervisorTrapCsrImmediate rd csr zimm =>
    csrWrite supervisorTrapPort rd csr fun _ => zimm.setWidth 64
  | .setSupervisorTrapCsrImmediate rd csr zimm =>
    csrSet supervisorTrapPort rd csr fun _ => zimm.setWidth 64
  | .clearSupervisorTrapCsrImmediate rd csr zimm =>
    csrClear supervisorTrapPort rd csr fun _ => zimm.setWidth 64
  | .translationCsr instruction => executeCsr translationPort instruction
  | .ecall => fail (.trap .environmentCall)
  | .ebreak => fail (.trap .breakpoint)

/-! ## The whole execution -/

def counterCsrReadAllowed (hart : RiscvHartState) (csr : RiscvCounterCsr) : Bool :=
  let bit := csr.counterEnableBit
  match hart.privilegeMode with
  | .machine => true
  | .supervisor => hart.machineCounterEnable &&& bit != 0
  | .user => hart.machineCounterEnable &&& bit != 0 && hart.supervisorCounterEnable &&& bit != 0

def statusCsrAllowed (hart : RiscvHartState) (csr : RiscvStatusCsr) : Bool :=
  csr != .mstatush || hart.xlen == .rv32

/-- The checks that are made before an instruction is looked at. -/
def instructionAllowed (hart : RiscvHartState) (instruction : RiscvInstruction units) : Bool :=
  (instruction.requiredCsrPrivilege.all fun required =>
      csrPrivilegeAllowed hart.privilegeMode required) &&
    (instruction.readCounter.all fun csr => counterCsrReadAllowed hart csr) &&
    (instruction.statusCsr.all fun csr => statusCsrAllowed hart csr)

abbrev RiscvRecord (units : RiscvUnits) : Type :=
  RiscvExecutionRecord (RiscvInstruction units) units.VectorAccess

/-- The end of an instruction that did not trap. -/
def retire (instruction : RiscvInstruction units) (instructionBytes : BitVec 8) (pc : BitVec 64)
    (counterInhibit : BitVec 64) (locals : RiscvLocals units) :
    RiscvRecord units × RiscvHartState :=
  let counters := locals.hart.counters.addCyclesWithInhibit 1
    (RiscvCounterInhibitCsr.mcountinhibit.inhibitsCycle counterInhibit)
  let counters := counters.retireInstructionsWithInhibit 1
    (RiscvCounterInhibitCsr.mcountinhibit.inhibitsInstret counterInhibit)
  let hart := { locals.hart with pc := locals.nextPc, counters }
  match locals.systemEvent with
  | some event =>
    ({ instruction, instructionBytes, pc,
        nextPc := locals.nextPc, registerWrites := locals.registerWrites,
        systemEvent := some event }, hart)
  | none =>
    ({ instruction, instructionBytes, pc,
        nextPc := locals.nextPc, registerWrites := locals.registerWrites,
        floatRegisterWrites := locals.floatRegisterWrites,
        memoryAccess := locals.memoryAccess }, hart)

/-- Execute one instruction. None is a panic; an error leaves the hart as far as
    the instruction came. -/
def RiscvHartState.executeWithInstructionBytes (hart : RiscvHartState)
    (instruction : RiscvInstruction units) (instructionBytes : BitVec 8) :
    Option (Except RiscvError (RiscvRecord units) × RiscvHartState) :=
  let pc := hart.pc
  match enterPendingInterrupt hart instruction instructionBytes pc with
  | some (record, after) => some (.ok record, after)
  | none =>
    let bytes : BitVec 64 := instructionBytes.setWidth 64
    if 2 ^ 64 ≤ pc.toNat + bytes.toNat then some (.error (.pcOverflow pc bytes), hart)
    else if !instructionAllowed hart instruction then
      let (record, after) :=
        enterSynchronousTrap hart instruction instructionBytes pc .illegalInstruction
      some (.ok record, after)
    else
      match executeInstruction pc instruction { hart, nextPc := pc + bytes } with
      | (.ok (), locals) =>
        let (record, after) :=
          retire instruction instructionBytes pc hart.machineCounterInhibit locals
        some (.ok record, after)
      | (.error (.trap kind), locals) =>
        let (record, after) := enterSynchronousTrap locals.hart instruction instructionBytes pc kind
        some (.ok record, after)
      | (.error (.error error), locals) => some (.error error, locals.hart)
      | (.error .panic, _) => none

def RiscvHartState.execute (hart : RiscvHartState) (instruction : RiscvInstruction units) :
    Option (Except RiscvError (RiscvRecord units) × RiscvHartState) :=
  hart.executeWithInstructionBytes instruction 4

theorem executeSupervisorReturn_apply (locals : RiscvLocals units) :
    executeSupervisorReturn locals = if supervisorReturnAllowed locals.hart.privilegeMode then
        (.ok (), { locals with
          nextPc := locals.hart.supervisorExceptionPc
          hart := supervisorReturned locals.hart })
      else (.error (.trap .illegalInstruction), locals) := by
  unfold executeSupervisorReturn withHart
  beta_reduce
  cases supervisorReturnAllowed locals.hart.privilegeMode <;> rfl

theorem executeMachineReturn_apply (locals : RiscvLocals units) :
    executeMachineReturn locals = if machineReturnAllowed locals.hart.privilegeMode then
        (.ok (), { locals with
          nextPc := locals.hart.machineExceptionPc
          hart := machineReturned locals.hart })
      else (.error (.trap .illegalInstruction), locals) := by
  unfold executeMachineReturn withHart
  beta_reduce
  cases machineReturnAllowed locals.hart.privilegeMode <;> rfl

/-- The ways in which an instruction comes back without an error. -/
inductive Executes (hart : RiscvHartState) (instruction : RiscvInstruction units)
    (instructionBytes : BitVec 8) : RiscvRecord units → RiscvHartState → Prop
  | interrupted {record : RiscvRecord units} {after : RiscvHartState}
      (h : enterPendingInterrupt hart instruction instructionBytes hart.pc = some (record, after)) :
      Executes hart instruction instructionBytes record after
  | refused {record : RiscvRecord units} {after : RiscvHartState}
      (h : enterSynchronousTrap hart instruction instructionBytes hart.pc .illegalInstruction =
        (record, after)) :
      Executes hart instruction instructionBytes record after
  | trapped {record : RiscvRecord units} {after : RiscvHartState} {locals : RiscvLocals units}
      {kind : RiscvTrapKind}
      (hbody : executeInstruction hart.pc instruction
        { hart, nextPc := hart.pc + instructionBytes.setWidth 64 } =
          (.error (.trap kind), locals))
      (h : enterSynchronousTrap locals.hart instruction instructionBytes hart.pc kind =
        (record, after)) :
      Executes hart instruction instructionBytes record after
  | retired {record : RiscvRecord units} {after : RiscvHartState} {locals : RiscvLocals units}
      (hallowed : instructionAllowed hart instruction = true)
      (hbody : executeInstruction hart.pc instruction
        { hart, nextPc := hart.pc + instructionBytes.setWidth 64 } = (.ok (), locals))
      (h : retire instruction instructionBytes hart.pc hart.machineCounterInhibit locals =
        (record, after)) :
      Executes hart instruction instructionBytes record after

variable {after hart : RiscvHartState} {instruction : RiscvInstruction units}
  {instructionBytes : BitVec 8} {record : RiscvRecord units}

theorem executes_of_eq_some
    (h : hart.executeWithInstructionBytes instruction instructionBytes = some (.ok record, after)) :
    Executes hart instruction instructionBytes record after := by
  unfold executeWithInstructionBytes at h
  simp only at h
  split at h
  next record' after' hirq =>
    simp only [Option.some.injEq, Prod.mk.injEq, Except.ok.injEq] at h
    exact .interrupted (by rw [hirq, h.1, h.2])
  next =>
    split at h
    · simp only [Option.some.injEq, Prod.mk.injEq, reduceCtorEq, false_and] at h
    · split at h
      next =>
        simp only [Option.some.injEq, Prod.mk.injEq, Except.ok.injEq] at h
        exact .refused (Prod.ext h.1 h.2)
      next hall =>
        simp only [Bool.not_eq_true, Bool.not_eq_false'] at hall
        split at h
        next locals hbody =>
          simp only [Option.some.injEq, Prod.mk.injEq, Except.ok.injEq] at h
          exact .retired hall hbody (Prod.ext h.1 h.2)
        next kind locals hbody =>
          simp only [Option.some.injEq, Prod.mk.injEq, Except.ok.injEq] at h
          exact .trapped hbody (Prod.ext h.1 h.2)
        next => simp only [Option.some.injEq, Prod.mk.injEq, reduceCtorEq, false_and] at h
        next => cases h

theorem trap_enterSynchronousTrap {I V : Type} {instruction : I} {pc : BitVec 64}
    {kind : RiscvTrapKind} :
    (enterSynchronousTrap (V := V) hart instruction instructionBytes pc kind).1.trap ≠ none := by
  unfold enterSynchronousTrap
  simp only
  split
  · exact Option.some_ne_none _
  · exact Option.some_ne_none _

theorem retire_eq {counterInhibit locals pc}
    (h : retire instruction instructionBytes pc counterInhibit locals = (record, after)) :
    record.trap = none ∧
      after = { locals.hart with pc := after.pc, counters := after.counters } := by
  unfold retire at h
  simp only at h
  split at h
  · rw [Prod.mk.injEq] at h
    exact ⟨by rw [← h.1], by rw [← h.2]⟩
  · rw [Prod.mk.injEq] at h
    exact ⟨by rw [← h.1], by rw [← h.2]⟩

end Rem6.Isa
