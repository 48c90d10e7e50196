import Rem6.Isa.Execute

/-!
# Containment of Privilege

A hart below machine mode cannot change what belongs to the machine, and a hart
in user mode cannot change what belongs to the supervisor. An instruction either
does not come near the privileged state, or names a register of it, and then the
check of the register's privilege stands before it. `Moves` says what an
instruction can do in terms of the privilege it needs; it is proved once for
each kind of step and carried along whole instructions.

The two returns from a trap are apart, since they change the mode. Only the
supervisor's can be reached below machine mode. It goes to the mode that a trap
came from, which is never the machine, and clears MPRV.

## Main definitions

* `RiscvHartState.machineLevel`, `RiscvHartState.supervisorLevel`,
  `RiscvHartState.privileged`: The privileged state.
* `MachineKept`, `Moves`: What an instruction can do to it.
* `Contained`: What holds of an instruction that does not trap.

## Theorems

* `executeInstruction_moves`: Every instruction but the returns.
* `executeWithInstructionBytes_contained`: No instruction reaches above its mode.
-/

namespace Rem6.Isa

open Lib RiscvStatusWord RiscvStatusCsr Fallible

/-! ## The privileged state -/

/-- The registers that only the machine may write. -/
structure RiscvMachineLevel where
  (trapVector exceptionPc trapCause trapValue scratch exceptionDelegation : BitVec 64)
  (interruptDelegation counterEnable counterInhibit environmentConfig : BitVec 64)
deriving DecidableEq, Repr

/-- The registers that a supervisor may write as a whole. -/
structure RiscvSupervisorLevel where
  (trapVector scratch exceptionPc trapCause trapValue environmentConfig counterEnable : BitVec 64)
  translationSatp : BitVec 64
deriving DecidableEq, Repr

/-- Everything that is behind a privilege, with the words that are shared. -/
structure RiscvPrivilegedState where
  mode : RiscvPrivilegeMode
  machine : RiscvMachineLevel
  supervisor : RiscvSupervisorLevel
  (interruptEnable interruptPending : BitVec 64)
  status : RiscvStatusWord
deriving DecidableEq, Repr

open RiscvPrivilegedState

variable {value pc offset scalar : BitVec 64} {reg vd vs2 vs1 : VectorRegister}
  {hart after before : RiscvHartState} {rd rs1 : Register} {legal : Bool}

namespace RiscvHartState

def machineLevel (hart : RiscvHartState) : RiscvMachineLevel where
  trapVector := hart.machineTrapVector
  exceptionPc := hart.machineExceptionPc
  trapCause := hart.machineTrapCause
  trapValue := hart.machineTrapValue
  scratch := hart.machineScratch
  exceptionDelegation := hart.machineExceptionDelegation
  interruptDelegation := hart.machineInterruptDelegation
  counterEnable := hart.machineCounterEnable
  counterInhibit := hart.machineCounterInhibit
  environmentConfig := hart.machineEnvironmentConfig

def supervisorLevel (hart : RiscvHartState) : RiscvSupervisorLevel where
  trapVector := hart.supervisorTrapVector
  scratch := hart.supervisorScratch
  exceptionPc := hart.supervisorExceptionPc
  trapCause := hart.supervisorTrapCause
  trapValue := hart.supervisorTrapValue
  environmentConfig := hart.supervisorEnvironmentConfig
  counterEnable := hart.supervisorCounterEnable
  translationSatp := hart.translationSatp

def privileged (hart : RiscvHartState) : RiscvPrivilegedState where
  mode := hart.privilegeMode
  machine := hart.machineLevel
  supervisor := hart.supervisorLevel
  interruptEnable := hart.machineInterruptEnable
  interruptPending := hart.machineInterruptPending
  status := hart.status

variable {hart : RiscvHartState}

@[simp]
theorem privileged_write {reg} : (hart.write reg value).privileged = hart.privileged := by
  unfold write
  split
  · rfl
  · rfl

@[simp]
theorem privileged_writeVector {value} :
    (hart.writeVector reg value).privileged = hart.privileged := rfl

end RiscvHartState

theorem VectorWrite.privileged_apply (write : VectorWrite) (hart : RiscvHartState) :
    (write.apply hart).privileged = hart.privileged := by
  cases write <;> rfl

/-- A vector unit does not come near the privileged state. -/
theorem privileged_foldl_apply {writes : List VectorWrite} :
    (writes.foldl VectorWrite.apply hart).privileged = hart.privileged := by
  induction writes generalizing hart with
  | nil => rfl
  | cons write rest ih => rw [List.foldl_cons, ih, write.privileged_apply]

theorem privileged_writeRegisterGroup {groupRegs} {bytes : Nat → BitVec 8} :
    (writeRegisterGroup hart reg groupRegs bytes).privileged = hart.privileged := by
  unfold writeRegisterGroup
  generalize List.range groupRegs = indices
  induction indices generalizing hart with
  | nil => rfl
  | cons idx rest ih => rw [List.foldl_cons, ih, RiscvHartState.privileged_writeVector]

/-! ## What an instruction can do -/

/-- What belongs to the machine is as it was: its own registers, the interrupts
    it did not delegate, and the status bits that a supervisor does not see. -/
structure MachineKept (before after : RiscvHartState) : Prop where
  level : after.machineLevel = before.machineLevel
  interruptEnable : after.machineInterruptEnable &&& ~~~before.machineInterruptDelegation =
    before.machineInterruptEnable &&& ~~~before.machineInterruptDelegation
  interruptPending : after.machineInterruptPending &&& ~~~before.machineInterruptDelegation =
    before.machineInterruptPending &&& ~~~before.machineInterruptDelegation
  status : after.status.bits &&& ~~~sModeMask = before.status.bits &&& ~~~sModeMask

/-- What an instruction that needs a privilege can do to the privileged state. -/
structure Moves (needed : Option RiscvPrivilegeMode) (before after : RiscvHartState) : Prop where
  mode : after.privilegeMode = before.privilegeMode
  machine : needed ≠ some .machine → MachineKept before after
  supervisor : needed ≠ some .machine → needed ≠ some .supervisor →
    after.privileged = before.privileged

section Relations

variable {before middle after : RiscvHartState} {needed : Option RiscvPrivilegeMode}

theorem MachineKept.of_privileged (h : after.privileged = before.privileged) :
    MachineKept before after where
  level := congrArg machine h
  interruptEnable := by
    rw [show after.machineInterruptEnable = before.machineInterruptEnable from
      congrArg RiscvPrivilegedState.interruptEnable h]
  interruptPending := by
    rw [show after.machineInterruptPending = before.machineInterruptPending from
      congrArg RiscvPrivilegedState.interruptPending h]
  status := by
    rw [show after.status = before.status from congrArg RiscvPrivilegedState.status h]

theorem MachineKept.trans (h : MachineKept before middle) (h' : MachineKept middle after) :
    MachineKept before after := by
  have hdel : middle.machineInterruptDelegation = before.machineInterruptDelegation :=
    congrArg RiscvMachineLevel.interruptDelegation h.level
  have hena := h'.interruptEnable
  have hpend := h'.interruptPending
  rw [hdel] at hena hpend
  exact ⟨h'.level.trans h.level, hena.trans h.interruptEnable,
    hpend.trans h.interruptPending, h'.status.trans h.status⟩

namespace Moves

theorem of_privileged (h : after.privileged = before.privileged) : Moves needed before after where
  mode := congrArg RiscvPrivilegedState.mode h
  machine _ := .of_privileged h
  supervisor _ _ := h

theorem refl (hart : RiscvHartState) : Moves needed hart hart := of_privileged rfl

theorem trans (h : Moves needed before middle) (h' : Moves needed middle after) :
    Moves needed before after where
  mode := h'.mode.trans h.mode
  machine hneeded := (h.machine hneeded).trans (h'.machine hneeded)
  supervisor hmach hsup := (h'.supervisor hmach hsup).trans (h.supervisor hmach hsup)

theorem of_machine (h : after.privilegeMode = before.privilegeMode) :
    Moves (some .machine) before after where
  mode := h
  machine hneeded := absurd rfl hneeded
  supervisor hneeded := absurd rfl hneeded

theorem of_supervisor (h : after.privilegeMode = before.privilegeMode)
    (hkept : MachineKept before after) : Moves (some .supervisor) before after where
  mode := h
  machine _ := hkept
  supervisor _ hneeded := absurd rfl hneeded

end Moves

end Relations

/-! ## Steps -/

variable {units : RiscvUnits} {needed : Option RiscvPrivilegeMode}

/-- Every run of the step, also one that fails, moves the hart in this way. -/
abbrev KeepsMoves {α : Type} (needed : Option RiscvPrivilegeMode) (m : Exec units α) : Prop :=
  Keeps (fun before after : RiscvLocals units => Moves needed before.hart after.hart) m

section Steps

variable {α β : Type}

/-- The rule for a sequence of steps. -/
theorem bind_moves {m} {f : α → Exec units β} (hm : KeepsMoves needed m)
    (hf : ∀ a, KeepsMoves needed (f a)) : KeepsMoves needed (m >>= f) :=
  keeps_bind Moves.trans hm hf

theorem pure_moves (a : α) : KeepsMoves needed (pure a : Exec units α) :=
  keeps_pure (fun locals => Moves.refl locals.hart)

theorem fail_moves {exit} : KeepsMoves needed (fail exit : Exec units α) :=
  keeps_fail (fun locals => Moves.refl locals.hart)

theorem orError_moves (res : Except RiscvError α) :
    KeepsMoves needed (orError res : Exec units α) :=
  keeps_check (fun locals => Moves.refl locals.hart)

theorem withHart_moves {body : RiscvHartState → Exec units Unit}
    (h : ∀ hart, KeepsMoves needed (body hart)) : KeepsMoves needed (withHart body) :=
  fun locals => h locals.hart locals

theorem modifyHart_moves {change : RiscvHartState → RiscvHartState}
    (h : ∀ hart, Moves needed hart (change hart)) :
    KeepsMoves needed (modifyHart change : Exec units Unit) :=
  fun locals => h locals.hart

theorem setNextPc_moves (pc : BitVec 64) : KeepsMoves needed (setNextPc pc : Exec units Unit) :=
  fun locals => Moves.refl locals.hart

/-- Integer registers are not privileged. -/
theorem writeRegister_moves (reg : Register) (value : BitVec 64) :
    KeepsMoves needed (writeRegister reg value : Exec units Unit) := by
  intro locals
  unfold writeRegister
  rw [modify_apply]
  split
  · exact Moves.refl locals.hart
  · exact Moves.of_privileged (RiscvHartState.privileged_write)

theorem writeFloatRegister_moves {reg} :
    KeepsMoves needed (writeFloatRegister reg value : Exec units Unit) :=
  fun _ => Moves.of_privileged rfl

theorem compute_moves {value : RiscvHartState → BitVec 64} :
    KeepsMoves needed (compute rd value : Exec units Unit) :=
  withHart_moves fun hart => writeRegister_moves rd (value hart)

theorem computeWord_moves {value : RiscvHartState → BitVec 32} :
    KeepsMoves needed (computeWord rd value : Exec units Unit) :=
  compute_moves

theorem branch_moves {taken : RiscvHartState → Bool} :
    KeepsMoves needed (branch pc offset taken : Exec units Unit) := by
  refine withHart_moves fun hart => ?_
  split
  · exact bind_moves (orError_moves _) setNextPc_moves
  · exact pure_moves ()

theorem accessMemory_moves {acc : RiscvHartState → MemoryAccessKind units.VectorAccess} :
    KeepsMoves needed (accessMemory acc) :=
  fun locals => Moves.refl locals.hart

theorem accessMemoryAt_moves
    {acc : RiscvHartState → BitVec 64 → MemoryAccessKind units.VectorAccess} :
    KeepsMoves needed (accessMemoryAt rs1 offset acc) :=
  withHart_moves fun _ => bind_moves (orError_moves _) fun _ => accessMemory_moves

theorem raiseEvent_moves {ev : RiscvHartState → RiscvSystemEvent} :
    KeepsMoves needed (raiseEvent ev : Exec units Unit) :=
  fun locals => Moves.refl locals.hart

theorem ite_moves {units α} {m m' : Exec units α} {p : Prop} [Decidable p]
    (h : KeepsMoves needed m) (h' : KeepsMoves needed m') :
    KeepsMoves needed (if p then m else m') := by
  split
  · exact h
  · exact h'

end Steps

/-! ## Control and status registers -/

section Csr

variable {C : Type} {port : CsrPort C} {csr : C}

/-- Writing a register of a port changes only what the privilege covers. -/
def PortMoves (needed : Option RiscvPrivilegeMode) (port : CsrPort C) (csr : C) : Prop :=
  ∀ hart value, Moves needed hart (port.write hart csr value)

theorem csrWrite_moves (h : PortMoves needed port csr)
    {value : RiscvHartState → BitVec 64} :
    KeepsMoves needed (csrWrite port rd csr value : Exec units Unit) :=
  withHart_moves fun _ =>
    bind_moves (writeRegister_moves rd _) fun _ => modifyHart_moves fun cur => h cur _

theorem csrRead_moves : KeepsMoves needed (csrRead port rd csr : Exec units Unit) := compute_moves

theorem csrSet_moves (h : PortMoves needed port csr) {opd : RiscvHartState → BitVec 64} :
    KeepsMoves needed (csrSet port rd csr opd : Exec units Unit) :=
  csrWrite_moves h

theorem csrClear_moves (h : PortMoves needed port csr) {opd : RiscvHartState → BitVec 64} :
    KeepsMoves needed (csrClear port rd csr opd : Exec units Unit) :=
  csrWrite_moves h

/-- An access moves what its port moves. -/
theorem executeCsr_moves {instruction} (h : PortMoves needed port instruction.csr) :
    KeepsMoves needed (executeCsr port instruction : Exec units Unit) := by
  unfold executeCsr
  cases instruction.op with
  | read => exact compute_moves
  | write | set | clear => exact csrWrite_moves h

end Csr

theorem floatPort_moves {csr} : PortMoves needed floatPort csr := fun _ _ => .of_privileged rfl

theorem vectorFixedPointPort_moves {csr} : PortMoves needed vectorFixedPointPort csr :=
  fun _ _ => .of_privileged rfl

theorem environmentConfigPort_moves {csr : RiscvEnvironmentConfigCsr} :
    PortMoves (some (requiredCsrPrivilege csr.address)) environmentConfigPort csr := by
  intro hart value
  cases csr with
  | senvcfg => exact .of_supervisor rfl ⟨rfl, rfl, rfl, rfl⟩
  | menvcfg => exact .of_machine rfl

theorem counterEnablePort_moves {csr : RiscvCounterEnableCsr} :
    PortMoves (some (requiredCsrPrivilege csr.address)) counterEnablePort csr := by
  intro hart value
  cases csr with
  | scounteren => exact .of_supervisor rfl ⟨rfl, rfl, rfl, rfl⟩
  | mcounteren => exact .of_machine rfl

theorem counterInhibitPort_moves {csr : RiscvCounterInhibitCsr} :
    PortMoves (some (requiredCsrPrivilege csr.address)) counterInhibitPort csr := by
  intro hart value
  cases csr with
  | mcountinhibit => exact .of_machine rfl

/-- The supervisor's status register is a window on the machine's. -/
theorem statusPort_moves {csr : RiscvStatusCsr} :
    PortMoves (some (requiredCsrPrivilege csr.address)) statusPort csr := by
  intro hart value
  cases csr with
  | mstatus | mstatush => exact .of_machine rfl
  | sstatus =>
    refine .of_supervisor rfl ⟨rfl, rfl, rfl, ?_⟩
    exact (congrArg (· &&& ~~~sModeMask)
      (write_sstatus hart.xlen hart.status value)).trans (splice_and_not _ _ _)

/-- The supervisor's interrupt registers are windows on the machine's. -/
theorem interruptPort_moves {csr : RiscvInterruptCsr} :
    PortMoves (some (requiredCsrPrivilege csr.address)) interruptPort csr := by
  intro hart value
  cases csr with
  | machineInterruptEnable | machineInterruptPending => exact .of_machine rfl
  | supervisorInterruptEnable => exact .of_supervisor rfl ⟨rfl, splice_and_not _ _ _, rfl, rfl⟩
  | supervisorInterruptPending => exact .of_supervisor rfl ⟨rfl, rfl, splice_and_not _ _ _, rfl⟩

theorem machineTrapPort_moves {csr : RiscvMachineTrapCsr} :
    PortMoves (some (requiredCsrPrivilege csr.address)) machineTrapPort csr := by
  intro hart value
  cases csr <;> exact .of_machine rfl

theorem supervisorTrapPort_moves {csr : RiscvSupervisorTrapCsr} :
    PortMoves (some (requiredCsrPrivilege csr.address)) supervisorTrapPort csr := by
  intro hart value
  cases csr <;> exact .of_supervisor rfl ⟨rfl, rfl, rfl, rfl⟩

theorem translationPort_moves {csr : RiscvTranslationCsr} :
    PortMoves (some (requiredCsrPrivilege csr.address)) translationPort csr := by
  intro hart value
  cases csr with
  | satp => exact .of_supervisor rfl ⟨rfl, rfl, rfl, rfl⟩

theorem writeCounterCsr_moves {csr} {value : RiscvHartState → BitVec 64} :
    KeepsMoves needed (writeCounterCsr rd csr value : Exec units Unit) := by
  refine withHart_moves fun hart => ite_moves fail_moves ?_
  split
  · exact pure_moves ()
  · exact bind_moves (modifyHart_moves fun _ => .of_privileged rfl) fun _ =>
      writeRegister_moves rd _

/-! ## Units -/

/-- A unit writes vector registers only. -/
theorem executeVectorUnit_moves {unit : RiscvHartState → Bool × List VectorWrite} :
    KeepsMoves needed (executeVectorUnit unit : Exec units Unit) :=
  withHart_moves fun _ =>
    bind_moves (modifyHart_moves fun _ => .of_privileged (privileged_foldl_apply)) fun _ =>
      ite_moves (pure_moves ()) fail_moves

variable {op : AveragingOp}

theorem privileged_executeLanes {plan} {left : Nat → BitVec 8} {rightLane : Nat → Nat → Nat}
    (h : executeLanes hart vd plan left rightLane op = some (legal, after)) :
    after.privileged = hart.privileged := by
  unfold executeLanes at h
  simp only [Option.bind_eq_bind, Option.bind_eq_some_iff, Option.pure_def, Option.some.injEq,
    Prod.mk.injEq] at h
  obtain ⟨res, -, -, haft⟩ := h
  rw [← haft, privileged_writeRegisterGroup]

theorem privileged_executeAveragingVv
    (h : executeAveragingVv hart vd vs2 vs1 op = some (legal, after)) :
    after.privileged = hart.privileged := by
  unfold executeAveragingVv at h
  split at h
  · rw [Option.some.injEq, Prod.mk.injEq] at h
    rw [h.2]
  · exact privileged_executeLanes h

theorem privileged_executeAveragingVx
    (h : executeAveragingVx hart vd vs2 scalar op = some (legal, after)) :
    after.privileged = hart.privileged := by
  unfold executeAveragingVx at h
  split at h
  · rw [Option.some.injEq, Prod.mk.injEq] at h
    rw [h.2]
  · exact privileged_executeLanes h

theorem executeVectorAveraging_moves {instruction} :
    KeepsMoves needed (executeVectorAveraging instruction : Exec units Unit) := by
  intro locals
  unfold executeVectorAveraging withHart
  simp only
  rcases hsome : instruction.execute locals.hart with _ | ⟨legal, after⟩
  · exact fail_moves locals
  · have hprivileged : after.privileged = locals.hart.privileged := by
      cases instruction with
      | addUnsignedVv | addSignedVv | subUnsignedVv | subSignedVv =>
        exact privileged_executeAveragingVv hsome
      | addUnsignedVx | addSignedVx | subUnsignedVx | subSignedVx =>
        exact privileged_executeAveragingVx hsome
    -- the write of the hart is read off before the legality is looked at
    cases legal with
    | true | false => exact Moves.of_privileged hprivileged

theorem executeFloatRegister_moves {op : units.FloatRegisterOp} :
    KeepsMoves needed (executeFloatRegister op) := by
  refine withHart_moves fun hart => ?_
  split
  · exact fail_moves
  · exact bind_moves (modifyHart_moves fun _ => .of_privileged rfl) fun _ =>
      writeFloatRegister_moves

theorem executeFloatInteger_moves {op : units.FloatIntegerOp} :
    KeepsMoves needed (executeFloatInteger op) := by
  refine withHart_moves fun hart => ?_
  split
  · exact fail_moves
  · exact bind_moves (modifyHart_moves fun _ => .of_privileged rfl) fun _ => writeRegister_moves _ _

theorem executeVectorMemory_moves {op : units.VectorMemory} :
    KeepsMoves needed (executeVectorMemory op) := by
  refine withHart_moves fun hart => ?_
  split
  · exact fail_moves
  · exact fun locals => Moves.refl locals.hart

theorem writeVectorConfig_moves {vtype avl : RiscvHartState → BitVec 64} :
    KeepsMoves needed (writeVectorConfig rd vtype avl : Exec units Unit) :=
  withHart_moves fun _ =>
    bind_moves (modifyHart_moves fun _ => .of_privileged rfl) fun _ => writeRegister_moves rd _

theorem executeVectorMaskReduction_moves {instruction} :
    KeepsMoves needed (executeVectorMaskReduction instruction : Exec units Unit) := by
  refine withHart_moves fun hart => ?_
  split
  · exact fail_moves
  · cases instruction with
    | popCount | firstSet => exact writeRegister_moves _ _

theorem executeVectorScalarMove_moves {instruction} :
    KeepsMoves needed (executeVectorScalarMove instruction : Exec units Unit) := by
  refine withHart_moves fun hart => ?_
  split
  · exact fail_moves
  · cases instruction with
    | moveToScalar => exact writeRegister_moves _ _
    | moveFromScalar =>
      exact ite_moves (pure_moves ()) (modifyHart_moves fun _ => .of_privileged rfl)

theorem executeGem5PseudoOp_moves {op : RiscvPseudoOp} :
    KeepsMoves needed (executeGem5PseudoOp op pc : Exec units Unit) := by
  refine withHart_moves fun hart => ?_
  split
  · exact writeRegister_moves _ _
  · exact bind_moves (writeRegister_moves _ _) fun _ => raiseEvent_moves

/-! ## Every instruction -/

variable {instruction : RiscvInstruction units}

/-- An instruction other than a return from a trap moves the hart as the
    privilege that it needs allows. -/
theorem executeInstruction_moves (pc : BitVec 64) (hsup : instruction ≠ .supervisorReturn)
    (hmach : instruction ≠ .machineReturn) :
    KeepsMoves instruction.requiredCsrPrivilege (executeInstruction pc instruction) := by
  cases instruction with
  | supervisorReturn => exact absurd rfl hsup
  | machineReturn => exact absurd rfl hmach
  | lui | addi | slti | sltiu | xori | ori | andi | slli | srli | srai | add | sub | sll | slt
  | sltu | xor | srl | sra | or | and | mul | mulh | mulhsu | mulhu | div | divu | rem | remu
  | readCounterCsr => exact compute_moves
  | addiw | slliw | srliw | sraiw | mulw | divw | divuw | remw | remuw | addw | subw | sllw | srlw
  | sraw => exact computeWord_moves
  | auipc => exact bind_moves (orError_moves _) fun _ => writeRegister_moves _ _
  | beq | bne | blt | bge | bltu | bgeu => exact branch_moves
  | jal rd =>
    intro locals
    exact bind_moves (writeRegister_moves rd locals.nextPc)
      (fun _ => bind_moves (orError_moves _) setNextPc_moves) locals
  | jalr rd =>
    intro locals
    exact bind_moves (writeRegister_moves rd locals.nextPc)
      (fun _ => bind_moves (orError_moves _) fun _ => setNextPc_moves _) locals
  | vectorSetVli | vectorSetIvli | vectorSetVl => exact writeVectorConfig_moves
  | vectorMaskReduction instruction => exact executeVectorMaskReduction_moves
  | vectorScalarMove instruction => exact executeVectorScalarMove_moves
  | vectorAveraging instruction => exact executeVectorAveraging_moves
  | vectorInteger | vectorFloat => exact executeVectorUnit_moves
  | load | store | floatLoad | floatStore => exact accessMemoryAt_moves
  | vectorMemory op => exact executeVectorMemory_moves
  | floatRegister op => exact executeFloatRegister_moves
  | floatInteger op => exact executeFloatInteger_moves
  | loadReserved | storeConditional | atomicMemory => exact accessMemory_moves
  | fence | fenceI => exact pure_moves ()
  | waitForInterrupt | sfenceVma => exact raiseEvent_moves
  | gem5PseudoOp op => exact executeGem5PseudoOp_moves
  | environmentConfigCsr instruction => exact executeCsr_moves environmentConfigPort_moves
  | counterEnableCsr instruction => exact executeCsr_moves counterEnablePort_moves
  | counterInhibitCsr instruction => exact executeCsr_moves counterInhibitPort_moves
  | vectorFixedPointCsr instruction => exact executeCsr_moves vectorFixedPointPort_moves
  | translationCsr instruction => exact executeCsr_moves translationPort_moves
  | readMachineCounterCsr | machineInformationCsr => exact ite_moves fail_moves compute_moves
  | readCounterCsrWord | readMachineCounterCsrWord =>
    exact withHart_moves fun _ => ite_moves (writeRegister_moves _ _) fail_moves
  | writeCounterCsr | setCounterCsr | clearCounterCsr | writeCounterCsrImmediate
  | setCounterCsrImmediate | clearCounterCsrImmediate => exact writeCounterCsr_moves
  | readFloatCsr | readStatusCsr | readInterruptCsr | readMachineTrapCsr
  | readSupervisorTrapCsr => exact csrRead_moves
  | writeFloatCsr | writeFloatCsrImmediate => exact csrWrite_moves floatPort_moves
  | setFloatCsr | setFloatCsrImmediate => exact csrSet_moves floatPort_moves
  | clearFloatCsr | clearFloatCsrImmediate => exact csrClear_moves floatPort_moves
  | writeStatusCsr | writeStatusCsrImmediate => exact csrWrite_moves statusPort_moves
  | setStatusCsr | setStatusCsrImmediate => exact csrSet_moves statusPort_moves
  | clearStatusCsr | clearStatusCsrImmediate => exact csrClear_moves statusPort_moves
  | writeInterruptCsr | writeInterruptCsrImmediate => exact csrWrite_moves interruptPort_moves
  | setInterruptCsr | setInterruptCsrImmediate => exact csrSet_moves interruptPort_moves
  | clearInterruptCsr | clearInterruptCsrImmediate => exact csrClear_moves interruptPort_moves
  | writeMachineTrapCsr | writeMachineTrapCsrImmediate => exact csrWrite_moves machineTrapPort_moves
  | setMachineTrapCsr | setMachineTrapCsrImmediate => exact csrSet_moves machineTrapPort_moves
  | clearMachineTrapCsr | clearMachineTrapCsrImmediate => exact csrClear_moves machineTrapPort_moves
  | writeSupervisorTrapCsr | writeSupervisorTrapCsrImmediate =>
    exact csrWrite_moves supervisorTrapPort_moves
  | setSupervisorTrapCsr | setSupervisorTrapCsrImmediate =>
    exact csrSet_moves supervisorTrapPort_moves
  | clearSupervisorTrapCsr | clearSupervisorTrapCsrImmediate =>
    exact csrClear_moves supervisorTrapPort_moves
  | ecall | ebreak => exact fail_moves

/-! ## Returns from a trap -/

/-- Only a supervisor or the machine gets through. -/
theorem executeSupervisorReturn_ok {units} {locals after : RiscvLocals units}
    (h : executeSupervisorReturn locals = (.ok (), after)) :
    locals.hart.privilegeMode ≠ .user ∧ after.hart = supervisorReturned locals.hart := by
  rw [executeSupervisorReturn_apply] at h
  split at h
  next hall =>
    refine ⟨fun huser => ?_, ?_⟩
    · rw [huser] at hall
      cases hall
    · rw [← (Prod.mk.inj h).2]
  next => cases congrArg Prod.fst h

/-- Only the machine gets through. -/
theorem executeMachineReturn_ok {units} {locals after : RiscvLocals units}
    (h : executeMachineReturn locals = (.ok (), after)) :
    locals.hart.privilegeMode = .machine := by
  rw [executeMachineReturn_apply] at h
  cases hmode : locals.hart.privilegeMode with
  | machine => rfl
  | user | supervisor =>
    rw [hmode] at h
    exact absurd (congrArg Prod.fst h) (by simp [machineReturnAllowed])

/-- An instruction that stops early keeps the mode. -/
theorem mode_of_error {locals after exit}
    (h : executeInstruction pc instruction locals = (.error exit, after)) :
    after.hart.privilegeMode = locals.hart.privilegeMode := by
  by_cases hsup : instruction = .supervisorReturn
  · rw [hsup] at h
    have hbody := (executeSupervisorReturn_apply locals).symm.trans h
    split at hbody
    · cases congrArg Prod.fst hbody
    · rw [← (Prod.mk.inj hbody).2]
  by_cases hmach : instruction = .machineReturn
  · rw [hmach] at h
    have hbody := (executeMachineReturn_apply locals).symm.trans h
    split at hbody
    · cases congrArg Prod.fst hbody
    · rw [← (Prod.mk.inj hbody).2]
  have hmoves := executeInstruction_moves pc hsup hmach locals
  rw [h] at hmoves
  exact hmoves.mode

/-! ## Containment -/

/-- What holds of an instruction below machine mode that does not trap. -/
structure Contained (instruction : RiscvInstruction units) (before after : RiscvHartState) :
    Prop where
  privilege : after.privilegeMode.rank ≤ before.privilegeMode.rank
  machine : after.machineLevel = before.machineLevel
  interruptEnable : after.machineInterruptEnable &&& ~~~before.machineInterruptDelegation =
    before.machineInterruptEnable &&& ~~~before.machineInterruptDelegation
  interruptPending : after.machineInterruptPending &&& ~~~before.machineInterruptDelegation =
    before.machineInterruptPending &&& ~~~before.machineInterruptDelegation
  status : after.status.bits &&& ~~~(sModeMask ||| BitVec.twoPow 64 mprvBit) =
    before.status.bits &&& ~~~(sModeMask ||| BitVec.twoPow 64 mprvBit)
  mprv : after.status.mprv = before.status.mprv ∨
    (instruction = .supervisorReturn ∧ after.status.mprv = false)
  user : before.privilegeMode = .user →
    after.supervisorLevel = before.supervisorLevel ∧ after.status = before.status

theorem Contained.of_moves (h : Moves instruction.requiredCsrPrivilege before after)
    (hall : instructionAllowed before instruction = true)
    (hmode : before.privilegeMode ≠ .machine) : Contained instruction before after := by
  -- the register's privilege was checked against the mode
  have hchecked : ∀ required, instruction.requiredCsrPrivilege = some required →
      required.rank ≤ before.privilegeMode.rank := by
    intro required hreq
    unfold instructionAllowed at hall
    simp only [hreq, Option.all_some, Bool.and_eq_true, csrPrivilegeAllowed,
      decide_eq_true_eq] at hall
    exact hall.1.1
  have hneeded : instruction.requiredCsrPrivilege ≠ some .machine := fun hmach =>
    absurd ((hchecked _ hmach).trans (RiscvPrivilegeMode.rank_le_supervisor hmode)) (by decide)
  have hkept := h.machine hneeded
  refine ⟨by rw [h.mode], hkept.level, hkept.interruptEnable, hkept.interruptPending,
    and_not_mono hkept.status (by decide),
    .inl (mprv_eq_of_and_not hkept.status (by decide)), fun huser => ?_⟩
  have hneeded' : instruction.requiredCsrPrivilege ≠ some .supervisor := fun hsup => by
    have hrank := hchecked _ hsup
    rw [huser] at hrank
    cases hrank
  have hprivileged := h.supervisor hneeded hneeded'
  exact ⟨congrArg supervisor hprivileged, congrArg RiscvPrivilegedState.status hprivileged⟩

/-- The supervisor's return stays in its window, and clears MPRV. -/
theorem Contained.of_supervisorReturn (huser : before.privilegeMode ≠ .user)
    (hmach : before.privilegeMode ≠ .machine)
    (h : after.privileged = (supervisorReturned before).privileged) :
    Contained (.supervisorReturn : RiscvInstruction units) before after := by
  have hmode : after.privilegeMode = before.status.spp := congrArg mode h
  have hstatus : after.status = (supervisorReturned before).status :=
    congrArg RiscvPrivilegedState.status h
  have hena : after.machineInterruptEnable = before.machineInterruptEnable :=
    congrArg RiscvPrivilegedState.interruptEnable h
  have hpend : after.machineInterruptPending = before.machineInterruptPending :=
    congrArg RiscvPrivilegedState.interruptPending h
  have hbef : before.privilegeMode = .supervisor := by
    cases hcase : before.privilegeMode with
    | user => exact absurd hcase huser
    | supervisor => rfl
    | machine => exact absurd hcase hmach
  refine ⟨?_, congrArg RiscvPrivilegedState.machine h, by rw [hena], by rw [hpend], ?_,
    .inr ⟨rfl, ?_⟩, fun hcase => absurd hcase huser⟩
  · rw [hmode, hbef]
    exact before.status.rank_spp_le
  · -- the four bits that it writes are under the mask
    rw [hstatus]
    unfold supervisorReturned withMprv withSpp withSpie withSie
    simp only
    rw [setStatusBit_and_not (by decide), setStatusBit_and_not (by decide),
      setStatusBit_and_not (by decide), setStatusBit_and_not (by decide)]
  · rw [hstatus]
    exact withMprv_mprv _

/-- An instruction that was performed is contained. -/
theorem Contained.of_body {locals locals'} (hloc : locals.hart = hart)
    (hmode : hart.privilegeMode ≠ .machine)
    (hall : instructionAllowed hart instruction = true)
    (hbody : executeInstruction pc instruction locals = (.ok (), locals'))
    (haft : after.privileged = locals'.hart.privileged) : Contained instruction hart after := by
  by_cases hsup : instruction = .supervisorReturn
  · subst hsup
    obtain ⟨huser, hret⟩ := executeSupervisorReturn_ok hbody
    rw [hloc] at huser hret
    rw [hret] at haft
    exact .of_supervisorReturn huser hmode haft
  by_cases hmach : instruction = .machineReturn
  · subst hmach
    exact absurd (hloc ▸ executeMachineReturn_ok hbody) hmode
  have hmoves := executeInstruction_moves pc hsup hmach locals
  rw [hbody, hloc] at hmoves
  exact .of_moves (hmoves.trans (.of_privileged haft)) hall hmode

/-- No instruction reaches above its mode: below machine mode, one that comes
    back without a trap leaves the machine's state, and from user mode also the
    supervisor's; and a trap never lowers the privilege. -/
theorem executeWithInstructionBytes_contained
    {instruction : RiscvInstruction units} {instructionBytes : BitVec 8}
    {record : RiscvRecord units}
    (h : hart.executeWithInstructionBytes instruction instructionBytes = some (.ok record, after)) :
    (hart.privilegeMode ≠ .machine → record.trap = none → Contained instruction hart after) ∧
      (record.trap ≠ none → hart.privilegeMode.rank ≤ after.privilegeMode.rank) := by
  cases executes_of_eq_some h with
  | interrupted hinterrupt =>
    obtain ⟨htrap, hrank⟩ := enterPendingInterrupt_rank hinterrupt
    exact ⟨fun _ hnone => absurd hnone htrap, fun _ => hrank⟩
  | refused hrefused =>
    have hrecord : _ = record := congrArg Prod.fst hrefused
    have hafter : _ = after := congrArg Prod.snd hrefused
    rw [← hrecord, ← hafter]
    exact ⟨fun _ hnone => absurd hnone trap_enterSynchronousTrap,
      fun _ => enterSynchronousTrap_rank⟩
  | trapped hbody htrapped =>
    have hrecord : _ = record := congrArg Prod.fst htrapped
    have hafter : _ = after := congrArg Prod.snd htrapped
    -- the mode at the trap is the one at the start
    have hmode : _ = hart.privilegeMode := mode_of_error hbody
    rw [← hrecord, ← hafter, ← hmode]
    exact ⟨fun _ hnone => absurd hnone trap_enterSynchronousTrap,
      fun _ => enterSynchronousTrap_rank⟩
  | retired hallowed hbody hretired =>
    obtain ⟨htrap, hafter⟩ := retire_eq hretired
    refine ⟨fun hmode _ => .of_body rfl hmode hallowed hbody ?_, fun hsome => absurd htrap hsome⟩
    rw [hafter]
    rfl

/-- A supervisor enables its interrupts, and a user tries to return from a trap
    of the machine. -/
theorem contained_supervisor_and_user :
    (∃ record after,
      ({ pc := 0x1000, privilegeMode := .supervisor } : RiscvHartState).executeWithInstructionBytes
          (.writeStatusCsrImmediate 1 .sstatus 2 : RiscvInstruction .none) 4 =
        some (.ok record, after) ∧
      record.trap = none ∧ after.status.sie = true ∧
      Contained (.writeStatusCsrImmediate 1 .sstatus 2 : RiscvInstruction .none)
        { pc := 0x1000, privilegeMode := .supervisor } after) ∧
    ∃ record after,
      ({ pc := 0x1000, privilegeMode := .user } : RiscvHartState).executeWithInstructionBytes
          (.machineReturn : RiscvInstruction .none) 4 = some (.ok record, after) ∧
      record.trap ≠ none ∧ RiscvPrivilegeMode.user.rank ≤ after.privilegeMode.rank := by
  have hset : ({ pc := 0x1000, privilegeMode := .supervisor } :
      RiscvHartState).executeWithInstructionBytes
        (.writeStatusCsrImmediate 1 .sstatus 2 : RiscvInstruction .none) 4 =
      some (.ok _, _) := rfl
  have hreturn : ({ pc := 0x1000, privilegeMode := .user } :
      RiscvHartState).executeWithInstructionBytes (.machineReturn : RiscvInstruction .none) 4 =
      some (.ok _, _) := rfl
  exact ⟨⟨_, _, hset, rfl, rfl, (executeWithInstructionBytes_contained hset).1 (by decide) rfl⟩,
    ⟨_, _, hreturn, Option.some_ne_none _,
      (executeWithInstructionBytes_contained hreturn).2 (Option.some_ne_none _)⟩⟩

end Rem6.Isa
