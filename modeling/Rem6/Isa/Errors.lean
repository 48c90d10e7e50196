import Rem6.Isa.Execute

/-!
# Executions that End in an Error

An instruction is executed in place, so an error in the middle of it leaves what
was written before. The errors are overflows of an address, and most
instructions compute their address before they write anything. A jump and link
writes its link register first and looks at its target afterwards.

## Main definitions

* `Errorless`: Steps that end well, trap or panic.
* `Untouched`: Steps whose errors leave the hart alone.
* `LinksOutOfRange`: A jump that links and whose target is out of range.
* `LinkShows`: Such a jump gets to its link register and changes it.

## Theorems

* `executeInstruction_untouched`: Any other instruction is of the second kind.
* `execute_error_unchanged`: An error leaves the hart as it was, but for such a jump.
-/

namespace Rem6.Isa

open Lib Fallible

variable {units : RiscvUnits} {α β : Type}

/-- The steps never end in an error. -/
def Errorless (m : Exec units α) : Prop := ∀ locals error, (m locals).1 ≠ .error (.error error)

/-- The steps leave the hart alone if they end in an error. -/
def Untouched (m : Exec units α) : Prop :=
  ∀ locals error, (m locals).1 = .error (.error error) → (m locals).2.hart = locals.hart

theorem Errorless.untouched {m : Exec units α} (h : Errorless m) : Untouched m :=
  fun locals error herr => absurd herr (h locals error)

/-- What may fail comes first. -/
theorem Untouched.bind {m : Exec units α} {f : α → Exec units β} (hm : Untouched m)
    (hf : ∀ a, Errorless (f a)) : Untouched (m >>= f) := by
  intro locals error herr
  rcases h : m locals with ⟨res, locals'⟩
  cases res with
  | ok a =>
    rw [bind_of_ok h] at herr
    exact absurd herr (hf a locals' error)
  | error exit =>
    rw [bind_of_error h] at herr ⊢
    cases herr
    have hkept := hm locals error (congrArg Prod.fst h)
    rwa [h] at hkept

variable {body : RiscvHartState → Exec units Unit} {hart : RiscvHartState}

theorem Untouched.withHart
    (h : ∀ hart, Untouched (body hart)) : Untouched (withHart body) :=
  fun locals => h locals.hart locals

theorem untouched_orError {res} : Untouched (orError res : Exec units α) :=
  fun _ _ _ => rfl

section Steps

@[simp]
theorem errorless_bind {m} {f : α → Exec units β} (hm : Errorless m) (hf : ∀ a, Errorless (f a)) :
    Errorless (m >>= f) := by
  intro locals error
  rcases h : m locals with ⟨res, locals'⟩
  cases res with
  | ok a =>
    rw [bind_of_ok h]
    exact hf a locals' error
  | error exit =>
    rw [bind_of_error h]
    rintro ⟨⟩
    exact hm locals error (congrArg Prod.fst h)

@[simp]
theorem errorless_withHart
    (h : ∀ hart, Errorless (body hart)) : Errorless (withHart body) :=
  fun locals => h locals.hart locals

@[simp]
theorem errorless_pure {a} : Errorless (pure a : Exec units α) := by simp [Errorless]

@[simp]
theorem errorless_modify {change : RiscvLocals units → RiscvLocals units} :
    Errorless (modify change : Exec units Unit) := by
  simp [Errorless]

@[simp]
theorem errorless_trap {kind} : Errorless (fail (.trap kind) : Exec units Unit) := by
  simp [Errorless]

@[simp]
theorem errorless_panic : Errorless (fail .panic : Exec units Unit) := by simp [Errorless]

@[simp]
theorem errorless_ite {units α} {m m' : Exec units α} {p : Prop} [Decidable p] :
    Errorless (if p then m else m') ↔ (p → Errorless m) ∧ (¬ p → Errorless m') := by
  split <;> simp [*]

end Steps

/-- A jump that writes a link register and whose target is out of range. -/
def LinksOutOfRange (pc : BitVec 64) (hart : RiscvHartState) : RiscvInstruction units → Prop
  | .jal rd offset => rd ≠ 0 ∧ (addSigned pc offset).toOption = none
  | .jalr rd rs1 offset => rd ≠ 0 ∧ (addSigned (hart.read rs1) offset).toOption = none
  | _ => False

/-- A link register that is not there is not written, and a target in range is no
    error. -/
theorem link_untouched {rd tgt locals error} {jump : BitVec 64 → Exec units Unit}
    (hrange : ¬ (rd ≠ 0 ∧ tgt.toOption = none))
    (hjump : ∀ pc, Errorless (jump pc)) :
    let m : Exec units Unit := do
      writeRegister rd locals.nextPc
      jump (← orError tgt)
    (m locals).1 = .error (.error error) → (m locals).2.hart = locals.hart := by
  intro m h
  cases tgt with
  | error e =>
    have hrd : rd = 0 := not_not.mp fun hrd => hrange ⟨hrd, rfl⟩
    simp [m, hrd, writeRegister, orError, bind, check, Except.mapError]
  | ok pc => exact absurd h (hjump pc _ error)

theorem executeInstruction_untouched {pc locals error} {instr : RiscvInstruction units}
    (h : (executeInstruction pc instr locals).1 = .error (.error error))
    (hrange : ¬ LinksOutOfRange pc locals.hart instr) :
    (executeInstruction pc instr locals).2.hart = locals.hart := by
  have hbranch : ∀ offset taken, Untouched (branch pc offset taken : Exec units Unit) := by
    intro offset taken
    refine .withHart fun hart => ?_
    split
    · exact (untouched_orError).bind fun _ => errorless_modify
    · exact (errorless_pure).untouched
  have hacc : ∀ rs1 offset acc, Untouched (accessMemoryAt rs1 offset acc : Exec units Unit) :=
    fun rs1 offset acc => .withHart fun _ => (untouched_orError).bind fun _ => errorless_modify
  cases instr with
  | auipc => exact (untouched_orError).bind (fun _ => errorless_modify) locals error h
  | beq | bne | blt | bge | bltu | bgeu => exact hbranch _ _ locals error h
  | load | store | floatLoad | floatStore => exact hacc _ _ _ locals error h
  | jal | jalr => exact link_untouched hrange (fun _ => errorless_modify) h
  | writeCounterCsr | setCounterCsr | clearCounterCsr | writeCounterCsrImmediate
  | setCounterCsrImmediate | clearCounterCsrImmediate =>
    refine Errorless.untouched (errorless_withHart fun hart => ?_) locals error h
    repeat' split
    all_goals simp [illegalInstruction, modifyHart, writeRegister]
  | vectorMaskReduction instr | vectorScalarMove instr =>
    refine Errorless.untouched (errorless_withHart fun hart => ?_) locals error h
    cases instr
    all_goals split
    all_goals simp [illegalInstruction, modifyHart, writeRegister]
  | vectorAveraging | vectorMemory | floatRegister | floatInteger | gem5PseudoOp =>
    refine Errorless.untouched (errorless_withHart fun hart => ?_) locals error h
    split
    all_goals simp [illegalInstruction, modifyHart, writeRegister, writeFloatRegister, raiseEvent]
  | environmentConfigCsr instr | counterEnableCsr instr | counterInhibitCsr instr
  | vectorFixedPointCsr instr | translationCsr instr =>
    refine Errorless.untouched ?_ locals error h
    simp only [executeInstruction, executeCsr]
    split
    all_goals simp [compute, writeRegister, csrRead, csrWrite, csrSet, csrClear, modifyHart]
  | _ =>
    refine Errorless.untouched ?_ locals error h
    simp [executeInstruction, compute, computeWord, writeRegister, csrRead, csrWrite, csrSet,
      csrClear, modifyHart, illegalInstruction, raiseEvent, accessMemory, writeVectorConfig,
      executeVectorUnit, executeSupervisorReturn, executeMachineReturn, setNextPc,
      executeMachineInformationCsr, readMachineCounterCsr, readCounterCsrWord,
      readMachineCounterCsrWord]

/-- No interrupt is taken in place of the instruction. -/
def Uninterrupted (hart : RiscvHartState) : Prop :=
  hart.machineInterruptPending &&& hart.machineInterruptEnable = 0 ∨
    machineInterrupt hart = none ∧ supervisorInterrupt hart = none

/-- A jump out of range that is executed, from a `pc` with a next one, and that does
    not find its link in the register already. -/
def LinkShows (hart : RiscvHartState) (instructionBytes : BitVec 8)
    (instruction : RiscvInstruction units) : Prop :=
  Uninterrupted hart ∧ hart.pc.toNat + (instructionBytes.setWidth 64).toNat < 2 ^ 64 ∧
    LinksOutOfRange hart.pc hart instruction ∧
    match instruction with
    | .jal rd _ | .jalr rd _ _ => hart.read rd ≠ hart.pc + instructionBytes.setWidth 64
    | _ => True

theorem enterPendingInterrupt_eq_none {I V : Type} {instruction : I}
    {instructionBytes : BitVec 8} {pc : BitVec 64} :
    enterPendingInterrupt (V := V) hart instruction instructionBytes pc = none ↔
      Uninterrupted hart := by
  unfold enterPendingInterrupt Uninterrupted
  split
  next hnone => simp [hnone]
  next hsome =>
    rw [or_iff_right hsome]
    split
    next hmachine => simp [hmachine]
    next hmachine =>
      split
      next hsupervisor => simp [hsupervisor]
      next hsupervisor => simp [hmachine, hsupervisor]

theorem write_read (register : Register) :
    hart.write register (hart.read register) = hart := by
  unfold RiscvHartState.write RiscvHartState.read
  split <;> simp

theorem read_write {register : Register} {value : BitVec 64}
    (h : register ≠ 0) : (hart.write register value).read register = value := by
  simp [RiscvHartState.write, RiscvHartState.read, h]

/-- The jump stops at its target, with the link written. -/
theorem executeInstruction_links (link : BitVec 64)
    {instruction : RiscvInstruction units} (hrange : LinksOutOfRange hart.pc hart instruction) :
    ∃ rd error locals, ((∃ offset, instruction = .jal rd offset) ∨
        ∃ rs1 offset, instruction = .jalr rd rs1 offset) ∧ rd ≠ 0 ∧
      executeInstruction hart.pc instruction { hart, nextPc := link } =
        (.error (.error error), locals) ∧ locals.hart = hart.write rd link := by
  have hlink : ∀ (jump : BitVec 64 → Exec units Unit) {rd : Register}
      {target : Except RiscvError (BitVec 64)}, rd ≠ 0 → target.toOption = none →
      ∃ error locals, (do writeRegister rd link; jump (← orError target) : Exec units Unit)
          { hart, nextPc := link } = (.error (.error error), locals) ∧
        locals.hart = hart.write rd link := by
    intro jump rd target hrd htarget
    cases target with
    | error error =>
      exact ⟨error, { hart := hart.write rd link, nextPc := link, registerWrites := [⟨rd, link⟩] },
        by simp [writeRegister, hrd, orError, bind, check, Except.mapError], rfl⟩
    | ok pc => cases htarget
  cases instruction with
  | jal rd offset =>
    obtain ⟨error, locals, hrun, hhart⟩ := hlink _ hrange.1 hrange.2
    exact ⟨rd, error, locals, .inl ⟨offset, rfl⟩, hrange.1, hrun, hhart⟩
  | jalr rd rs1 offset =>
    obtain ⟨error, locals, hrun, hhart⟩ := hlink (fun target => setNextPc (target &&& ~~~1))
      hrange.1 hrange.2
    exact ⟨rd, error, locals, .inr ⟨rs1, offset, rfl⟩, hrange.1, hrun, hhart⟩
  | _ => cases hrange

/-- An execution that returns an error leaves the hart as it was, but for a jump that
    links, whose target is out of range and whose link shows. -/
theorem execute_error_unchanged (hart : RiscvHartState) (instruction : RiscvInstruction units)
    (instructionBytes : BitVec 8) :
    (∀ error after, hart.executeWithInstructionBytes instruction instructionBytes =
      some (.error error, after) → after = hart) ↔
      ¬ LinkShows hart instructionBytes instruction := by
  constructor
  · rintro hkept ⟨hquiet, hroom, hrange, hshows⟩
    obtain ⟨rd, error, locals, hjump, hrd, hrun, hhart⟩ :=
      executeInstruction_links (hart.pc + instructionBytes.setWidth 64) hrange
    have hallowed : instructionAllowed hart instruction = true := by
      rcases hjump with ⟨offset, rfl⟩ | ⟨rs1, offset, rfl⟩ <;> rfl
    have hsame := hkept error locals.hart (by
      simp only [RiscvHartState.executeWithInstructionBytes,
        enterPendingInterrupt_eq_none.mpr hquiet, if_neg (not_le.mpr hroom), hallowed,
        Bool.not_true, Bool.false_eq_true, if_false, hrun])
    have hread : hart.read rd = hart.pc + instructionBytes.setWidth 64 := by
      rw [← hsame, hhart, read_write hrd, ← hhart, hsame]
    rcases hjump with ⟨offset, rfl⟩ | ⟨rs1, offset, rfl⟩ <;> exact hshows hread
  · intro hshows error after h
    unfold RiscvHartState.executeWithInstructionBytes at h
    simp only at h
    split at h
    · cases h
    next hquiet =>
    split at h
    · cases h
      rfl
    next hroom =>
    split at h
    · cases h
    split at h
    next => cases h
    next => cases h
    next error' locals hbody =>
      cases h
      by_cases hrange : LinksOutOfRange hart.pc hart instruction
      · obtain ⟨rd, _, locals', hjump, hrd, hrun, hhart⟩ :=
          executeInstruction_links (hart.pc + instructionBytes.setWidth 64) hrange
        cases hrun.symm.trans hbody
        have hread : hart.read rd = hart.pc + instructionBytes.setWidth 64 := by
          by_contra hne
          refine hshows ⟨enterPendingInterrupt_eq_none.mp hquiet, not_le.mp hroom, hrange, ?_⟩
          rcases hjump with ⟨offset, rfl⟩ | ⟨rs1, offset, rfl⟩ <;> exact hne
        rw [hhart, ← hread, write_read]
      · have hkept := executeInstruction_untouched (congrArg Prod.fst hbody) hrange
        rwa [hbody] at hkept
    next => cases h

/-- A jump over the start of the address space. -/
def jumpBack (rd : Register) : RiscvInstruction .none := .jal rd (-4)

/-- It is an error, and its link register is written all the same. -/
theorem jumpBack_links :
    ∃ error after,
      ({ pc := 0 } : RiscvHartState).execute (jumpBack 1) = some (.error error, after) ∧
      after.read 1 ≠ ({ pc := 0 } : RiscvHartState).read 1 :=
  ⟨_, _, rfl, by decide⟩

theorem jumpBack_unchanged :
    ∃ error after,
      ({ pc := 0 } : RiscvHartState).execute (jumpBack 0) = some (.error error, after) ∧
      after = { pc := 0 } :=
  ⟨_, _, rfl, (execute_error_unchanged _ (jumpBack 0) 4).mpr
    (by simp [jumpBack, LinkShows, LinksOutOfRange]) _ _ rfl⟩

end Rem6.Isa
