import Mathlib.Data.Nat.Bitwise
import Rem6.Isa.Pmp

/-!
# Control and Status Registers

The words that the CSR instructions of a hart read and write, with the address
of each register. Bits eight and nine of an address give the privilege that an
access needs.

Several registers are windows on one word. The supervisor's status register
shows five bits of the machine's, and its interrupt registers show the bits that
are delegated to it. Such a write puts the bits under a mask and leaves the
others (`splice_and_not`), which is what keeps a supervisor inside its window.

## Main definitions

* `RiscvStatusWord`, `RiscvStatusCsr`: The status word and the windows on it.
* `RiscvCounterBank`, `RiscvFloatStatus`, `RiscvVectorFixedPointState`,
  `RiscvVectorConfig`: The unprivileged words.
* `requiredCsrPrivilege`: The privilege that an address asks for.

## Theorems

* `splice_and_not`, `setStatusBit_and_not`: A write through a mask.
* `RiscvStatusCsr.write_sstatus`: A write of the supervisor's status register is
  through `sModeMask`.
-/

namespace Rem6.Isa

open BitVec

/-- The privilege as the architecture numbers it. -/
def RiscvPrivilegeMode.rank : RiscvPrivilegeMode → Nat
  | .user => 0
  | .supervisor => 1
  | .machine => 3

/-- An access is allowed from its privilege upwards. -/
def csrPrivilegeAllowed (current required : RiscvPrivilegeMode) : Bool :=
  decide (required.rank ≤ current.rank)

/-- The privilege that the address of a register asks for. -/
def requiredCsrPrivilege (address : BitVec 16) : RiscvPrivilegeMode :=
  match ((address >>> 8) &&& 0b11).toNat with
  | 0 => .user
  | 1 => .supervisor
  | _ => .machine

inductive RiscvGdbXlen where
  | rv32 | rv64
deriving DecidableEq, Repr

def RiscvGdbXlen.bits : RiscvGdbXlen → Nat
  | .rv32 => 32
  | .rv64 => 64

/-! ## Words and masks -/

/-- The bits of a value under a mask, and the bits of a word beside it. -/
def splice (mask word value : BitVec 64) : BitVec 64 := (word &&& ~~~mask) ||| (value &&& mask)

/-- A write through a mask leaves the bits beside it. -/
theorem splice_and_not (mask word value : BitVec 64) :
    splice mask word value &&& ~~~mask = word &&& ~~~mask := by
  unfold splice
  refine eq_of_getLsbD_eq fun i hi => ?_
  simp only [getLsbD_and, getLsbD_or, getLsbD_not]
  cases mask.getLsbD i <;> simp

/-- A change under a mask is one under a larger mask. -/
theorem and_not_mono {word word' mask other : BitVec 64} (h : word' &&& ~~~mask = word &&& ~~~mask)
    (hmask : mask &&& other = mask) : word' &&& ~~~other = word &&& ~~~other := by
  refine eq_of_getLsbD_eq fun i hi => ?_
  have hword := congrArg (getLsbD · i) h
  have hoth := congrArg (getLsbD · i) hmask
  simp only [getLsbD_and, getLsbD_not, hi, decide_true, Bool.true_and] at hword hoth ⊢
  cases hm : mask.getLsbD i with
  | true =>
    rw [hm, Bool.true_and] at hoth
    rw [hoth, Bool.not_true, Bool.and_false, Bool.and_false]
  | false =>
    rw [hm, Bool.not_false, Bool.and_true, Bool.and_true] at hword
    rw [hword]

/-- The bit is set. -/
def statusBit (bits : BitVec 64) (bit : Nat) : Bool := bits &&& twoPow 64 bit != 0

def setStatusBit (bits : BitVec 64) (bit : Nat) (enabled : Bool) : BitVec 64 :=
  if enabled then bits ||| twoPow 64 bit else bits &&& ~~~twoPow 64 bit

variable {i bit : Nat} {bits mask : BitVec 64} {enabled : Bool}

theorem setStatusBit_getLsbD (hi : i < 64) :
    (setStatusBit bits bit enabled).getLsbD i = if i = bit then enabled else bits.getLsbD i := by
  unfold setStatusBit
  by_cases h : i = bit
  · subst h
    cases enabled <;> simp [hi]
  · cases enabled <;> simp [hi, h]

/-- A bit under a mask can be set without a trace beside the mask. -/
theorem setStatusBit_and_not (h : mask.getLsbD bit = true) :
    setStatusBit bits bit enabled &&& ~~~mask = bits &&& ~~~mask := by
  refine eq_of_getLsbD_eq fun i hi => ?_
  rw [getLsbD_and, getLsbD_and, getLsbD_not, setStatusBit_getLsbD hi]
  by_cases hbit : i = bit
  · rw [hbit, h, Bool.not_true, Bool.and_false, Bool.and_false, Bool.and_false]
  · rw [if_neg hbit]

theorem statusBit_eq (h : bit < 64) : statusBit bits bit = bits.getLsbD bit := by
  unfold statusBit
  rw [and_twoPow]
  cases bits.getLsbD bit with
  | false => rfl
  | true =>
    refine bne_iff_ne.2 fun hzero => ?_
    have hbit := congrArg (getLsbD · bit) hzero
    simp only [if_true, getLsbD_twoPow, h, decide_true, Bool.and_self] at hbit
    exact absurd hbit (by simp)

/-! ## The status word -/

/-- The status word of the machine. -/
structure RiscvStatusWord where
  bits : BitVec 64
deriving DecidableEq, Repr

namespace RiscvStatusWord

def sieBit : Nat := 1
def mieBit : Nat := 3
def spieBit : Nat := 5
def mpieBit : Nat := 7
def sppBit : Nat := 8
def mppShift : Nat := 11
def mppMask : BitVec 64 := 0b11#64 <<< mppShift
def mprvBit : Nat := 17

variable (status : RiscvStatusWord)

def sie : Bool := statusBit status.bits sieBit

def withSie (enabled : Bool) : RiscvStatusWord := ⟨setStatusBit status.bits sieBit enabled⟩

def mie : Bool := statusBit status.bits mieBit

def withMie (enabled : Bool) : RiscvStatusWord := ⟨setStatusBit status.bits mieBit enabled⟩

def spie : Bool := statusBit status.bits spieBit

def withSpie (enabled : Bool) : RiscvStatusWord := ⟨setStatusBit status.bits spieBit enabled⟩

def mpie : Bool := statusBit status.bits mpieBit

def withMpie (enabled : Bool) : RiscvStatusWord := ⟨setStatusBit status.bits mpieBit enabled⟩

def mprv : Bool := statusBit status.bits mprvBit

def withMprv (enabled : Bool) : RiscvStatusWord := ⟨setStatusBit status.bits mprvBit enabled⟩

def spp : RiscvPrivilegeMode :=
  if statusBit status.bits sppBit then .supervisor else .user

def withSpp (privilege : RiscvPrivilegeMode) : RiscvStatusWord :=
  ⟨setStatusBit status.bits sppBit (match privilege with
      | .supervisor | .machine => true
      | .user => false)⟩

def mpp : RiscvPrivilegeMode :=
  match ((status.bits &&& mppMask) >>> mppShift).toNat with
  | 0 => .user
  | 1 => .supervisor
  | _ => .machine

def withMpp (privilege : RiscvPrivilegeMode) : RiscvStatusWord :=
  let bits : BitVec 64 :=
    match privilege with
    | .user => 0
    | .supervisor => 1
    | .machine => 3
  ⟨(status.bits &&& ~~~mppMask) ||| (bits <<< mppShift)⟩

theorem rank_spp_le : status.spp.rank ≤ 1 := by
  unfold spp
  split
  · exact Nat.le_refl 1
  · exact Nat.zero_le 1

theorem withMprv_mprv : (status.withMprv enabled).mprv = enabled := by
  unfold withMprv mprv
  rw [statusBit_eq (by decide), setStatusBit_getLsbD (by decide), if_pos rfl]

theorem mprv_eq_of_and_not {status status' : RiscvStatusWord}
    (h : status'.bits &&& ~~~mask = status.bits &&& ~~~mask)
    (hmask : mask.getLsbD mprvBit = false) : status'.mprv = status.mprv := by
  unfold mprv
  rw [statusBit_eq (by decide), statusBit_eq (by decide)]
  have hbit := congrArg (getLsbD · mprvBit) h
  simpa only [getLsbD_and, getLsbD_not, hmask, Bool.not_false, Bool.and_true,
    show decide (mprvBit < 64) = true from rfl] using hbit

end RiscvStatusWord

/-- The registers that show the status word. -/
inductive RiscvStatusCsr where
  | mstatus | mstatush | sstatus
deriving DecidableEq, Repr

namespace RiscvStatusCsr

def low32Mask : BitVec 64 := 0xffffffff

/-- The bits of the status word that a supervisor sees. -/
def sModeMask : BitVec 64 :=
  (1#64 <<< 1) ||| (1#64 <<< 5) ||| (1#64 <<< 8) ||| (1#64 <<< 18) ||| (1#64 <<< 19)

def address : RiscvStatusCsr → BitVec 16
  | .mstatus => 0x300
  | .mstatush => 0x310
  | .sstatus => 0x100

variable (csr : RiscvStatusCsr)

def read (status : RiscvStatusWord) : BitVec 64 :=
  match csr with
  | .mstatus => status.bits
  | .mstatush => status.bits >>> 32
  | .sstatus => status.bits &&& sModeMask

def readForXlen (xlen : RiscvGdbXlen) (status : RiscvStatusWord) : BitVec 64 :=
  match csr, xlen with
  | .mstatus, .rv32 => status.bits &&& low32Mask
  | _, _ => csr.read status

def write (status : RiscvStatusWord) (value : BitVec 64) : RiscvStatusWord :=
  match csr with
  | .mstatus => ⟨value⟩
  | .mstatush => ⟨(status.bits &&& low32Mask) ||| ((value &&& low32Mask) <<< 32)⟩
  | .sstatus => ⟨(status.bits &&& ~~~sModeMask) ||| (value &&& sModeMask)⟩

/-- On 32 bits, `mstatus` is the low half. -/
def writeForXlen (xlen : RiscvGdbXlen) (status : RiscvStatusWord) (value : BitVec 64) :
    RiscvStatusWord :=
  match csr, xlen with
  | .mstatus, .rv32 => ⟨(status.bits &&& ~~~low32Mask) ||| (value &&& low32Mask)⟩
  | _, _ => csr.write status value

theorem write_sstatus (xlen : RiscvGdbXlen) (status : RiscvStatusWord) (value : BitVec 64) :
    (RiscvStatusCsr.sstatus.writeForXlen xlen status value).bits =
      splice sModeMask status.bits value := by
  cases xlen <;> rfl

end RiscvStatusCsr

/-! ## Counters -/

inductive RiscvCounterCsr where
  | cycle | time | instret
deriving DecidableEq, Repr

namespace RiscvCounterCsr

def machineAddress : RiscvCounterCsr → Option (BitVec 16)
  | .cycle => some 0xb00
  | .time => none
  | .instret => some 0xb02

def counterEnableBit : RiscvCounterCsr → BitVec 64
  | .cycle => 1#64 <<< 0
  | .time => 1#64 <<< 1
  | .instret => 1#64 <<< 2

end RiscvCounterCsr

/-- The halves of a counter, on 32 bits. -/
inductive RiscvCounterCsrWord where
  | cycleLow | cycleHigh | timeLow | timeHigh | instretLow | instretHigh
deriving DecidableEq, Repr

namespace RiscvCounterCsrWord

def counter : RiscvCounterCsrWord → RiscvCounterCsr
  | .cycleLow | .cycleHigh => .cycle
  | .timeLow | .timeHigh => .time
  | .instretLow | .instretHigh => .instret

def machineAddress : RiscvCounterCsrWord → Option (BitVec 16)
  | .cycleLow => some 0xb00
  | .timeLow => none
  | .instretLow => some 0xb02
  | .cycleHigh => some 0xb80
  | .timeHigh => none
  | .instretHigh => some 0xb82

end RiscvCounterCsrWord

/-- The counters. -/
structure RiscvCounterBank where
  (cycle time instret : BitVec 64 := 0)
deriving DecidableEq, Repr

namespace RiscvCounterBank

variable (bank : RiscvCounterBank)

def read : RiscvCounterCsr → BitVec 64
  | .cycle => bank.cycle
  | .time => bank.time
  | .instret => bank.instret

def readWord (csr : RiscvCounterCsrWord) : BitVec 32 :=
  match csr with
  | .cycleLow | .timeLow | .instretLow => (bank.read csr.counter).setWidth 32
  | .cycleHigh | .timeHigh | .instretHigh => (bank.read csr.counter >>> 32).setWidth 32

/-- The time cannot be set. -/
def setMachine (csr : RiscvCounterCsr) (value : BitVec 64) : Option RiscvCounterBank :=
  match csr with
  | .cycle => some { bank with cycle := value }
  | .time => none
  | .instret => some { bank with instret := value }

def addCyclesWithInhibit (cycles : BitVec 64) (inhibitCycle : Bool) : RiscvCounterBank :=
  { bank with
    cycle := if inhibitCycle then bank.cycle else bank.cycle + cycles
    time := bank.time + cycles }

def retireInstructionsWithInhibit (instructions : BitVec 64) (inhibitInstret : Bool) :
    RiscvCounterBank :=
  { bank with instret := if inhibitInstret then bank.instret else bank.instret + instructions }

end RiscvCounterBank

inductive RiscvCounterEnableCsr where
  | scounteren | mcounteren
deriving DecidableEq, Repr

def RiscvCounterEnableCsr.address : RiscvCounterEnableCsr → BitVec 16
  | .scounteren => 0x106
  | .mcounteren => 0x306

inductive RiscvCounterInhibitCsr where
  | mcountinhibit
deriving DecidableEq, Repr

namespace RiscvCounterInhibitCsr

def cy : BitVec 64 := 1#64 <<< 0
def ir : BitVec 64 := 1#64 <<< 2
def supportedMask : BitVec 64 := cy ||| ir

def address : RiscvCounterInhibitCsr → BitVec 16
  | .mcountinhibit => 0x320

def normalize : RiscvCounterInhibitCsr → BitVec 64 → BitVec 64
  | .mcountinhibit, value => value &&& supportedMask

def inhibitsCycle : RiscvCounterInhibitCsr → BitVec 64 → Bool
  | .mcountinhibit, value => value &&& cy != 0

def inhibitsInstret : RiscvCounterInhibitCsr → BitVec 64 → Bool
  | .mcountinhibit, value => value &&& ir != 0

end RiscvCounterInhibitCsr

/-! ## The registers of the machine and of the supervisor -/

inductive RiscvEnvironmentConfigCsr where
  | senvcfg | menvcfg
deriving DecidableEq, Repr

def RiscvEnvironmentConfigCsr.address : RiscvEnvironmentConfigCsr → BitVec 16
  | .senvcfg => 0x10a
  | .menvcfg => 0x30a

inductive RiscvTranslationCsr where
  | satp
deriving DecidableEq, Repr

def RiscvTranslationCsr.address : RiscvTranslationCsr → BitVec 16
  | .satp => 0x180

inductive RiscvInterruptCsr where
  | supervisorInterruptEnable | supervisorInterruptPending | machineInterruptEnable
  | machineInterruptPending
deriving DecidableEq, Repr

def RiscvInterruptCsr.address : RiscvInterruptCsr → BitVec 16
  | .supervisorInterruptEnable => 0x104
  | .supervisorInterruptPending => 0x144
  | .machineInterruptEnable => 0x304
  | .machineInterruptPending => 0x344

inductive RiscvMachineTrapCsr where
  | medeleg | mideleg | mtvec | mscratch | mepc | mcause | mtval
deriving DecidableEq, Repr

def RiscvMachineTrapCsr.address : RiscvMachineTrapCsr → BitVec 16
  | .medeleg => 0x302
  | .mideleg => 0x303
  | .mtvec => 0x305
  | .mscratch => 0x340
  | .mepc => 0x341
  | .mcause => 0x342
  | .mtval => 0x343

inductive RiscvSupervisorTrapCsr where
  | stvec | sscratch | sepc | scause | stval
deriving DecidableEq, Repr

def RiscvSupervisorTrapCsr.address : RiscvSupervisorTrapCsr → BitVec 16
  | .stvec => 0x105
  | .sscratch => 0x140
  | .sepc => 0x141
  | .scause => 0x142
  | .stval => 0x143

inductive RiscvMachineIdentityCsr where
  | vendorId | architectureId | implementationId | hartId | configPointer
deriving DecidableEq, Repr

namespace RiscvMachineIdentityCsr

def address : RiscvMachineIdentityCsr → BitVec 16
  | .vendorId => 0xf11
  | .architectureId => 0xf12
  | .implementationId => 0xf13
  | .hartId => 0xf14
  | .configPointer => 0xf15

def read (csr : RiscvMachineIdentityCsr) (hartId : BitVec 64) : BitVec 64 :=
  match csr with
  | .vendorId | .architectureId | .implementationId | .configPointer => 0
  | .hartId => hartId

end RiscvMachineIdentityCsr

inductive RiscvMachineIsaCsr where
  | misa
deriving DecidableEq, Repr

namespace RiscvMachineIsaCsr

def extensions : BitVec 64 :=
  (1#64 <<< 0) ||| (1#64 <<< 2) ||| (1#64 <<< 3) ||| (1#64 <<< 5) ||| (1#64 <<< 8) |||
    (1#64 <<< 12) ||| (1#64 <<< 18) ||| (1#64 <<< 20)

def address : RiscvMachineIsaCsr → BitVec 16
  | .misa => 0x301

def readForXlenBits (csr : RiscvMachineIsaCsr) (xlenBits : Nat) : BitVec 64 :=
  match csr, xlenBits with
  | .misa, 32 => (1#64 <<< 30) ||| extensions
  | .misa, _ => (2#64 <<< 62) ||| extensions

end RiscvMachineIsaCsr

inductive RiscvMachineInformationCsr where
  | identity (csr : RiscvMachineIdentityCsr)
  | isa (csr : RiscvMachineIsaCsr)
deriving DecidableEq, Repr

namespace RiscvMachineInformationCsr

def address : RiscvMachineInformationCsr → BitVec 16
  | .identity csr | .isa csr => csr.address

def readForXlenBits (csr : RiscvMachineInformationCsr) (hartId : BitVec 64) (xlenBits : Nat) :
    BitVec 64 :=
  match csr with
  | .identity csr => csr.read hartId
  | .isa csr => csr.readForXlenBits xlenBits

def writeTraps : RiscvMachineInformationCsr → Bool
  | .identity _ => true
  | .isa _ => false

end RiscvMachineInformationCsr

/-! ## Floating point -/

structure RiscvFloatStatus where
  bits : BitVec 8 := 0
deriving DecidableEq, Repr

namespace RiscvFloatStatus

def fflagsMask : BitVec 8 := 0x1f
def frmMask : BitVec 8 := 0xe0

def new (bits : BitVec 64) : RiscvFloatStatus := ⟨(bits &&& 0xff).setWidth 8⟩

variable (status : RiscvFloatStatus)

def fflags : BitVec 64 := (status.bits &&& fflagsMask).setWidth 64

def frm : BitVec 64 := ((status.bits &&& frmMask) >>> 5).setWidth 64

def withFflags (value : BitVec 64) : RiscvFloatStatus :=
  ⟨(status.bits &&& ~~~fflagsMask) ||| (value.setWidth 8 &&& fflagsMask)⟩

def withFrm (value : BitVec 64) : RiscvFloatStatus :=
  ⟨(status.bits &&& ~~~frmMask) ||| ((value.setWidth 8 &&& 0x7) <<< 5)⟩

def raiseExceptionFlags (flags : BitVec 64) : RiscvFloatStatus :=
  ⟨status.bits ||| (flags.setWidth 8 &&& fflagsMask)⟩

end RiscvFloatStatus

inductive RiscvFloatCsr where
  | fflags | frm | fcsr
deriving DecidableEq, Repr

namespace RiscvFloatCsr

def address : RiscvFloatCsr → BitVec 16
  | .fflags => 0x001
  | .frm => 0x002
  | .fcsr => 0x003

def read (csr : RiscvFloatCsr) (status : RiscvFloatStatus) : BitVec 64 :=
  match csr with
  | .fflags => status.fflags
  | .frm => status.frm
  | .fcsr => status.bits.setWidth 64

def write (csr : RiscvFloatCsr) (status : RiscvFloatStatus) (value : BitVec 64) :
    RiscvFloatStatus :=
  match csr with
  | .fflags => status.withFflags value
  | .frm => status.withFrm value
  | .fcsr => .new value

end RiscvFloatCsr

/-! ## Vectors -/

inductive RiscvVectorFixedRoundingMode where
  | roundNearestUp | roundNearestEven | roundDown | roundToOdd
deriving DecidableEq, Repr

namespace RiscvVectorFixedRoundingMode

def fromVxrmBits (bits : BitVec 8) : RiscvVectorFixedRoundingMode :=
  match (bits &&& 0b11).toNat with
  | 0 => .roundNearestUp
  | 1 => .roundNearestEven
  | 2 => .roundDown
  | _ => .roundToOdd

def vxrmBits : RiscvVectorFixedRoundingMode → BitVec 8
  | .roundNearestUp => 0
  | .roundNearestEven => 1
  | .roundDown => 2
  | .roundToOdd => 3

end RiscvVectorFixedRoundingMode

structure RiscvVectorFixedPointState where
  roundingMode : RiscvVectorFixedRoundingMode := .roundNearestUp
  vxsat : Bool := false
deriving DecidableEq, Repr

namespace RiscvVectorFixedPointState

variable (state : RiscvVectorFixedPointState)

def vcsrBits : BitVec 8 := (state.roundingMode.vxrmBits <<< 1) ||| (ofBool state.vxsat).setWidth 8

def writeVxrmBits (bits : BitVec 8) : RiscvVectorFixedPointState :=
  { state with roundingMode := .fromVxrmBits bits }

def writeVxsatBit (vxsat : Bool) : RiscvVectorFixedPointState :=
  { state with vxsat }

def writeVcsrBits (bits : BitVec 8) : RiscvVectorFixedPointState :=
  (state.writeVxsatBit (bits &&& 0b1 != 0)).writeVxrmBits ((bits >>> 1) &&& 0b11)

end RiscvVectorFixedPointState

inductive RiscvVectorFixedPointCsr where
  | vxsat | vxrm | vcsr
deriving DecidableEq, Repr

namespace RiscvVectorFixedPointCsr

def address : RiscvVectorFixedPointCsr → BitVec 16
  | .vxsat => 0x009
  | .vxrm => 0x00a
  | .vcsr => 0x00f

def read (csr : RiscvVectorFixedPointCsr) (state : RiscvVectorFixedPointState) : BitVec 64 :=
  match csr with
  | .vxsat => (ofBool state.vxsat).setWidth 64
  | .vxrm => state.roundingMode.vxrmBits.setWidth 64
  | .vcsr => state.vcsrBits.setWidth 64

def write (csr : RiscvVectorFixedPointCsr) (state : RiscvVectorFixedPointState)
    (value : BitVec 64) : RiscvVectorFixedPointState :=
  match csr with
  | .vxsat => state.writeVxsatBit (value &&& 0b1 != 0)
  | .vxrm => state.writeVxrmBits (value.setWidth 8)
  | .vcsr => state.writeVcsrBits (value.setWidth 8)

end RiscvVectorFixedPointCsr

/-- The length and the type of the vectors in use. -/
structure RiscvVectorConfig where
  vl : BitVec 32
  vtype : BitVec 64
deriving DecidableEq, Repr

namespace RiscvVectorConfig

def villBit : BitVec 64 := 1#64 <<< 63

def defaultVlenBits : Nat := 128

def invalid : RiscvVectorConfig := ⟨0, villBit⟩

def vill (config : RiscvVectorConfig) : Bool := config.vtype &&& villBit != 0

def nonzeroFractionalLmul (base denominator : Nat) : Option Nat :=
  if base / denominator != 0 then some (base / denominator) else none

/-- The most elements that a register group of a type can hold. -/
def vlmax (vtype : BitVec 64) : Option Nat :=
  if vtype &&& ~~~0xff != 0 then none
  else
    let vlmul := (vtype &&& 0x7).toNat
    let vsew := ((vtype >>> 3) &&& 0x7).toNat
    if vsew > 3 then none
    else
      let base := defaultVlenBits / (8 <<< vsew)
      match vlmul with
      | 0 => some base
      | 1 => some (base * 2)
      | 2 => some (base * 4)
      | 3 => some (base * 8)
      | 5 => nonzeroFractionalLmul base 8
      | 6 => nonzeroFractionalLmul base 4
      | 7 => nonzeroFractionalLmul base 2
      | _ => none

def fromAvl (vtype avl : BitVec 64) : RiscvVectorConfig :=
  match vlmax vtype with
  | none => invalid
  | some limit => ⟨BitVec.ofNat 32 (min avl.toNat limit), vtype⟩

def elementWidthBytes (config : RiscvVectorConfig) : Option Nat :=
  if config.vill || (vlmax config.vtype).isNone then none
  else
    match ((config.vtype >>> 3) &&& 0x7).toNat with
    | 0 => some 1
    | 1 => some 2
    | 2 => some 4
    | 3 => some 8
    | _ => none

def registerGroupRegisters (config : RiscvVectorConfig) : Option Nat :=
  if config.vill || (vlmax config.vtype).isNone then none
  else
    match (config.vtype &&& 0x7).toNat with
    | 0 | 5 | 6 | 7 => some 1
    | 1 => some 2
    | 2 => some 4
    | 3 => some 8
    | _ => none

end RiscvVectorConfig

end Rem6.Isa
