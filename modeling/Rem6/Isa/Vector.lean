import Mathlib.Algebra.BigOperators.Fin
import Rem6.Isa.Hart

/-!
# Vector Registers and the Averaging Unit

A vector operand is a group of registers that is read into one buffer, worked on
lane by lane, and written back. The configuration says how wide a lane is, how
many registers are in a group and how many lanes are active; a plan is made of
it only when every operand starts a group that fits.

The averaging unit adds or subtracts two lanes and halves the result with the
rounding mode. It rounds 128-bit integers: it adds to the unshifted value, or
sets a bit of it, and shifts afterwards. The difference of two unsigned lanes is
reduced to the width *before* it is halved.

## Main definitions

* `slice`, `copyFromSlice`, `copyLanes`: Lanes of a buffer, read and written.
* `roundUnsigned`, `roundSigned`: The value to shift.
* `VectorBinaryPlan`: The shape of an operation on groups.
* `readRegisterGroup`, `writeRegisterGroup`: Groups as buffers.
* `RiscvVectorAveragingInstruction.execute`: The averaging unit.
-/

namespace Rem6.Isa

open RiscvHartState

/-! ## Lanes of a buffer -/

/-- The `n` positions of a buffer from an offset on. -/
def slice {α : Type} (buffer : Nat → α) (offset n : Nat) : Fin n → α := fun i => buffer (offset + i)

/-- Overwrite the positions of a buffer from an offset on. -/
def copyFromSlice {α : Type} (buffer : Nat → α) (offset : Nat) {n : Nat} (source : Fin n → α) :
    Nat → α :=
  fun k => if h : offset ≤ k ∧ k - offset < n then source ⟨k - offset, h.2⟩ else buffer k

/-- Write the first lanes of a buffer, in order. -/
def copyLanes {α : Type} (buffer : Nat → α) (width : Nat) (lane : Nat → Fin width → α)
    (count : Nat) :
    Nat → α :=
  (List.range count).foldl (fun buffer i => copyFromSlice buffer (i * width) (lane i)) buffer

/-- The number that bytes stand for, the lowest first. -/
def fromLeBytes {n : Nat} (bytes : Fin n → BitVec 8) : Nat := ∑ i, (bytes i).toNat * 256 ^ (i : Nat)

/-- The lowest bytes of a number. -/
def toLeBytes (n value : Nat) : Fin n → BitVec 8 :=
  fun i => BitVec.ofNat 8 (value / 256 ^ (i : Nat))

/-! ## Configuration -/

/-- The length asked for. Without a source register the length is kept, or the
    longest one is asked for. -/
def vectorAvl (hart : RiscvHartState) (rd rs1 : Register) : BitVec 64 :=
  if rs1 ≠ 0 then hart.read rs1
  else if rd = 0 then hart.vectorConfig.vl.setWidth 64
  else BitVec.allOnes 64

/-! ## Register groups -/

def maxVectorGroupRegisters : Nat := 8

def validRegisterGroup (register : VectorRegister) (groupRegisters : Nat) : Bool :=
  decide (0 < groupRegisters) && decide (groupRegisters ≤ maxVectorGroupRegisters) &&
    decide (register.val % groupRegisters = 0) && decide (register.val + groupRegisters ≤ 32)

structure VectorBinaryPlan where
  (elementBytes groupRegisters activeBytes : Nat)

namespace VectorBinaryPlan

def new (hart : RiscvHartState) (destination : VectorRegister) (sources : List VectorRegister) :
    Option VectorBinaryPlan :=
  match hart.vectorConfig.elementWidthBytes, hart.vectorConfig.registerGroupRegisters with
  | some elementBytes, some groupRegisters =>
    if !validRegisterGroup destination groupRegisters ||
        sources.any (fun source => !validRegisterGroup source groupRegisters) then none
    else
      let activeBytes := hart.vectorConfig.vl.toNat * elementBytes
      if activeBytes > groupRegisters * riscvVectorRegisterBytes then none
      else some ⟨elementBytes, groupRegisters, activeBytes⟩
  | _, _ => none

def activeElementCount (plan : VectorBinaryPlan) : Nat := plan.activeBytes / plan.elementBytes

end VectorBinaryPlan

/-- A register of a group. The groups of a plan end at the last register, so no
    index wraps around. -/
def vectorRegisterAt (base : VectorRegister) (groupIndex : Nat) : VectorRegister :=
  Fin.ofNat 32 (base.val + groupIndex)

def readRegisterGroup (hart : RiscvHartState) (register : VectorRegister) (groupRegisters : Nat) :
    Nat → BitVec 8 :=
  copyLanes (fun _ => 0) riscvVectorRegisterBytes
    (fun groupIndex => hart.readVector (vectorRegisterAt register groupIndex)) groupRegisters

def writeRegisterGroup (hart : RiscvHartState) (register : VectorRegister) (groupRegisters : Nat)
    (bytes : Nat → BitVec 8) : RiscvHartState :=
  (List.range groupRegisters).foldl (fun hart groupIndex =>
      hart.writeVector (vectorRegisterAt register groupIndex)
        (slice bytes (groupIndex * riscvVectorRegisterBytes) riscvVectorRegisterBytes))
    hart

def laneBytesToU128 {n : Nat} (bytes : Fin n → BitVec 8) : Nat := fromLeBytes bytes

def writeU128Lane (bytes : Nat → BitVec 8) (offset elementBytes value : Nat) : Nat → BitVec 8 :=
  copyFromSlice bytes offset (toLeBytes elementBytes value)

/-! ## Rounding -/

def u128Limit : Nat := 2 ^ 128

def i128Limit : Nat := 2 ^ 127

/-- The two's complement of a 128-bit integer. -/
def asU128 (value : Int) : Nat := (value % (u128Limit : Int)).toNat

/-- The integer that 128 bits stand for. -/
def asI128 (bits : Nat) : Int := if bits < i128Limit then bits else bits - u128Limit

def checkedAddU128 (value increment : Nat) : Option Nat :=
  if value + increment < u128Limit then some (value + increment) else none

def checkedAddI128 (value increment : Int) : Option Int :=
  if -i128Limit ≤ value + increment ∧ value + increment < i128Limit then some (value + increment)
  else none

/-- Whether rounding to the nearest, or to the even one, goes up. -/
def roundsUpToEven (bits shift : Nat) : Bool :=
  let lsb := 1 <<< shift
  let lsbHalf := lsb >>> 1
  bits &&& lsbHalf != 0 && (bits &&& (lsbHalf - 1) != 0 || bits &&& lsb != 0)

/-- The value to shift, or the overflow of the rounding. -/
def roundUnsigned (value shift : Nat) (mode : RiscvVectorFixedRoundingMode) : Option Nat :=
  if shift = 0 then some value
  else
    let lsb := 1 <<< shift
    let lsbHalf := lsb >>> 1
    match mode with
    | .roundNearestUp => checkedAddU128 value lsbHalf
    | .roundNearestEven =>
      if roundsUpToEven value shift then checkedAddU128 value lsb else some value
    | .roundDown => some value
    | .roundToOdd => if value &&& (lsb - 1) != 0 then some (value ||| lsb) else some value

def roundSigned (value : Int) (shift : Nat) (mode : RiscvVectorFixedRoundingMode) : Option Int :=
  if shift = 0 then some value
  else
    let valueBits := asU128 value
    let lsb := 1 <<< shift
    let lsbHalf := lsb >>> 1
    match mode with
    | .roundNearestUp =>
      if lsbHalf < i128Limit then checkedAddI128 value lsbHalf else none
    | .roundNearestEven =>
      if roundsUpToEven valueBits shift then
        if lsb < i128Limit then checkedAddI128 value lsb else none
      else some value
    | .roundDown => some value
    | .roundToOdd =>
      if valueBits &&& (lsb - 1) != 0 then some (asI128 (valueBits ||| lsb)) else some value

/-! ## Averaging -/

inductive AveragingOp where
  | addUnsigned | addSigned | subUnsigned | subSigned
deriving DecidableEq, Repr

inductive RiscvVectorAveragingInstruction where
  | addUnsignedVv (vd vs2 vs1 : VectorRegister)
  | addSignedVv (vd vs2 vs1 : VectorRegister)
  | subUnsignedVv (vd vs2 vs1 : VectorRegister)
  | subSignedVv (vd vs2 vs1 : VectorRegister)
  | addUnsignedVx (vd vs2 : VectorRegister) (rs1 : Register)
  | addSignedVx (vd vs2 : VectorRegister) (rs1 : Register)
  | subUnsignedVx (vd vs2 : VectorRegister) (rs1 : Register)
  | subSignedVx (vd vs2 : VectorRegister) (rs1 : Register)
deriving DecidableEq, Repr

def unsignedMax (bits : Nat) : Nat := if bits = 128 then u128Limit - 1 else 1 <<< bits - 1

def signExtend (value bits : Nat) : Int :=
  let shift := 128 - bits
  asI128 ((value <<< shift) % u128Limit) >>> shift

def signedOperandBits (value : Int) (bits : Nat) : Nat := asU128 value &&& unsignedMax bits

/-- None when the rounding overflows, where the unit panics. -/
def averageUnsigned (value : Nat) (mode : RiscvVectorFixedRoundingMode) : Option Nat :=
  (roundUnsigned value 1 mode).map fun rounded => rounded >>> 1

def averageSigned (value : Int) (bits : Nat) (mode : RiscvVectorFixedRoundingMode) : Option Nat :=
  (roundSigned value 1 mode).map fun rounded : Int => signedOperandBits (rounded >>> (1 : Nat)) bits

def applyAveraging (op : AveragingOp) (left right bits : Nat)
    (mode : RiscvVectorFixedRoundingMode) : Option Nat :=
  match op with
  | .addUnsigned => averageUnsigned (left + right) mode
  | .addSigned => averageSigned (signExtend left bits + signExtend right bits) bits mode
  | .subUnsigned =>
    -- the difference wraps in 128 bits, and is cut to the width before it is halved
    let wrapped := ((left + (u128Limit - right)) % u128Limit) &&& unsignedMax bits
    (averageUnsigned wrapped mode).map fun value => value &&& unsignedMax bits
  | .subSigned => averageSigned (signExtend left bits - signExtend right bits) bits mode

def executeLanes (hart : RiscvHartState) (vd : VectorRegister) (plan : VectorBinaryPlan)
    (left : Nat → BitVec 8) (rightLane : Nat → Nat → Nat) (op : AveragingOp) :
    Option (Bool × RiscvHartState) := do
  let result := readRegisterGroup hart vd plan.groupRegisters
  let mode := hart.vectorFixedPoint.roundingMode
  let elementBytes := plan.elementBytes
  let result ← (List.range plan.activeElementCount).foldlM (fun result elementIndex =>
      let offset := elementIndex * elementBytes
      let left := laneBytesToU128 (slice left offset elementBytes)
      let right := rightLane elementIndex elementBytes
      (applyAveraging op left right (elementBytes * 8) mode).map fun value =>
        writeU128Lane result offset elementBytes value)
    result
  return (true, writeRegisterGroup hart vd plan.groupRegisters result)

def executeAveragingVv (hart : RiscvHartState) (vd vs2 vs1 : VectorRegister) (op : AveragingOp) :
    Option (Bool × RiscvHartState) :=
  match VectorBinaryPlan.new hart vd [vs2, vs1] with
  | none => some (false, hart)
  | some plan =>
    let left := readRegisterGroup hart vs2 plan.groupRegisters
    let right := readRegisterGroup hart vs1 plan.groupRegisters
    executeLanes hart vd plan left (fun elementIndex elementBytes =>
        laneBytesToU128 (slice right (elementIndex * elementBytes) elementBytes))
      op

def executeAveragingVx (hart : RiscvHartState) (vd vs2 : VectorRegister) (scalar : BitVec 64)
    (op : AveragingOp) : Option (Bool × RiscvHartState) :=
  match VectorBinaryPlan.new hart vd [vs2] with
  | none => some (false, hart)
  | some plan =>
    let left := readRegisterGroup hart vs2 plan.groupRegisters
    executeLanes hart vd plan left
      (fun _ elementBytes => scalar.toNat &&& unsignedMax (elementBytes * 8)) op

/-- Whether the instruction is legal, and the hart after it. None is a panic. -/
def RiscvVectorAveragingInstruction.execute (hart : RiscvHartState) :
    RiscvVectorAveragingInstruction → Option (Bool × RiscvHartState)
  | .addUnsignedVv vd vs2 vs1 => executeAveragingVv hart vd vs2 vs1 .addUnsigned
  | .addSignedVv vd vs2 vs1 => executeAveragingVv hart vd vs2 vs1 .addSigned
  | .subUnsignedVv vd vs2 vs1 => executeAveragingVv hart vd vs2 vs1 .subUnsigned
  | .subSignedVv vd vs2 vs1 => executeAveragingVv hart vd vs2 vs1 .subSigned
  | .addUnsignedVx vd vs2 rs1 => executeAveragingVx hart vd vs2 (hart.read rs1) .addUnsigned
  | .addSignedVx vd vs2 rs1 => executeAveragingVx hart vd vs2 (hart.read rs1) .addSigned
  | .subUnsignedVx vd vs2 rs1 => executeAveragingVx hart vd vs2 (hart.read rs1) .subUnsigned
  | .subSignedVx vd vs2 rs1 => executeAveragingVx hart vd vs2 (hart.read rs1) .subSigned

end Rem6.Isa
