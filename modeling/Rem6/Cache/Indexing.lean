import Mathlib.Data.Nat.Bitwise
import Rem6.Lib.ShiftRegister
import Rem6.Memory.Types

/-!
# Where a Line May Be in a Cache

The indexing policies: to which set an address goes in each way, and which
address is in a set under a tag. A set-associative cache takes the block address
modulo the number of sets for every way. A skewed one mixes two fields of the
block address, each as wide as the set index, differently in each way: with a
shift register stepped forward (`hash`) or back (`dehash`) on either field,
beside one of the fields unchanged, and for ways beyond the eighth with more
steps on the result.

To find the address again the low field has to be recovered from the mixed one
and the high one, which is part of the tag. Where the low field was stepped only
once it is stepped the other way. Where it was also added unchanged, the sum of
the two is undone by as many steps as the register is wide, or one less; this is
the relation between the powers of a step of a shift register.

Words are 64-bit vectors, so that a shift by 64 or more gives zero, as the
checked shifts of the source do. What `hash` and `dehash` do to a word without
bits above the set index is what the register does to its low bits.

## Main definitions

* `CacheIndexingPolicyConfig.new`: The accepted configurations.
* `candidateLocations`, `extractTag`, `regenerateAddress`: The policy.
* `hash`, `dehash`, `skew`, `deskew`: Skewing.
* `Narrow`: A word without bits from a place on.
* `Accepted`: What the constructor checked.

## Theorems

* `setWidth_hash`, `setWidth_dehash`: Hashing is a step of the register.
* `deskew_of_skew`: The low field is recovered in every way.
* `regenerateAddress_candidate`: The line address is recovered from its tag and
  any of its locations.
* `regenerateAddress_tenth_way`: A way with an extra round.
-/

namespace Rem6.Cache

open Memory Lib ShiftRegister BitVec Function

deriving instance DecidableEq for CacheLineLayout

inductive CacheIndexingPolicyKind where
  | setAssociative | skewedAssociative
deriving DecidableEq, Repr

structure CacheIndexingLocation where
  set : BitVec 64
  way : Nat
deriving DecidableEq, Repr

inductive CacheIndexingPolicyError where
  | zeroSets | zeroWays
  | setsNotPowerOfTwo (sets : BitVec 64)
  | skewedAssociativeTooFewSets (sets : BitVec 64)
  | skewedAssociativeAddressBitsTooWide (setShift setBits : Nat)
  | unknownSet (set sets : BitVec 64)
  | unknownWay (way ways : Nat)
deriving DecidableEq, Repr

structure CacheIndexingPolicyConfig where
  kind : CacheIndexingPolicyKind
  lineLayout : CacheLineLayout
  sets : BitVec 64
  (ways setShift setBits tagShift : Nat)
  setMask : BitVec 64
deriving DecidableEq

section

variable (value : BitVec 64)

def isPowerOfTwo : Bool := (List.range 64).any fun k => value = twoPow 64 k

def trailingZeros : Nat := value.ctz.toNat

/-! ## Bits of words -/

def bitMask (count : Nat) : BitVec 64 :=
  if 64 ≤ count then allOnes 64 else (1#64 <<< count) - 1#64

def lowerBits (count : Nat) : BitVec 64 := value &&& bitMask count

def bits (high low : Nat) : BitVec 64 :=
  lowerBits (value >>> low) (high - low + 1)

def bit (index : Nat) : BitVec 64 := (value >>> index) &&& 1#64

def setBit (index : Nat) (bit : BitVec 64) : BitVec 64 :=
  if bit &&& 1#64 = 0#64 then value &&& ~~~(1#64 <<< index) else value ||| (1#64 <<< index)

/-! ## The policy -/

end

namespace CacheIndexingPolicyConfig

def new (kind : CacheIndexingPolicyKind) (lineLayout : CacheLineLayout) (sets : BitVec 64)
    (ways : Nat) : Except CacheIndexingPolicyError CacheIndexingPolicyConfig :=
  if sets = 0#64 then .error .zeroSets
  else if ways = 0 then .error .zeroWays
  else if isPowerOfTwo sets = false then .error (.setsNotPowerOfTwo sets)
  else
    let setShift := trailingZeros (BitVec.ofNat 64 lineLayout.bytes)
    let setBits := trailingZeros sets
    if kind = .skewedAssociative ∧ sets ≤ 2#64 then .error (.skewedAssociativeTooFewSets sets)
    else if kind = .skewedAssociative ∧ 64 < setShift + 2 * setBits then
      .error (.skewedAssociativeAddressBitsTooWide setShift setBits)
    else
      .ok {
        kind, lineLayout, sets, ways, setShift, setBits
        tagShift := setShift + setBits
        setMask := sets - 1#64 }

variable (config : CacheIndexingPolicyConfig)

def normalizedLineAddress (address : Nat) : BitVec 64 :=
  BitVec.ofNat 64 (config.lineLayout.lineAddress address)

def blockAddress (address : Nat) : BitVec 64 :=
  config.normalizedLineAddress address >>> config.setShift

def extractTag (address : Nat) : BitVec 64 :=
  config.normalizedLineAddress address >>> config.tagShift

def msbShift : Nat := config.setBits - 1

def hash (value : BitVec 64) : BitVec 64 :=
  setBit (value >>> 1) config.msbShift (bit value config.msbShift ^^^ bit value 0)

def dehash (value : BitVec 64) : BitVec 64 :=
  setBit (lowerBits value config.msbShift <<< 1) 0
    (bit value (config.msbShift - 1) ^^^ bit value config.msbShift)

/-- The mix of the low and the high field for a way, before the extra rounds.
    The remainder modulo eight makes the last case that of seven. -/
def mix (low high : BitVec 64) (way : Nat) : BitVec 64 :=
  match way % 8 with
  | 0 => config.hash low ^^^ config.hash high ^^^ high
  | 1 => config.hash low ^^^ config.hash high ^^^ low
  | 2 => config.hash low ^^^ config.dehash high ^^^ high
  | 3 => config.hash low ^^^ config.dehash high ^^^ low
  | 4 => config.dehash low ^^^ config.hash high ^^^ high
  | 5 => config.dehash low ^^^ config.hash high ^^^ low
  | 6 => config.dehash low ^^^ config.dehash high ^^^ high
  | _ => config.dehash low ^^^ config.dehash high ^^^ low

def skew (blockAddress : BitVec 64) (way : Nat) : BitVec 64 :=
  let low := lowerBits blockAddress config.setBits
  let high := bits blockAddress (2 * config.setBits - 1) config.setBits
  config.hash^[way / 8] (config.mix low high way)

/-- The low field from the mix and the high field. -/
def unmix (mixed high : BitVec 64) (way : Nat) : BitVec 64 :=
  match way % 8 with
  | 0 => config.dehash (mixed ^^^ config.hash high ^^^ high)
  | 1 => config.hash^[config.msbShift] (mixed ^^^ config.hash high)
  | 2 => config.dehash (mixed ^^^ config.dehash high ^^^ high)
  | 3 => config.hash^[config.msbShift] (mixed ^^^ config.dehash high)
  | 4 => config.hash (mixed ^^^ config.hash high ^^^ high)
  | 5 => config.hash^[config.msbShift + 1] (mixed ^^^ config.hash high)
  | 6 => config.hash (mixed ^^^ config.dehash high ^^^ high)
  | _ => config.hash^[config.msbShift + 1] (mixed ^^^ config.dehash high)

def deskew (blockAddress : BitVec 64) (way : Nat) : BitVec 64 :=
  let low := lowerBits blockAddress config.setBits
  let high := bits blockAddress (2 * config.setBits - 1) config.setBits
  config.unmix (config.dehash^[way / 8] low) high way

def candidateLocations (address : Nat) : List CacheIndexingLocation :=
  (List.range config.ways).map fun way =>
    match config.kind with
    | .setAssociative => ⟨config.blockAddress address % config.sets, way⟩
    | .skewedAssociative => ⟨config.skew (config.blockAddress address) way &&& config.setMask, way⟩

def checkLocation (location : CacheIndexingLocation) : Except CacheIndexingPolicyError Unit :=
  if config.sets ≤ location.set then .error (.unknownSet location.set config.sets)
  else if config.ways ≤ location.way then .error (.unknownWay location.way config.ways)
  else .ok ()

def regenerateAddress (tag : BitVec 64) (location : CacheIndexingLocation) :
    Except CacheIndexingPolicyError Nat :=
  match config.checkLocation location with
  | .error error => .error error
  | .ok () =>
    let set : BitVec 64 :=
      match config.kind with
      | .setAssociative => location.set
      | .skewedAssociative =>
        config.deskew ((tag <<< config.setBits) ||| location.set) location.way &&& config.setMask
    .ok ((tag <<< config.tagShift) ||| (set <<< config.setShift)).toNat

end CacheIndexingPolicyConfig

/-! ## What the bit operations do -/

variable {count i high index idx rounds way k address adr : Nat}
  {value b low skewed block : BitVec 64}

theorem toNat_twoPow_sub_one (h : count < 64) : (twoPow 64 count - 1#64).toNat = 2 ^ count - 1 := by
  have hpow : 2 ^ count < 2 ^ 64 := Nat.pow_lt_pow_right (by decide) h
  have hone : (1#64).toNat ≤ (twoPow 64 count).toNat := by
    rw [toNat_twoPow, Nat.mod_eq_of_lt hpow]
    exact Nat.two_pow_pos count
  rw [toNat_sub_of_le hone, toNat_twoPow, Nat.mod_eq_of_lt hpow]
  rfl

theorem getLsbD_twoPow_sub_one (h : count < 64) (i : Nat) :
    (twoPow 64 count - 1#64).getLsbD i = decide (i < count) := by
  rw [← testBit_toNat, toNat_twoPow_sub_one h, Nat.testBit_two_pow_sub_one]

theorem getLsbD_lowerBits :
    (lowerBits value count).getLsbD i = (decide (i < count) && value.getLsbD i) := by
  rw [lowerBits, getLsbD_and, bitMask]
  split
  · by_cases hi : i < 64
    · have hlt : i < count := by omega
      simp only [getLsbD_allOnes, hi, hlt, decide_true, Bool.and_true, Bool.true_and]
    · rw [getLsbD_of_ge value i (by omega), Bool.false_and, Bool.and_false]
  · rename_i hcnt
    have hmask := getLsbD_twoPow_sub_one (not_le.mp hcnt) i
    rw [twoPow] at hmask
    rw [hmask, Bool.and_comm]

theorem getLsbD_bits {low} :
    (bits value high low).getLsbD i = (decide (i < high - low + 1) && value.getLsbD (low + i)) := by
  rw [bits, getLsbD_lowerBits, getLsbD_ushiftRight]

theorem getLsbD_bit : (bit value index).getLsbD 0 = value.getLsbD index := by
  rw [bit, getLsbD_and, getLsbD_ushiftRight, getLsbD_one, add_zero]
  simp

theorem and_one_eq_zero_iff : value &&& 1#64 = 0#64 ↔ value.getLsbD 0 = false := by
  constructor
  · intro h
    have hbit := congrArg (fun word => getLsbD word 0) h
    simpa only [getLsbD_and, getLsbD_one, Nat.zero_lt_succ, decide_true,
      Bool.and_self, Bool.and_true, getLsbD_zero] using hbit
  · intro h
    apply eq_of_getLsbD_eq
    intro i _
    rw [getLsbD_and, getLsbD_one, getLsbD_zero]
    by_cases hi : i = 0
    · rw [hi, h, Bool.false_and]
    · simp [hi]

theorem getLsbD_setBit (hidx : idx < 64) (hi : i < 64) :
    (setBit value idx b).getLsbD i = if i = idx then b.getLsbD 0 else value.getLsbD i := by
  have hone : (1#64 <<< idx).getLsbD i = decide (idx = i) := by
    have htwo := getLsbD_twoPow (w := 64) idx i
    rw [twoPow] at htwo
    rw [htwo]
    simp [hidx]
  unfold setBit
  by_cases hzero : b.getLsbD 0 = false
  · rw [if_pos ((and_one_eq_zero_iff).mpr hzero), getLsbD_and, getLsbD_not, hone, hzero]
    by_cases heq : i = idx
    · simp only [heq, decide_true, Bool.not_true, Bool.and_false, if_true]
    · have hne : ¬(idx = i) := fun h => heq h.symm
      simp only [heq, hne, hi, decide_true, decide_false, Bool.not_false, Bool.and_true, if_false]
  · rw [if_neg fun h => hzero ((and_one_eq_zero_iff).mp h), getLsbD_or, hone]
    by_cases heq : i = idx
    · rw [Bool.not_eq_false] at hzero
      simp only [heq, decide_true, Bool.or_true, if_true, hzero]
    · have hne : ¬(idx = i) := fun h => heq h.symm
      simp only [heq, hne, decide_false, Bool.or_false, if_false]

/-! ## Skewing -/

/-- A word without bits from a place on. -/
def Narrow (width : Nat) (value : BitVec 64) : Prop := ∀ i, width ≤ i → value.getLsbD i = false

namespace Narrow

variable {width : Nat} {a b : BitVec 64}

theorem eq_of_setWidth_eq (ha : Narrow width a) (hb : Narrow width b)
    (h : a.setWidth width = b.setWidth width) : a = b := by
  apply eq_of_getLsbD_eq
  intro i _
  by_cases hi : i < width
  · have hbit := congrArg (fun word => getLsbD word i) h
    simpa only [getLsbD_setWidth, hi, decide_true, Bool.true_and] using hbit
  · rw [ha i (not_lt.mp hi), hb i (Nat.not_lt.mp hi)]

theorem xor (ha : Narrow width a) (hb : Narrow width b) : Narrow width (a ^^^ b) := by
  intro i hi
  rw [getLsbD_xor, ha i hi, hb i hi, Bool.xor_self]

theorem lowerBits (value : BitVec 64) (width : Nat) : Narrow width (lowerBits value width) := by
  intro i hi
  rw [getLsbD_lowerBits, decide_eq_false (Nat.not_lt.mpr hi), Bool.false_and]

theorem lowerBits_eq (ha : Narrow width a) : Cache.lowerBits a width = a := by
  apply eq_of_getLsbD_eq
  intro i _
  rw [getLsbD_lowerBits]
  by_cases hi : i < width
  · rw [decide_eq_true hi, Bool.true_and]
  · rw [ha i (not_lt.mp hi), Bool.and_false]

end Narrow

namespace CacheIndexingPolicyConfig

variable {config : CacheIndexingPolicyConfig}

theorem getLsbD_hash (hbits : config.setBits ≤ 64) (hpos : 0 < config.setBits) (hi : i < 64) :
    (config.hash value).getLsbD i = if i + 1 = config.setBits then
          value.getLsbD (config.setBits - 1) ^^ value.getLsbD 0
        else value.getLsbD (i + 1) := by
  have hidx : config.msbShift < 64 := by
    unfold msbShift
    omega
  rw [hash, getLsbD_setBit hidx hi, getLsbD_xor, getLsbD_bit, getLsbD_bit,
    getLsbD_ushiftRight, add_comm 1 i]
  unfold msbShift
  by_cases hlast : i + 1 = config.setBits
  · rw [if_pos (by omega), if_pos hlast]
  · rw [if_neg (by omega), if_neg hlast]

theorem getLsbD_dehash (hi : i < 64) :
    (config.dehash value).getLsbD i = if i = 0 then
          value.getLsbD (config.setBits - 2) ^^ value.getLsbD (config.setBits - 1)
        else (decide (i < config.setBits) && value.getLsbD (i - 1)) := by
  rw [dehash, getLsbD_setBit (by decide) hi, getLsbD_xor, getLsbD_bit, getLsbD_bit]
  by_cases hfirst : i = 0
  · rw [if_pos hfirst, if_pos hfirst]
    rfl
  · have hge : ¬i < 1 := by omega
    have hiff : i - 1 < config.setBits - 1 ↔ i < config.setBits := by omega
    rw [if_neg hfirst, if_neg hfirst, getLsbD_shiftLeft, getLsbD_lowerBits, msbShift]
    simp [hi, hge, hiff]

/-- Hashing a narrow word is a step of the register of its bits. -/
theorem setWidth_hash (hbits : config.setBits ≤ 64) (hpos : 0 < config.setBits) :
    (config.hash value).setWidth config.setBits = step (value.setWidth config.setBits) := by
  apply eq_of_getLsbD_eq
  intro i hi
  have hlast : config.setBits - 1 < config.setBits := by omega
  rw [getLsbD_setWidth, getLsbD_hash hbits hpos (by omega), getLsbD_step _ hi]
  simp only [getLsbD_setWidth, hi, hlast, hpos, decide_true, Bool.true_and]
  by_cases heq : i + 1 = config.setBits
  · rw [if_pos heq, if_pos heq]
  · have hnext : i + 1 < config.setBits := by omega
    rw [if_neg heq, if_neg heq, decide_eq_true hnext, Bool.true_and]

/-- Dehashing a narrow word is a step back. -/
theorem setWidth_dehash (hbits : config.setBits ≤ 64) (htwo : 2 ≤ config.setBits) :
    (config.dehash value).setWidth config.setBits = back (value.setWidth config.setBits) := by
  apply eq_of_getLsbD_eq
  intro i hi
  have hlast : config.setBits - 1 < config.setBits := by omega
  have hhi : config.setBits - 2 < config.setBits := by omega
  have hprev : i - 1 < config.setBits := by omega
  rw [getLsbD_setWidth, getLsbD_dehash (by omega), getLsbD_back _ hi]
  simp [hi, hlast, hhi, hprev]

variable {value : BitVec 64}

theorem narrow_hash (hbits : config.setBits ≤ 64) (hpos : 0 < config.setBits)
    (h : Narrow config.setBits value) : Narrow config.setBits (config.hash value) := by
  intro i hi
  by_cases hword : i < 64
  · rw [getLsbD_hash hbits hpos hword, if_neg (by omega), h (i + 1) (by omega)]
  · exact getLsbD_of_ge _ _ (not_lt.mp hword)

theorem narrow_dehash (hpos : 0 < config.setBits) (value : BitVec 64) :
    Narrow config.setBits (config.dehash value) := by
  intro i hi
  by_cases hword : i < 64
  · rw [getLsbD_dehash hword, if_neg (by omega), decide_eq_false (by omega), Bool.false_and]
  · exact getLsbD_of_ge _ _ (not_lt.mp hword)

theorem setWidth_iterate_hash (hbits : config.setBits ≤ 64) (hpos : 0 < config.setBits) :
    (config.hash^[rounds] value).setWidth config.setBits
      = step^[rounds] (value.setWidth config.setBits) := by
  induction rounds generalizing value with
  | zero => rfl
  | succ rounds ih => rw [iterate_succ_apply, iterate_succ_apply, ih, setWidth_hash hbits hpos]

theorem narrow_iterate_hash (hbits : config.setBits ≤ 64) (hpos : 0 < config.setBits)
    (h : Narrow config.setBits value) : Narrow config.setBits (config.hash^[rounds] value) := by
  induction rounds generalizing value with
  | zero => exact h
  | succ rounds ih =>
    rw [iterate_succ_apply]
    exact ih (narrow_hash hbits hpos h)

theorem dehash_hash (hbits : config.setBits ≤ 64) (htwo : 2 ≤ config.setBits)
    (h : Narrow config.setBits value) : config.dehash (config.hash value) = value := by
  have hpos : 0 < config.setBits := by omega
  refine Narrow.eq_of_setWidth_eq (narrow_dehash hpos _) h ?_
  rw [setWidth_dehash hbits htwo, setWidth_hash hbits hpos, back_step htwo]

theorem hash_dehash (hbits : config.setBits ≤ 64) (htwo : 2 ≤ config.setBits)
    (h : Narrow config.setBits value) : config.hash (config.dehash value) = value := by
  have hpos : 0 < config.setBits := by omega
  refine Narrow.eq_of_setWidth_eq (narrow_hash hbits hpos (narrow_dehash hpos _)) h ?_
  rw [setWidth_hash hbits hpos, setWidth_dehash hbits htwo, step_back htwo]

theorem iterate_dehash_iterate_hash (hbits : config.setBits ≤ 64) (htwo : 2 ≤ config.setBits)
    (h : Narrow config.setBits value) :
    config.dehash^[rounds] (config.hash^[rounds] value) = value := by
  induction rounds generalizing value with
  | zero => rfl
  | succ rounds ih =>
    have hround := ih (narrow_hash hbits (by omega) h)
    rw [iterate_succ_apply config.hash, iterate_succ_apply', hround, dehash_hash hbits htwo h]

theorem iterate_hash_hash_xor (hbits : config.setBits ≤ 64) (hpos : 0 < config.setBits)
    (h : Narrow config.setBits value) :
    config.hash^[config.msbShift] (config.hash value ^^^ value) = value := by
  have hsum := (narrow_hash hbits hpos h).xor h
  refine Narrow.eq_of_setWidth_eq (narrow_iterate_hash hbits hpos hsum) h ?_
  have hste : config.msbShift.succ = config.setBits := Nat.sub_add_cancel hpos
  rw [setWidth_iterate_hash hbits hpos, setWidth_xor, setWidth_hash hbits hpos,
    iterate_xor, ← iterate_succ_apply, hste]
  exact iterate_xor_iterate hpos

/-- A word added to what it is the hash of is undone by as many rounds as it has
    bits. -/
theorem iterate_hash_dehash_xor (hbits : config.setBits ≤ 64) (htwo : 2 ≤ config.setBits)
    (h : Narrow config.setBits value) :
    config.hash^[config.msbShift + 1] (config.dehash value ^^^ value) = value := by
  have hpos : 0 < config.setBits := by omega
  have hnarrow := narrow_dehash hpos value
  -- One round turns the sum into the one of the lemma before.
  have hround : config.hash (config.dehash value ^^^ value) = config.hash value ^^^ value := by
    refine Narrow.eq_of_setWidth_eq (narrow_hash hbits hpos (hnarrow.xor h))
      ((narrow_hash hbits hpos h).xor h) ?_
    rw [setWidth_hash hbits hpos, setWidth_xor, setWidth_xor, setWidth_hash hbits hpos,
      setWidth_dehash hbits htwo, step_xor, step_back htwo, BitVec.xor_comm]
  rw [iterate_succ_apply, hround, iterate_hash_hash_xor hbits hpos h]

theorem narrow_mix {high} (hbits : config.setBits ≤ 64) (hpos : 0 < config.setBits)
    (hlow : Narrow config.setBits low) (hhi : Narrow config.setBits high) (way : Nat) :
    Narrow config.setBits (config.mix low high way) := by
  have hhashLow := narrow_hash hbits hpos hlow
  have hhashHigh := narrow_hash hbits hpos hhi
  have hdehashLow := narrow_dehash hpos low
  have hdehashHigh := narrow_dehash hpos high
  unfold mix
  split
  · exact (hhashLow.xor hhashHigh).xor hhi
  · exact (hhashLow.xor hhashHigh).xor hlow
  · exact (hhashLow.xor hdehashHigh).xor hhi
  · exact (hhashLow.xor hdehashHigh).xor hlow
  · exact (hdehashLow.xor hhashHigh).xor hhi
  · exact (hdehashLow.xor hhashHigh).xor hlow
  · exact (hdehashLow.xor hdehashHigh).xor hhi
  · exact (hdehashLow.xor hdehashHigh).xor hlow

theorem xor_xor_cancel {a c : BitVec 64} : a ^^^ b ^^^ c ^^^ b ^^^ c = a := by
  rw [BitVec.xor_assoc a b c, BitVec.xor_assoc (a ^^^ (b ^^^ c)) b c, BitVec.xor_assoc a,
    BitVec.xor_self, BitVec.xor_zero]

theorem xor_xor_middle {a c : BitVec 64} : a ^^^ b ^^^ c ^^^ b = a ^^^ c := by
  rw [BitVec.xor_assoc a b c, BitVec.xor_comm b c, ← BitVec.xor_assoc, BitVec.xor_assoc (a ^^^ c),
    BitVec.xor_self, BitVec.xor_zero]

theorem unmix_mix (hbits : config.setBits ≤ 64) (htwo : 2 ≤ config.setBits) {high : BitVec 64}
    (hlow : Narrow config.setBits low) : config.unmix (config.mix low high way) high way = low := by
  have hpos : 0 < config.setBits := by omega
  unfold mix unmix
  generalize way % 8 = function
  rcases function with _ | _ | _ | _ | _ | _ | _ | function <;> simp only
  · rw [xor_xor_cancel, dehash_hash hbits htwo hlow]
  · rw [xor_xor_middle, iterate_hash_hash_xor hbits hpos hlow]
  · rw [xor_xor_cancel, dehash_hash hbits htwo hlow]
  · rw [xor_xor_middle, iterate_hash_hash_xor hbits hpos hlow]
  · rw [xor_xor_cancel, hash_dehash hbits htwo hlow]
  · rw [xor_xor_middle, iterate_hash_dehash_xor hbits htwo hlow]
  · rw [xor_xor_cancel, hash_dehash hbits htwo hlow]
  · rw [xor_xor_middle, iterate_hash_dehash_xor hbits htwo hlow]

/-- The low field of a block is recovered from a word with the skewed field
    below and the high field above. -/
theorem deskew_of_skew (hbits : config.setBits ≤ 64) (htwo : 2 ≤ config.setBits)
    (hskewed : lowerBits skewed config.setBits = config.skew block way)
    (hhi : bits skewed (2 * config.setBits - 1) config.setBits
      = bits block (2 * config.setBits - 1) config.setBits) :
    config.deskew skewed way = lowerBits block config.setBits := by
  have hlow := Narrow.lowerBits block config.setBits
  have hwid : 2 * config.setBits - 1 - config.setBits + 1 = config.setBits := by omega
  have hfield : Narrow config.setBits (bits block (2 * config.setBits - 1) config.setBits) := by
    rw [bits, hwid]
    exact Narrow.lowerBits _ _
  have hmix := narrow_mix hbits (by omega) hlow hfield way
  rw [deskew, hskewed, hhi, skew, iterate_dehash_iterate_hash hbits htwo hmix]
  exact unmix_mix hbits htwo hlow

theorem narrow_skew (hbits : config.setBits ≤ 64) (htwo : 2 ≤ config.setBits) (block : BitVec 64)
    (way : Nat) : Narrow config.setBits (config.skew block way) := by
  have hwid : 2 * config.setBits - 1 - config.setBits + 1 = config.setBits := by omega
  have hfield : Narrow config.setBits (bits block (2 * config.setBits - 1) config.setBits) := by
    rw [bits, hwid]
    exact Narrow.lowerBits _ _
  have hmix := narrow_mix hbits (by omega) (Narrow.lowerBits block _) hfield way
  exact narrow_iterate_hash hbits (by omega) hmix

/-! ## Addresses -/

/-- What the constructor checked, and how it filled in the rest. -/
structure Accepted (config : CacheIndexingPolicyConfig) : Prop where
  setBits_lt : config.setBits < 64
  sets : config.sets = twoPow 64 config.setBits
  line : config.lineLayout.bytes = 2 ^ config.setShift
  tagShift : config.tagShift = config.setShift + config.setBits
  setMask : config.setMask = config.sets - 1#64
  skewed : config.kind = .skewedAssociative →
    2 ≤ config.setBits ∧ config.setShift + 2 * config.setBits ≤ 64

theorem trailingZeros_twoPow (h : k < 64) : trailingZeros (twoPow 64 k) = k := by
  have hne : twoPow 64 k ≠ 0#64 := by
    intro hzero
    have hbit := congrArg (fun word => getLsbD word k) hzero
    simp only [getLsbD_twoPow, h, decide_true, Bool.and_self, getLsbD_zero,
      Bool.true_eq_false] at hbit
  have hbit := getLsbD_true_ctz_of_ne_zero hne
  rw [getLsbD_twoPow, Bool.and_eq_true, decide_eq_true_eq, decide_eq_true_eq] at hbit
  exact hbit.2.symm

theorem new_accepted {kind : CacheIndexingPolicyKind} {lineLayout : CacheLineLayout}
    {sets : BitVec 64} {ways : Nat} (h : new kind lineLayout sets ways = .ok config) :
    config.Accepted ∧ config.lineLayout = lineLayout := by
  unfold new at h
  split at h
  · cases h
  · split at h
    · cases h
    · split at h
      · cases h
      · rename_i hpow
        rw [Bool.not_eq_false, isPowerOfTwo, List.any_eq_true] at hpow
        obtain ⟨k, hk, hsets⟩ := hpow
        have hsets' : sets = twoPow 64 k := of_decide_eq_true hsets
        have hk' : k < 64 := List.mem_range.mp hk
        have hbits : trailingZeros sets = k := by rw [hsets', trailingZeros_twoPow hk']
        obtain ⟨j, hj⟩ := lineLayout.powerOfTwo
        have hfits := lineLayout.fits
        have hj' : j < 64 := by
          rw [hj] at hfits
          exact (Nat.pow_lt_pow_iff_right (by decide)).mp
            (hfits.trans_lt (by decide : maxVectorAllocationBytes < 2 ^ 64))
        have hshift : trailingZeros (BitVec.ofNat 64 lineLayout.bytes) = j := by
          have hword : BitVec.ofNat 64 lineLayout.bytes = BitVec.twoPow 64 j := by
            rw [hj]
            apply eq_of_toNat_eq
            rw [toNat_ofNat, toNat_twoPow]
          rw [hword, trailingZeros_twoPow hj']
        simp only [hbits, hshift] at h
        split at h
        · cases h
        · split at h
          · cases h
          · rename_i hmany hwide
            cases h
            refine ⟨⟨hk', hsets', hj, rfl, rfl, fun hkind => ⟨?_, ?_⟩⟩, rfl⟩
            · -- One or two sets are refused.
              by_contra hfew
              have hle : sets ≤ 2#64 := by
                rw [hsets', le_def, toNat_twoPow]
                have hcases : k = 0 ∨ k = 1 := by
                  simp only at hfew
                  omega
                rcases hcases with rfl | rfl <;> decide
              exact hmany ⟨hkind, hle⟩
            · by_contra hlar
              exact hwide ⟨hkind, not_le.mp hlar⟩

section

variable (h : config.Accepted)
include h

theorem getLsbD_normalizedLineAddress (adr : Nat) (hi : i < config.setShift) :
    (config.normalizedLineAddress adr).getLsbD i = false := by
  have hnot : ¬i ≥ config.setShift := not_le.mpr hi
  rw [normalizedLineAddress, BitVec.getLsbD_ofNat, CacheLineLayout.lineAddress, h.line,
    ← Nat.shiftLeft_eq, Nat.testBit_shiftLeft, decide_eq_false hnot, Bool.false_and, Bool.and_false]

/-- A tag and the low field of the block, shifted into place, are the line
    address. -/
theorem line_of_fields {set : BitVec 64}
    (hset : set = lowerBits (config.blockAddress address) config.setBits) :
    (config.extractTag address <<< config.tagShift) ||| (set <<< config.setShift)
      = config.normalizedLineAddress address := by
  have hlow := fun {i : Nat} => getLsbD_normalizedLineAddress h address (i := i)
  rw [hset, extractTag, blockAddress, h.tagShift]
  generalize config.normalizedLineAddress address = line at hlow
  apply eq_of_getLsbD_eq
  intro i hi
  rw [getLsbD_or, getLsbD_shiftLeft, getLsbD_shiftLeft,
    getLsbD_ushiftRight, getLsbD_lowerBits, getLsbD_ushiftRight, decide_eq_true hi]
  by_cases hoff : i < config.setShift
  · -- Inside the line both parts are zero.
    have htag : i < config.setShift + config.setBits := by omega
    rw [hlow hoff, decide_eq_true hoff, decide_eq_true htag]
    rfl
  · have hidx : config.setShift + (i - config.setShift) = i := by omega
    by_cases htag : i < config.setShift + config.setBits
    · have hbit : i - config.setShift < config.setBits := by omega
      rw [hidx, decide_eq_true htag, decide_eq_false hoff, decide_eq_true hbit]
      simp
    · have hbit : ¬i - config.setShift < config.setBits := by omega
      have htop : config.setShift + config.setBits
          + (i - (config.setShift + config.setBits)) = i := by omega
      rw [htop, decide_eq_false htag, decide_eq_false hbit]
      simp

theorem umod_sets : block % config.sets = lowerBits block config.setBits := by
  have hpow : 2 ^ config.setBits < 2 ^ 64 := Nat.pow_lt_pow_right (by decide) h.setBits_lt
  apply eq_of_getLsbD_eq
  intro i _
  rw [← testBit_toNat, toNat_umod, h.sets, toNat_twoPow,
    Nat.mod_eq_of_lt hpow, Nat.testBit_mod_two_pow, testBit_toNat, getLsbD_lowerBits]

theorem and_setMask :
    value &&& config.setMask = lowerBits value config.setBits := by
  apply eq_of_getLsbD_eq
  intro i _
  rw [getLsbD_and, h.setMask, h.sets, getLsbD_twoPow_sub_one h.setBits_lt,
    getLsbD_lowerBits, Bool.and_comm]

theorem lowerBits_lt_sets :
    ¬config.sets ≤ lowerBits value config.setBits := by
  have hpow : 2 ^ config.setBits < 2 ^ 64 := Nat.pow_lt_pow_right (by decide) h.setBits_lt
  rw [← umod_sets h, le_def, toNat_umod, h.sets, toNat_twoPow, Nat.mod_eq_of_lt hpow, not_le]
  exact Nat.mod_lt _ (Nat.two_pow_pos _)

/-- The word that a skewed location is looked up with has the location below and
    the low bits of the tag above. -/
theorem deskew_location (hkind : config.kind = .skewedAssociative) :
    config.deskew ((config.extractTag adr <<< config.setBits)
        ||| config.skew (config.blockAddress adr) way) way
      = lowerBits (config.blockAddress adr) config.setBits := by
  obtain ⟨htwo, hwide⟩ := h.skewed hkind
  have hbits : config.setBits ≤ 64 := Nat.le_of_lt h.setBits_lt
  have hskew := narrow_skew hbits htwo (config.blockAddress adr) way
  have hwid : 2 * config.setBits - 1 - config.setBits + 1 = config.setBits := by omega
  refine deskew_of_skew hbits htwo ?_ ?_
  · apply eq_of_getLsbD_eq
    intro i hi
    rw [getLsbD_lowerBits, getLsbD_or, getLsbD_shiftLeft]
    by_cases hlow : i < config.setBits
    · rw [decide_eq_true hlow]
      simp
    · rw [decide_eq_false hlow, hskew i (not_lt.mp hlow), Bool.false_and]
  · apply eq_of_getLsbD_eq
    intro i hi
    rw [getLsbD_bits, getLsbD_bits, hwid, getLsbD_or, getLsbD_shiftLeft]
    by_cases hlow : i < config.setBits
    · -- Twice the set bits fit in a word, so the shifted tag keeps these bits.
      have hword : config.setBits + i < 64 := by omega
      have hnot : ¬config.setBits + i < config.setBits := by omega
      have hidx : config.setBits + i - config.setBits = i := by omega
      rw [hskew _ (Nat.le_add_right ..), decide_eq_true hword, decide_eq_false hnot, hidx,
        extractTag, blockAddress, getLsbD_ushiftRight, getLsbD_ushiftRight, h.tagShift, add_assoc]
      simp
    · rw [decide_eq_false hlow, Bool.false_and, Bool.false_and]

theorem regenerateAddress_of_set {location : CacheIndexingLocation}
    (hsets : ¬config.sets ≤ location.set) (hway : location.way < config.ways)
    (hset : (match config.kind with
      | .setAssociative => location.set
      | .skewedAssociative => config.deskew ((config.extractTag adr <<< config.setBits)
          ||| location.set) location.way &&& config.setMask)
        = lowerBits (config.blockAddress adr) config.setBits) :
    config.regenerateAddress (config.extractTag adr) location
      = .ok (config.normalizedLineAddress adr).toNat := by
  rw [regenerateAddress, checkLocation, if_neg hsets, if_neg (not_le.mpr hway)]
  simp only
  rw [line_of_fields h hset]

end

/-- Every accepted configuration finds the line address again from the tag and
    any of the locations that it gives for the address. -/
theorem regenerateAddress_candidate (kind : CacheIndexingPolicyKind) (lineLayout : CacheLineLayout)
    (sets : BitVec 64) (ways : Nat) (config : CacheIndexingPolicyConfig)
    (hnew : new kind lineLayout sets ways = .ok config) (address : Nat)
    (haddress : address < wordLimit) (location : CacheIndexingLocation)
    (hlocation : location ∈ config.candidateLocations address) :
    config.regenerateAddress (config.extractTag address) location
      = .ok (lineLayout.lineAddress address) := by
  obtain ⟨h, hlayout⟩ := new_accepted hnew
  obtain ⟨way, hway, hcandidate⟩ := List.mem_map.mp hlocation
  have hline : (config.normalizedLineAddress address).toNat = lineLayout.lineAddress address := by
    have hle : lineLayout.lineAddress address ≤ address := Nat.div_mul_le_self _ _
    rw [normalizedLineAddress, hlayout, BitVec.toNat_ofNat, Nat.mod_eq_of_lt]
    exact hle.trans_lt haddress
  rw [← hline]
  cases hkind : config.kind with
  | setAssociative =>
    rw [hkind] at hcandidate
    simp only at hcandidate
    rw [← hcandidate]
    refine regenerateAddress_of_set h ?_ (List.mem_range.mp hway) ?_
    · rw [umod_sets h]
      exact lowerBits_lt_sets h
    · rw [hkind]
      exact umod_sets h
  | skewedAssociative =>
    rw [hkind] at hcandidate
    simp only at hcandidate
    rw [← hcandidate]
    have hbits : config.setBits ≤ 64 := Nat.le_of_lt h.setBits_lt
    have hskew := narrow_skew hbits (h.skewed hkind).1 (config.blockAddress address) way
    refine regenerateAddress_of_set h ?_ (List.mem_range.mp hway) ?_
    · rw [and_setMask h]
      exact lowerBits_lt_sets h
    · rw [hkind]
      simp only
      rw [and_setMask h, and_setMask h, hskew.lowerBits_eq, deskew_location h hkind,
        (Narrow.lowerBits _ _).lowerBits_eq]

/-- A skewed cache of sixteen sets and ten ways. -/
def tenWays : CacheIndexingPolicyConfig where
  kind := .skewedAssociative
  lineLayout := ⟨64, ⟨6, rfl⟩, by decide⟩
  sets := 16#64
  ways := 10
  setShift := 6
  setBits := 4
  tagShift := 10
  setMask := 15#64

/-- In its last way, which takes an extra round, an address is found again. -/
theorem regenerateAddress_tenth_way :
    tenWays.regenerateAddress (tenWays.extractTag 0x12345) ⟨0xb#64, 9⟩ = .ok 0x12340 := by
  have hnew : new .skewedAssociative ⟨64, ⟨6, rfl⟩, by decide⟩ 16#64 10 = .ok tenWays := by
    decide +kernel
  exact regenerateAddress_candidate .skewedAssociative ⟨64, ⟨6, rfl⟩, by decide⟩ 16#64 10 tenWays
    hnew 0x12345 (by decide) ⟨0xb#64, 9⟩ (by decide +kernel)

end CacheIndexingPolicyConfig

end Rem6.Cache
