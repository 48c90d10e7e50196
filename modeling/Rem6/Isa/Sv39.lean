import Mathlib.Data.Nat.Bitwise
import Rem6.Isa.Pmp

/-!
# The Sv39 Page Table Walk

A virtual address is looked up in a tree of tables of three levels. The walk
reads one entry for each level, from the root down, at the index that the
address has for the level. It ends at a leaf, at any level, or with a page
fault. A leaf at a level above the lowest maps a superpage: the address bits
below the level are taken over unchanged.

A walk that ends at a leaf has read the address only above the leaf's level, so
every address of the same superpage is walked to the same leaf
(`walkLoop_relocate`) and gets the same offset into one physical page
(`leafAddress_eq`). The loop of the source ends because the level goes down; it
is the measure of the recursion here.

## Main definitions

* `RiscvSv39VirtualAddress`, `RiscvSv39Pte`: Addresses and entries.
* `RiscvSv39Pte.leafPhysicalAddressWithContext`: The checks on a leaf, and the
  address.
* `RiscvSv39WalkState.advance`: One step of a walk.
* `walkSv39PageTableWithContext`: The walk.

## Theorems

* `leafAddress_eq`: A leaf places its superpage as a whole.
* `walkLoop_leaf`: The address a walk returns is that of its leaf.
* `walkLoop_relocate`, `walk_add_of_within`: The same leaf is found from the
  whole superpage.
-/

namespace Rem6.Isa

inductive RiscvSv39AccessKind where
  | instructionFetch | load | store | atomic
deriving DecidableEq, Repr

def RiscvSv39AccessKind.requiresDirty : RiscvSv39AccessKind → Bool
  | .store | .atomic => true
  | _ => false

structure RiscvSv39AccessContext where
  privilege : RiscvPrivilegeMode
  (mxr sum : Bool := false)
deriving DecidableEq, Repr

inductive RiscvSv39PageTableLevel where
  | level0 | level1 | level2
deriving DecidableEq, Repr

namespace RiscvSv39PageTableLevel

def number : RiscvSv39PageTableLevel → Nat
  | .level0 => 0
  | .level1 => 1
  | .level2 => 2

def nextLower : RiscvSv39PageTableLevel → Option RiscvSv39PageTableLevel
  | .level2 => some .level1
  | .level1 => some .level0
  | .level0 => none

/-- The number of address bits below the index of a level. -/
def shift (level : RiscvSv39PageTableLevel) : Nat := 12 + level.number * 9

theorem number_nextLower {level next : RiscvSv39PageTableLevel} (h : level.nextLower = some next) :
    next.number < level.number := by
  cases level with
  | level0 => cases h
  | level1 | level2 =>
    cases h
    decide

theorem shift_le_shift {level other : RiscvSv39PageTableLevel} (h : level.number ≤ other.number) :
    level.shift ≤ other.shift := by
  unfold shift
  omega

theorem shift_le (level : RiscvSv39PageTableLevel) : level.shift ≤ 30 := by
  cases level <;> decide

end RiscvSv39PageTableLevel

inductive RiscvSv39PageFault where
  | nonCanonicalVirtualAddress (address : Nat)
  | pageTablePointerOutOfRange (ppn : Nat)
  | invalidEntry
  | reservedBitsSet (bits : BitVec 64)
  | reservedNonLeafAttributes (bits : BitVec 64)
  | reservedPermissionEncoding | nonLeaf
  | permissionDenied (access : RiscvSv39AccessKind)
  | privilegeDenied (access : RiscvSv39AccessKind) (privilege : RiscvPrivilegeMode)
      (userPage : Bool)
  | accessedBitClear | dirtyBitClear
  | misalignedSuperpage (level : RiscvSv39PageTableLevel) (ppn : Nat)
deriving DecidableEq, Repr

/-! ## Virtual addresses -/

/-- The bits above the address space: the sign bit of the address is the lowest
    bit below them. -/
def sv39HighBitsMask : Nat := (2 ^ 25 - 1) <<< 39

def sv39SignBit : Nat := 1 <<< 38

/-- The bits above the sign bit are all equal to it. -/
def isCanonicalSv39Address (address : Nat) : Bool :=
  if address &&& sv39SignBit = 0 then address &&& sv39HighBitsMask = 0
  else address &&& sv39HighBitsMask = sv39HighBitsMask

structure RiscvSv39VirtualAddress where
  raw : Nat
  canonical : isCanonicalSv39Address raw = true
deriving DecidableEq

namespace RiscvSv39VirtualAddress

def new (raw : Nat) : Except RiscvSv39PageFault RiscvSv39VirtualAddress :=
  if h : isCanonicalSv39Address raw = true then .ok ⟨raw, h⟩
  else .error (.nonCanonicalVirtualAddress raw)

variable (address : RiscvSv39VirtualAddress)

def pageOffset : Nat := address.raw &&& (2 ^ 12 - 1)

def vpn (level : RiscvSv39PageTableLevel) : Nat :=
  (address.raw >>> (12 + level.number * 9)) &&& (2 ^ 9 - 1)

def pageTableEntryAddress (tablePpn : Nat) (level : RiscvSv39PageTableLevel) :
    Except RiscvSv39PageFault Nat :=
  if 2 ^ 44 - 1 < tablePpn then .error (.pageTablePointerOutOfRange tablePpn)
  else .ok ((tablePpn <<< 12) + address.vpn level * 8)

end RiscvSv39VirtualAddress

variable {a n b m raw low width idx high index rootTablePpn : Nat}
  {address other : RiscvSv39VirtualAddress}

theorem and_shiftLeft_congr (h : a >>> n = b >>> n) (hle : n ≤ m) {mask : Nat} :
    a &&& (mask <<< m) = b &&& (mask <<< m) := by
  apply Nat.eq_of_testBit_eq
  intro i
  rw [Nat.testBit_and, Nat.testBit_and, Nat.testBit_shiftLeft]
  by_cases hi : m ≤ i
  · have hbit : a.testBit i = b.testBit i := by
      have hshift := congrArg (fun word => word.testBit (i - n)) h
      simp only [Nat.testBit_shiftRight] at hshift
      rwa [Nat.add_sub_cancel' (hle.trans hi)] at hshift
    rw [hbit]
  · simp [ge_iff_le, hi]

theorem isCanonicalSv39Address_congr (h : a >>> 38 = b >>> 38) :
    isCanonicalSv39Address a = isCanonicalSv39Address b := by
  rw [isCanonicalSv39Address, isCanonicalSv39Address, sv39SignBit, sv39HighBitsMask,
    and_shiftLeft_congr h le_rfl, and_shiftLeft_congr h (by decide)]

/-! ## Entries -/

structure RiscvSv39Pte where
  raw : BitVec 64
deriving DecidableEq, Repr

namespace RiscvSv39Pte

variable (pte : RiscvSv39Pte)

def valid : Bool := pte.raw.getLsbD 0

def readable : Bool := pte.raw.getLsbD 1

def writable : Bool := pte.raw.getLsbD 2

def executable : Bool := pte.raw.getLsbD 3

def user : Bool := pte.raw.getLsbD 4

def accessed : Bool := pte.raw.getLsbD 6

def dirty : Bool := pte.raw.getLsbD 7

def isLeaf : Bool := pte.readable || pte.executable

def physicalPageNumber : Nat := (pte.raw >>> 10 &&& 0xfffffffffff#64).toNat

def physicalAddressBase : Nat := pte.physicalPageNumber <<< 12

def ppn : RiscvSv39PageTableLevel → Nat
  | .level0 => (pte.physicalPageNumber >>> 0) &&& (2 ^ 9 - 1)
  | .level1 => (pte.physicalPageNumber >>> 9) &&& (2 ^ 9 - 1)
  | .level2 => (pte.physicalPageNumber >>> 18) &&& (2 ^ 26 - 1)

def validate : Except RiscvSv39PageFault Unit :=
  if pte.valid = false then .error .invalidEntry
  else if pte.raw &&& (BitVec.allOnes 64 <<< 54) ≠ 0 then
    .error (.reservedBitsSet (pte.raw &&& (BitVec.allOnes 64 <<< 54)))
  else if pte.writable && !pte.readable then .error .reservedPermissionEncoding
  else if !pte.isLeaf && pte.raw &&& 0xd0#64 ≠ 0 then
    .error (.reservedNonLeafAttributes (pte.raw &&& 0xd0#64))
  else .ok ()

def permitsWithContext (access : RiscvSv39AccessKind) (context : RiscvSv39AccessContext) : Bool :=
  match access with
  | .instructionFetch => pte.executable
  | .load => pte.readable || (context.mxr && pte.executable)
  | .store | .atomic => pte.writable

def permitsPrivilege (access : RiscvSv39AccessKind) (context : RiscvSv39AccessContext) : Bool :=
  match context.privilege with
  | .user => pte.user
  | .supervisor => !pte.user || (context.sum && access ≠ .instructionFetch)
  | .machine => true

def isMisalignedSuperpage : RiscvSv39PageTableLevel → Bool
  | .level0 => false
  | .level1 => pte.ppn .level0 ≠ 0
  | .level2 => pte.ppn .level0 ≠ 0 || pte.ppn .level1 ≠ 0

/-- The checks on a leaf. The address that is looked up has no part in them. -/
def checkLeaf (level : RiscvSv39PageTableLevel) (access : RiscvSv39AccessKind)
    (context : RiscvSv39AccessContext) : Except RiscvSv39PageFault Unit := do
  pte.validate
  if !pte.isLeaf then throw .nonLeaf
  if pte.isMisalignedSuperpage level then throw (.misalignedSuperpage level pte.physicalPageNumber)
  if !pte.permitsWithContext access context then throw (.permissionDenied access)
  if !pte.permitsPrivilege access context then
    throw (.privilegeDenied access context.privilege pte.user)
  if !pte.accessed then throw .accessedBitClear
  if access.requiresDirty && !pte.dirty then throw .dirtyBitClear

/-- The physical address that a leaf gives, put together from its fields. -/
def leafAddress (address : RiscvSv39VirtualAddress) : RiscvSv39PageTableLevel → Nat
  | .level0 => pte.physicalAddressBase ||| address.pageOffset
  | .level1 =>
    pte.ppn .level2 <<< 30 ||| pte.ppn .level1 <<< 21 ||| address.vpn .level0 <<< 12
      ||| address.pageOffset
  | .level2 =>
    pte.ppn .level2 <<< 30 ||| address.vpn .level1 <<< 21 ||| address.vpn .level0 <<< 12
      ||| address.pageOffset

def leafPhysicalAddressWithContext (address : RiscvSv39VirtualAddress)
    (level : RiscvSv39PageTableLevel) (access : RiscvSv39AccessKind)
    (context : RiscvSv39AccessContext) : Except RiscvSv39PageFault Nat := do
  pte.checkLeaf level access context
  pure (pte.leafAddress address level)

/-- Where a leaf places its superpage. -/
def leafBase : RiscvSv39PageTableLevel → Nat
  | .level0 => pte.physicalAddressBase
  | .level1 => pte.ppn .level2 <<< 30 + pte.ppn .level1 <<< 21
  | .level2 => pte.ppn .level2 <<< 30

end RiscvSv39Pte

theorem mod_two_pow_split :
    ((raw >>> low) &&& (2 ^ width - 1)) <<< low ||| raw % 2 ^ low = raw % 2 ^ (low + width) := by
  rw [← Nat.shiftLeft_add_eq_or_of_lt (Nat.mod_lt _ (Nat.two_pow_pos low)),
    Nat.and_two_pow_sub_one_eq_mod, Nat.shiftRight_eq_div_pow, Nat.shiftLeft_eq, Nat.pow_add,
    Nat.mod_mul, Nat.mul_comm, add_comm]

/-- A leaf places its superpage as a whole: the bits below its level are the
    offset. -/
theorem leafAddress_eq {level} {pte : RiscvSv39Pte} :
    pte.leafAddress address level = pte.leafBase level + address.raw % 2 ^ level.shift := by
  have hoff : address.pageOffset = address.raw % 2 ^ 12 := Nat.and_two_pow_sub_one_eq_mod _ 12
  have hlar : address.vpn .level0 <<< 12 ||| address.pageOffset = address.raw % 2 ^ 21 := by
    rw [hoff]
    exact mod_two_pow_split
  have hhuge : address.vpn .level1 <<< 21 ||| address.raw % 2 ^ 21 = address.raw % 2 ^ 30 :=
    mod_two_pow_split
  have hlt21 : address.raw % 2 ^ 21 < 2 ^ 21 := Nat.mod_lt _ (Nat.two_pow_pos _)
  cases level with
  | level0 =>
    rw [RiscvSv39Pte.leafAddress, hoff, RiscvSv39Pte.physicalAddressBase,
      ← Nat.shiftLeft_add_eq_or_of_lt (Nat.mod_lt _ (Nat.two_pow_pos 12))]
    rfl
  | level1 =>
    have hppn : pte.ppn .level1 < 2 ^ 9 := by
      rw [RiscvSv39Pte.ppn, Nat.and_two_pow_sub_one_eq_mod]
      exact Nat.mod_lt _ (Nat.two_pow_pos _)
    have hlt30 : pte.ppn .level1 <<< 21 + address.raw % 2 ^ 21 < 2 ^ 30 := by
      rw [Nat.shiftLeft_eq]
      omega
    rw [RiscvSv39Pte.leafAddress, Nat.or_assoc, hlar, Nat.or_assoc,
      ← Nat.shiftLeft_add_eq_or_of_lt hlt21, ← Nat.shiftLeft_add_eq_or_of_lt hlt30, ← add_assoc]
    rfl
  | level2 =>
    rw [RiscvSv39Pte.leafAddress, Nat.or_assoc, hlar, Nat.or_assoc, hhuge,
      ← Nat.shiftLeft_add_eq_or_of_lt (Nat.mod_lt _ (Nat.two_pow_pos 30))]
    rfl

/-! ## The walk -/

structure RiscvSv39WalkResult where
  physicalAddress : Nat
  leafLevel : RiscvSv39PageTableLevel
  leafPte : RiscvSv39Pte
  pteAddresses : List Nat
deriving DecidableEq, Repr

structure RiscvSv39WalkState where
  virtualAddress : RiscvSv39VirtualAddress
  access : RiscvSv39AccessKind
  context : RiscvSv39AccessContext
  tablePpn : Nat
  pendingLevel : RiscvSv39PageTableLevel
  pendingPteAddress : Nat
  pteAddresses : List Nat
deriving DecidableEq

inductive RiscvSv39WalkAdvance where
  | readPte (state : RiscvSv39WalkState)
  | complete (result : RiscvSv39WalkResult)
deriving DecidableEq

namespace RiscvSv39WalkState

def fromTable (virtualAddress : RiscvSv39VirtualAddress) (access : RiscvSv39AccessKind)
    (context : RiscvSv39AccessContext) (tablePpn : Nat) (pendingLevel : RiscvSv39PageTableLevel)
    (pteAddresses : List Nat) : Except RiscvSv39PageFault RiscvSv39WalkState :=
  match virtualAddress.pageTableEntryAddress tablePpn pendingLevel with
  | .error fault => .error fault
  | .ok pendingPteAddress => .ok {
      virtualAddress, access, context, tablePpn, pendingLevel, pendingPteAddress
      pteAddresses := pteAddresses ++ [pendingPteAddress] }

def newWithContext (rootTablePpn : Nat) (virtualAddress : RiscvSv39VirtualAddress)
    (access : RiscvSv39AccessKind) (context : RiscvSv39AccessContext) :
    Except RiscvSv39PageFault RiscvSv39WalkState :=
  fromTable virtualAddress access context rootTablePpn .level2 []

def advance (state : RiscvSv39WalkState) (pte : RiscvSv39Pte) :
    Except RiscvSv39PageFault RiscvSv39WalkAdvance :=
  match pte.validate with
  | .error fault => .error fault
  | .ok () =>
    if pte.isLeaf then
      match pte.leafPhysicalAddressWithContext state.virtualAddress state.pendingLevel
          state.access state.context with
      | .error fault => .error fault
      | .ok physicalAddress =>
        .ok (.complete ⟨physicalAddress, state.pendingLevel, pte, state.pteAddresses⟩)
    else
      match state.pendingLevel.nextLower with
      | none => .error .nonLeaf
      | some nextLevel =>
        (fromTable state.virtualAddress state.access state.context pte.physicalPageNumber
          nextLevel state.pteAddresses).map .readPte

/-- What a step of a walk can be. -/
inductive Advanced (state : RiscvSv39WalkState) (pte : RiscvSv39Pte) :
    Except RiscvSv39PageFault RiscvSv39WalkAdvance → Prop where
  | fault (fault : RiscvSv39PageFault) : Advanced state pte (.error fault)
  | leaf (hvalid : pte.validate = .ok ()) (hleaf : pte.isLeaf = true)
      (hcheck : pte.checkLeaf state.pendingLevel state.access state.context = .ok ()) :
      Advanced state pte (.ok (.complete ⟨pte.leafAddress state.virtualAddress state.pendingLevel,
        state.pendingLevel, pte, state.pteAddresses⟩))
  | down (hvalid : pte.validate = .ok ()) (hleaf : pte.isLeaf = false)
      (nextLevel : RiscvSv39PageTableLevel) (next : RiscvSv39WalkState)
      (hlower : state.pendingLevel.nextLower = some nextLevel)
      (hnext : fromTable state.virtualAddress state.access state.context pte.physicalPageNumber
        nextLevel state.pteAddresses = .ok next) : Advanced state pte (.ok (.readPte next))

variable {level : RiscvSv39PageTableLevel} {access : RiscvSv39AccessKind}
  {context : RiscvSv39AccessContext}

theorem leafPhysicalAddress_of_ok {pte : RiscvSv39Pte}
    (h : pte.checkLeaf level access context = .ok ()) :
    pte.leafPhysicalAddressWithContext address level access context
      = .ok (pte.leafAddress address level) := by
  rw [RiscvSv39Pte.leafPhysicalAddressWithContext, h]
  rfl

theorem leafPhysicalAddress_of_error {fault} {pte : RiscvSv39Pte}
    (h : pte.checkLeaf level access context = .error fault) :
    pte.leafPhysicalAddressWithContext address level access context = .error fault := by
  rw [RiscvSv39Pte.leafPhysicalAddressWithContext, h]
  rfl

theorem advance_spec (st : RiscvSv39WalkState) (pte : RiscvSv39Pte) :
    Advanced st pte (st.advance pte) := by
  unfold advance
  cases hval : pte.validate with
  | error fault => exact .fault fault
  | ok _ =>
    simp only
    cases hleaf : pte.isLeaf with
    | true =>
      rw [if_pos rfl]
      cases hcheck : pte.checkLeaf st.pendingLevel st.access st.context with
      | error fault =>
        rw [leafPhysicalAddress_of_error hcheck]
        exact .fault fault
      | ok _ =>
        rw [leafPhysicalAddress_of_ok hcheck]
        exact .leaf hval hleaf hcheck
    | false =>
      rw [if_neg (by simp)]
      cases hlow : st.pendingLevel.nextLower with
      | none => exact .fault _
      | some nextLevel =>
        simp only
        cases hnext : fromTable st.virtualAddress st.access st.context
          pte.physicalPageNumber nextLevel st.pteAddresses with
        | error fault => exact .fault fault
        | ok next => exact .down hval hleaf nextLevel next hlow hnext

theorem fromTable_eq_ok {st} {tablePpn : Nat} {pteAddresses : List Nat}
    (h : fromTable address access context tablePpn level pteAddresses = .ok st) :
    st.virtualAddress = address ∧ st.pendingLevel = level := by
  unfold fromTable at h
  split at h
  · cases h
  · cases h
    exact ⟨rfl, rfl⟩

theorem advance_lower {pte} {st next : RiscvSv39WalkState}
    (h : st.advance pte = .ok (.readPte next)) :
    next.pendingLevel.number < st.pendingLevel.number := by
  have hspec := advance_spec st pte
  rw [h] at hspec
  cases hspec with
  | down hval hleaf nextLevel next hlow hnext =>
    rw [(fromTable_eq_ok hnext).2]
    exact RiscvSv39PageTableLevel.number_nextLower hlow

end RiscvSv39WalkState

/-- The loop of the walk, with the list of the addresses it has read from. -/
def walkLoop (readPte : Nat → Except RiscvSv39PageFault RiscvSv39Pte) (state : RiscvSv39WalkState)
    (read : List Nat) : Except RiscvSv39PageFault RiscvSv39WalkResult × List Nat :=
  match readPte state.pendingPteAddress with
  | .error fault => (.error fault, read ++ [state.pendingPteAddress])
  | .ok pte =>
    match hadvance : state.advance pte with
    | .error fault => (.error fault, read ++ [state.pendingPteAddress])
    | .ok (.complete result) => (.ok result, read ++ [state.pendingPteAddress])
    | .ok (.readPte next) => walkLoop readPte next (read ++ [state.pendingPteAddress])
termination_by state.pendingLevel.number
decreasing_by exact RiscvSv39WalkState.advance_lower hadvance

/-- The walk. The second part is what its reader was asked for. -/
def walkSv39PageTableWithContext (rootTablePpn : Nat) (virtualAddress : RiscvSv39VirtualAddress)
    (access : RiscvSv39AccessKind) (context : RiscvSv39AccessContext)
    (readPte : Nat → Except RiscvSv39PageFault RiscvSv39Pte) :
    Except RiscvSv39PageFault RiscvSv39WalkResult × List Nat :=
  match RiscvSv39WalkState.newWithContext rootTablePpn virtualAddress access context with
  | .error fault => (.error fault, [])
  | .ok state => walkLoop readPte state []

variable {readPte : Nat → Except RiscvSv39PageFault RiscvSv39Pte}

theorem walkLoop_of_complete {pte res} (st : RiscvSv39WalkState)
    (hread : readPte st.pendingPteAddress = .ok pte) (hadv : st.advance pte = .ok (.complete res))
    (read : List Nat) : walkLoop readPte st read = (.ok res, read ++ [st.pendingPteAddress]) := by
  rw [walkLoop, hread]
  simp only
  split
  · rename_i heq
    cases hadv.symm.trans heq
  · rename_i heq
    rw [hadv, Except.ok.injEq, RiscvSv39WalkAdvance.complete.injEq] at heq
    rw [heq]
  · rename_i heq
    cases hadv.symm.trans heq

theorem walkLoop_of_readPte {pte next} (st : RiscvSv39WalkState)
    (hread : readPte st.pendingPteAddress = .ok pte) (hadv : st.advance pte = .ok (.readPte next))
    (read : List Nat) :
    walkLoop readPte st read = walkLoop readPte next (read ++ [st.pendingPteAddress]) := by
  rw [walkLoop, hread]
  simp only
  split
  · rename_i heq
    cases hadv.symm.trans heq
  · rename_i heq
    cases hadv.symm.trans heq
  · rename_i heq
    rw [hadv, Except.ok.injEq, RiscvSv39WalkAdvance.readPte.injEq] at heq
    rw [heq]

/-- The result of a walk is the address of its leaf, at the level the walk came
    to or below. -/
theorem walkLoop_leaf (st : RiscvSv39WalkState) (read : List Nat) :
    ∀ {res : RiscvSv39WalkResult}, (walkLoop readPte st read).1 = .ok res →
      res.leafLevel.number ≤ st.pendingLevel.number ∧
        res.physicalAddress = res.leafPte.leafAddress st.virtualAddress res.leafLevel := by
  fun_induction walkLoop readPte st read with
  | case1 | case2 =>
    intro res h
    cases h
  | case3 st read pte hread found hadv =>
    intro res h
    have hspec := st.advance_spec pte
    rw [hadv] at hspec
    cases hspec with
    | leaf =>
      cases h
      exact ⟨le_rfl, rfl⟩
  | case4 st read pte hread next hadv ih =>
    intro res h
    have hspec := st.advance_spec pte
    have hlow := RiscvSv39WalkState.advance_lower hadv
    rw [hadv] at hspec
    cases hspec with
    | down hval hleaf nextLevel next _ hnext =>
      obtain ⟨hle, haddress⟩ := ih h
      rw [(RiscvSv39WalkState.fromTable_eq_ok hnext).1] at haddress
      exact ⟨hle.trans (Nat.le_of_lt hlow), haddress⟩

theorem RiscvSv39WalkState.fromTable_relocate {level st} {access : RiscvSv39AccessKind}
    {context : RiscvSv39AccessContext} {tablePpn : Nat} {pteAddresses : List Nat}
    (h : fromTable address access context tablePpn level pteAddresses = .ok st)
    (hvpn : other.vpn level = address.vpn level) :
    fromTable other access context tablePpn level pteAddresses
      = .ok { st with virtualAddress := other } := by
  unfold fromTable at h ⊢
  unfold RiscvSv39VirtualAddress.pageTableEntryAddress at h ⊢
  split at h
  · cases h
  · rename_i hent
    rw [hvpn, hent]
    rw [← Except.ok.inj h]

/-- An address with the same indexes from the leaf's level up is walked to the
    same leaf, through the same entries. -/
theorem walkLoop_relocate (other : RiscvSv39VirtualAddress) (st : RiscvSv39WalkState)
    (read : List Nat) :
    ∀ {res : RiscvSv39WalkResult}, (walkLoop readPte st read).1 = .ok res →
      (∀ level, res.leafLevel.number ≤ level.number →
        other.vpn level = st.virtualAddress.vpn level) →
      walkLoop readPte { st with virtualAddress := other } read = (.ok { res with
            physicalAddress := res.leafPte.leafAddress other res.leafLevel },
          (walkLoop readPte st read).2) := by
  fun_induction walkLoop readPte st read with
  | case1 | case2 =>
    intro res h
    cases h
  | case3 st read pte hread found hadv =>
    intro res h _
    have hspec := st.advance_spec pte
    rw [hadv] at hspec
    cases hspec with
    | leaf hval hleaf hcheck =>
      have hoth : RiscvSv39WalkState.advance { st with virtualAddress := other } pte
          = .ok (.complete ⟨pte.leafAddress other st.pendingLevel, st.pendingLevel, pte,
            st.pteAddresses⟩) := by
        simp [RiscvSv39WalkState.advance, hval, hleaf,
          RiscvSv39WalkState.leafPhysicalAddress_of_ok hcheck]
      rw [walkLoop_of_complete { st with virtualAddress := other } hread hoth, ← Except.ok.inj h]
  | case4 st read pte hread next hadv ih =>
    intro res h hvpn
    have hspec := st.advance_spec pte
    rw [hadv] at hspec
    cases hspec with
    | down hval hleaf nextLevel next hlow hnext =>
      -- The leaf is at the next level or below, so the index for the next level agrees.
      obtain ⟨haddress, hlev⟩ := RiscvSv39WalkState.fromTable_eq_ok hnext
      have hle := (walkLoop_leaf next (read ++ [st.pendingPteAddress]) h).1
      rw [hlev] at hle
      have hoth : RiscvSv39WalkState.advance { st with virtualAddress := other } pte
          = .ok (.readPte { next with virtualAddress := other }) := by
        simp only [RiscvSv39WalkState.advance, hval, hleaf, hlow, Bool.false_eq_true, if_false,
          RiscvSv39WalkState.fromTable_relocate hnext (hvpn nextLevel hle), Except.map]
      rw [walkLoop_of_readPte { st with virtualAddress := other } hread hoth]
      refine ih h fun level hlev => ?_
      rw [haddress]
      exact hvpn level hlev

theorem shiftRight_add_of_within (hwithin : raw % 2 ^ low + idx < 2 ^ low) (hle : low ≤ high) :
    (raw + idx) >>> high = raw >>> high := by
  have hlow : (raw + idx) / 2 ^ low = raw / 2 ^ low := by
    have hsplit := Nat.div_add_mod raw (2 ^ low)
    rw [Nat.div_eq_iff (Nat.two_pow_pos low), mul_comm]
    omega
  rw [Nat.shiftRight_eq_div_pow, Nat.shiftRight_eq_div_pow, ← Nat.add_sub_cancel' hle,
    Nat.pow_add, ← Nat.div_div_eq_div_mul, ← Nat.div_div_eq_div_mul, hlow]

theorem mod_add_of_within (hwithin : raw % 2 ^ low + index < 2 ^ low) :
    (raw + index) % 2 ^ low = raw % 2 ^ low + index := by
  rw [← Nat.mod_add_mod, Nat.mod_eq_of_lt hwithin]

/-- A walk from a later address of the superpage finds the same leaf, and the
    physical address is as much later. -/
theorem walk_add_of_within {access context result} {read : List Nat}
    (h : walkSv39PageTableWithContext rootTablePpn address access context readPte
      = (.ok result, read)) (hoth : other.raw = address.raw + index)
    (hwithin : address.raw % 2 ^ result.leafLevel.shift + index < 2 ^ result.leafLevel.shift) :
    walkSv39PageTableWithContext rootTablePpn other access context readPte
      = (.ok { result with physicalAddress := result.physicalAddress + index }, read) := by
  have hvpn : ∀ level : RiscvSv39PageTableLevel, result.leafLevel.number ≤ level.number →
      other.vpn level = address.vpn level := by
    intro level hlev
    have hshift := shiftRight_add_of_within hwithin (RiscvSv39PageTableLevel.shift_le_shift hlev)
    rw [← hoth] at hshift
    exact congrArg (fun word => word &&& (2 ^ 9 - 1)) hshift
  unfold walkSv39PageTableWithContext at h ⊢
  split at h
  next fault hst =>
    cases congrArg Prod.fst h
  next state hst =>
    obtain ⟨haddress, hlev⟩ := RiscvSv39WalkState.fromTable_eq_ok hst
    have hfirst : (walkLoop readPte state []).1 = .ok result := congrArg Prod.fst h
    have hleaf := walkLoop_leaf state [] hfirst
    rw [hlev] at hleaf
    have hnew : RiscvSv39WalkState.newWithContext rootTablePpn other access context
        = .ok { state with virtualAddress := other } :=
      RiscvSv39WalkState.fromTable_relocate hst (hvpn .level2 hleaf.1)
    have hrel := walkLoop_relocate other state [] hfirst (haddress ▸ hvpn)
    have hphy : result.leafPte.leafAddress other result.leafLevel
        = result.physicalAddress + index := by
      rw [hleaf.2, haddress, leafAddress_eq, leafAddress_eq, hoth, mod_add_of_within hwithin,
        Nat.add_assoc]
    rw [hnew]
    simp only
    rw [hrel, hphy, congrArg Prod.snd h]

end Rem6.Isa
