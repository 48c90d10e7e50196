import Rem6.Kernel.Queue
import Rem6.Lib.Run
import Rem6.Lib.Window

/-!
# The Program Break

The `brk` system call keeps two counters: the break itself and the end of the
memory that was mapped and zeroed behind it. A call above the break grows the
second one if it has to; a call at or below the break moves only the first. So
after a call that shrinks the heap the two are apart, and the next growth maps
and clears nothing: the guest finds its old bytes. Nor is a call below the
initial break refused.

`pageEnd` is the unbounded rounding that `alignUpToPage` does where it does not
overflow. As long as no call gives up a page the counters round to the same page
end, and then a growth clears exactly the pages it adds.

## Main definitions

* `syscallBrk`, `installHeapBacking`, `writeZeroedHeap`: The system call.
* `HeapCall`, `RiscvSyscallState.next`: What moves the heap and its memory.
* `Storing`: A guest memory that never fails and stores what is written.
* `GivesUpNothing`: A call that leaves every page and the initial break in place.

## Theorems

* `installHeapBacking_zeroes`: A growth clears the pages past the old end.
* `heap_grows_zeroed`: Along calls that give up nothing the heap grows with zeros.
* `heap_shrinks`: What the calls that do give something up can cause.
-/

namespace Rem6.System

open Lib Kernel

def riscvPageBytes : Nat := 4096

inductive RiscvGuestMemoryMapResult where
  | mapped | overlap | failed

/-- The closures through which a system call reaches a guest memory. -/
structure RiscvGuestMemoryWriter (μ : Type) where
  write : Nat → List UInt8 → μ → Bool × μ
  mapRegion : Nat → Nat → Bool → μ → RiscvGuestMemoryMapResult × μ

structure RiscvSyscallState where
  (initialProgramBreak programBreak programBreakBackingEnd : Nat)

open RiscvSyscallState

def RiscvSyscallState.new (programBreak : Nat) : RiscvSyscallState :=
  ⟨programBreak, programBreak, programBreak⟩

def alignUpToPage (value : Nat) : Option Nat :=
  (checkedAdd value (riscvPageBytes - 1)).map fun rounded =>
    rounded / riscvPageBytes * riscvPageBytes

variable {μ : Type} (writer : RiscvGuestMemoryWriter μ)

def writeZeroedHeap (cursor remaining : Nat) (memory : μ) : Bool × μ :=
  if remaining = 0 then (true, memory)
  else
    let bytes := min remaining riscvPageBytes
    match writer.write cursor (List.replicate bytes 0) memory with
    | (false, memory) => (false, memory)
    | (true, memory) =>
      match checkedAdd cursor bytes with
      | none => (false, memory)
      | some next => writeZeroedHeap next (remaining - bytes) memory
termination_by remaining
decreasing_by simp only [riscvPageBytes]; omega

def installHeapBacking (oldBackingEnd requested : Nat)
    (guestMemoryWriter : Option (RiscvGuestMemoryWriter μ)) (memory : μ) : Option Nat × μ :=
  match guestMemoryWriter with
  | none => (alignUpToPage requested, memory)
  | some writer =>
    match alignUpToPage oldBackingEnd, alignUpToPage requested with
    | some mapStart, some mapEnd =>
      if mapEnd ≤ mapStart then (some (max oldBackingEnd mapEnd), memory)
      else
        match writer.mapRegion mapStart (mapEnd - mapStart) false memory with
        | (.mapped, memory) =>
          let (zeroed, memory) := writeZeroedHeap writer mapStart (mapEnd - mapStart) memory
          (if zeroed then some mapEnd else none, memory)
        | (_, memory) => (none, memory)
    | _, _ => (none, memory)

/-- The break the call returns is the one in the state after it. -/
def syscallBrk (requested : Nat) (guestMemoryWriter : Option (RiscvGuestMemoryWriter μ))
    (state : RiscvSyscallState) (memory : μ) : RiscvSyscallState × μ :=
  if requested = 0 then (state, memory)
  else if requested ≤ state.programBreak then ({ state with programBreak := requested }, memory)
  else
    match installHeapBacking state.programBreakBackingEnd requested guestMemoryWriter memory with
    | (some backingEnd, memory) =>
      ({ state with programBreakBackingEnd := backingEnd, programBreak := requested }, memory)
    | (none, memory) => (state, memory)

inductive HeapCall where
  | brk (requested : Nat)
  | guestWrite (address : Nat) (data : List UInt8)

/-- One step of a guest and its kernel. A guest write that is not below the break
    is none of the heap's. -/
def RiscvSyscallState.next (heap : RiscvSyscallState × μ) : HeapCall → RiscvSyscallState × μ
  | .brk requested => syscallBrk requested (some writer) heap.1 heap.2
  | .guestWrite address data =>
    if address + data.length ≤ heap.1.programBreak then
      (heap.1, (writer.write address data heap.2).2)
    else heap

/-- A memory whose `mapRegion` and `write` succeed and store what is written. -/
structure Storing (read : μ → Nat → UInt8) : Prop where
  mapped : ∀ start length replace memory, (writer.mapRegion start length replace memory).1 = .mapped
  written : ∀ start data memory, (writer.write start data memory).1 = true
  stored : ∀ start data memory,
    read (writer.write start data memory).2 = store (read memory) start (fun _ => true) data

/-- The end of the page that the byte below an address lies in. -/
def pageEnd (address : Nat) : Nat :=
  (address + (riscvPageBytes - 1)) / riscvPageBytes * riscvPageBytes

variable {value aligned a b start len oldBackingEnd requested backingEnd : Nat}

theorem pageEnd_of_alignUpToPage (h : alignUpToPage value = some aligned) :
    aligned = pageEnd value ∧ pageEnd value < Memory.wordLimit := by
  obtain ⟨rounded, hrounded, rfl⟩ := Option.map_eq_some_iff.mp h
  unfold checkedAdd at hrounded
  split at hrounded
  next hroom =>
    cases hrounded
    exact ⟨rfl, lt_of_le_of_lt (Nat.div_mul_le_self _ _) hroom⟩
  next => cases hrounded

theorem le_pageEnd (address : Nat) : address ≤ pageEnd address := by
  simp only [pageEnd, riscvPageBytes]
  omega

theorem pageEnd_mono (h : a ≤ b) : pageEnd a ≤ pageEnd b :=
  Nat.mul_le_mul_right _ (Nat.div_le_div_right (Nat.add_le_add_right h _))

theorem pageEnd_pageEnd (address : Nat) : pageEnd (pageEnd address) = pageEnd address := by
  simp only [pageEnd, riscvPageBytes]
  omega

theorem store_replicate {β : Type} {cells : Nat → β} {value : β} :
    store cells start (fun _ => true) (List.replicate len value) a
      = if start ≤ a ∧ a < start + len then value else cells a := by
  rw [store, List.getD_eq_getElem?_getD, List.getElem?_replicate]
  by_cases hstart : start ≤ a
  · rw [if_pos ⟨hstart, rfl⟩]
    by_cases hend : a < start + len
    · rw [if_pos (by omega), if_pos ⟨hstart, hend⟩, Option.getD_some]
    · rw [if_neg (by omega), if_neg (fun h => hend h.2), Option.getD_none]
  · rw [if_neg (fun h => hstart h.1), if_neg (fun h => hstart h.1)]

variable {writer} {read : μ → Nat → UInt8} (hstoring : Storing writer read)
include hstoring

theorem read_writeZeroedHeap (cursor remaining : Nat) (mem : μ)
    (hroom : cursor + remaining < Memory.wordLimit) :
    (writeZeroedHeap writer cursor remaining mem).1 = true ∧
      ∀ a, read (writeZeroedHeap writer cursor remaining mem).2 a
        = if cursor ≤ a ∧ a < cursor + remaining then 0 else read mem a := by
  induction remaining using Nat.strong_induction_on generalizing cursor mem with
  | _ remaining ih =>
  rw [writeZeroedHeap]
  split
  next hzero => exact ⟨rfl, fun a => (if_neg (by omega)).symm⟩
  next hpos =>
    generalize hbytes : min remaining riscvPageBytes = bytes
    have hsma : 0 < bytes ∧ bytes ≤ remaining := by simp only [riscvPageBytes] at hbytes; omega
    have hwritten := hstoring.written cursor (List.replicate bytes 0) mem
    have hstr := hstoring.stored cursor (List.replicate bytes 0) mem
    cases hwr : writer.write cursor (List.replicate bytes 0) mem with
    | mk written mem' =>
    rw [hwr] at hwritten hstr
    cases hwritten
    simp only [hwr, show checkedAdd cursor bytes = some (cursor + bytes) from if_pos (by omega)]
    obtain ⟨hok, hread⟩ := ih (remaining - bytes) (by omega) (cursor + bytes) mem' (by omega)
    refine ⟨hok, fun a => ?_⟩
    rw [hread, congrFun hstr a, store_replicate]
    grind

/-- A growth rounds the backing to the larger of the two page ends and clears
    what it adds. -/
theorem installHeapBacking_zeroes {memory memory'}
    (h : installHeapBacking oldBackingEnd requested (some writer) memory
      = (some backingEnd, memory')) :
    pageEnd backingEnd = max (pageEnd oldBackingEnd) (pageEnd requested) ∧
      ∀ a, pageEnd oldBackingEnd ≤ a → a < pageEnd requested → read memory' a = 0 := by
  unfold installHeapBacking at h
  simp only at h
  split at h
  next mapStart mapEnd hstart hend =>
    obtain ⟨rfl, -⟩ := pageEnd_of_alignUpToPage hstart
    obtain ⟨rfl, hroom⟩ := pageEnd_of_alignUpToPage hend
    split at h
    next hle =>
      cases h
      refine ⟨le_antisymm ?_ ?_, fun a hold hnew => absurd hnew (not_lt.mpr (hle.trans hold))⟩
      · rw [max_eq_left hle, ← pageEnd_pageEnd oldBackingEnd]
        exact pageEnd_mono (max_le (le_pageEnd _) hle)
      · rw [max_eq_left hle]
        exact pageEnd_mono (le_max_left _ _)
    next hlt =>
      split at h
      next memory₁ hmap =>
        obtain ⟨hok, hread⟩ := read_writeZeroedHeap hstoring (pageEnd oldBackingEnd)
          (pageEnd requested - pageEnd oldBackingEnd) memory₁ (by omega)
        simp only [hok, if_true] at h
        cases h
        refine ⟨?_, fun a hold hnew => ?_⟩
        · rw [pageEnd_pageEnd, max_eq_right (by omega)]
        · rw [hread, if_pos (by omega)]
      next result hoth =>
        cases h
  next => cases h

/-- What a call does: nothing, a move of the break down, or a growth that clears
    the pages past the old backing. -/
theorem syscallBrk_spec (requested : Nat) (st : RiscvSyscallState) (mem : μ) :
    let after := syscallBrk requested (some writer) st mem
    after.1 = st ∨
      (requested ≠ 0 ∧ requested ≤ st.programBreak ∧
        after.1 = { st with programBreak := requested }) ∨
      ∃ backingEnd, st.programBreak < requested ∧
        after.1 = { st with programBreakBackingEnd := backingEnd, programBreak := requested } ∧
        pageEnd backingEnd = max (pageEnd st.programBreakBackingEnd) (pageEnd requested) ∧
        ∀ a, pageEnd st.programBreakBackingEnd ≤ a → a < pageEnd requested →
          read after.2 a = 0 := by
  simp only [syscallBrk]
  split
  next => exact .inl rfl
  next hnon =>
    split
    next hle => exact .inr (.inl ⟨hnon, hle, rfl⟩)
    next hgt =>
      split
      next backingEnd mem' hins =>
        exact .inr (.inr ⟨backingEnd, not_le.mp hgt, rfl, installHeapBacking_zeroes hstoring hins⟩)
      next => exact .inl rfl

omit hstoring in
/-- A call that gives up neither a page of the heap nor the initial break. -/
def GivesUpNothing (heap : RiscvSyscallState × μ) : HeapCall → Prop
  | .brk requested => requested = 0 ∨ (heap.1.initialProgramBreak ≤ requested ∧
      pageEnd heap.1.programBreak ≤ pageEnd requested)
  | .guestWrite _ _ => True

omit hstoring in
/-- The two counters are in the same page, at or above the initial break. -/
structure Backed (start : Nat) (state : RiscvSyscallState) : Prop where
  initial : state.initialProgramBreak = start
  above : start ≤ state.programBreak
  backing : pageEnd state.programBreakBackingEnd = pageEnd state.programBreak

theorem next_backed (heap : RiscvSyscallState × μ) (call : HeapCall) (h : Backed start heap.1)
    (hkeeps : GivesUpNothing heap call) : Backed start (next writer heap call).1 := by
  cases call with
  | brk requested =>
    obtain ⟨rfl, habove, hbacking⟩ := h
    simp only [next]
    rcases syscallBrk_spec hstoring requested heap.1 heap.2 with
      hsame | ⟨hnon, hle, hdown⟩ | ⟨backingEnd, hgt, hup, hend, -⟩
    · rw [hsame]
      exact ⟨rfl, habove, hbacking⟩
    · obtain ⟨hini, hpage⟩ := hkeeps.resolve_left hnon
      rw [hdown]
      exact ⟨rfl, hini, hbacking.trans (le_antisymm hpage (pageEnd_mono hle))⟩
    · rw [hup]
      refine ⟨rfl, habove.trans hgt.le, hend.trans (max_eq_right ?_)⟩
      rw [hbacking]
      exact pageEnd_mono hgt.le
  | guestWrite =>
    simp only [next]
    split <;> exact h

/-- Along calls that give up nothing, the break stays at or above its initial
    value, and a call that raises it leaves zeros in the pages it adds. -/
theorem heap_grows_zeroed (start : Nat) (memory : μ) (calls : List HeapCall)
    (hcalls : Along (next writer) GivesUpNothing (.new start, memory) calls) :
    let heap := run (next writer) (.new start, memory) calls
    start ≤ heap.1.programBreak ∧
      ∀ requested, let after := next writer heap (.brk requested)
        heap.1.programBreak < after.1.programBreak →
        ∀ a, pageEnd heap.1.programBreak ≤ a → a < pageEnd after.1.programBreak →
          read after.2 a = 0 := by
  intro heap
  have hbacked : Backed start heap.1 :=
    along_invariant _ GivesUpNothing (fun heap => Backed start heap.1) (next_backed hstoring) calls
      (.new start, memory) ⟨rfl, le_rfl, rfl⟩ hcalls
  refine ⟨hbacked.above, fun requested => ?_⟩
  intro after hraised a hlo hhi
  rcases syscallBrk_spec hstoring requested heap.1 heap.2 with
    hsame | ⟨-, hle, hdown⟩ | ⟨backingEnd, -, hup, -, hzeroes⟩
  · exact absurd (congrArg programBreak hsame) hraised.ne'
  · exact absurd (congrArg programBreak hdown) (hle.trans_lt hraised).ne'
  · refine hzeroes a (hbacked.backing.trans_le hlo) (hhi.trans_eq ?_)
    rw [show after.1.programBreak = requested from congrArg programBreak hup]

omit hstoring

/-- A guest memory that is its bytes. -/
def flatMemory : RiscvGuestMemoryWriter (Nat → UInt8) where
  write start data memory := (true, store memory start (fun _ => true) data)
  mapRegion _ _ _ memory := (.mapped, memory)

theorem flatMemory_storing : Storing flatMemory id :=
  ⟨fun _ _ _ _ => rfl, fun _ _ _ => rfl, fun _ _ _ => rfl⟩

theorem flatMemory_grows_zeroed :
    let heap := run (next flatMemory) (.new 4096, fun _ => 7) [.brk 5000]
    4096 ≤ heap.1.programBreak ∧
      ∀ requested, let after := next flatMemory heap (.brk requested)
        heap.1.programBreak < after.1.programBreak →
        ∀ a, pageEnd heap.1.programBreak ≤ a → a < pageEnd after.1.programBreak → after.2 a = 0 :=
  heap_grows_zeroed flatMemory_storing 4096 (fun _ => 7) [.brk 5000]
    ⟨.inr ⟨by decide, by decide⟩, trivial⟩

/-- A heap that shrinks can fall below its initial break. One that shrinks by a
    page and grows again has the bytes the guest wrote before. -/
theorem heap_shrinks :
    (run (next flatMemory) (.new 4096, fun _ => 0) [.brk 1]).1.programBreak < 4096 ∧
      let heap := run (next flatMemory) (.new 4096, fun _ => 0)
        [.brk 8192, .guestWrite 5000 [7], .brk 4096]
      let after := next flatMemory heap (.brk 8192)
      heap.1.programBreak = 4096 ∧ after.1.programBreak = 8192 ∧
        pageEnd 4096 ≤ 5000 ∧ 5000 < pageEnd 8192 ∧ after.2 5000 = 7 := by
  decide +kernel

end Rem6.System
