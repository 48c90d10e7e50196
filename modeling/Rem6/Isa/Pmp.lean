import Mathlib.Data.List.GetD
import Rem6.Lib.Run
import Rem6.Memory.Types

/-!
# Physical Memory Protection

The table of protection entries of a hart. An entry has an address register and
a configuration byte; the range it protects is decoded from both, and for a
top-of-range entry from the address register below it as well. A write stores
its value and then decodes every range again, from the first entry on.

Decoding can fail. A four-byte entry at the very end of the address space has no
end that fits in a word and is refused, and for a naturally aligned entry the
end is computed without a check, so the write panics. Either way the value is
stored already, and the entries behind the failing one keep the ranges they
had. `Representable` says which register values decode, and a table whose writes
are all representable is `Decoded`: its ranges are the ones its registers say.

An access is checked against the first entry that contains all of it. An entry
that contains some of it is passed over, so an access across the edge of a
protected range is decided by whatever entry lies behind.
`checkAccess_ok_iff` says for which accesses that makes a difference.

## Main definitions

* `RiscvPmpConfig`, `RiscvPmpEntry`, `RiscvPmpTable`: The registers.
* `decodeRange`, `rebuildRanges`: The ranges the registers stand for.
* `RiscvPmpTable.checkAccess`: The decision on an access.
* `RiscvPmpTable.Granted`: The decision the architecture asks for.
* `RiscvPmpTable.PassedOver`, `RiscvPmpTable.Miscounted`: The accesses that are
  decided otherwise.
* `PmpWrite`, `RiscvPmpTable.perform`: The calls that change the table.
* `Representable`, `RiscvPmpTable.Decoded`: Registers that decode, and tables
  that were decoded.

## Theorems

* `RiscvPmpTable.checkAccess_ok_iff`: Which accesses are decided as the
  architecture asks.
* `exists_decodeRange_iff`: Exactly the representable registers decode.
* `RiscvPmpTable.locks_hold`: With representable writes, locked entries never
  change and a refused write changes nothing.
-/

namespace Rem6.Isa

open Memory Lib

inductive RiscvPrivilegeMode where
  | user | supervisor | machine
deriving DecidableEq, Repr

inductive RiscvPmpAccessKind where
  | read | write | execute
deriving DecidableEq, Repr

inductive RiscvPmpAddressMode where
  | off | tor | na4 | napot
deriving DecidableEq, Repr

/-- The two bits of an address mode. -/
def RiscvPmpAddressMode.fromBits (bits : BitVec 8) : RiscvPmpAddressMode :=
  match (bits &&& 0x3#8).toNat with
  | 0 => .off
  | 1 => .tor
  | 2 => .na4
  | _ => .napot

/-- A configuration byte. Every byte is one. -/
structure RiscvPmpConfig where
  bits : BitVec 8
deriving DecidableEq, Repr

namespace RiscvPmpConfig

variable (config : RiscvPmpConfig)

def addressMode : RiscvPmpAddressMode := .fromBits ((config.bits &&& 0x18#8) >>> 3)

def read : Bool := config.bits &&& 0x01#8 ≠ 0#8

def write : Bool := config.bits &&& 0x02#8 ≠ 0#8

def execute : Bool := config.bits &&& 0x04#8 ≠ 0#8

def locked : Bool := config.bits &&& 0x80#8 ≠ 0#8

def permits : RiscvPmpAccessKind → Bool
  | .read => config.read
  | .write => config.write
  | .execute => config.execute

end RiscvPmpConfig

inductive RiscvPmpError where
  | entryCountTooLarge (entries max : Nat)
  | entryIndexOutOfRange (index entries : Nat)
  | entryLocked (index : Nat)
  | nextTorEntryLocked (index next : Nat)
  | invalidRange (start stop : Nat)
  | addressOverflow (address size : Nat)
  | zeroAccessSize (address : Nat)
  | accessDenied (address size : Nat) (kind : RiscvPmpAccessKind)
      (privilege : RiscvPrivilegeMode) (matchedEntry : Option Nat)
deriving DecidableEq, Repr

/-- A call that does not come back with `Ok`: it returns an error, or an
    arithmetic overflow stops it. -/
inductive PmpFailure where
  | returned (error : RiscvPmpError)
  | panicked
deriving DecidableEq, Repr

/-- A range of addresses with an exclusive end. -/
structure RiscvPmpRange where
  (start stop : Nat)
  nonempty : start < stop
deriving DecidableEq, Repr

open RiscvPmpRange

namespace RiscvPmpRange

def new (start stop : Nat) : Except PmpFailure RiscvPmpRange :=
  if h : start < stop then .ok ⟨start, stop, h⟩ else .error (.returned (.invalidRange start stop))

def containsAccess (range : RiscvPmpRange) (address size : Nat) : Except RiscvPmpError Bool :=
  if address + (size - 1) < wordLimit then
    .ok (range.start ≤ address && address + (size - 1) < range.stop)
  else .error (.addressOverflow address size)

end RiscvPmpRange

/-- An address register, its configuration and the range they decoded to. -/
structure RiscvPmpEntry where
  rawAddr : BitVec 64
  config : RiscvPmpConfig
  range : Option RiscvPmpRange
deriving DecidableEq, Repr

def RiscvPmpEntry.default : RiscvPmpEntry := ⟨0#64, ⟨0#8⟩, none⟩

/-! ## Decoding -/

def trailingOnes (rawAddr : BitVec 64) : Nat := (~~~rawAddr).ctz.toNat

/-- The start of a naturally aligned range: the register above its trailing
    ones, as an address. -/
def napotBase (rawAddr : BitVec 64) : Nat :=
  ((rawAddr &&& ~~~(1#64 <<< trailingOnes rawAddr - 1#64)) <<< 2).toNat

/-- The shift and the sum are machine operations and panic when they overflow. -/
def decodeNapotRange (rawAddr : BitVec 64) : Except PmpFailure RiscvPmpRange :=
  if rawAddr = BitVec.allOnes 64 then new 0 (wordLimit - 1)
  else if trailingOnes rawAddr + 3 < 64 then
    if napotBase rawAddr + 2 ^ (trailingOnes rawAddr + 3) < wordLimit then
      new (napotBase rawAddr) (napotBase rawAddr + 2 ^ (trailingOnes rawAddr + 3))
    else .error .panicked
  else .error .panicked

/-- The address register below an entry, zero below the first. -/
def previousAddr (index : Nat) (rawAddrs : List (BitVec 64)) : BitVec 64 :=
  match index with
  | 0 => 0#64
  | previous + 1 => rawAddrs.getD previous 0#64

def decodeRange (index : Nat) (addressMode : RiscvPmpAddressMode)
    (rawAddrs : List (BitVec 64)) : Except PmpFailure (Option RiscvPmpRange) :=
  let rawAddr := rawAddrs.getD index 0#64
  match addressMode with
  | .off => .ok none
  | .tor =>
    let start := (previousAddr index rawAddrs <<< 2).toNat
    let stop := (rawAddr <<< 2).toNat
    if stop ≤ start then .ok none else (new start stop).map some
  | .na4 =>
    let start := (rawAddr <<< 2).toNat
    if start + 4 < wordLimit then (new start (start + 4)).map some
    else .error (.returned (.addressOverflow start 4))
  | .napot => (decodeNapotRange rawAddr).map some

/-- Decode the entries from an index on, in place and up to the first that
    fails. -/
def rebuildFrom (rawAddrs : List (BitVec 64)) :
    Nat → List RiscvPmpEntry → Except PmpFailure Unit × List RiscvPmpEntry
  | _, [] => (.ok (), [])
  | index, entry :: rest =>
    match decodeRange index entry.config.addressMode rawAddrs with
    | .error failure => (.error failure, entry :: rest)
    | .ok range =>
      let (result, rest) := rebuildFrom rawAddrs (index + 1) rest
      (result, { entry with range } :: rest)

def activeCount (entries : List RiscvPmpEntry) : Nat :=
  entries.countP fun entry => entry.config.addressMode ≠ .off

def rebuildRanges (entries : List RiscvPmpEntry) : Except PmpFailure Nat × List RiscvPmpEntry :=
  match rebuildFrom (entries.map (·.rawAddr)) 0 entries with
  | (.ok (), rebuilt) => (.ok (activeCount rebuilt), rebuilt)
  | (.error failure, rebuilt) => (.error failure, rebuilt)

structure RiscvPmpTable where
  entries : List RiscvPmpEntry
  activeRuleCount : Nat
deriving DecidableEq, Repr

open RiscvPmpTable

namespace RiscvPmpTable

def maxEntries : Nat := 64

/-- Decode the ranges again. The rule count is only replaced when all decode. -/
def rebuild (table : RiscvPmpTable) : Except PmpFailure Unit × RiscvPmpTable :=
  match rebuildRanges table.entries with
  | (.ok count, entries) => (.ok (), ⟨entries, count⟩)
  | (.error failure, entries) => (.error failure, { table with entries })

def new (entryCount : Nat) : Except PmpFailure RiscvPmpTable :=
  if maxEntries < entryCount then .error (.returned (.entryCountTooLarge entryCount maxEntries))
  else
    match rebuild ⟨List.replicate entryCount .default, 0⟩ with
    | (.ok (), table) => .ok table
    | (.error failure, _) => .error failure

/-! ## Checking an access -/

def defaultAccess (table : RiscvPmpTable) (address size : Nat) (kind : RiscvPmpAccessKind)
    (privilege : RiscvPrivilegeMode) : Except RiscvPmpError Unit :=
  if privilege = .machine ∨ table.entries = [] then .ok ()
  else .error (.accessDenied address size kind privilege none)

/-- The decision of the entries from an index on. -/
def checkFrom (table : RiscvPmpTable) (address size : Nat) (kind : RiscvPmpAccessKind)
    (privilege : RiscvPrivilegeMode) : Nat → List RiscvPmpEntry → Except RiscvPmpError Unit
  | _, [] => table.defaultAccess address size kind privilege
  | index, entry :: rest =>
    match (entry.range.map (·.containsAccess address size)).getD (.ok false) with
    | .error error => .error error
    | .ok false => checkFrom table address size kind privilege (index + 1) rest
    | .ok true =>
      if privilege = .machine ∧ entry.config.locked = false then .ok ()
      else if entry.config.permits kind then .ok ()
      else .error (.accessDenied address size kind privilege (some index))

def checkAccess (table : RiscvPmpTable) (address size : Nat) (kind : RiscvPmpAccessKind)
    (privilege : RiscvPrivilegeMode) : Except RiscvPmpError Unit :=
  if size = 0 then .error (.zeroAccessSize address)
  else if table.activeRuleCount = 0 then table.defaultAccess address size kind privilege
  else table.checkFrom address size kind privilege 0 table.entries

end RiscvPmpTable

namespace RiscvPmpEntry

/-- The entry's range contains a byte of the access. -/
def Touches (entry : RiscvPmpEntry) (address size : Nat) : Prop :=
  ∃ range, entry.range = some range ∧
    ∃ byte, address ≤ byte ∧ byte < address + size ∧ range.start ≤ byte ∧ byte < range.stop

/-- The entry's range contains every byte of the access. -/
def Covers (entry : RiscvPmpEntry) (address size : Nat) : Prop :=
  ∃ range, entry.range = some range ∧
    ∀ byte, address ≤ byte → byte < address + size → range.start ≤ byte ∧ byte < range.stop

/-- The entry lets the access through, if it is the one to decide. -/
def Grants (entry : RiscvPmpEntry) (kind : RiscvPmpAccessKind) (privilege : RiscvPrivilegeMode) :
    Prop :=
  privilege = .machine ∧ entry.config.locked = false ∨ entry.config.permits kind = true

end RiscvPmpEntry

namespace RiscvPmpTable

/-- The first of some entries with a property. -/
def First (P : RiscvPmpEntry → Prop) (entries : List RiscvPmpEntry) (entry : RiscvPmpEntry) :
    Prop :=
  ∃ before after, entries = before ++ entry :: after ∧ P entry ∧ ∀ earlier ∈ before, ¬ P earlier

section

variable (table : RiscvPmpTable) (address size : Nat) (kind : RiscvPmpAccessKind)
  (privilege : RiscvPrivilegeMode)

/-- The decision the privileged architecture asks for: the lowest entry that
    contains a byte of the access has to contain all of it and decides. -/
def Granted : Prop :=
  (∀ entry ∈ table.entries, ¬ entry.Touches address size) ∧
      (privilege = .machine ∨ table.entries = []) ∨
    ∃ entry, First (·.Touches address size) table.entries entry ∧ entry.Covers address size ∧
      entry.Grants kind privilege

/-- The lowest entry that contains a byte of the access contains only part of it,
    is passed over, and what comes behind lets the access through. -/
def PassedOver : Prop :=
  table.activeRuleCount ≠ 0 ∧
    (∃ entry, First (·.Touches address size) table.entries entry ∧ ¬ entry.Covers address size) ∧
    ((∃ entry, First (·.Covers address size) table.entries entry ∧ entry.Grants kind privilege) ∨
      (∀ entry ∈ table.entries, ¬ entry.Covers address size) ∧ privilege = .machine)

/-- No rule is counted though an entry contains a byte of the access, as after a
    write that failed midway, and the mode decides otherwise than that entry. -/
def Miscounted : Prop :=
  table.activeRuleCount = 0 ∧ ∃ entry, First (·.Touches address size) table.entries entry ∧
    (privilege = .machine ↔ ¬ (entry.Covers address size ∧ entry.Grants kind privilege))

end

end RiscvPmpTable

section Access

variable {address size : Nat} {kind : RiscvPmpAccessKind} {privilege : RiscvPrivilegeMode}

variable {entry : RiscvPmpEntry}

theorem RiscvPmpEntry.Covers.touches (h : entry.Covers address size) (hsize : 0 < size) :
    entry.Touches address size := by
  obtain ⟨range, hrange, hbytes⟩ := h
  exact ⟨range, hrange, address, le_rfl, by omega, hbytes address le_rfl (by omega)⟩

/-- An entry is asked for the first and the last byte only, which is enough. -/
theorem containsAccess_eq (entry : RiscvPmpEntry) (hsize : 0 < size) (hlast : address + (size - 1) < wordLimit) :
    (entry.range.map (·.containsAccess address size)).getD (.ok false) = .ok true ∧
        entry.Covers address size ∨
      (entry.range.map (·.containsAccess address size)).getD (.ok false) = .ok false ∧
        ¬ entry.Covers address size := by
  cases hrange : entry.range with
  | none => exact .inr ⟨rfl, fun ⟨range, hsome, _⟩ => by cases hrange.symm.trans hsome⟩
  | some range =>
    rw [Option.map_some, Option.getD_some, containsAccess, if_pos hlast]
    by_cases hinside : range.start ≤ address ∧ address + (size - 1) < range.stop
    · refine .inl ⟨by simp [hinside], range, hrange, fun byte hfirst hend => ?_⟩
      omega
    · refine .inr ⟨by simpa using hinside, fun ⟨other, hother, hbytes⟩ => hinside ?_⟩
      obtain rfl := Option.some.inj (hrange.symm.trans hother)
      have hstart := hbytes address le_rfl (by omega)
      have hstop := hbytes (address + (size - 1)) (by omega) (by omega)
      exact ⟨hstart.1, hstop.2⟩

namespace RiscvPmpTable

variable {P : RiscvPmpEntry → Prop} {entries rest : List RiscvPmpEntry} {other : RiscvPmpEntry}

/-- The head is the first entry if it has the property, and otherwise the first
    is one of the rest. -/
theorem first_cons :
    First P (entry :: rest) other ↔ P entry ∧ other = entry ∨ ¬ P entry ∧ First P rest other := by
  constructor
  · rintro ⟨before, after, heq, hother, hearlier⟩
    rcases List.cons_eq_append_iff.mp heq with ⟨rfl, hhead⟩ | ⟨before, rfl, hrest⟩
    · rw [List.cons.injEq] at hhead
      exact .inl ⟨hhead.1 ▸ hother, hhead.1⟩
    · rw [List.forall_mem_cons] at hearlier
      exact .inr ⟨hearlier.1, before, after, hrest, hother, hearlier.2⟩
  · rintro (⟨hentry, rfl⟩ | ⟨hentry, before, after, rfl, hother, hearlier⟩)
    · exact ⟨[], rest, rfl, hentry, by simp⟩
    · exact ⟨entry :: before, after, rfl, hother, List.forall_mem_cons.mpr ⟨hentry, hearlier⟩⟩

theorem not_first (h : ∀ entry ∈ entries, ¬ P entry) (entry : RiscvPmpEntry) :
    ¬ First P entries entry := by
  rintro ⟨before, after, rfl, hentry, -⟩
  exact h entry (by simp) hentry

/-- Either no entry has the property, or one is the first and no other is. -/
theorem first_cases (P : RiscvPmpEntry → Prop) (entries : List RiscvPmpEntry) :
    (∀ entry ∈ entries, ¬ P entry) ∨
      ∃ entry ∈ entries, P entry ∧ ∀ other, First P entries other ↔ other = entry := by
  induction entries with
  | nil => exact .inl (by simp)
  | cons head rest ih =>
    by_cases hhead : P head
    · exact .inr ⟨head, List.mem_cons_self, hhead, by simp [first_cons, hhead]⟩
    · rcases ih with hnone | ⟨entry, hmem, hentry, honly⟩
      · exact .inl (List.forall_mem_cons.mpr ⟨hhead, hnone⟩)
      · refine .inr ⟨entry, List.mem_cons_of_mem _ hmem, hentry, fun other => ?_⟩
        simp [first_cons, hhead, honly]

/-- The first entry that contains the whole access decides, and otherwise the
    mode does. -/
theorem checkFrom_ok_iff (table : RiscvPmpTable) (hsize : 0 < size)
    (hlast : address + (size - 1) < wordLimit) (entries : List RiscvPmpEntry) (index : Nat) :
    table.checkFrom address size kind privilege index entries = .ok () ↔
      (∃ entry, First (·.Covers address size) entries entry ∧ entry.Grants kind privilege) ∨
        (∀ entry ∈ entries, ¬ entry.Covers address size) ∧
          table.defaultAccess address size kind privilege = .ok () := by
  induction entries generalizing index with
  | nil => simp [checkFrom, First]
  | cons entry rest ih =>
    rcases containsAccess_eq entry hsize hlast with ⟨heq, hcovers⟩ | ⟨heq, hcovers⟩
    · -- The head contains the access, so it is the first that does.
      simp only [checkFrom, heq, first_cons, hcovers, true_and, not_true_eq_false, false_and,
        or_false, exists_eq_left, List.forall_mem_cons, RiscvPmpEntry.Grants]
      split
      · simp [*]
      · split <;> simp [*]
    · simp only [checkFrom, heq, first_cons, hcovers, false_and, not_false_eq_true, true_and,
        false_or, List.forall_mem_cons]
      exact ih (index + 1)

/-- An access is decided as the architecture asks exactly if no entry that
    contains part of it is passed over in favour of one that lets it through, and
    the rules are not miscounted. -/
theorem checkAccess_ok_iff (table : RiscvPmpTable) (address size : Nat) (kind : RiscvPmpAccessKind)
    (privilege : RiscvPrivilegeMode) (hsize : 0 < size)
    (hlast : address + (size - 1) < wordLimit) :
    (table.checkAccess address size kind privilege = .ok () ↔
        table.Granted address size kind privilege) ↔
      ¬ table.PassedOver address size kind privilege ∧
        ¬ table.Miscounted address size kind privilege := by
  have hdefault : table.defaultAccess address size kind privilege = .ok () ↔
      privilege = .machine ∨ table.entries = [] := by
    unfold defaultAccess
    split <;> simp [*]
  have htouches : ∀ {entry : RiscvPmpEntry}, entry.Covers address size →
      entry.Touches address size := fun hcovers => hcovers.touches hsize
  rw [Granted, PassedOver, Miscounted, checkAccess, if_neg (by omega)]
  rcases first_cases (·.Touches address size) table.entries with
    hnone | ⟨entry, hmem, htouch, honly⟩
  · -- Nothing contains a byte of the access: the mode decides in both.
    have hcovers : ∀ entry ∈ table.entries, ¬ entry.Covers address size :=
      fun entry hentry hall => hnone entry hentry (htouches hall)
    simp only [not_first hnone, not_first hcovers, checkFrom_ok_iff table hsize hlast,
      apply_ite (· = Except.ok ()), hdefault, false_and, exists_false, false_or, or_false,
      and_false, and_iff_right hnone, and_iff_right hcovers, not_false_eq_true, and_self, ite_self]
  · have hnonempty : table.entries ≠ [] := List.ne_nil_of_mem hmem
    have hsome : ¬ ∀ entry ∈ table.entries, ¬ entry.Touches address size :=
      fun hnone => hnone entry hmem htouch
    simp only [honly, exists_eq_left, hsome, false_and, false_or]
    by_cases hcount : table.activeRuleCount = 0
    · simp only [hcount, if_true, hdefault, hnonempty, or_false, ne_eq, not_true_eq_false,
        false_and, not_false_eq_true, true_and]
      tauto
    · simp only [hcount, if_false, checkFrom_ok_iff table hsize hlast, hdefault, hnonempty,
        or_false, ne_eq, not_false_eq_true, true_and, false_and, and_true]
      by_cases hall : entry.Covers address size
      · -- The lowest entry that contains a byte is also the first that contains all.
        have hfirst : ∀ other, First (·.Covers address size) table.entries other ↔
            other = entry := by
          obtain ⟨before, after, heq, -, hearlier⟩ := (honly entry).mpr rfl
          rcases first_cases (·.Covers address size) table.entries with hnot | ⟨other, -, -, hfirst⟩
          · exact absurd hall (hnot entry hmem)
          · have hself := (hfirst entry).mp
              ⟨before, after, heq, hall, fun e he h => hearlier e he (htouches h)⟩
            exact hself ▸ hfirst
        have hnotNone : ¬ ∀ entry ∈ table.entries, ¬ entry.Covers address size :=
          fun hnone => hnone entry hmem hall
        simp [hfirst, hall, hnotNone]
      · simp [hall]

end RiscvPmpTable

end Access

/-! ## Writing the registers -/

inductive PmpWrite where
  | config (index : Nat) (config : RiscvPmpConfig)
  | configBits (index : Nat) (bits : BitVec 8)
  | addr (index : Nat) (rawAddr : BitVec 64)
deriving DecidableEq, Repr

namespace RiscvPmpTable

section

variable (table : RiscvPmpTable)

def entry (index : Nat) : Except RiscvPmpError RiscvPmpEntry :=
  match table.entries[index]? with
  | some entry => .ok entry
  | none => .error (.entryIndexOutOfRange index table.entries.length)

def ensureEntryMutable (index : Nat) : Except RiscvPmpError Unit :=
  match table.entry index with
  | .error error => .error error
  | .ok entry => if entry.config.locked then .error (.entryLocked index) else .ok ()

def store (index : Nat) (change : RiscvPmpEntry → RiscvPmpEntry) :
    RiscvPmpTable :=
  { table with entries := table.entries.modify index change }

def writeConfig (index : Nat) (config : RiscvPmpConfig) :
    Except PmpFailure Unit × RiscvPmpTable :=
  match table.ensureEntryMutable index with
  | .error error => (.error (.returned error), table)
  | .ok () => (table.store index fun entry => { entry with config }).rebuild

/-- The entry above is locked and uses this entry's address as its lower bound. -/
def nextTorLocked (index : Nat) : Bool :=
  match table.entries[index + 1]? with
  | some next => next.config.locked && next.config.addressMode = .tor
  | none => false

def writeAddr (index : Nat) (rawAddr : BitVec 64) :
    Except PmpFailure Unit × RiscvPmpTable :=
  match table.ensureEntryMutable index with
  | .error error => (.error (.returned error), table)
  | .ok () =>
    if table.nextTorLocked index then
      (.error (.returned (.nextTorEntryLocked index (index + 1))), table)
    else (table.store index fun entry => { entry with rawAddr }).rebuild

def perform : PmpWrite → Except PmpFailure Unit × RiscvPmpTable
  | .config index config => table.writeConfig index config
  | .configBits index bits => table.writeConfig index ⟨bits⟩
  | .addr index rawAddr => table.writeAddr index rawAddr

/-- The table after a write, whether it was accepted or not. -/
def next (write : PmpWrite) : RiscvPmpTable := (table.perform write).2

end

end RiscvPmpTable

/-- The registers decode: the end of a four-byte range fits in a word, and the
    size and the end of a naturally aligned one do. -/
def Representable (addressMode : RiscvPmpAddressMode) (rawAddr : BitVec 64) : Prop :=
  match addressMode with
  | .off | .tor => True
  | .na4 => (rawAddr <<< 2).toNat + 4 < wordLimit
  | .napot => rawAddr = BitVec.allOnes 64 ∨
      trailingOnes rawAddr + 3 < 64 ∧ napotBase rawAddr + 2 ^ (trailingOnes rawAddr + 3) < wordLimit

theorem RiscvPmpRange.exists_new_iff {start stop : Nat} :
    (∃ range, new start stop = .ok range) ↔ start < stop := by
  unfold new
  split
  · simp [*]
  · simp [*]

theorem exists_map_iff {ε α β : Type} {res : Except ε α} {f : α → β} :
    (∃ b, res.map f = .ok b) ↔ ∃ a, res = .ok a := by
  cases res with
  | error e => simp only [Except.map, reduceCtorEq, exists_false]
  | ok a => simp only [Except.map, Except.ok.injEq, exists_eq']

/-- Exactly the representable registers decode. -/
theorem exists_decodeRange_iff {addressMode rawAddrs} {index : Nat} :
    (∃ range, decodeRange index addressMode rawAddrs = .ok range) ↔
      Representable addressMode (rawAddrs.getD index 0#64) := by
  generalize hraw : rawAddrs.getD index 0#64 = rawAddr
  cases addressMode with
  | off => simp [decodeRange, Representable]
  | tor =>
    simp only [decodeRange, Representable, iff_true]
    split
    · exact ⟨none, rfl⟩
    · rw [exists_map_iff, exists_new_iff]
      omega
  | na4 =>
    simp only [decodeRange, Representable, hraw]
    split
    · rw [exists_map_iff, exists_new_iff]
      omega
    · simp only [*, reduceCtorEq, exists_false]
  | napot =>
    simp only [decodeRange, Representable, hraw, exists_map_iff, decodeNapotRange]
    have hsize : 0 < 2 ^ (trailingOnes rawAddr + 3) := Nat.two_pow_pos _
    split
    · simp only [*, exists_new_iff, wordLimit, true_or, iff_true]
      decide
    · split
      · split
        · simp only [*, exists_new_iff, and_self, or_true, iff_true]
          omega
        · simp only [*, reduceCtorEq, exists_false, and_false, or_self]
      · simp only [*, reduceCtorEq, exists_false, false_and, or_self]

/-- A range depends on its own address register and, top-of-range, on the one
    below. -/
theorem decodeRange_congr {addressMode index rawAddrs rawAddrs'}
    (hself : rawAddrs.getD index 0#64 = rawAddrs'.getD index 0#64)
    (hprev : addressMode = .tor → previousAddr index rawAddrs = previousAddr index rawAddrs') :
    decodeRange index addressMode rawAddrs = decodeRange index addressMode rawAddrs' := by
  cases addressMode with
  | tor => simp only [decodeRange, hself, hprev rfl]
  | off => rfl
  | na4 | napot => simp only [decodeRange, hself]

/-! ## Decoded tables -/

/-- An entry with the range its registers stand for, none if they do not decode. -/
def decodeEntry (rawAddrs : List (BitVec 64)) (index : Nat) (entry : RiscvPmpEntry) :
    RiscvPmpEntry :=
  { entry with
    range := (decodeRange index entry.config.addressMode rawAddrs).toOption.join }

theorem rebuildFrom_of_decode (rawAddrs : List (BitVec 64)) :
    ∀ (entries : List RiscvPmpEntry) (index : Nat),
      (∀ (offset : Nat) (entry : RiscvPmpEntry), entries[offset]? = some entry →
        ∃ range, decodeRange (index + offset) entry.config.addressMode rawAddrs = .ok range) →
      rebuildFrom rawAddrs index entries
        = (.ok (), entries.mapIdx fun offset => decodeEntry rawAddrs (index + offset)) := by
  intro entries
  induction entries with
  | nil =>
    intro index _
    rfl
  | cons entry rest ih =>
    intro index hdec
    obtain ⟨range, hrange⟩ := hdec 0 entry rfl
    have hrest := ih (index + 1) fun offset other hoth => by
      rw [Nat.add_assoc, add_comm 1 offset]
      exact hdec (offset + 1) other hoth
    rw [add_zero] at hrange
    rw [rebuildFrom, hrange]
    simp only [hrest, List.mapIdx_cons, decodeEntry, add_zero, hrange,
      Except.toOption, Option.join_some, Prod.mk.injEq, List.cons.injEq, true_and]
    refine congrArg (fun f => List.mapIdx f rest) ?_
    funext offset
    rw [Nat.add_assoc, add_comm 1 offset]

namespace RiscvPmpTable

/-- The ranges and the rule count are those of the registers. -/
structure Decoded (table : RiscvPmpTable) : Prop where
  ranges : ∀ (index : Nat) (entry : RiscvPmpEntry), table.entries[index]? = some entry →
    decodeRange index entry.config.addressMode (table.entries.map (·.rawAddr)) = .ok entry.range
  count : table.activeRuleCount = activeCount table.entries

variable {index : Nat}

theorem getD_rawAddrs {entries : List RiscvPmpEntry} {entry : RiscvPmpEntry}
    (h : entries[index]? = some entry) :
    (entries.map (·.rawAddr)).getD index 0#64 = entry.rawAddr := by
  rw [List.getD_eq_getElem?_getD, List.getElem?_map, h]
  rfl

variable {table : RiscvPmpTable}

theorem Decoded.representable (h : table.Decoded) {entry : RiscvPmpEntry}
    (hent : table.entries[index]? = some entry) :
    Representable entry.config.addressMode entry.rawAddr := by
  rw [← getD_rawAddrs hent]
  exact exists_decodeRange_iff.mp ⟨_, h.ranges index entry hent⟩

theorem rebuild_of_representable (table : RiscvPmpTable)
    (h : ∀ (index : Nat) (entry : RiscvPmpEntry), table.entries[index]? = some entry →
      Representable entry.config.addressMode entry.rawAddr) :
    ∃ table', table.rebuild = (.ok (), table') ∧ table'.Decoded ∧
      table'.entries = table.entries.mapIdx (decodeEntry (table.entries.map (·.rawAddr))) := by
  have hok : ∀ (index : Nat) (entry : RiscvPmpEntry), table.entries[index]? = some entry →
      ∃ range, decodeRange index entry.config.addressMode (table.entries.map (·.rawAddr))
        = .ok range := by
    intro index entry hent
    rw [exists_decodeRange_iff, getD_rawAddrs hent]
    exact h index entry hent
  have hfrom := rebuildFrom_of_decode (table.entries.map (·.rawAddr)) table.entries 0
    (by simpa only [zero_add] using hok)
  simp only [zero_add] at hfrom
  have hadd : (table.entries.mapIdx (decodeEntry (table.entries.map (·.rawAddr)))).map
      (·.rawAddr) = table.entries.map (·.rawAddr) := by
    apply List.ext_getElem?
    intro index
    simp only [List.getElem?_map, List.getElem?_mapIdx, Option.map_map]
    rfl
  refine ⟨_, by rw [rebuild, rebuildRanges, hfrom], ⟨?_, rfl⟩, rfl⟩
  intro index entry hent
  rw [List.getElem?_mapIdx, Option.map_eq_some_iff] at hent
  obtain ⟨stored, hstr, rfl⟩ := hent
  obtain ⟨range, hrange⟩ := hok index stored hstr
  rw [hadd]
  simp only [decodeEntry, hrange, Except.toOption, Option.join_some]

/-- The write leaves registers that decode, if it is not refused. -/
def Fits (table : RiscvPmpTable) : PmpWrite → Prop
  | .config index config => ∀ entry, table.entries[index]? = some entry →
      entry.config.locked = false → Representable config.addressMode entry.rawAddr
  | .configBits index bits => ∀ entry, table.entries[index]? = some entry →
      entry.config.locked = false → Representable (RiscvPmpConfig.addressMode ⟨bits⟩) entry.rawAddr
  | .addr index rawAddr => ∀ entry, table.entries[index]? = some entry →
      entry.config.locked = false → table.nextTorLocked index = false →
        Representable entry.config.addressMode rawAddr

/-- A locked entry is as it was. -/
def Holds (table table' : RiscvPmpTable) : Prop :=
  ∀ (index : Nat) (entry : RiscvPmpEntry), table.entries[index]? = some entry →
    entry.config.locked = true → table'.entries[index]? = some entry

theorem ensureEntryMutable_eq_ok (h : table.ensureEntryMutable index = .ok ()) :
    ∃ entry, table.entries[index]? = some entry ∧ entry.config.locked = false := by
  unfold ensureEntryMutable entry at h
  cases hent : table.entries[index]? with
  | none => simp [hent] at h
  | some entry =>
    refine ⟨entry, rfl, ?_⟩
    rw [hent] at h
    by_contra hlocked
    rw [Bool.not_eq_false] at hlocked
    simp only [hlocked, ↓reduceIte, reduceCtorEq] at h

/-- Changing an unlocked entry and decoding again leaves the locked ones alone,
    unless the change moves the lower bound of one. -/
theorem store_rebuild {stored} {change : RiscvPmpEntry → RiscvPmpEntry} (hdec : table.Decoded)
    (hstr : table.entries[index]? = some stored) (hlocked : stored.config.locked = false)
    (hfits : Representable (change stored).config.addressMode (change stored).rawAddr)
    (hnext : (change stored).rawAddr = stored.rawAddr ∨ table.nextTorLocked index = false) :
    ∃ table', (table.store index change).rebuild = (.ok (), table') ∧ table'.Decoded ∧
      table.Holds table' := by
  have hself : (table.store index change).entries[index]? = some (change stored) := by
    rw [store, List.getElem?_modify_eq, hstr]
    rfl
  have hoth : ∀ k, index ≠ k → (table.store index change).entries[k]? = table.entries[k]? := by
    intro k hk
    rw [store, List.getElem?_modify_ne change _ hk]
  have hrep : ∀ (k : Nat) (entry : RiscvPmpEntry),
      (table.store index change).entries[k]? = some entry →
        Representable entry.config.addressMode entry.rawAddr := by
    intro k entry hent
    by_cases hk : index = k
    · rw [← hk, hself] at hent
      cases hent
      exact hfits
    · rw [hoth k hk] at hent
      exact hdec.representable hent
  obtain ⟨table', hrebuild, hdec', hents⟩ := rebuild_of_representable _ hrep
  refine ⟨table', hrebuild, hdec', ?_⟩
  intro other entry hent hentryLocked
  have hne : index ≠ other := by
    rintro rfl
    rw [hstr, Option.some.injEq] at hent
    rw [hent, hentryLocked] at hlocked
    exact absurd hlocked (by simp)
  -- Address registers other than the one written are the same before and after.
  have haddr : ∀ k, index ≠ k ∨ (change stored).rawAddr = stored.rawAddr →
      (table.entries.map (·.rawAddr)).getD k 0#64
        = ((table.store index change).entries.map (·.rawAddr)).getD k 0#64 := by
    intro k hk
    by_cases heq : index = k
    · rw [← heq, getD_rawAddrs hstr, getD_rawAddrs hself, hk.resolve_left (not_not.mpr heq)]
    · rw [List.getD_eq_getElem?_getD, List.getD_eq_getElem?_getD, List.getElem?_map,
        List.getElem?_map, hoth k heq]
  have hrange : decodeRange other entry.config.addressMode
        ((table.store index change).entries.map (·.rawAddr)) = .ok entry.range := by
    rw [← hdec.ranges other entry hent]
    refine (decodeRange_congr (haddr other (.inl hne)) fun htor => ?_).symm
    cases other with
    | zero => rfl
    | succ prev =>
      refine haddr prev ?_
      by_cases hprev : index = prev
      · refine .inr (hnext.resolve_right ?_)
        rw [hprev, nextTorLocked, hent]
        simp [hentryLocked, htor]
      · exact .inl hprev
  rw [hents, List.getElem?_mapIdx, hoth other hne, hent, Option.map_some, decodeEntry, hrange]
  rfl

/-- A write that fits is refused and changes nothing, or it is performed, and
    locked entries stay as they are. -/
theorem perform_fits {write} (hdec : table.Decoded) (hfits : table.Fits write) :
    (∃ error, table.perform write = (.error (.returned error), table)) ∨
      ∃ table', table.perform write = (.ok (), table') ∧ table'.Decoded ∧ table.Holds table' := by
  have hcfg : ∀ index config, table.Fits (.config index config) →
      (∃ error, table.writeConfig index config = (.error (.returned error), table)) ∨
        ∃ table', table.writeConfig index config = (.ok (), table') ∧ table'.Decoded ∧
          table.Holds table' := by
    intro index config hfits
    unfold writeConfig
    cases hmutable : table.ensureEntryMutable index with
    | error error => exact .inl ⟨error, rfl⟩
    | ok _ =>
      obtain ⟨stored, hstr, hlocked⟩ := ensureEntryMutable_eq_ok hmutable
      exact .inr (store_rebuild hdec hstr hlocked (hfits stored hstr hlocked) (.inl rfl))
  cases write with
  | config index config => exact hcfg index config hfits
  | configBits index bits => exact hcfg index ⟨bits⟩ hfits
  | addr index =>
    rw [perform, writeAddr]
    cases hmutable : table.ensureEntryMutable index with
    | error error => exact .inl ⟨error, rfl⟩
    | ok _ =>
      obtain ⟨stored, hstr, hlocked⟩ := ensureEntryMutable_eq_ok hmutable
      cases hnext : table.nextTorLocked index with
      | true => exact .inl ⟨_, rfl⟩
      | false => exact .inr (store_rebuild hdec hstr hlocked (hfits stored hstr hlocked hnext)
        (.inr hnext))

theorem next_fits {write} (hdec : table.Decoded) (hfits : table.Fits write) :
    (table.next write).Decoded ∧ table.Holds (table.next write) := by
  unfold next
  rcases perform_fits hdec hfits with ⟨error, h⟩ | ⟨table', h, hdec', hholds⟩
  · rw [h]
    exact ⟨hdec, fun _ _ hent _ => hent⟩
  · rw [h]
    exact ⟨hdec', hholds⟩

/-- Locked entries outlive every run of writes that fit. -/
theorem run_holds {writes} (hdec : table.Decoded) (hfits : Along next Fits table writes) :
    (run next table writes).Decoded ∧ table.Holds (run next table writes) :=
  along_invariant next Fits (fun reached => reached.Decoded ∧ table.Holds reached)
    (fun _ _ h hfits =>
      have hnext := next_fits h.1 hfits
      ⟨hnext.1, fun index entry hent hlocked =>
        hnext.2 index entry (h.2 index entry hent hlocked) hlocked⟩)
    writes table ⟨hdec, fun _ _ hent _ => hent⟩ hfits

/-- While all writes fit, no call panics, a refused one changes nothing, and an
    entry that is locked at some point is the same entry, with its configuration,
    its address and its range, at every later one. -/
theorem locks_hold (table : RiscvPmpTable) (writes : List PmpWrite) (last : PmpWrite)
    (hdecoded : table.Decoded) (hfits : Along next Fits table (writes ++ [last])) :
    ((run next table writes).perform last).1 ≠ .error .panicked ∧
      (∀ failure, ((run next table writes).perform last).1 = .error failure →
        ((run next table writes).perform last).2 = run next table writes) ∧
      ∀ earlier later, writes ++ [last] = earlier ++ later →
        (run next table earlier).Holds (run next table (writes ++ [last])) := by
  obtain ⟨hwrites, hlast, -⟩ := (along_append next Fits [last] writes table).mp hfits
  have hreached := (run_holds hdecoded hwrites).1
  refine ⟨?_, ?_, ?_⟩
  · rcases perform_fits hreached hlast with ⟨error, h⟩ | ⟨table', h, _⟩
    · rw [h]
      simp
    · rw [h]
      simp
  · intro failure hfailure
    rcases perform_fits hreached hlast with ⟨error, h⟩ | ⟨table', h, _⟩
    · rw [h]
    · simp [h] at hfailure
  · intro earlier later heq
    rw [heq] at hfits ⊢
    obtain ⟨hearlier, hlater⟩ := (along_append next Fits later earlier table).mp hfits
    rw [run_append]
    exact (run_holds (run_holds hdecoded hearlier).1 hlater).2

/-- A locked top-of-range entry keeps its lower bound: the write to the address
    below is refused and nothing changes. -/
theorem locked_lower_bound_holds :
    ∃ table, new 2 = .ok table ∧
      ((run next table [.addr 1 4#64, .configBits 1 0x89#8]).perform (.addr 0 2#64)).2
        = run next table [.addr 1 4#64, .configBits 1 0x89#8] := by
  refine ⟨_, rfl, ?_⟩
  have hfits : Along next Fits ⟨List.replicate 2 .default, 0⟩
      [.addr 1 4#64, .configBits 1 0x89#8, .addr 0 2#64] := by
    refine ⟨?_, ?_, ?_, trivial⟩
    all_goals
      rintro entry ⟨⟩
      intros
      trivial
  have hdecoded : Decoded ⟨List.replicate 2 .default, 0⟩ := by
    refine ⟨fun index entry hentry => ?_, rfl⟩
    have hdefault : entry = .default := List.eq_of_mem_replicate (List.mem_of_getElem? hentry)
    rw [hdefault]
    rfl
  exact (locks_hold _ [.addr 1 4#64, .configBits 1 0x89#8] (.addr 0 2#64) hdecoded hfits).2.1 _ rfl

/-- Three runs of one or two entries. A four-byte entry is moved to the last word
    of the address space: the write is refused, and stored. A naturally aligned
    entry is moved to the last eight bytes: the write panics. And with a refused
    address in the first entry, the second is locked with the range it had before
    and gets its own when the first is repaired. -/
theorem failed_write_is_stored :
    ∃ single double, new 1 = .ok single ∧ new 2 = .ok double ∧
      (let table := run next single [.configBits 0 0x10#8]
      (table.perform (.addr 0 0x3fffffffffffffff#64)).1
          = .error (.returned (.addressOverflow (2 ^ 64 - 4) 4)) ∧
        (table.perform (.addr 0 0x3fffffffffffffff#64)).2 ≠ table) ∧
      ((run next single [.configBits 0 0x18#8]).perform (.addr 0 0x3ffffffffffffffe#64)).1
        = .error .panicked ∧
      (let table := run next double [.configBits 0 0x10#8, .addr 0 0x3fffffffffffffff#64,
        .configBits 1 0x98#8]
      (table.entries[1]?.map fun entry => (entry.config.locked, entry.range.isSome))
          = some (true, false) ∧
        ((table.next (.addr 0 0#64)).entries[1]?.map fun entry =>
          (entry.config.locked, entry.range.isSome)) = some (true, true)) := by
  refine ⟨_, _, rfl, rfl, ⟨?_, ?_⟩, ?_, ?_, ?_⟩ <;> decide +kernel

/-! ## Accesses across an edge -/

/-- Four bytes that nobody below machine mode may touch, in a block of sixteen
    that everybody may read. -/
def guardedBlock : RiscvPmpTable :=
  run next ⟨List.replicate 2 .default, 0⟩ [.addr 1 1#64, .configBits 0 0x10#8, .configBits 1 0x19#8]

theorem guardedBlock_entries : guardedBlock.entries =
    [⟨0#64, ⟨0x10#8⟩, some ⟨0, 4, by decide⟩⟩, ⟨1#64, ⟨0x19#8⟩, some ⟨0, 16, by decide⟩⟩] := by
  decide +kernel

/-- A read inside the block and outside the guarded word is granted. -/
theorem read_beside_guard_granted :
    guardedBlock.checkAccess 8 4 .read .user = .ok () ∧ guardedBlock.Granted 8 4 .read .user := by
  have hok : guardedBlock.checkAccess 8 4 .read .user = .ok () := by decide +kernel
  refine ⟨hok, ((checkAccess_ok_iff guardedBlock 8 4 .read .user (by decide) (by decide)).mpr
    ⟨?_, ?_⟩).mp hok⟩
  · rintro ⟨-, ⟨entry, hfirst, hpart⟩, -⟩
    rw [guardedBlock_entries] at hfirst
    rcases first_cons.mp hfirst with ⟨⟨range, hrange, byte, hbyte⟩, -⟩ | ⟨-, hfirst⟩
    · rw [← Option.some.inj hrange] at hbyte
      simp only at hbyte
      omega
    · rcases first_cons.mp hfirst with ⟨-, rfl⟩ | ⟨-, hfirst⟩
      · refine hpart ⟨_, rfl, fun byte _ hbyte => ⟨Nat.zero_le _, ?_⟩⟩
        simp only
        omega
      · exact not_first (by simp) entry hfirst
  · rintro ⟨hcount, -⟩
    exact absurd hcount (by decide +kernel)

/-- A read that starts in the guarded word and ends behind it is granted by the
    block, though the guarded word is the lowest entry it touches. -/
theorem read_across_guard_granted :
    guardedBlock.checkAccess 2 4 .read .user = .ok () ∧ ¬ guardedBlock.Granted 2 4 .read .user := by
  refine ⟨by decide +kernel, ?_⟩
  have htouch : (⟨0#64, ⟨0x10#8⟩, some ⟨0, 4, by decide⟩⟩ : RiscvPmpEntry).Touches 2 4 :=
    ⟨_, rfl, 2, by decide⟩
  rw [Granted, guardedBlock_entries]
  rintro (⟨hnone, -⟩ | ⟨entry, hfirst, ⟨range, hrange, hcovers⟩, -⟩)
  · exact hnone _ List.mem_cons_self htouch
  · -- The guarded word ends before the last byte of the access.
    rcases first_cons.mp hfirst with ⟨-, rfl⟩ | ⟨hnot, -⟩
    · rw [← Option.some.inj hrange] at hcovers
      exact absurd (hcovers 4 (by decide) (by decide)).2 (by decide)
    · exact hnot htouch

end RiscvPmpTable

end Rem6.Isa
