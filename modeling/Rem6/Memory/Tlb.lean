import Mathlib.Data.List.MinMax
import Rem6.Lib.Fallible
import Rem6.Lib.SortedMap
import Rem6.Memory.Translation

/-!
# The Translation Lookaside Buffer

A cache of pages of page maps. An entry is one page of one address space, with
the place of the page and what is allowed there; it is found again by its key,
the address space and the page, and the map of entries is kept in the order of
the keys. A lookup takes the first entry of the address space that contains the
whole request and marks it as used. A miss of `translateInAddressSpace` asks the
page map and caches the page of the answer, dropping the entry that was used
longest ago when the buffer is full. A request that reaches over a page is
answered and not cached.

What a call may do to the entries is said once: `Moves`. An entry after a call
is an entry from before it, perhaps marked as used, or a page of a map that the
call was given (`Caches`), and the buffer does not grow beyond its capacity. The
relation is reflexive and transitive, so a call is within it when its steps are,
also when it fails midway.

## Main definitions

* `TranslationTlbEntry`, `TranslationTlb`: The buffer.
* `lookupCachedInAddressSpace`, `peekCachedInAddressSpace`,
  `translateInAddressSpace`, `fillFromPageMapInAddressSpace`,
  `fillSegmentsFromPageMapInAddressSpace`: Lookups and fills.
* `snapshot`, `fromSnapshot`: Checkpoints.
* `TlbCall`, `perform`, `next`: The calls that change a buffer.
* `Caches`: An entry is a page of a map.
* `Moves`: What a call may do.

## Theorems

* `Caches.whole`: Pages of maps are whole and do not wrap.
* `insertEntry_moves`, `insertMapping_moves`: Caching a page.
* `perform_moves`: Every call is within `Moves`.
-/

namespace Rem6.Memory

open Lib TranslationPageMapping SortedMap TranslationPageMap
open Lib.Fallible (get modify check Keeps keeps_bind keeps_pure keeps_check)

structure TranslationTlbConfig where
  capacity : Nat
  positive : 0 < capacity

instance : DecidableEq TranslationTlbConfig := fun a b =>
  decidable_of_iff (a.capacity = b.capacity) ⟨fun h => by cases a; cases h; rfl, congrArg _⟩

inductive TranslationTlbLookupKind where
  | hit | miss
deriving DecidableEq, Repr

inductive TranslationTlbEntryScope where
  | global | nonGlobal
deriving DecidableEq, Repr

def tlbEntryScope : TranslationPageMappingScope → TranslationTlbEntryScope
  | .global => .global
  | .nonGlobal => .nonGlobal

/-! ## Statistics -/

/-- Counters that stay at the largest 64-bit value once they reach it. -/
structure TranslationTlbStats where
  (hits misses faults inserts evictions : Nat := 0)
deriving DecidableEq, Repr

namespace TranslationTlbStats

variable (stats : TranslationTlbStats)

def recordHit : TranslationTlbStats := { stats with hits := saturatingSucc stats.hits }

def recordMiss : TranslationTlbStats := { stats with misses := saturatingSucc stats.misses }

def recordFault : TranslationTlbStats := { stats with faults := saturatingSucc stats.faults }

def recordInsert : TranslationTlbStats := { stats with inserts := saturatingSucc stats.inserts }

def recordEviction : TranslationTlbStats :=
  { stats with evictions := saturatingSucc stats.evictions }

end TranslationTlbStats

/-! ## Entries -/

/-- An entry. Its snapshot has the same fields. -/
structure TranslationTlbEntry where
  addressSpace : TranslationAddressSpaceId
  (virtualPage physicalPage : Nat)
  pageSize : TranslationPageSize
  permissions : TranslationPagePermissions
  scope : TranslationTlbEntryScope
  lastUsed : Nat
deriving DecidableEq

def entryRange (virtualPage : Nat) (pageSize : TranslationPageSize) :
    Except TranslationError AddressRange :=
  if h : virtualPage + pageSize.bytes < wordLimit then
    .ok ⟨virtualPage, ⟨pageSize.bytes, pageSize.pos⟩, h⟩
  else .error (.addressOverflow virtualPage pageSize.bytes)

namespace TranslationTlbEntry

/-- The order of the entries: by address space, then by page. -/
def key (entry : TranslationTlbEntry) : Nat ×ₗ Nat := toLex (entry.addressSpace, entry.virtualPage)

theorem key_eq_iff {a b : TranslationTlbEntry} :
    a.key = b.key ↔ a.addressSpace = b.addressSpace ∧ a.virtualPage = b.virtualPage := by
  rw [key, key, toLex_inj, Prod.mk.injEq]

variable (entry : TranslationTlbEntry)

/-- The checks made on an entry of a snapshot. -/
def fromSnapshot : Except TranslationError TranslationTlbEntry :=
  if entry.pageSize.isAligned entry.virtualPage = false then
    .error (.unalignedVirtualPage entry.virtualPage entry.pageSize.bytes)
  else if entry.pageSize.isAligned entry.physicalPage = false then
    .error (.unalignedPhysicalPage entry.physicalPage entry.pageSize.bytes)
  else
    match entryRange entry.virtualPage entry.pageSize,
        entryRange entry.physicalPage entry.pageSize with
    | .error error, _ | .ok _, .error error => .error error
    | .ok _, .ok _ => .ok entry

def containsRange (range : AddressRange) : Except TranslationError Bool :=
  (entryRange entry.virtualPage entry.pageSize).map fun page => page.containsRange range

/-- The tests of the demap calls take an entry whose page wraps as one that does
    not match. -/
def holdsAddress (address : Nat) : Bool :=
  match entryRange entry.virtualPage entry.pageSize with
  | .ok page => page.contains address
  | .error _ => false

def overlapsRange (range : AddressRange) : Bool :=
  match entryRange entry.virtualPage entry.pageSize with
  | .ok page => page.overlaps range
  | .error _ => false

def overlapsPhysicalRange (range : AddressRange) : Bool :=
  match entryRange entry.physicalPage entry.pageSize with
  | .ok page => page.overlaps range
  | .error _ => false

def resolve (request : TranslationRequest) : TranslationResolution :=
  if entry.permissions.allows request.access then
    .mapped (entry.physicalPage + entry.pageSize.pageOffset request.virtualAddress)
  else .fault ⟨request.virtualAddress, .permissionFault⟩

/-- A page of its size on both sides, and neither of them wraps. -/
structure Whole : Prop where
  virtualAligned : entry.pageSize.bytes ∣ entry.virtualPage
  physicalAligned : entry.pageSize.bytes ∣ entry.physicalPage
  virtualBound : entry.virtualPage + entry.pageSize.bytes < wordLimit
  physicalBound : entry.physicalPage + entry.pageSize.bytes < wordLimit

variable {entry}

/-- The range of the page of a whole entry. -/
def Whole.range (h : entry.Whole) : AddressRange :=
  ⟨entry.virtualPage, ⟨entry.pageSize.bytes, entry.pageSize.pos⟩, h.virtualBound⟩

theorem Whole.entryRange_eq (h : entry.Whole) :
    entryRange entry.virtualPage entry.pageSize = .ok h.range := by
  rw [entryRange, dif_pos h.virtualBound]
  rfl

theorem Whole.stop_range (h : entry.Whole) :
    h.range.stop = entry.virtualPage + entry.pageSize.bytes := rfl

end TranslationTlbEntry

structure TranslationTlbLookup where
  kind : TranslationTlbLookupKind
  resolution : TranslationResolution
deriving DecidableEq, Repr

/-! ## The buffer -/

structure TranslationTlb where
  config : TranslationTlbConfig
  entries : List TranslationTlbEntry
  sorted : Sorted TranslationTlbEntry.key entries
  nextLru : Nat
  stats : TranslationTlbStats

open TranslationTlb

structure TranslationTlbSnapshot where
  config : TranslationTlbConfig
  entries : List TranslationTlbEntry
  nextLru : Nat
  stats : TranslationTlbStats
deriving DecidableEq

namespace TranslationTlb

def new (config : TranslationTlbConfig) : TranslationTlb where
  config
  entries := []
  sorted := List.Pairwise.nil
  nextLru := 0
  stats := {}

def entryCount (tlb : TranslationTlb) : Nat := tlb.entries.length

def containsEntry (tlb : TranslationTlb) (addressSpace : TranslationAddressSpaceId)
    (virtualPage : Nat) : Bool :=
  tlb.entries.any fun entry => entry.key = toLex (addressSpace, virtualPage)

def retain (keep : TranslationTlbEntry → Bool) (tlb : TranslationTlb) : TranslationTlb :=
  { tlb with
    entries := tlb.entries.filter keep
    sorted := sorted_filter tlb.sorted keep }

/-- The map with an entry under its key. -/
def put (entry : TranslationTlbEntry) (tlb : TranslationTlb) : TranslationTlb :=
  { tlb with
    entries := insert TranslationTlbEntry.key entry tlb.entries
    sorted := sorted_insert tlb.sorted entry }

/-- Mark the entry of a key as used. -/
def touch (key : Nat ×ₗ Nat) (lastUsed : Nat) (tlb : TranslationTlb) : TranslationTlb :=
  { tlb with
    entries := tlb.entries.map fun entry =>
      if entry.key = key then { entry with lastUsed } else entry
    sorted := sorted_map tlb.sorted fun entry => by
      split <;> rfl }

def record (change : TranslationTlbStats → TranslationTlbStats) (tlb : TranslationTlb) :
    TranslationTlb :=
  { tlb with stats := change tlb.stats }

abbrev TlbM := Fallible TranslationTlb TranslationError

def takeNextLru : TlbM Nat := fun tlb =>
  if tlb.nextLru + 1 < wordLimit then (.ok tlb.nextLru, { tlb with nextLru := tlb.nextLru + 1 })
  else (.error .tlbOrderOverflow, tlb)

def evictLru (tlb : TranslationTlb) : TranslationTlb :=
  match tlb.entries.argmin fun entry => toLex (entry.lastUsed, entry.key) with
  | none => tlb
  | some victim => (tlb.retain fun entry => entry.key ≠ victim.key).record (·.recordEviction)

/-- The first entry of the address space that contains the range. Its key and
    the entry under the key are one thing here. -/
def lookupKey (addressSpace : TranslationAddressSpaceId) (range : AddressRange) :
    List TranslationTlbEntry → Except TranslationError (Option TranslationTlbEntry)
  | [] => .ok none
  | entry :: rest =>
    if entry.addressSpace = addressSpace then
      match entry.containsRange range with
      | .error error => .error error
      | .ok true => .ok (some entry)
      | .ok false => lookupKey addressSpace range rest
    else lookupKey addressSpace range rest

def recordResolution (resolution : TranslationResolution) (tlb : TranslationTlb) : TranslationTlb :=
  match resolution with
  | .mapped _ => tlb
  | .fault _ => tlb.record (·.recordFault)

def lookupCachedInAddressSpace (addressSpace : TranslationAddressSpaceId)
    (request : TranslationRequest) : TlbM (Option TranslationTlbLookup) := do
  let tlb ← get
  match ← check (lookupKey addressSpace request.range tlb.entries) with
  | none =>
    modify (record (·.recordMiss))
    pure none
  | some entry =>
    modify (record (·.recordHit))
    let lastUsed ← takeNextLru
    modify (touch entry.key lastUsed)
    modify (recordResolution (entry.resolve request))
    pure (some ⟨.hit, entry.resolve request⟩)

def peekCachedInAddressSpace (tlb : TranslationTlb) (addressSpace : TranslationAddressSpaceId)
    (request : TranslationRequest) : Except TranslationError (Option TranslationTlbLookup) :=
  (lookupKey addressSpace request.range tlb.entries).map fun found =>
    found.map fun entry => ⟨.hit, entry.resolve request⟩

/-- Put an entry in, at the cost of the one used longest ago when the buffer is
    full. -/
def insertEntry (entry : TranslationTlbEntry) (tlb : TranslationTlb) : TranslationTlb :=
  if tlb.containsEntry entry.addressSpace entry.virtualPage then
    (tlb.put entry).record (·.recordInsert)
  else if tlb.config.capacity ≤ tlb.entries.length then
    (tlb.evictLru.put entry).record (·.recordInsert)
  else (tlb.put entry).record (·.recordInsert)

section

variable (addressSpace : TranslationAddressSpaceId)

def insertMapping (request : TranslationRequest)
    (physicalAddress : Nat) (mapping : TranslationPageMapping) (pageSize : TranslationPageSize) :
    TlbM Unit := do
  let virtualPage := pageSize.pageAddress request.virtualAddress
  let page ← check (entryRange virtualPage pageSize)
  if page.containsRange request.range then
    let lastUsed ← takeNextLru
    modify (insertEntry {
      addressSpace, virtualPage
      physicalPage := pageSize.pageAddress physicalAddress
      pageSize
      permissions := mapping.permissions
      scope := tlbEntryScope mapping.scope
      lastUsed })
  else pure ()

def fillFromPageMapInAddressSpace (request : TranslationRequest) (pageMap : TranslationPageMap) :
    TlbM TranslationResolution :=
  match pageMap.translate request with
  | .mapped physicalAddress => do
    match pageMap.mappings.find? fun mapping =>
        mapping.virtualRange.containsRange request.range with
    | some mapping => insertMapping addressSpace request physicalAddress mapping pageMap.pageSize
    | none => pure ()
    pure (.mapped physicalAddress)
  | .fault fault => do
    modify (record (·.recordFault))
    pure (.fault fault)

def translateInAddressSpace (request : TranslationRequest) (pageMap : TranslationPageMap) :
    TlbM TranslationTlbLookup := do
  match ← lookupCachedInAddressSpace addressSpace request with
  | some lookup => pure lookup
  | none =>
    let resolution ← fillFromPageMapInAddressSpace addressSpace request pageMap
    pure ⟨.miss, resolution⟩

/-- The loop over the segments of a request, which stops at a fault. -/
def fillSegments (request : TranslationRequest)
    (pageMap : TranslationPageMap) (resolution : TranslationSegmentedResolution) :
    List TranslationSegment → TlbM TranslationSegmentedResolution
  | [] => pure resolution
  | segment :: rest => do
    match ← fillFromPageMapInAddressSpace addressSpace
        { request with range := segment.virtualRange } pageMap with
    | .fault fault => pure (.fault fault)
    | .mapped _ => fillSegments request pageMap resolution rest

def fillSegmentsFromPageMapInAddressSpace (request : TranslationRequest)
    (pageMap : TranslationPageMap) :
    TlbM TranslationSegmentedResolution :=
  match pageMap.translateSegments request with
  | .mapped segments => fillSegments addressSpace request pageMap (.mapped segments) segments
  | .fault fault => do
    modify (record (·.recordFault))
    pure (.fault fault)

/-! ## Removing entries -/

/-- Every flush and demap call drops the entries that match and returns their
    number. -/
def removeMatchingPages (drops : TranslationTlbEntry → Bool) : TlbM Nat := fun tlb =>
  (.ok (tlb.entries.length - (tlb.retain fun entry => !drops entry).entries.length),
    tlb.retain fun entry => !drops entry)

def flushAll : TlbM Nat := removeMatchingPages fun _ => true

def flushAddressSpace : TlbM Nat :=
  removeMatchingPages fun entry => entry.addressSpace = addressSpace

def flushNonGlobalAddressSpace : TlbM Nat :=
  removeMatchingPages fun entry => entry.addressSpace = addressSpace && entry.scope ≠ .global

def demapPage (virtualAddress : Nat) : TlbM Nat :=
  removeMatchingPages fun entry =>
    entry.addressSpace = addressSpace && entry.holdsAddress virtualAddress

def demapNonGlobalPage (virtualAddress : Nat) :
    TlbM Nat :=
  removeMatchingPages fun entry =>
    entry.addressSpace = addressSpace && entry.scope ≠ .global && entry.holdsAddress virtualAddress

def demapPageAllAddressSpaces (virtualAddress : Nat) : TlbM Nat :=
  removeMatchingPages fun entry => entry.holdsAddress virtualAddress

def demapNonGlobalRange (virtualRange : AddressRange) : TlbM Nat :=
  removeMatchingPages fun entry =>
    entry.addressSpace = addressSpace && entry.scope ≠ .global && entry.overlapsRange virtualRange

def demapRangeAllAddressSpaces (virtualRange : AddressRange) : TlbM Nat :=
  removeMatchingPages fun entry => entry.overlapsRange virtualRange

def demapPhysicalRangeAllAddressSpaces (physicalRange : AddressRange) : TlbM Nat :=
  removeMatchingPages fun entry => entry.overlapsPhysicalRange physicalRange

end

/-! ## Checkpoints -/

def snapshot (tlb : TranslationTlb) : TranslationTlbSnapshot :=
  ⟨tlb.config, tlb.entries, tlb.nextLru, tlb.stats⟩

/-- The first entry of the same address space that the entry overlaps. -/
def findOverlap (entry : TranslationTlbEntry) (range : AddressRange) :
    List TranslationTlbEntry → Except TranslationError Unit
  | [] => .ok ()
  | existing :: rest =>
    if existing.addressSpace ≠ entry.addressSpace then findOverlap entry range rest
    else
      match entryRange existing.virtualPage existing.pageSize with
      | .error error => .error error
      | .ok existingRange =>
        if existingRange.overlaps range then
          .error (.overlappingTlbEntry entry.addressSpace existingRange.start
            existingRange.size.bytes range.start range.size.bytes)
        else findOverlap entry range rest

/-- The loop of `fromSnapshot`. The keys seen are those of the map built so
    far. -/
def restoreEntries (nextLru : Nat) (tlb : TranslationTlb) :
    List TranslationTlbEntry → Except TranslationError TranslationTlb
  | [] => .ok tlb
  | snapshotEntry :: rest => do
    if tlb.containsEntry snapshotEntry.addressSpace snapshotEntry.virtualPage then
      throw (.duplicateTlbEntry snapshotEntry.virtualPage)
    let entry ← snapshotEntry.fromSnapshot
    if nextLru ≤ snapshotEntry.lastUsed then
      throw (.snapshotNextLruTooSmall nextLru snapshotEntry.virtualPage snapshotEntry.lastUsed)
    let range ← entryRange entry.virtualPage entry.pageSize
    findOverlap entry range tlb.entries
    restoreEntries nextLru (tlb.put entry) rest

def fromSnapshot (snapshot : TranslationTlbSnapshot) : Except TranslationError TranslationTlb :=
  if snapshot.config.capacity < snapshot.entries.length then
    .error (.tlbCapacityExceeded snapshot.config.capacity)
  else
    restoreEntries snapshot.nextLru
      { config := snapshot.config, entries := [], sorted := List.Pairwise.nil
        nextLru := snapshot.nextLru, stats := snapshot.stats } snapshot.entries

end TranslationTlb

/-! ## Calls -/

/-- The calls that change a buffer. The ones without an address space are these
    in the space 0. -/
inductive TlbCall where
  | lookupCached (addressSpace : TranslationAddressSpaceId) (request : TranslationRequest)
  | translate (addressSpace : TranslationAddressSpaceId) (request : TranslationRequest)
      (pageMap : TranslationPageMap)
  | fill (addressSpace : TranslationAddressSpaceId) (request : TranslationRequest)
      (pageMap : TranslationPageMap)
  | fillSegments (addressSpace : TranslationAddressSpaceId) (request : TranslationRequest)
      (pageMap : TranslationPageMap)
  | flushAll
  | flushAddressSpace (addressSpace : TranslationAddressSpaceId)
  | flushNonGlobalAddressSpace (addressSpace : TranslationAddressSpaceId)
  | demapPage (addressSpace : TranslationAddressSpaceId) (virtualAddress : Nat)
  | demapNonGlobalPage (addressSpace : TranslationAddressSpaceId) (virtualAddress : Nat)
  | demapPageAllAddressSpaces (virtualAddress : Nat)
  | demapNonGlobalRange (addressSpace : TranslationAddressSpaceId) (virtualRange : AddressRange)
  | demapRangeAllAddressSpaces (virtualRange : AddressRange)
  | demapPhysicalRangeAllAddressSpaces (physicalRange : AddressRange)

namespace TlbCall

open TranslationTlb (TlbM)

/-- A call, for what it does to the buffer. -/
def perform : TlbCall → TlbM Unit
  | lookupCached addressSpace request => do
    let _ ← lookupCachedInAddressSpace addressSpace request
  | translate addressSpace request pageMap => do
    let _ ← translateInAddressSpace addressSpace request pageMap
  | fill addressSpace request pageMap => do
    let _ ← fillFromPageMapInAddressSpace addressSpace request pageMap
  | fillSegments addressSpace request pageMap => do
    let _ ← fillSegmentsFromPageMapInAddressSpace addressSpace request pageMap
  | flushAll => do
    let _ ← TranslationTlb.flushAll
  | flushAddressSpace addressSpace => do
    let _ ← TranslationTlb.flushAddressSpace addressSpace
  | flushNonGlobalAddressSpace addressSpace => do
    let _ ← TranslationTlb.flushNonGlobalAddressSpace addressSpace
  | demapPage addressSpace virtualAddress => do
    let _ ← TranslationTlb.demapPage addressSpace virtualAddress
  | demapNonGlobalPage addressSpace virtualAddress => do
    let _ ← TranslationTlb.demapNonGlobalPage addressSpace virtualAddress
  | demapPageAllAddressSpaces virtualAddress => do
    let _ ← TranslationTlb.demapPageAllAddressSpaces virtualAddress
  | demapNonGlobalRange addressSpace virtualRange => do
    let _ ← TranslationTlb.demapNonGlobalRange addressSpace virtualRange
  | demapRangeAllAddressSpaces virtualRange => do
    let _ ← TranslationTlb.demapRangeAllAddressSpaces virtualRange
  | demapPhysicalRangeAllAddressSpaces physicalRange => do
    let _ ← TranslationTlb.demapPhysicalRangeAllAddressSpaces physicalRange

def next (tlb : TranslationTlb) (call : TlbCall) : TranslationTlb := (call.perform tlb).2

/-- The page map a call is given, and for which address space. -/
def Source : TlbCall → TranslationAddressSpaceId → TranslationPageMap → Prop
  | translate addressSpace _ pageMap, space, map
  | fill addressSpace _ pageMap, space, map
  | fillSegments addressSpace _ pageMap, space, map => space = addressSpace ∧ map = pageMap
  | _, _, _ => False

end TlbCall

/-! ## What a call may do -/

/-- The entry is a page of the map. -/
structure Caches (pageMap : TranslationPageMap) (entry : TranslationTlbEntry) : Prop where
  pageSize : entry.pageSize = pageMap.pageSize
  aligned : pageMap.pageSize.bytes ∣ entry.virtualPage
  page : pageMap.mappingAt entry.virtualPage = some (entry.physicalPage, entry.permissions)

namespace Caches

variable {pageMap : TranslationPageMap} {entry : TranslationTlbEntry}

theorem exists_mapping (h : Caches pageMap entry) :
    ∃ mapping ∈ pageMap.mappings, mapping.virtualRange.start ≤ entry.virtualPage ∧ entry.virtualPage
      + pageMap.pageSize.bytes ≤ mapping.virtualRange.stop ∧ mapping.physicalAddress
      entry.virtualPage = entry.physicalPage ∧ mapping.permissions = entry.permissions := by
  rcases exists_of_mappingAt h.page with
    ⟨mapping, hmem, hcon, hphy, hper⟩
  have hpage := contains_page (pageMap.fits mapping hmem) hcon
  have hpos := pageMap.pageSize.pos
  rw [pageMap.pageSize.pageAddress_eq_of_mem h.aligned le_rfl (by omega)] at hpage
  exact ⟨mapping, hmem, hpage.1, hpage.2, hphy, hper⟩

/-- Pages of maps are whole and do not wrap. -/
theorem whole (h : Caches pageMap entry) : entry.Whole := by
  rcases h.exists_mapping with ⟨mapping, hmem, hstart, hstop, hphy, -⟩
  have hfits := pageMap.fits mapping hmem
  have hvir : mapping.virtualRange.stop < wordLimit := mapping.virtualRange.bound
  have hbnd := hfits.physicalBound
  have hpos := pageMap.pageSize.pos
  unfold physicalAddress at hphy
  unfold AddressRange.stop at hstop hvir
  constructor
  · rw [h.pageSize]
    exact h.aligned
  · rw [h.pageSize, ← hphy]
    exact Nat.dvd_add hfits.physicalAligned (Nat.dvd_sub h.aligned hfits.virtualAligned)
  · rw [h.pageSize]
    omega
  · rw [h.pageSize, ← hphy]
    omega

theorem of_lastUsed {lastUsed} (h : Caches pageMap entry) :
    Caches pageMap { entry with lastUsed } :=
  ⟨h.pageSize, h.aligned, h.page⟩

end Caches

namespace TranslationTlb

/-- Where the entries come from when a call is given some page maps. -/
structure Traces (source : TranslationAddressSpaceId → TranslationPageMap → Prop)
    (before after : TranslationTlb) : Prop where
  config : after.config = before.config
  clock : before.nextLru ≤ after.nextLru
  -- An entry is an old one, perhaps marked as used, or a page of one of the maps.
  entries : ∀ entry ∈ after.entries,
    (∃ old ∈ before.entries, { old with lastUsed := entry.lastUsed } = entry) ∨
      ∃ pageMap, source entry.addressSpace pageMap ∧ Caches pageMap entry
  used : ∀ entry ∈ after.entries, entry ∈ before.entries ∨ entry.lastUsed < after.nextLru

/-- What a call that is given some page maps may do. -/
structure Moves (source : TranslationAddressSpaceId → TranslationPageMap → Prop)
    (before after : TranslationTlb) : Prop extends Traces source before after where
  count : after.entries.length ≤ max before.entries.length before.config.capacity

variable {source : TranslationAddressSpaceId → TranslationPageMap → Prop}

variable {first second third before after tlb : TranslationTlb} {pageMap : TranslationPageMap}

theorem Traces.trans (h : Traces source first second) (h' : Traces source second third) :
    Traces source first third := by
  refine ⟨h'.config.trans h.config, h.clock.trans h'.clock, ?_, ?_⟩
  · intro entry hent
    rcases h'.entries entry hent with ⟨middle, hmidd, heq⟩ | hfil
    · rcases h.entries middle hmidd with ⟨old, hold, hmid⟩ | ⟨pageMap, hsrc, hcaches⟩
      · refine .inl ⟨old, hold, ?_⟩
        rw [← heq, ← hmid]
      · refine .inr ⟨pageMap, ?_, ?_⟩
        · rwa [← heq]
        · rw [← heq]
          exact hcaches.of_lastUsed
    · exact .inr hfil
  · intro entry hent
    rcases h'.used entry hent with hmidd | hlt
    · rcases h.used entry hmidd with hold | hlt
      · exact .inl hold
      · exact .inr (hlt.trans_le h'.clock)
    · exact .inr hlt

theorem moves_of_subset (hcfg : after.config = before.config)
    (hclk : before.nextLru ≤ after.nextLru) (hents : after.entries.Sublist before.entries) :
    Moves source before after := by
  refine ⟨⟨hcfg, hclk, fun entry hent => ?_, fun entry hent => ?_⟩, ?_⟩
  · exact .inl ⟨entry, hents.subset hent, rfl⟩
  · exact .inl (hents.subset hent)
  · exact hents.length_le.trans (Nat.le_max_left _ _)

theorem Moves.refl (tlb : TranslationTlb) : Moves source tlb tlb :=
  moves_of_subset rfl (Nat.le_refl _) (List.Sublist.refl _)

theorem Moves.trans (h : Moves source first second) (h' : Moves source second third) :
    Moves source first third := by
  refine ⟨h.toTraces.trans h'.toTraces, ?_⟩
  have hsecond := h'.count
  have hfirst := h.count
  rw [h.config] at hsecond
  omega

theorem bind_moves {α β : Type} {m : TlbM α} {f : α → TlbM β} (hm : Keeps (Moves source) m)
    (hf : ∀ a, Keeps (Moves source) (f a)) : Keeps (Moves source) (m >>= f) :=
  keeps_bind Moves.trans hm hf

theorem pure_moves {α : Type} (a : α) : Keeps (Moves source) (pure a : TlbM α) :=
  keeps_pure Moves.refl

theorem modify_moves {change : TranslationTlb → TranslationTlb}
    (h : ∀ tlb, Moves source tlb (change tlb)) : Keeps (Moves source) (modify change : TlbM Unit) :=
  h

theorem record_moves (change : TranslationTlbStats → TranslationTlbStats) (tlb : TranslationTlb) :
    Moves source tlb (tlb.record change) :=
  moves_of_subset rfl (Nat.le_refl _) (List.Sublist.refl _)

theorem retain_moves {keep : TranslationTlbEntry → Bool} : Moves source tlb (tlb.retain keep) :=
  moves_of_subset rfl (Nat.le_refl _) List.filter_sublist

theorem recordResolution_moves (resolution : TranslationResolution) (tlb : TranslationTlb) :
    Moves source tlb (tlb.recordResolution resolution) := by
  cases resolution with
  | mapped paddr => exact Moves.refl tlb
  | fault fault => exact record_moves _ tlb

theorem takeNextLru_moves : Moves source tlb (takeNextLru tlb).2 := by
  unfold takeNextLru
  split
  · exact moves_of_subset rfl (Nat.le_succ _) (List.Sublist.refl _)
  · exact Moves.refl tlb

theorem takeNextLru_bind_moves {change : Nat → TranslationTlb → TranslationTlb}
    (h : ∀ lastUsed tlb, lastUsed < tlb.nextLru → Moves source tlb (change lastUsed tlb)) :
    Keeps (Moves source) (takeNextLru >>= fun lastUsed => modify (change lastUsed)) := by
  intro tlb
  have hclk : Moves source tlb (takeNextLru tlb).2 := takeNextLru_moves
  unfold takeNextLru at hclk
  by_cases hroom : tlb.nextLru + 1 < wordLimit
  · rw [if_pos hroom] at hclk
    have htake : takeNextLru tlb
        = (.ok tlb.nextLru, { tlb with nextLru := tlb.nextLru + 1 }) := if_pos hroom
    rw [Fallible.bind_of_ok htake]
    exact hclk.trans (h _ _ (Nat.lt_succ_self _))
  · have htake : takeNextLru tlb = (.error .tlbOrderOverflow, tlb) := if_neg hroom
    rw [Fallible.bind_of_error htake]
    exact Moves.refl tlb

theorem touch_moves (key : Nat ×ₗ Nat) (lastUsed : Nat) (tlb : TranslationTlb)
    (h : lastUsed < tlb.nextLru) : Moves source tlb (tlb.touch key lastUsed) := by
  refine ⟨⟨rfl, le_rfl, fun entry hent => ?_, fun entry hent => ?_⟩, ?_⟩
  · rcases List.mem_map.mp hent with ⟨old, hold, rfl⟩
    refine .inl ⟨old, hold, ?_⟩
    split <;> rfl
  · rcases List.mem_map.mp hent with ⟨old, hold, rfl⟩
    split
    · exact .inr h
    · exact .inl hold
  · exact (Nat.le_of_eq (List.length_map ..)).trans (Nat.le_max_left _ _)

theorem evictLru_moves : Moves source tlb tlb.evictLru := by
  unfold evictLru
  split
  · exact Moves.refl tlb
  · exact (retain_moves).trans (record_moves _ _)

variable {tlb : TranslationTlb}

theorem length_evictLru (h : 0 < tlb.entries.length) :
    tlb.evictLru.entries.length < tlb.entries.length := by
  unfold evictLru
  cases hvictim : tlb.entries.argmin fun entry => toLex (entry.lastUsed, entry.key) with
  | none =>
    rw [List.argmin_eq_none] at hvictim
    rw [hvictim] at h
    exact absurd h (lt_irrefl 0)
  | some victim =>
    have hmem := List.argmin_mem hvictim
    refine List.length_filter_lt_length_iff_exists.mpr ⟨victim, hmem, ?_⟩
    simp

theorem put_traces {entry} (hsrc : source entry.addressSpace pageMap)
    (hcaches : Caches pageMap entry)
    (hused : entry.lastUsed < tlb.nextLru) : Traces source tlb (tlb.put entry) := by
  refine ⟨rfl, le_rfl, fun other hoth => ?_, fun other hoth => ?_⟩
  · rcases (mem_insert tlb.sorted).mp hoth with rfl | ⟨hold, -⟩
    · exact .inr ⟨pageMap, hsrc, hcaches⟩
    · exact .inl ⟨other, hold, rfl⟩
  · rcases (mem_insert tlb.sorted).mp hoth with rfl | ⟨hold, -⟩
    · exact .inr hused
    · exact .inl hold

theorem length_put_le (entry : TranslationTlbEntry) (tlb : TranslationTlb) :
    (tlb.put entry).entries.length ≤ tlb.entries.length + 1 :=
  length_insert_le

theorem insertEntry_moves {entry} (hsrc : source entry.addressSpace pageMap)
    (hcaches : Caches pageMap entry)
    (hused : entry.lastUsed < tlb.nextLru) : Moves source tlb (tlb.insertEntry entry) := by
  unfold insertEntry
  split
  · -- The page is there already, and is replaced.
    rename_i hcon
    rcases List.any_eq_true.mp hcon with ⟨old, hold, hkey⟩
    have hlen : (tlb.put entry).entries.length = tlb.entries.length :=
      length_insert_of_mem tlb.sorted hold (of_decide_eq_true hkey)
    refine Moves.trans ⟨put_traces hsrc hcaches hused, ?_⟩ (record_moves _ _)
    rw [hlen]
    exact le_max_left _ _
  · split
    · -- The buffer is full: one entry leaves and one comes in.
      rename_i hfull
      have hlt := length_evictLru (tlb.config.positive.trans_le hfull)
      have hevict : Moves source tlb tlb.evictLru := evictLru_moves
      have hput := put_traces hsrc hcaches (hused.trans_le hevict.clock)
      have hle := length_put_le entry tlb.evictLru
      refine Moves.trans ⟨hevict.toTraces.trans hput, ?_⟩ (record_moves _ _)
      omega
    · rename_i hroom
      have hle := length_put_le entry tlb
      refine Moves.trans ⟨put_traces hsrc hcaches hused, ?_⟩ (record_moves _ _)
      omega

variable {mapping : TranslationPageMapping} {request : TranslationRequest}

theorem caches_of_find (hfind : pageMap.mappingForRange request.range = some mapping)
    (addressSpace : TranslationAddressSpaceId) (lastUsed : Nat) :
    Caches pageMap {
      addressSpace
      virtualPage := pageMap.pageSize.pageAddress request.virtualAddress
      physicalPage := pageMap.pageSize.pageAddress (mapping.physicalAddress request.virtualAddress)
      pageSize := pageMap.pageSize
      permissions := mapping.permissions
      scope := tlbEntryScope mapping.scope
      lastUsed } := by
  have hmem : mapping ∈ pageMap.mappings := List.mem_of_find?_eq_some hfind
  have hrange : mapping.virtualRange.containsRange request.range = true := by
    simpa only using List.find?_some hfind
  have hfits := pageMap.fits mapping hmem
  have hlt := request.range.start_lt_stop
  have hcon : mapping.virtualRange.contains request.virtualAddress = true := by
    rw [AddressRange.containsRange_iff] at hrange
    rw [AddressRange.contains_iff, TranslationRequest.virtualAddress]
    omega
  have hpage := contains_page hfits hcon
  have hpos := pageMap.pageSize.pos
  refine ⟨rfl, pageMap.pageSize.dvd_pageAddress, ?_⟩
  simp only
  rw [pageAddress_physicalAddress hfits hcon]
  refine mappingAt_eq_some hmem ?_
  rw [AddressRange.contains_iff]
  omega

variable {addressSpace : TranslationAddressSpaceId}

theorem insertMapping_moves (hfind : pageMap.mappingForRange request.range = some mapping)
    (hsrc : source addressSpace pageMap) :
    Keeps (Moves source) (insertMapping addressSpace request
      (mapping.physicalAddress request.virtualAddress) mapping pageMap.pageSize) := by
  unfold insertMapping
  refine bind_moves (keeps_check Moves.refl) fun page => ?_
  split
  · refine takeNextLru_bind_moves fun lastUsed tlb hlt => ?_
    exact insertEntry_moves hsrc (caches_of_find hfind addressSpace lastUsed) hlt
  · exact pure_moves ()

theorem translate_eq_mapped {physicalAddress}
    (h : pageMap.translate request = .mapped physicalAddress) :
    ∃ mapping, pageMap.mappingForRange request.range = some mapping ∧
      mapping.physicalAddress request.virtualAddress = physicalAddress := by
  unfold TranslationPageMap.translate at h
  split at h
  · cases h
  · rename_i mapping hfind
    split at h
    · exact ⟨mapping, hfind, TranslationResolution.mapped.inj h⟩
    · cases h

theorem fillFromPageMap_of_mapped (hfind : pageMap.mappingForRange request.range = some mapping)
    (htranslate : pageMap.translate request = .mapped
      (mapping.physicalAddress request.virtualAddress)) :
    fillFromPageMapInAddressSpace addressSpace request pageMap = (do
      insertMapping addressSpace request (mapping.physicalAddress request.virtualAddress) mapping
        pageMap.pageSize
      pure (.mapped (mapping.physicalAddress request.virtualAddress))) := by
  unfold mappingForRange at hfind
  simp [fillFromPageMapInAddressSpace, htranslate, hfind]

theorem fillFromPageMap_moves (hsrc : source addressSpace pageMap) :
    Keeps (Moves source) (fillFromPageMapInAddressSpace addressSpace request pageMap) := by
  cases htranslate : pageMap.translate request with
  | mapped paddr =>
    rcases translate_eq_mapped htranslate with ⟨mapping, hfind, rfl⟩
    rw [fillFromPageMap_of_mapped hfind htranslate]
    exact bind_moves (insertMapping_moves hfind hsrc) pure_moves
  | fault fault =>
    rw [fillFromPageMapInAddressSpace, htranslate]
    exact bind_moves (modify_moves (record_moves _)) pure_moves

theorem lookupCached_moves {addressSpace : TranslationAddressSpaceId} :
    Keeps (Moves source) (lookupCachedInAddressSpace addressSpace request) := by
  unfold lookupCachedInAddressSpace
  refine Fallible.keeps_get_bind fun tlb => ?_
  refine bind_moves (keeps_check Moves.refl) (fun found => ?_) tlb
  cases found with
  | none => exact bind_moves (modify_moves (record_moves _)) pure_moves
  | some entry =>
    refine bind_moves (modify_moves (record_moves _)) fun _ => ?_
    -- The mark is set before anything else can move the clock.
    have hmark : Keeps (Moves source) (takeNextLru >>= fun lastUsed =>
        (modify (touch entry.key lastUsed) : TlbM Unit)) :=
      takeNextLru_bind_moves (touch_moves entry.key)
    have hrest : Keeps (Moves source)
        ((takeNextLru >>= fun lastUsed => (modify (touch entry.key lastUsed) : TlbM Unit))
          >>= fun _ => (do
            modify (recordResolution (entry.resolve request))
            pure (some ⟨.hit, entry.resolve request⟩) : TlbM (Option TranslationTlbLookup))) :=
      bind_moves hmark fun _ =>
        bind_moves (modify_moves (recordResolution_moves _)) pure_moves
    rwa [Fallible.bind_assoc] at hrest

theorem translate_moves (hsrc : source addressSpace pageMap) {request : TranslationRequest} :
    Keeps (Moves source) (translateInAddressSpace addressSpace request pageMap) := by
  unfold translateInAddressSpace
  refine bind_moves (lookupCached_moves) fun found => ?_
  cases found with
  | some lookup => exact pure_moves _
  | none => exact bind_moves (fillFromPageMap_moves hsrc) pure_moves

theorem fillSegments_moves (hsrc : source addressSpace pageMap) (request : TranslationRequest)
    (resolution : TranslationSegmentedResolution) (segments : List TranslationSegment) :
    Keeps (Moves source) (fillSegments addressSpace request pageMap resolution segments) := by
  induction segments with
  | nil => exact pure_moves _
  | cons segment rest ih =>
    unfold fillSegments
    refine bind_moves (fillFromPageMap_moves hsrc) fun filled => ?_
    cases filled with
    | fault fault => exact pure_moves _
    | mapped paddr => exact ih

theorem fillSegmentsFromPageMap_moves (hsrc : source addressSpace pageMap)
    {request : TranslationRequest} :
    Keeps (Moves source) (fillSegmentsFromPageMapInAddressSpace addressSpace request pageMap) := by
  unfold fillSegmentsFromPageMapInAddressSpace
  split
  · exact fillSegments_moves hsrc request _ _
  · exact bind_moves (modify_moves (record_moves _)) pure_moves

theorem removeMatchingPages_moves {drops : TranslationTlbEntry → Bool} :
    Keeps (Moves source) (removeMatchingPages drops) :=
  fun _ => retain_moves

end TranslationTlb

/-- Every call is within what a call with its page map may do. -/
theorem TlbCall.perform_moves (call : TlbCall) : Keeps (Moves call.Source) call.perform := by
  have hdone : ∀ {α : Type} {m : TranslationTlb.TlbM α}, Keeps (Moves call.Source) m →
      Keeps (Moves call.Source) (do let _ ← m) :=
    fun h => TranslationTlb.bind_moves h fun _ => pure_moves ()
  cases call with
  | lookupCached => exact hdone lookupCached_moves
  | translate => exact hdone (translate_moves ⟨rfl, rfl⟩)
  | fill => exact hdone (fillFromPageMap_moves ⟨rfl, rfl⟩)
  | fillSegments => exact hdone (fillSegmentsFromPageMap_moves ⟨rfl, rfl⟩)
  | flushAll | flushAddressSpace | flushNonGlobalAddressSpace | demapPage | demapNonGlobalPage
  | demapPageAllAddressSpaces | demapNonGlobalRange | demapRangeAllAddressSpaces
  | demapPhysicalRangeAllAddressSpaces => exact hdone removeMatchingPages_moves

end Rem6.Memory
