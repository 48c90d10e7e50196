import Mathlib.Data.List.Pairwise
import Mathlib.Data.Prod.Lex
import Rem6.Memory.Types

/-!
# Page Maps

Translation of virtual addresses through a map of pages. A mapping covers a run
of pages of the virtual space and places it somewhere in the physical space, with
permissions. A map has one page size, all its mappings are made of whole pages,
and no two of them overlap, which is part of the type: a map is only ever built
by adding mappings, and adding one checks for overlap.

A request is translated by the mapping that contains all of it. One that reaches
over the end of a mapping is a page fault even if the next mapping begins there;
translating in segments cuts the request at page boundaries first.

Since mappings are made of whole pages, a mapping that contains an address
contains its page (`contains_page`), and since they do not overlap, the mapping
that contains a request is the one that contains its first address
(`mappingForRange_eq_some`).

## Main definitions

* `TranslationPageSize`, `TranslationPageMapping`, `TranslationPageMap`: Pages,
  mappings and maps.
* `TranslationPageMap.mapWithScope`: Adding a mapping.
* `TranslationPageMap.translate`, `translateSegments`: Translation.
* `TranslationPageMap.mappingAt`: What a map says about one address.

## Theorems

* `TranslationPageMapping.contains_page`: Mappings are made of whole pages.
* `TranslationPageMap.eq_of_contains`: An address is in one mapping.
* `TranslationPageMap.mappingForRange_eq_some`: The mapping a request is
  translated by.
-/

namespace Rem6.Memory

open AddressRange

abbrev TranslationAddressSpaceId := Nat

structure TranslationRequestId where
  agent : AgentId
  sequence : Nat
deriving DecidableEq, Repr

inductive TranslationAccessKind where
  | instructionFetch | load | store | atomic | prefetch
deriving DecidableEq, Repr

structure TranslationRequest where
  id : TranslationRequestId
  range : AddressRange
  access : TranslationAccessKind
deriving DecidableEq, Repr

def TranslationRequest.virtualAddress (request : TranslationRequest) : Nat := request.range.start

inductive TranslationFaultKind where
  | pageFault | accessFault | permissionFault
deriving DecidableEq, Repr

structure TranslationFault where
  virtualAddress : Nat
  kind : TranslationFaultKind
deriving DecidableEq, Repr

inductive TranslationResolution where
  | mapped (physicalAddress : Nat)
  | fault (fault : TranslationFault)
deriving DecidableEq, Repr

/-- A piece of a request inside one page, with the place of its first byte. -/
structure TranslationSegment where
  virtualRange : AddressRange
  physicalStart : Nat
deriving DecidableEq, Repr

inductive TranslationSegmentedResolution where
  | mapped (segments : List TranslationSegment)
  | fault (fault : TranslationFault)
deriving DecidableEq, Repr

/-! ## Pages -/

/-- A page size, a power of two. -/
structure TranslationPageSize where
  bytes : Nat
  powerOfTwo : ∃ k, bytes = 2 ^ k

instance : DecidableEq TranslationPageSize := fun a b =>
  decidable_of_iff (a.bytes = b.bytes) ⟨fun h => by cases a; cases h; rfl, congrArg _⟩

variable {address page adr pages cursor physical : Nat}

namespace TranslationPageSize

variable (pageSize : TranslationPageSize)

theorem pos : 0 < pageSize.bytes := by
  rcases pageSize.powerOfTwo with ⟨k, hk⟩
  rw [hk]
  exact Nat.two_pow_pos k

/-- The address with its low bits masked away. -/
def pageAddress (address : Nat) : Nat := address / pageSize.bytes * pageSize.bytes

def pageOffset (address : Nat) : Nat := address - pageSize.pageAddress address

def isAligned (address : Nat) : Bool := pageSize.pageOffset address = 0

theorem pageAddress_le (address : Nat) : pageSize.pageAddress address ≤ address :=
  Nat.div_mul_le_self _ _

theorem lt_pageAddress_add (adr : Nat) : adr < pageSize.pageAddress adr + pageSize.bytes := by
  have h := Nat.lt_div_mul_add pageSize.pos (a := adr)
  unfold pageAddress
  omega

theorem dvd_pageAddress : pageSize.bytes ∣ pageSize.pageAddress address := Nat.dvd_mul_left _ _

theorem isAligned_iff (address : Nat) :
    pageSize.isAligned address = true ↔ pageSize.bytes ∣ address := by
  have hle := pageSize.pageAddress_le address
  rw [isAligned, decide_eq_true_eq, pageOffset]
  constructor
  · intro h
    have heq : pageSize.pageAddress address = address := by omega
    rw [← heq]
    exact pageSize.dvd_pageAddress
  · intro h
    rw [pageAddress, Nat.div_mul_cancel h, Nat.sub_self]

theorem pageAddress_eq_of_mem (haligned : pageSize.bytes ∣ page) (hge : page ≤ adr)
    (hlt : adr < page + pageSize.bytes) : pageSize.pageAddress adr = page := by
  rcases haligned with ⟨k, rfl⟩
  have hdiv : adr / pageSize.bytes = k := by
    rw [Nat.div_eq_iff pageSize.pos, mul_comm k]
    constructor
    · exact hge
    · omega
  rw [pageAddress, hdiv, mul_comm]

theorem page_within {start} (haligned : pageSize.bytes ∣ start) (hge : start ≤ adr)
    (hlt : adr < start + pageSize.bytes * pages) :
    start ≤ pageSize.pageAddress adr ∧
      pageSize.pageAddress adr + pageSize.bytes ≤ start + pageSize.bytes * pages := by
  rcases haligned with ⟨k, rfl⟩
  rw [← Nat.mul_add] at hlt ⊢
  have hpos := pageSize.pos
  have hlow : k ≤ adr / pageSize.bytes := by
    rwa [Nat.le_div_iff_mul_le hpos, mul_comm]
  have hhi : adr / pageSize.bytes < k + pages := by
    rwa [Nat.div_lt_iff_lt_mul hpos, mul_comm]
  have hstart := Nat.mul_le_mul_left pageSize.bytes hlow
  have hstop := Nat.mul_le_mul_left pageSize.bytes (Nat.succ_le_of_lt hhi)
  rw [Nat.mul_succ] at hstop
  rw [pageAddress, mul_comm (adr / pageSize.bytes)]
  exact ⟨hstart, hstop⟩

end TranslationPageSize

structure TranslationPagePermissions where
  (read write execute : Bool)
deriving DecidableEq, Repr

def TranslationPagePermissions.allows (permissions : TranslationPagePermissions) :
    TranslationAccessKind → Bool
  | .instructionFetch => permissions.execute
  | .load | .prefetch => permissions.read
  | .store | .atomic => permissions.write

inductive TranslationPageMappingScope where
  | global | nonGlobal
deriving DecidableEq, Repr

/-- The errors that the modelled functions can return. -/
inductive TranslationError where
  | zeroPageCount
  | unalignedVirtualPage (address pageSize : Nat)
  | unalignedPhysicalPage (address pageSize : Nat)
  | pageRangeOverflow (start pageSize pageCount : Nat)
  | overlappingTranslationMapping (existingStart existingSize requestedStart requestedSize : Nat)
  | addressOverflow (start size : Nat)
  | tlbCapacityExceeded (capacity : Nat)
  | duplicateTlbEntry (virtualPage : Nat)
  | snapshotNextLruTooSmall (nextLru virtualPage lastUsed : Nat)
  | overlappingTlbEntry (addressSpace : TranslationAddressSpaceId)
      (existingStart existingSize requestedStart requestedSize : Nat)
  | tlbOrderOverflow
deriving DecidableEq, Repr

/-! ## Mappings -/

structure TranslationPageMapping where
  virtualRange : AddressRange
  (physicalStart pageCount : Nat)
  permissions : TranslationPagePermissions
  scope : TranslationPageMappingScope
deriving DecidableEq, Repr

namespace TranslationPageMapping

def new (pageSize : TranslationPageSize) (virtualStart physicalStart pageCount : Nat)
    (permissions : TranslationPagePermissions) (scope : TranslationPageMappingScope) :
    Except TranslationError TranslationPageMapping :=
  if hcount : pageCount = 0 then .error .zeroPageCount
  else if pageSize.isAligned virtualStart = false then
    .error (.unalignedVirtualPage virtualStart pageSize.bytes)
  else if pageSize.isAligned physicalStart = false then
    .error (.unalignedPhysicalPage physicalStart pageSize.bytes)
  else if wordLimit ≤ pageSize.bytes * pageCount then
    .error (.pageRangeOverflow virtualStart pageSize.bytes pageCount)
  else if hvirtual : virtualStart + pageSize.bytes * pageCount < wordLimit then
    if physicalStart + pageSize.bytes * pageCount < wordLimit then
      .ok {
        virtualRange := {
          start := virtualStart
          size := ⟨pageSize.bytes * pageCount, Nat.mul_pos pageSize.pos (Nat.pos_of_ne_zero hcount)⟩
          bound := hvirtual }
        physicalStart, pageCount, permissions, scope }
    else .error (.pageRangeOverflow physicalStart pageSize.bytes pageCount)
  else .error (.pageRangeOverflow virtualStart pageSize.bytes pageCount)

/-- What the constructor checked: whole pages, on both sides, that do not wrap. -/
structure Fits (pageSize : TranslationPageSize) (mapping : TranslationPageMapping) : Prop where
  virtualAligned : pageSize.bytes ∣ mapping.virtualRange.start
  physicalAligned : pageSize.bytes ∣ mapping.physicalStart
  whole : mapping.virtualRange.size.bytes = pageSize.bytes * mapping.pageCount
  physicalBound : mapping.physicalStart + mapping.virtualRange.size.bytes < wordLimit

theorem new_fits {pageSize mapping} {virtualStart physicalStart pageCount : Nat}
    {permissions : TranslationPagePermissions} {scope : TranslationPageMappingScope}
    (h : new pageSize virtualStart physicalStart pageCount permissions scope = .ok mapping) :
    mapping.Fits pageSize := by
  unfold new at h
  split at h
  · cases h
  · split at h
    · cases h
    · rename_i hvir
      split at h
      · cases h
      · rename_i hphy
        split at h
        · cases h
        · split at h
          · split at h
            · rename_i hbnd
              cases h
              exact ⟨(pageSize.isAligned_iff _).mp (Bool.not_eq_false _ ▸ hvir),
                (pageSize.isAligned_iff _).mp (Bool.not_eq_false _ ▸ hphy), rfl, hbnd⟩
            · cases h
          · cases h

def physicalAddress (mapping : TranslationPageMapping) (virtualAddress : Nat) : Nat :=
  mapping.physicalStart + (virtualAddress - mapping.virtualRange.start)

variable {pageSize : TranslationPageSize} {mapping : TranslationPageMapping}

/-- A mapping that contains an address contains its page. -/
theorem contains_page (h : mapping.Fits pageSize)
    (haddress : mapping.virtualRange.contains adr = true) :
    mapping.virtualRange.start ≤ pageSize.pageAddress adr ∧
      pageSize.pageAddress adr + pageSize.bytes ≤ mapping.virtualRange.stop := by
  rw [contains_iff, stop, h.whole] at haddress
  rw [stop, h.whole]
  exact pageSize.page_within h.virtualAligned haddress.1 haddress.2

/-- Pages are placed as pages: the page of a physical address is where the page
    of the virtual address is placed. -/
theorem pageAddress_physicalAddress (h : mapping.Fits pageSize)
    (haddress : mapping.virtualRange.contains address = true) :
    pageSize.pageAddress (mapping.physicalAddress address)
      = mapping.physicalAddress (pageSize.pageAddress address) := by
  have hpage := contains_page h haddress
  have hle := pageSize.pageAddress_le address
  have hlt := pageSize.lt_pageAddress_add address
  unfold physicalAddress
  refine pageSize.pageAddress_eq_of_mem ?_ (by omega) (by omega)
  exact Nat.dvd_add h.physicalAligned (Nat.dvd_sub (pageSize.dvd_pageAddress) h.virtualAligned)

end TranslationPageMapping

/-! ## Maps -/

/-- A map of pages of one size. -/
structure TranslationPageMap where
  pageSize : TranslationPageSize
  mappings : List TranslationPageMapping
  fits : ∀ mapping ∈ mappings, mapping.Fits pageSize
  disjoint : mappings.Pairwise fun a b => a.virtualRange.overlaps b.virtualRange = false

namespace TranslationPageMap

def new (pageSize : TranslationPageSize) : TranslationPageMap :=
  ⟨pageSize, [], by simp, List.Pairwise.nil⟩

/-- Mappings are kept in the order of their ranges. -/
def sortMappings (mappings : List TranslationPageMapping) : List TranslationPageMapping :=
  mappings.mergeSort fun a b =>
    toLex (a.virtualRange.start, a.virtualRange.stop)
      ≤ toLex (b.virtualRange.start, b.virtualRange.stop)

theorem overlaps_comm (a b : AddressRange) : a.overlaps b = b.overlaps a := by
  simp only [overlaps, Bool.and_comm]

instance : Std.Symm fun a b : TranslationPageMapping =>
    a.virtualRange.overlaps b.virtualRange = false where
  symm a b h := by rwa [overlaps_comm]

def mapWithScope (map : TranslationPageMap) (virtualStart physicalStart pageCount : Nat)
    (permissions : TranslationPagePermissions) (scope : TranslationPageMappingScope) :
    Except TranslationError TranslationPageMap :=
  match hnew : TranslationPageMapping.new map.pageSize virtualStart physicalStart pageCount
      permissions scope with
  | .error error => .error error
  | .ok mapping =>
    match hfind : map.mappings.find? fun existing =>
        existing.virtualRange.overlaps mapping.virtualRange with
    | some existing => .error (.overlappingTranslationMapping existing.virtualRange.start
        existing.virtualRange.size.bytes mapping.virtualRange.start
        mapping.virtualRange.size.bytes)
    | none =>
      .ok {
        pageSize := map.pageSize
        mappings := sortMappings (map.mappings ++ [mapping])
        fits := by
          intro other hother
          rw [sortMappings, List.mem_mergeSort, List.mem_append, List.mem_singleton] at hother
          rcases hother with hother | rfl
          · exact map.fits other hother
          · exact TranslationPageMapping.new_fits hnew
        disjoint := by
          have hnone := List.find?_eq_none.mp hfind
          refine ((List.mergeSort_perm _ _).pairwise_iff fun {a b} h => ?_).mpr ?_
          · rwa [overlaps_comm]
          · rw [List.pairwise_append]
            refine ⟨map.disjoint, List.pairwise_singleton _ _, fun a ha b hb => ?_⟩
            rw [List.mem_singleton.mp hb]
            exact Bool.eq_false_iff.mpr (hnone a ha) }

def map (pageMap : TranslationPageMap) (virtualStart physicalStart pageCount : Nat)
    (permissions : TranslationPagePermissions) : Except TranslationError TranslationPageMap :=
  pageMap.mapWithScope virtualStart physicalStart pageCount permissions .nonGlobal

variable (pageMap : TranslationPageMap)

def mappingForRange (range : AddressRange) : Option TranslationPageMapping :=
  pageMap.mappings.find? fun mapping => mapping.virtualRange.containsRange range

def translate (request : TranslationRequest) : TranslationResolution :=
  match pageMap.mappingForRange request.range with
  | none => .fault ⟨request.virtualAddress, .pageFault⟩
  | some mapping =>
    if mapping.permissions.allows request.access then
      .mapped (mapping.physicalAddress request.virtualAddress)
    else .fault ⟨request.virtualAddress, .permissionFault⟩

/-- The end of the segment that starts at a cursor: the end of its page, or of
    the request. -/
def segmentStop (cursor stop : Nat) : Nat :=
  let pageStop := pageMap.pageSize.pageAddress cursor + pageMap.pageSize.bytes
  min stop (if pageStop < wordLimit then pageStop else stop)

theorem lt_segmentStop {stop} (h : cursor < stop) : cursor < pageMap.segmentStop cursor stop := by
  have hpage := pageMap.pageSize.lt_pageAddress_add cursor
  simp only [segmentStop]
  split
  · exact Nat.lt_min.mpr ⟨h, hpage⟩
  · exact Nat.lt_min.mpr ⟨h, h⟩

theorem segmentStop_le (cursor stop : Nat) : pageMap.segmentStop cursor stop ≤ stop :=
  Nat.min_le_left _ _

/-- The segment that starts at a cursor inside a request. -/
def segmentRange (range : AddressRange) (cursor : Nat) (h : cursor < range.stop) :
    AddressRange where
  start := cursor
  size := ⟨pageMap.segmentStop cursor range.stop - cursor,
    Nat.sub_pos_of_lt (pageMap.lt_segmentStop h)⟩
  bound := by
    have hlt := pageMap.lt_segmentStop h
    have hle := pageMap.segmentStop_le cursor range.stop
    have hbound : range.stop < wordLimit := range.bound
    change cursor + (pageMap.segmentStop cursor range.stop - cursor) < wordLimit
    omega

/-- The segments of a request from a cursor on. A segment is inside its mapping,
    so the physical range never wraps. -/
def segmentsFrom (request : TranslationRequest) (cursor : Nat) : TranslationSegmentedResolution :=
  if h : cursor < request.range.stop then
    match pageMap.mappingForRange (pageMap.segmentRange request.range cursor h) with
    | none => .fault ⟨cursor, .pageFault⟩
    | some mapping =>
      if mapping.permissions.allows request.access then
        match segmentsFrom request (pageMap.segmentStop cursor request.range.stop) with
        | .fault fault => .fault fault
        | .mapped segments => .mapped
            (⟨pageMap.segmentRange request.range cursor h, mapping.physicalAddress cursor⟩
              :: segments)
      else .fault ⟨cursor, .permissionFault⟩
  else .mapped []
termination_by request.range.stop - cursor
decreasing_by
  have hlt := pageMap.lt_segmentStop h
  omega

def translateSegments (request : TranslationRequest) : TranslationSegmentedResolution :=
  pageMap.segmentsFrom request request.range.start

/-- What the map says about one address: where it is placed and what is allowed
    there. -/
def mappingAt (address : Nat) : Option (Nat × TranslationPagePermissions) :=
  (pageMap.mappings.find? fun mapping => mapping.virtualRange.contains address).map
    fun mapping => (mapping.physicalAddress address, mapping.permissions)

variable {pageMap}

/-- An address is in one mapping only. -/
theorem eq_of_contains {a b} (ha : a ∈ pageMap.mappings) (hb : b ∈ pageMap.mappings)
    (haddress : a.virtualRange.contains adr = true)
    (hotherAddress : b.virtualRange.contains adr = true) :
    a = b := by
  have hoverlap : a.virtualRange.overlaps b.virtualRange = true := by
    rw [contains_iff] at haddress hotherAddress
    rw [overlaps_iff]
    omega
  by_contra hne
  have hdis := pageMap.disjoint.forall ha hb hne
  rw [hdis] at hoverlap
  exact absurd hoverlap (by simp)

/-- A request is translated by the mapping that contains it. -/
theorem mappingForRange_eq_some {mapping range} (hmem : mapping ∈ pageMap.mappings)
    (hrange : mapping.virtualRange.containsRange range = true) :
    pageMap.mappingForRange range = some mapping := by
  cases hfind : pageMap.mappingForRange range with
  | none => exact absurd hrange (List.find?_eq_none.mp hfind mapping hmem)
  | some found =>
    have hfound := List.find?_some hfind
    have hlt := range.start_lt_stop
    rw [containsRange_iff] at hrange hfound
    rw [eq_of_contains (List.mem_of_find?_eq_some hfind) hmem
      ((contains_iff _ _).mpr ⟨hfound.1, by omega⟩)
      ((contains_iff _ _).mpr ⟨hrange.1, by omega⟩)]

theorem mappingAt_eq_some {mapping} (hmem : mapping ∈ pageMap.mappings)
    (haddress : mapping.virtualRange.contains adr = true) :
    pageMap.mappingAt adr = some (mapping.physicalAddress adr, mapping.permissions) := by
  unfold mappingAt
  cases hfind : pageMap.mappings.find? fun mapping => mapping.virtualRange.contains adr with
  | none => exact absurd haddress (List.find?_eq_none.mp hfind mapping hmem)
  | some found =>
    have hfound : found.virtualRange.contains adr = true := by
      simpa only using List.find?_some hfind
    rw [Option.map_some, eq_of_contains (List.mem_of_find?_eq_some hfind) hmem hfound haddress]

/-- An address that the map places somewhere is in a mapping that places it
    there. -/
theorem exists_of_mappingAt {permissions}
    (h : pageMap.mappingAt adr = some (physical, permissions)) :
    ∃ mapping ∈ pageMap.mappings, mapping.virtualRange.contains adr = true ∧
      mapping.physicalAddress adr = physical ∧ mapping.permissions = permissions := by
  rw [mappingAt, Option.map_eq_some_iff] at h
  rcases h with ⟨mapping, hfind, heq⟩
  have hcon : mapping.virtualRange.contains adr = true := by
    simpa only using List.find?_some hfind
  rw [Prod.mk.injEq] at heq
  exact ⟨mapping, List.mem_of_find?_eq_some hfind, hcon, heq.1, heq.2⟩

end TranslationPageMap

end Rem6.Memory
