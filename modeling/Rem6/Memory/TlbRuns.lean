import Rem6.Lib.Run
import Rem6.Memory.Tlb

/-!
# Runs of the Translation Lookaside Buffer

Two results about every run of calls.

The buffer is transparent. It is used beside page maps that change, one for each
address space, all of one page size, and whoever changes a map drops the ranges
whose mapping changed before asking again. `TlbWorld` is the buffer with the maps
as they are and the set of addresses that have changed and were not dropped yet.
Every entry then is a page of the map of its address space as the map is now, or
has a changed address in its page (`Coherent`), so when nothing is left to drop a
lookup says what the map says.

A snapshot can be restored. Restoring rejects entries that overlap, entries that
were used at or after the clock, and more entries than the capacity. Insertion
looks only at the key of an entry, the page it starts at, so pages of two sizes
may overlap; what is restored is a buffer that was given, for each address space,
maps of the page size it holds entries of.

## Main definitions

* `TlbWorld`, `TlbWorld.next`: A buffer beside page maps that change.
* `TlbWorld.Disciplined`: Changed ranges are dropped before the next lookup.
* `TlbWorld.Coherent`: Every entry is current or will be dropped.
* `TranslationTlb.Restorable`: What restoring checks.
* `TlbCall.SameSize`: A call brings no second page size into an address space.

## Theorems

* `Caches.resolve_eq_translate`: A current entry answers as its map does.
* `TlbWorld.transparent`: Every answer is that of the current map.
* `TlbWorld.transparent_after_remap`: A run with a map that changed.
* `TlbWorld.entries_since_dropped`: No entry outlives a drop of its page.
* `TranslationTlb.fromSnapshot_snapshot`: A snapshot is restored as it was.
* `TranslationTlb.fromSnapshot_snapshot_pages`: A run with two address spaces.
* `TranslationTlb.fromSnapshot_two_sizes`: Pages of two sizes are not restored.
-/

namespace Rem6.Memory

open Lib TranslationTlb AddressRange TranslationTlbEntry TlbCall Fallible List
open Lib.Fallible (bind_of_ok bind_of_error)

/-! ## What a lookup answers -/

variable {entries : List TranslationTlbEntry} {call : TlbCall} {entry : TranslationTlbEntry}

namespace TranslationTlb

/-- The answer is as said, unless the clock of the buffer has run out. -/
def Returns {α : Type} (tlb : TranslationTlb) (result : Except TranslationError α)
    (P : α → Prop) : Prop :=
  match result with
  | .ok a => P a
  | .error error => error = .tlbOrderOverflow ∧ wordLimit ≤ tlb.nextLru + 1

/-- A lookup among whole entries finds one of the address space that contains
    the range, or nothing. -/
theorem lookupKey_spec (addressSpace : TranslationAddressSpaceId) (range : AddressRange)
    (hwhole : (∀ entry ∈ entries, entry.Whole)) :
    ∃ found, lookupKey addressSpace range entries = .ok found ∧
        ∀ entry ∈ found, entry ∈ entries ∧ entry.addressSpace = addressSpace ∧ entry.virtualPage ≤
          range.start ∧ range.stop ≤ entry.virtualPage + entry.pageSize.bytes := by
  induction entries with
  | nil => exact ⟨none, rfl, fun entry h => absurd h (Option.not_mem_none entry)⟩
  | cons head rest ih =>
    have hhead := hwhole head mem_cons_self
    rcases ih (fun entry h => hwhole entry (mem_cons_of_mem _ h)) with ⟨found, hfound, hspec⟩
    -- What the rest of the entries give is passed on.
    have hpass : ∀ entry ∈ found, entry ∈ head :: rest ∧ entry.addressSpace = addressSpace ∧
        entry.virtualPage ≤ range.start ∧
        range.stop ≤ entry.virtualPage + entry.pageSize.bytes := by
      intro entry hent
      rcases hspec entry hent with ⟨hmem, hrest⟩
      exact ⟨mem_cons_of_mem _ hmem, hrest⟩
    unfold lookupKey
    split
    next hspace =>
      rw [TranslationTlbEntry.containsRange, hhead.entryRange_eq, Except.map]
      cases hcon : hhead.range.containsRange range with
      | false => exact ⟨found, hfound, hpass⟩
      | true =>
        refine ⟨some head, rfl, ?_⟩
        intro entry hent
        rw [Option.mem_some_iff] at hent
        rw [containsRange_iff, hhead.stop_range] at hcon
        rw [← hent]
        exact ⟨mem_cons_self, hspace, hcon.1, hcon.2⟩
    · exact ⟨found, hfound, hpass⟩

theorem takeNextLru_of_room (tlb : TranslationTlb) (h : tlb.nextLru + 1 < wordLimit) :
    takeNextLru tlb = (.ok tlb.nextLru, { tlb with nextLru := tlb.nextLru + 1 }) :=
  if_pos h

theorem takeNextLru_of_full (tlb : TranslationTlb) (h : ¬tlb.nextLru + 1 < wordLimit) :
    takeNextLru tlb = (.error .tlbOrderOverflow, tlb) :=
  if_neg h

variable {tlb : TranslationTlb} {addressSpace : TranslationAddressSpaceId}
  {request : TranslationRequest}

theorem lookupCached_of_none (h : lookupKey addressSpace request.range tlb.entries = .ok none) :
    lookupCachedInAddressSpace addressSpace request tlb
      = (.ok none, tlb.record (·.recordMiss)) := by
  have hcheck : (check (lookupKey addressSpace request.range tlb.entries)
      : TlbM (Option TranslationTlbEntry)) tlb = (.ok none, tlb) := by
    rw [check_apply, h]
  exact bind_of_ok hcheck

theorem lookupCached_of_some {entry}
    (h : lookupKey addressSpace request.range tlb.entries = .ok (some entry)) :
    (tlb.nextLru + 1 < wordLimit ∧
      (lookupCachedInAddressSpace addressSpace request tlb).1
        = .ok (some ⟨.hit, entry.resolve request⟩)) ∨
    (¬tlb.nextLru + 1 < wordLimit ∧
      (lookupCachedInAddressSpace addressSpace request tlb).1 = .error .tlbOrderOverflow) := by
  have hcheck : (check (lookupKey addressSpace request.range tlb.entries)
      : TlbM (Option TranslationTlbEntry)) tlb = (.ok (some entry), tlb) := by
    rw [check_apply, h]
  have hlk : lookupCachedInAddressSpace addressSpace request tlb
      = (takeNextLru >>= fun lastUsed => (do
          modify (touch entry.key lastUsed)
          modify (recordResolution (entry.resolve request))
          pure (some ⟨.hit, entry.resolve request⟩) : TlbM (Option TranslationTlbLookup)))
        (tlb.record (·.recordHit)) :=
    bind_of_ok hcheck
  rw [hlk]
  by_cases hroom : tlb.nextLru + 1 < wordLimit
  · have htake := takeNextLru_of_room (tlb.record (·.recordHit)) hroom
    rw [bind_of_ok htake]
    exact .inl ⟨hroom, rfl⟩
  · have htake := takeNextLru_of_full (tlb.record (·.recordHit)) hroom
    rw [bind_of_error htake]
    exact .inr ⟨hroom, rfl⟩

theorem fill_returns (tlb : TranslationTlb) (addressSpace : TranslationAddressSpaceId)
    (request : TranslationRequest) (pageMap : TranslationPageMap) :
    Returns tlb (fillFromPageMapInAddressSpace addressSpace request pageMap tlb).1
      fun resolution => resolution = pageMap.translate request := by
  cases htranslate : pageMap.translate request with
  | fault fault =>
    rw [fillFromPageMapInAddressSpace, htranslate]
    exact rfl
  | mapped paddr =>
    rcases translate_eq_mapped htranslate with ⟨mapping, hfind, rfl⟩
    rw [fillFromPageMap_of_mapped hfind htranslate]
    -- The page that is cached is a page of the map, so its range does not wrap.
    have hpage := (caches_of_find hfind addressSpace 0).whole.entryRange_eq
    generalize (caches_of_find hfind addressSpace 0).whole.range = page at hpage
    have hins : Returns tlb (insertMapping addressSpace request
        (mapping.physicalAddress request.virtualAddress) mapping pageMap.pageSize tlb).1
        fun _ => True := by
      have hcheck : (check (entryRange
          (pageMap.pageSize.pageAddress request.virtualAddress) pageMap.pageSize)
          : TlbM AddressRange) tlb = (.ok page, tlb) := by
        rw [check_apply, hpage]
      rw [insertMapping, bind_of_ok hcheck]
      split
      · by_cases hroom : tlb.nextLru + 1 < wordLimit
        · rw [bind_of_ok (takeNextLru_of_room tlb hroom)]
          trivial
        · rw [bind_of_error (takeNextLru_of_full tlb hroom)]
          exact ⟨rfl, Nat.not_lt.mp hroom⟩
      · trivial
    rcases hres : insertMapping addressSpace request
      (mapping.physicalAddress request.virtualAddress) mapping pageMap.pageSize tlb with ⟨res, tlb'⟩
    rw [hres] at hins
    cases res with
    | ok _ =>
      rw [bind_of_ok hres]
      exact rfl
    | error error => rwa [bind_of_error hres]

end TranslationTlb

variable {request : TranslationRequest} {adr capacity frame : Nat}

/-- A page of a map answers a request inside it as the map does. -/
theorem Caches.resolve_eq_translate {pageMap entry} (h : Caches pageMap entry)
    (hstart : entry.virtualPage ≤ request.range.start)
    (hstop : request.range.stop ≤ entry.virtualPage + entry.pageSize.bytes) :
    entry.resolve request = pageMap.translate request := by
  rcases h.exists_mapping with ⟨mapping, hmem, hlow, hhi, hphy, hper⟩
  have hrange := request.range.start_lt_stop
  rw [h.pageSize] at hstop
  have hfind : pageMap.mappingForRange request.range = some mapping := by
    refine TranslationPageMap.mappingForRange_eq_some hmem ?_
    rw [containsRange_iff]
    omega
  have hpage : pageMap.pageSize.pageAddress request.virtualAddress = entry.virtualPage := by
    refine pageMap.pageSize.pageAddress_eq_of_mem h.aligned hstart ?_
    unfold TranslationRequest.virtualAddress
    omega
  have haddress : entry.physicalPage + entry.pageSize.pageOffset request.virtualAddress
      = mapping.physicalAddress request.virtualAddress := by
    rw [h.pageSize, TranslationPageSize.pageOffset, hpage, ← hphy]
    unfold TranslationPageMapping.physicalAddress TranslationRequest.virtualAddress
    omega
  rw [resolve, TranslationPageMap.translate, hfind, haddress]
  simp [hper]

/-! ## Transparency -/

/-- A buffer beside the page maps of the address spaces. An address is stale when
    a map changed there and no range with it was dropped since. -/
structure TlbWorld where
  tlb : TranslationTlb
  maps : TranslationAddressSpaceId → TranslationPageMap
  stale : Nat → Prop

inductive TlbInput where
  | remap (maps : TranslationAddressSpaceId → TranslationPageMap)
  | call (call : TlbCall)

/-- The addresses a call drops from all address spaces. -/
def TlbCall.drops : TlbCall → Nat → Bool
  | .demapRangeAllAddressSpaces virtualRange, address => virtualRange.contains address
  | _, _ => false

/-- The calls that may answer from the buffer. -/
def TlbCall.Reads : TlbCall → Prop
  | .lookupCached .. | .translate .. => True
  | _ => False

namespace TlbWorld

def new (config : TranslationTlbConfig) (maps : TranslationAddressSpaceId → TranslationPageMap) :
    TlbWorld :=
  ⟨TranslationTlb.new config, maps, fun _ => False⟩

def next (world : TlbWorld) : TlbInput → TlbWorld
  | .remap maps =>
    { world with
      maps
      stale := fun address => world.stale address ∨
        ∃ space, (maps space).mappingAt address ≠ (world.maps space).mappingAt address }
  | .call call =>
    { world with
      tlb := call.next world.tlb
      stale := fun address => world.stale address ∧ call.drops address = false }

/-- Maps keep the page size, a call is given the map of its address space as it
    is, and nothing is stale when the buffer is asked. -/
def Disciplined (pageSize : TranslationPageSize) (world : TlbWorld) : TlbInput → Prop
  | .remap maps => ∀ space, (maps space).pageSize = pageSize
  | .call call =>
    (∀ space pageMap, call.Source space pageMap → pageMap = world.maps space) ∧
      (call.Reads → ∀ address, ¬world.stale address)

/-- Every entry is a page of the current map of its space, or has a stale address
    in it. -/
structure Coherent (pageSize : TranslationPageSize) (world : TlbWorld) : Prop where
  sizes : ∀ space, (world.maps space).pageSize = pageSize
  whole : ∀ entry ∈ world.tlb.entries, entry.Whole ∧ entry.pageSize = pageSize
  current : ∀ entry ∈ world.tlb.entries,
    (∃ address, entry.virtualPage ≤ address ∧ address < entry.virtualPage + pageSize.bytes ∧
      world.stale address) ∨ Caches (world.maps entry.addressSpace) entry

variable {pageSize : TranslationPageSize} {world : TlbWorld}

theorem remap_coherent (h : Coherent pageSize world)
    {maps : TranslationAddressSpaceId → TranslationPageMap}
    (hmaps : ∀ space, (maps space).pageSize = pageSize) :
    Coherent pageSize (world.next (.remap maps)) := by
  refine ⟨hmaps, h.whole, fun entry hent => ?_⟩
  rcases h.current entry hent with ⟨adr, hlow, hhi, hstale⟩ | hcaches
  · exact .inl ⟨adr, hlow, hhi, .inl hstale⟩
  · by_cases hsame : (maps entry.addressSpace).mappingAt entry.virtualPage
        = (world.maps entry.addressSpace).mappingAt entry.virtualPage
    · refine .inr ⟨?_, ?_, ?_⟩
      · exact (h.whole entry hent).2.trans (hmaps _).symm
      · change (maps entry.addressSpace).pageSize.bytes ∣ entry.virtualPage
        rw [hmaps, ← h.sizes entry.addressSpace]
        exact hcaches.aligned
      · exact hsame.trans hcaches.page
    · have hpos := pageSize.pos
      exact .inl ⟨entry.virtualPage, le_rfl, by omega, .inr ⟨_, hsame⟩⟩

theorem not_drops_of_mem {entry} {tlb : TranslationTlb}
    (hent : entry ∈ (call.next tlb).entries) (hwhole : entry.Whole) (hlow : entry.virtualPage ≤ adr)
    (hhi : adr < entry.virtualPage + entry.pageSize.bytes) : call.drops adr = false := by
  cases call with
  | demapRangeAllAddressSpaces virtualRange =>
    have hkept : (!entry.overlapsRange virtualRange) = true := (mem_filter.mp hent).2
    simp only [overlapsRange, hwhole.entryRange_eq, Bool.not_eq_eq_eq_not, Bool.not_true] at hkept
    by_contra hdrops
    rw [Bool.not_eq_false, drops, contains_iff] at hdrops
    have hoverlap : hwhole.range.overlaps virtualRange = true := by
      rw [overlaps_iff, hwhole.stop_range]
      change entry.virtualPage < _ ∧ _
      omega
    rw [hkept] at hoverlap
    exact absurd hoverlap (by simp)
  | _ => rfl

theorem call_coherent (h : Coherent pageSize world)
    (hsrc : ∀ space pageMap, call.Source space pageMap → pageMap = world.maps space) :
    Coherent pageSize (world.next (.call call)) := by
  have hmoves := call.perform_moves world.tlb
  have hwhole : ∀ entry ∈ (call.next world.tlb).entries,
      entry.Whole ∧ entry.pageSize = pageSize := by
    intro entry hent
    rcases hmoves.entries entry hent with ⟨old, hold, heq⟩ | ⟨pageMap, hpageMap, hcaches⟩
    · rcases h.whole old hold with ⟨hold', hsize⟩
      rw [← heq]
      exact ⟨⟨hold'.virtualAligned, hold'.physicalAligned, hold'.virtualBound,
        hold'.physicalBound⟩, hsize⟩
    · rw [hsrc _ _ hpageMap] at hcaches
      exact ⟨hcaches.whole, hcaches.pageSize.trans (h.sizes _)⟩
  refine ⟨h.sizes, hwhole, fun entry hent => ?_⟩
  rcases hmoves.entries entry hent with ⟨old, hold, heq⟩ | ⟨pageMap, hpageMap, hcaches⟩
  · rcases h.current old hold with ⟨adr, hlow, hhi, hstale⟩ | hcaches
    · have hpage : entry.virtualPage = old.virtualPage := by rw [← heq]
      refine .inl ⟨adr, ?_, ?_, hstale, ?_⟩
      · rwa [hpage]
      · rwa [hpage]
      · rcases hwhole entry hent with ⟨hentryWhole, hsize⟩
        refine not_drops_of_mem hent hentryWhole ?_ ?_
        · rwa [hpage]
        · rwa [hpage, hsize]
    · refine .inr ?_
      rw [← heq]
      exact hcaches.of_lastUsed
  · refine .inr ?_
    rwa [hsrc _ _ hpageMap] at hcaches

theorem next_coherent {input} (h : Coherent pageSize world)
    (hdis : Disciplined pageSize world input) :
    Coherent pageSize (world.next input) := by
  cases input with
  | remap maps => exact remap_coherent h hdis
  | call call => exact call_coherent h hdis.1

theorem Coherent.found_resolve (h : Coherent pageSize world) (hstale : ∀ adr, ¬world.stale adr)
    (space : TranslationAddressSpaceId) (request : TranslationRequest) :
    ∃ found, lookupKey space request.range world.tlb.entries = .ok found ∧
      ∀ entry ∈ found, entry.resolve request = (world.maps space).translate request := by
  rcases lookupKey_spec space request.range
    (fun entry hent => (h.whole entry hent).1) with ⟨found, hfound, hspec⟩
  refine ⟨found, hfound, fun entry hent => ?_⟩
  rcases hspec entry hent with ⟨hmem, hspace, hlow, hhi⟩
  rcases h.current entry hmem with ⟨adr, -, -, haddress⟩ | hcaches
  · exact absurd haddress (hstale adr)
  · rw [hspace] at hcaches
    exact hcaches.resolve_eq_translate hlow hhi

theorem Coherent.peek_returns {space} (h : Coherent pageSize world)
    (hstale : ∀ adr, ¬world.stale adr) :
    world.tlb.Returns (world.tlb.peekCachedInAddressSpace space request) fun found =>
      ∀ lookup ∈ found, lookup.resolution = (world.maps space).translate request := by
  rcases h.found_resolve hstale space request with ⟨found, hfound, hres⟩
  rw [peekCachedInAddressSpace, hfound]
  intro lookup hlk
  rcases Option.map_eq_some_iff.mp hlk with ⟨entry, hent, rfl⟩
  exact hres entry hent

theorem Coherent.lookup_returns {space} (h : Coherent pageSize world)
    (hstale : ∀ adr, ¬world.stale adr) :
    world.tlb.Returns (lookupCachedInAddressSpace space request world.tlb).1
      fun found => ∀ lookup ∈ found,
        lookup.resolution = (world.maps space).translate request := by
  rcases h.found_resolve hstale space request with ⟨found, hfound, hresolve⟩
  cases found with
  | none =>
    rw [lookupCached_of_none hfound]
    exact fun lookup hlk => absurd hlk (Option.not_mem_none lookup)
  | some entry =>
    rcases lookupCached_of_some hfound with ⟨-, hres⟩ | ⟨hfull, hres⟩
    · rw [hres]
      intro lookup hlk
      cases hlk
      exact hresolve entry rfl
    · rw [hres]
      exact ⟨rfl, not_lt.mp hfull⟩

theorem Coherent.translate_returns {space} (h : Coherent pageSize world)
    (hstale : ∀ adr, ¬world.stale adr) :
    world.tlb.Returns (translateInAddressSpace space request (world.maps space) world.tlb).1
      fun lookup => lookup.resolution = (world.maps space).translate request := by
  rcases h.found_resolve hstale space request with ⟨found, hfound, hresolve⟩
  cases found with
  | none =>
    have hmiss := lookupCached_of_none hfound
    have hfill := fill_returns (world.tlb.record (·.recordMiss)) space request (world.maps space)
    rw [translateInAddressSpace, bind_of_ok hmiss]
    simp only
    rcases hres : fillFromPageMapInAddressSpace space request
      (world.maps space) (world.tlb.record (·.recordMiss)) with ⟨res, tlb⟩
    rw [hres] at hfill
    cases res with
    | ok resolution => rwa [bind_of_ok hres]
    | error error => rwa [bind_of_error hres]
  | some entry =>
    rcases hlk : lookupCachedInAddressSpace space request world.tlb with ⟨res, tlb⟩
    have hcases := lookupCached_of_some hfound
    rw [hlk] at hcases
    rw [translateInAddressSpace]
    rcases hcases with ⟨-, hres⟩ | ⟨hfull, hres⟩
    · simp only at hres
      rw [hres] at hlk
      rw [bind_of_ok hlk]
      exact hresolve entry rfl
    · simp only at hres
      rw [hres] at hlk
      rw [bind_of_error hlk]
      exact ⟨rfl, not_lt.mp hfull⟩

/-- A buffer never holds more entries than its capacity. -/
theorem next_count {input}
    (h : world.tlb.config.capacity = capacity ∧ world.tlb.entryCount ≤ capacity) :
    (world.next input).tlb.config.capacity = capacity ∧
      (world.next input).tlb.entryCount ≤ capacity := by
  cases input with
  | remap maps => exact h
  | call call =>
    have hmoves := call.perform_moves world.tlb
    have hcnt := hmoves.count
    unfold entryCount at h ⊢
    refine ⟨?_, ?_⟩
    · exact (congrArg TranslationTlbConfig.capacity hmoves.config).trans h.1
    · change (call.perform world.tlb).2.entries.length ≤ capacity
      omega

/-- In every run in which changed ranges are dropped before the buffer is asked,
    what it answers is what the current map says, and it stays within its
    capacity. -/
theorem transparent (config : TranslationTlbConfig) (pageSize : TranslationPageSize)
    (maps : TranslationAddressSpaceId → TranslationPageMap) (inputs : List TlbInput)
    (hmaps : ∀ space, (maps space).pageSize = pageSize)
    (h : Along next (Disciplined pageSize) (new config maps) inputs) :
    (run next (new config maps) inputs).tlb.entryCount ≤ config.capacity ∧
    ((∀ address, ¬(run next (new config maps) inputs).stale address) →
      ∀ (space : TranslationAddressSpaceId) (request : TranslationRequest),
        (run next (new config maps) inputs).tlb.Returns
          (translateInAddressSpace space request
            ((run next (new config maps) inputs).maps space)
            (run next (new config maps) inputs).tlb).1
          (fun lookup => lookup.resolution
            = ((run next (new config maps) inputs).maps space).translate request) ∧
        (run next (new config maps) inputs).tlb.Returns
          (lookupCachedInAddressSpace space request (run next (new config maps) inputs).tlb).1
          (fun found => ∀ lookup ∈ found, lookup.resolution
            = ((run next (new config maps) inputs).maps space).translate request) ∧
        (run next (new config maps) inputs).tlb.Returns
          ((run next (new config maps) inputs).tlb.peekCachedInAddressSpace space request)
          (fun found => ∀ lookup ∈ found, lookup.resolution
            = ((run next (new config maps) inputs).maps space).translate request)) := by
  have hcoherent : Coherent pageSize (run next (new config maps) inputs) := by
    refine along_invariant next (Disciplined pageSize) (Coherent pageSize)
      (fun world input hworld hinput => next_coherent hworld hinput) inputs _ ?_ h
    exact ⟨hmaps, fun entry hentry => absurd hentry not_mem_nil,
      fun entry hentry => absurd hentry not_mem_nil⟩
  have hcount := along_invariant next (Disciplined pageSize)
    (fun world => world.tlb.config.capacity = config.capacity ∧
      world.tlb.entryCount ≤ config.capacity)
    (fun world input hworld _ => next_count hworld) inputs (new config maps)
    ⟨rfl, Nat.zero_le _⟩ h
  generalize run next (new config maps) inputs = world at hcoherent hcount ⊢
  refine ⟨hcount.2, fun hstale space request => ⟨?_, ?_, ?_⟩⟩
  · exact hcoherent.translate_returns hstale
  · exact hcoherent.lookup_returns hstale
  · exact hcoherent.peek_returns hstale

/-- A map of one page. -/
def singlePage (pageSize : TranslationPageSize) (page frame : Nat)
    (hvirtual : pageSize.bytes * page + pageSize.bytes < wordLimit)
    (hphysical : pageSize.bytes * frame + pageSize.bytes < wordLimit) : TranslationPageMap where
  pageSize
  mappings := [{
    virtualRange := ⟨pageSize.bytes * page, ⟨pageSize.bytes, pageSize.pos⟩, hvirtual⟩
    physicalStart := pageSize.bytes * frame
    pageCount := 1
    permissions := ⟨true, true, true⟩
    scope := .nonGlobal }]
  fits := by
    exact forall_mem_singleton.mpr (⟨Nat.dvd_mul_right _ _, Nat.dvd_mul_right _ _,
      (Nat.mul_one _).symm, hphysical⟩)
  disjoint := pairwise_singleton _ _

def fourKib : TranslationPageSize := ⟨4096, 12, rfl⟩

def eightKib : TranslationPageSize := ⟨8192, 13, rfl⟩

/-- A load of eight bytes. -/
def loadAt (address : Nat) (h : address + 8 < wordLimit) : TranslationRequest where
  id := ⟨0, 0⟩
  range := ⟨address, ⟨8, by decide⟩, h⟩
  access := .load

/-- The first page is moved to another frame, and its range dropped. -/
def movedPage : List TlbInput :=
  [.call (.translate 0 (loadAt 16 (by decide)) (singlePage fourKib 0 8 (by decide) (by decide))),
    .remap fun _ => singlePage fourKib 0 9 (by decide) (by decide),
    .call (.demapRangeAllAddressSpaces ⟨0, ⟨4096, by decide⟩, by decide⟩)]

theorem mappingAt_singlePage_of_le (hphy : fourKib.bytes * frame + fourKib.bytes < wordLimit)
    (h : 4096 ≤ adr) : (singlePage fourKib 0 frame (by decide) hphy).mappingAt adr = none := by
  have hout : contains
      ⟨fourKib.bytes * 0, ⟨fourKib.bytes, fourKib.pos⟩, by decide⟩ adr = false := by
    rw [← Bool.not_eq_true, contains_iff]
    simp only [stop, fourKib]
    omega
  simp only [TranslationPageMap.mappingAt, singlePage, find?_singleton, hout,
    Bool.false_eq_true, if_false, Option.map_none]

def movedWorld : TlbWorld :=
  run next (new ⟨1, Nat.one_pos⟩ fun _ => singlePage fourKib 0 8 (by decide) (by decide)) movedPage

theorem movedWorld_stale (address : Nat) : ¬movedWorld.stale address := by
  rintro ⟨⟨hfalse, -⟩ | ⟨space, hne⟩, hdrops⟩
  · exact hfalse
  · -- The maps differ on the first page only, and that range was dropped.
    have hle : 4096 ≤ address := by
      by_contra hlt
      have hcon : contains ⟨0, ⟨4096, by decide⟩, by decide⟩ address = true := by
        rw [contains_iff]
        simp only [stop]
        omega
      rw [drops, hcon] at hdrops
      exact absurd hdrops (by simp)
    refine hne ?_
    rw [mappingAt_singlePage_of_le _ hle]
    exact (mappingAt_singlePage_of_le (by decide) hle).symm

theorem movedPage_disciplined :
    Along next (Disciplined fourKib)
      (new ⟨1, by decide⟩ fun _ => singlePage fourKib 0 8 (by decide) (by decide)) movedPage := by
  refine ⟨⟨?_, fun _ _ hfalse => hfalse⟩, fun _ => rfl, ⟨?_, ?_⟩, trivial⟩
  · rintro space pageMap ⟨-, rfl⟩
    rfl
  · intro space pageMap hsrc
    exact absurd hsrc (by simp [Source])
  · intro hreads
    exact absurd hreads (by simp [Reads])

/-- After the first page moved, a load from it goes to the new frame. -/
theorem transparent_after_remap :
    movedWorld.tlb.Returns
      (translateInAddressSpace 0 (loadAt 16 (by decide)) (movedWorld.maps 0) movedWorld.tlb).1
      (fun lookup => lookup.resolution = (movedWorld.maps 0).translate (loadAt 16 (by decide))) ∧
    (movedWorld.maps 0).translate (loadAt 16 (by decide)) = .mapped (4096 * 9 + 16) := by
  have htransparent := transparent ⟨1, by decide⟩ fourKib
    (fun _ => singlePage fourKib 0 8 (by decide) (by decide)) movedPage (fun _ => rfl)
    movedPage_disciplined
  rw [← movedWorld] at htransparent
  have hcurrent := htransparent.2 movedWorld_stale
  have hload := hcurrent 0 (loadAt 16 (by decide))
  refine ⟨hload.1, ?_⟩
  decide +kernel

/-- Whatever maps the calls are given, a buffer stays within its capacity, every
    entry is a page of one of them, and after that call no address of the page was
    dropped from all address spaces. -/
theorem entries_since_dropped (config : TranslationTlbConfig) (calls : List TlbCall) :
    let tlb := run TlbCall.next (.new config) calls
    tlb.config = config ∧ tlb.entryCount ≤ config.capacity ∧
      ∀ entry ∈ tlb.entries, ∃ front call back pageMap, calls = front ++ call :: back ∧
        call.Source entry.addressSpace pageMap ∧ Caches pageMap entry ∧
        ∀ later ∈ back, ∀ address, entry.virtualPage ≤ address →
          address < entry.virtualPage + entry.pageSize.bytes → later.drops address = false := by
  induction calls using reverseRecOn with
  | nil => exact ⟨rfl, Nat.zero_le _, by simp [run, TranslationTlb.new]⟩
  | append_singleton calls call ih =>
    obtain ⟨hconfig, hcount, hentries⟩ := ih
    have hmoves := call.perform_moves (run TlbCall.next (.new config) calls)
    rw [run_append]
    refine ⟨hmoves.config.trans hconfig, ?_, fun entry hentry => ?_⟩
    · exact hmoves.count.trans (by rw [hconfig]; exact max_le hcount le_rfl)
    rcases hmoves.entries entry hentry with ⟨old, hold, hsame⟩ | ⟨pageMap, hmap⟩
    · obtain ⟨front, earlier, back, pageMap, rfl, hsource, hcaches, hkept⟩ := hentries old hold
      rw [← hsame] at hentry ⊢
      refine ⟨front, earlier, back ++ [call], pageMap, by simp, hsource, hcaches.of_lastUsed, ?_⟩
      intro later hlater address hlow hhigh
      rcases mem_append.mp hlater with hback | hlast
      · exact hkept later hback address hlow hhigh
      · rw [mem_singleton.mp hlast]
        exact not_drops_of_mem hentry hcaches.of_lastUsed.whole hlow hhigh
    · exact ⟨calls, call, [], pageMap, rfl, hmap.1, hmap.2, by simp⟩

end TlbWorld

/-! ## Restoring a snapshot -/

/-- A call brings no second page size into an address space. -/
def TlbCall.SameSize (tlb : TranslationTlb) (call : TlbCall) : Prop :=
  ∀ space pageMap, call.Source space pageMap →
    ∀ entry ∈ tlb.entries, entry.addressSpace = space → entry.pageSize = pageMap.pageSize

theorem TlbCall.source_unique {space first second} (h : call.Source space first)
    (h' : call.Source space second) : first = second := by
  cases call with
  | translate | fill | fillSegments => exact h.2.trans h'.2.symm
  | _ => exact absurd h (by simp [Source])

namespace TranslationTlb

/-- What restoring checks of the entries. -/
structure Restorable (tlb : TranslationTlb) : Prop where
  whole : ∀ entry ∈ tlb.entries, entry.Whole
  sameSize : ∀ a ∈ tlb.entries, ∀ b ∈ tlb.entries,
    a.addressSpace = b.addressSpace → a.pageSize = b.pageSize
  used : ∀ entry ∈ tlb.entries, entry.lastUsed < tlb.nextLru
  count : tlb.entries.length ≤ tlb.config.capacity

theorem new_restorable {cfg : TranslationTlbConfig} : Restorable (new cfg) :=
  ⟨fun _ h => absurd h not_mem_nil, fun _ h => absurd h not_mem_nil,
    fun _ h => absurd h not_mem_nil, Nat.zero_le _⟩

/-- The page size of an entry after a call is that of an entry of its address
    space before the call, or of the map the call was given. -/
theorem next_restorable {tlb} (h : Restorable tlb) (hsize : call.SameSize tlb) :
    Restorable (call.next tlb) := by
  have hmoves := call.perform_moves tlb
  refine ⟨fun entry hent => ?_, fun a ha b hb hspace => ?_, fun entry hent => ?_, ?_⟩
  · rcases hmoves.entries entry hent with ⟨old, hold, heq⟩ | ⟨pageMap, -, hcaches⟩
    · have hwhole := h.whole old hold
      rw [← heq]
      exact ⟨hwhole.virtualAligned, hwhole.physicalAligned, hwhole.virtualBound,
        hwhole.physicalBound⟩
    · exact hcaches.whole
  · rcases hmoves.entries a ha with ⟨olda, holda, heqa⟩ | ⟨mapa, hmapa, hcachesa⟩
    · rcases hmoves.entries b hb with ⟨oldb, holdb, heqb⟩ | ⟨mapb, hmapb, hcachesb⟩
      · rw [← heqa, ← heqb] at hspace ⊢
        exact h.sameSize olda holda oldb holdb hspace
      · rw [hcachesb.pageSize]
        rw [← heqa] at hspace ⊢
        exact hsize _ _ hmapb olda holda hspace
    · rcases hmoves.entries b hb with ⟨oldb, holdb, heqb⟩ | ⟨mapb, hmapb, hcachesb⟩
      · rw [hcachesa.pageSize]
        rw [← heqb] at hspace ⊢
        exact (hsize _ _ hmapa oldb holdb hspace.symm).symm
      · rw [hspace] at hmapa
        rw [hcachesa.pageSize, hcachesb.pageSize, source_unique hmapa hmapb]
  · rcases hmoves.used entry hent with hold | hlt
    · exact (h.used entry hold).trans_le hmoves.clock
    · exact hlt
  · have hcnt := hmoves.count
    have hbef := h.count
    have hcfg : (call.next tlb).config = tlb.config := hmoves.config
    rw [hcfg]
    change (call.perform tlb).2.entries.length ≤ _
    omega

theorem not_overlaps_of_ne {a b : TranslationTlbEntry} (ha : a.Whole) (hb : b.Whole)
    (hsize : a.pageSize = b.pageSize) (hne : a.virtualPage ≠ b.virtualPage) :
    ha.range.overlaps hb.range = false := by
  rw [← Bool.not_eq_true, overlaps_iff, ha.stop_range, hb.stop_range]
  change ¬(a.virtualPage < _ ∧ b.virtualPage < _)
  intro hoverlap
  have hapage := ha.virtualAligned
  have hbpage := hb.virtualAligned
  have hpos := b.pageSize.pos
  rw [hsize] at hapage hoverlap
  -- Both are the page of the larger of the two addresses.
  rcases Nat.lt_or_gt_of_ne hne with hlt | hgt
  · have hself := b.pageSize.pageAddress_eq_of_mem hbpage le_rfl (by omega)
    have hoth := b.pageSize.pageAddress_eq_of_mem hapage hlt.le (by omega)
    exact hne (hoth.symm.trans hself)
  · have hself := b.pageSize.pageAddress_eq_of_mem hapage le_rfl (by omega)
    have hoth := b.pageSize.pageAddress_eq_of_mem hbpage hgt.le (by omega)
    exact hne (hself.symm.trans hoth)

theorem findOverlap_of_disjoint (hent : entry.Whole)
    (hwhole : (∀ other ∈ entries, other.Whole))
    (hoth : (∀ other ∈ entries, other.addressSpace = entry.addressSpace → other.pageSize =
      entry.pageSize ∧ other.virtualPage ≠ entry.virtualPage)) :
    findOverlap entry hent.range entries = .ok () := by
  induction entries with
  | nil => rfl
  | cons head rest ih =>
    have hhead := hwhole head mem_cons_self
    have hrest := ih (fun other h => hwhole other (mem_cons_of_mem _ h))
      (fun other h => hoth other (mem_cons_of_mem _ h))
    unfold findOverlap
    by_cases hspace : head.addressSpace = entry.addressSpace
    · rcases hoth head mem_cons_self hspace with ⟨hsize, hne⟩
      rw [if_neg (not_not_intro hspace), hhead.entryRange_eq]
      simp only [not_overlaps_of_ne hhead hent hsize hne, Bool.false_eq_true, if_false]
      exact hrest
    · rwa [if_pos hspace]

theorem Whole.fromSnapshot_eq (h : entry.Whole) :
    entry.fromSnapshot = .ok entry := by
  have hvir := (entry.pageSize.isAligned_iff _).mpr h.virtualAligned
  have hphy := (entry.pageSize.isAligned_iff _).mpr h.physicalAligned
  rw [TranslationTlbEntry.fromSnapshot, hvir, hphy, h.entryRange_eq, entryRange,
    dif_pos h.physicalBound]
  rfl

/-- Entries that pass the checks against each other and against those restored
    before are put in one after another. -/
theorem restoreEntries_of_sorted (nextLru : Nat) (rest : List TranslationTlbEntry)
    (tlb : TranslationTlb) (hsorted : SortedMap.Sorted key (tlb.entries ++ rest))
    (hchecks : (∀ entry ∈ tlb.entries ++ rest, entry.Whole ∧ entry.lastUsed < nextLru))
    (hsizes : (∀ a ∈ tlb.entries ++ rest, ∀ b ∈ tlb.entries ++ rest, a.addressSpace = b.addressSpace
      → a.pageSize = b.pageSize)) :
    ∃ restored, restoreEntries nextLru tlb rest = .ok restored ∧
        restored.entries = tlb.entries ++ rest ∧ restored.config = tlb.config ∧
        restored.nextLru = tlb.nextLru ∧ restored.stats = tlb.stats := by
  induction rest generalizing tlb with
  | nil => exact ⟨tlb, rfl, (append_nil _).symm, rfl, rfl, rfl⟩
  | cons head rest ih =>
    have hmem : head ∈ tlb.entries ++ head :: rest := mem_append_right _ mem_cons_self
    have hlt : ∀ other ∈ tlb.entries, other.key < head.key := fun other hoth =>
      (pairwise_append.mp hsorted).2.2 other hoth head mem_cons_self
    rcases hchecks head hmem with ⟨hwhole, hused⟩
    have hput : (tlb.put head).entries = tlb.entries ++ [head] := SortedMap.insert_of_forall_lt hlt
    have happend : (tlb.put head).entries ++ rest = tlb.entries ++ head :: rest := by
      rw [hput, append_assoc, singleton_append]
    have hnew : tlb.containsEntry head.addressSpace head.virtualPage = false := by
      rw [containsEntry, any_eq_false]
      intro other hoth hkey
      exact absurd (of_decide_eq_true hkey) (ne_of_lt (hlt other hoth))
    have hoverlap : findOverlap head hwhole.range tlb.entries = .ok () := by
      refine findOverlap_of_disjoint hwhole
        (fun other hoth => (hchecks other (mem_append_left _ hoth)).1)
        (fun other hoth hspace => ⟨?_, fun hpage => ?_⟩)
      · exact hsizes other (mem_append_left _ hoth) head hmem hspace
      · exact absurd (key_eq_iff.mpr ⟨hspace, hpage⟩) (ne_of_lt (hlt other hoth))
    have hstep : restoreEntries nextLru tlb (head :: rest)
        = restoreEntries nextLru (tlb.put head) rest := by
      simp only [restoreEntries, hnew, Whole.fromSnapshot_eq hwhole, not_le.mpr hused,
        hwhole.entryRange_eq, hoverlap, Bool.false_eq_true, if_false, bind, Except.bind]
    rw [hstep, ← happend]
    refine ih (tlb.put head) ?_ ?_ ?_
    · rwa [happend]
    · rwa [happend]
    · rwa [happend]

theorem fromSnapshot_of_restorable {tlb} (h : Restorable tlb) :
    fromSnapshot tlb.snapshot = .ok tlb := by
  rcases restoreEntries_of_sorted tlb.nextLru tlb.entries
    { config := tlb.config, entries := [], sorted := Pairwise.nil
      nextLru := tlb.nextLru, stats := tlb.stats } tlb.sorted
    (fun entry hent => ⟨h.whole entry hent, h.used entry hent⟩) h.sameSize
    with ⟨restored, hres, hents, hcfg, hclk, hstats⟩
  have hequ : restored = tlb := by
    cases restored
    cases tlb
    simp only [nil_append] at hents hcfg hclk hstats
    simp only [mk.injEq]
    exact ⟨hcfg, hents, hclk, hstats⟩
  have hcnt : ¬tlb.snapshot.config.capacity < tlb.snapshot.entries.length := not_lt.mpr h.count
  rw [fromSnapshot, if_neg hcnt]
  exact hres.trans (congrArg Except.ok hequ)

/-- A buffer that was given maps of one page size for each address space is
    restored from its snapshot as it was. -/
theorem fromSnapshot_snapshot (config : TranslationTlbConfig) (calls : List TlbCall)
    (h : Along next SameSize (new config) calls) :
    fromSnapshot (run next (new config) calls).snapshot = .ok (run next (new config) calls) :=
  fromSnapshot_of_restorable (along_invariant next SameSize Restorable
    (fun _ _ htlb hsize => next_restorable htlb hsize) calls _ (new_restorable) h)

open TlbWorld (singlePage fourKib eightKib loadAt)

/-- Two address spaces may use two page sizes. -/
theorem fromSnapshot_snapshot_pages :
    fromSnapshot (run next (new ⟨2, by decide⟩)
      [.translate 0 (loadAt 4096 (by decide)) (singlePage fourKib 1 1 (by decide) (by decide)),
        .translate 1 (loadAt 0 (by decide))
          (singlePage eightKib 0 0 (by decide) (by decide))]).snapshot
      = .ok (run next (new ⟨2, by decide⟩)
        [.translate 0 (loadAt 4096 (by decide)) (singlePage fourKib 1 1 (by decide) (by decide)),
          .translate 1 (loadAt 0 (by decide))
            (singlePage eightKib 0 0 (by decide) (by decide))]) := by
  refine fromSnapshot_snapshot ⟨2, by decide⟩ _ ⟨?_, ?_, trivial⟩
  · exact fun _ _ _ entry hentry => absurd hentry not_mem_nil
  · rintro space pageMap ⟨rfl, rfl⟩ entry hentry hspace
    have hfirst : entry.addressSpace = 0 := by
      rcases (perform_moves _ _).entries entry hentry with
        ⟨old, hold, -⟩ | ⟨_, hsource, -⟩
      · cases hold
      · exact hsource.1
    exact absurd (hfirst.symm.trans hspace) (by decide)

/-- Pages of two sizes in one address space overlap, and the snapshot is
    rejected. -/
theorem fromSnapshot_two_sizes :
    (fromSnapshot (run next (new ⟨2, by decide⟩)
      [.translate 0 (loadAt 4096 (by decide)) (singlePage fourKib 1 1 (by decide) (by decide)),
        .translate 0 (loadAt 0 (by decide))
          (singlePage eightKib 0 0 (by decide) (by decide))]).snapshot)
      = .error (.overlappingTlbEntry 0 0 8192 4096 4096) := by
  rfl

end TranslationTlb

end Rem6.Memory
