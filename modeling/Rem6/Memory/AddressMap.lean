import Mathlib.Data.List.Pairwise
import Mathlib.Data.List.Sort
import Mathlib.Data.Nat.ModEq
import Mathlib.Data.Prod.Lex
import Rem6.Memory.Types

/-!
# Address Maps

A region of the address space that belongs to a target. It has a base range,
holes in it, and it may be one of several stripes: the addresses of the base that
are not in a hole are numbered without gaps, cut into chunks of one size, and the
chunks are dealt out in turn. The region has the chunks of its own index.

A decoder is a list of regions. It refuses a region that overlaps one that it
has, and keeps the regions in the order of their keys. Two regions whose bases
overlap and that are stripes of the same shape with different indexes are taken
to be apart. They are if their numbering agrees on the addresses they share, which
it does when they have the same holes and start at the same place in a round of
stripes (`Congruent`). Two stripes that start at different places of a round can
share an address, and the decoder accepts them (`shifted_stripes_share`).

The order of insertion never matters: regions of equal keys overlap, so the list
is determined by what is in it (`insertAll_perm`).

## Main definitions

* `AddressInterleave`, `AddressMapRegion`: Stripes and regions. A region carries
  the fact that its holes are inside the base, apart and in order.
* `normalizeSparseHoles`: The check of a list of holes.
* `AddressMapRegion.offset`, `overlaps`: Containment and overlap.
* `AddressDecoder.insertRegion`, `insertAll`, `decodeDetail`: Decoders.
* `Congruent`: Two regions number the addresses they share alike.

## Theorems

* `sparseOffset_add`: The number of an address, without underflow.
* `not_contains_of_disjointFrom`: Stripes of one numbering are apart.
* `AddressDecoder.insertAll_perm`: The order of insertion does not matter.
* `AddressDecoder.insertAll_apart`: No address is in two regions.
* `AddressDecoder.stripes_apart`: Two stripes of one base.
* `AddressDecoder.shifted_stripes_share`: Two stripes of shifted bases.
-/

namespace Rem6.Memory

open AddressRange List

abbrev MemoryTargetId := Nat

/-! ## Stripes -/

/-- One of several stripes. Their number is a 32-bit word. -/
structure AddressInterleave where
  granularity : AccessSize
  (stripes matchIndex : Nat)
  word : stripes < 2 ^ 32
  inRange : matchIndex < stripes
deriving DecidableEq

open AddressInterleave

namespace AddressInterleave

def modulo (granularity : AccessSize) (stripes matchIndex : Nat) (word : stripes < 2 ^ 32) :
    Except MemoryError AddressInterleave :=
  if stripes = 0 then .error .zeroInterleaveStripes
  else if h : matchIndex < stripes then .ok ⟨granularity, stripes, matchIndex, word, h⟩
  else .error (.interleaveMatchOutOfRange stripes matchIndex)

variable (interleave other : AddressInterleave)

def containsOffset (offset : Nat) : Bool :=
  offset / interleave.granularity.bytes % interleave.stripes = interleave.matchIndex

def localOffset (offset : Nat) : Option Nat :=
  if interleave.containsOffset offset then
    let chunk := offset / interleave.granularity.bytes
    let withinChunk := offset % interleave.granularity.bytes
    some (chunk / interleave.stripes * interleave.granularity.bytes + withinChunk)
  else none

def disjointFrom : Bool :=
  interleave.granularity = other.granularity && interleave.stripes = other.stripes
    && interleave.matchIndex ≠ other.matchIndex

end AddressInterleave

/-! ## Holes -/

/-- The loop of `normalizeSparseHoles`: each hole is inside the base and does not
    overlap the one before it. -/
def normalizeFrom (base : AddressRange) (normalized : List AddressRange) :
    List AddressRange → Except MemoryError (List AddressRange)
  | [] => .ok normalized
  | hole :: rest =>
    if base.containsRange hole = false then .error (.sparseHoleOutsideRange base hole)
    else
      match normalized.getLast? with
      | some existing =>
        if existing.overlaps hole then .error (.overlappingSparseHole existing hole)
        else normalizeFrom base (normalized ++ [hole]) rest
      | none => normalizeFrom base (normalized ++ [hole]) rest

def normalizeSparseHoles (base : AddressRange) (holes : List AddressRange) :
    Except MemoryError (List AddressRange) :=
  normalizeFrom base []
    (holes.mergeSort fun a b => toLex (a.start, a.stop) ≤ toLex (b.start, b.stop))

/-- Holes inside the base, apart and in order. -/
structure Normalized (base : AddressRange) (holes : List AddressRange) : Prop where
  inside : ∀ hole ∈ holes, base.containsRange hole = true
  apart : holes.Pairwise fun a b => a.stop ≤ b.start

variable {base : AddressRange}

/-- A hole that starts no earlier than the last one and does not overlap it comes
    after all of them. -/
theorem Normalized.append {holes hole}
    (h : Normalized base holes) (hins : base.containsRange hole = true)
    (hlast : ∀ existing ∈ holes.getLast?,
      existing.start ≤ hole.start ∧ existing.overlaps hole = false) :
    Normalized base (holes ++ [hole]) := by
  have haft : ∀ existing ∈ holes, existing.stop ≤ hole.start := by
    rcases eq_nil_or_concat' holes with rfl | ⟨before, last, rfl⟩
    · exact by simp
    · rcases hlast last (by rw [getLast?_concat]; rfl) with ⟨hstart, hoverlap⟩
      have hstop : last.stop ≤ hole.start := by
        have hnon := hole.start_lt_stop
        rw [← Bool.not_eq_true, overlaps_iff] at hoverlap
        omega
      intro existing hmem
      rcases mem_append.mp hmem with hbef | hsame
      · have hle := (pairwise_append.mp h.apart).2.2 existing hbef last (mem_singleton.mpr rfl)
        have hnon := last.start_lt_stop
        omega
      · rwa [mem_singleton.mp hsame]
  refine ⟨fun other hoth => ?_, ?_⟩
  · rcases mem_append.mp hoth with hoth | hoth
    · exact h.inside other hoth
    · rwa [mem_singleton.mp hoth]
  · refine pairwise_append.mpr ⟨h.apart, pairwise_singleton _ _, fun a ha b hb => ?_⟩
    rw [mem_singleton.mp hb]
    exact haft a ha

theorem normalizeFrom_normalized :
    ∀ (rest normalized : List AddressRange) {result : List AddressRange},
      (normalized ++ rest).Pairwise (fun a b => a.start ≤ b.start) → Normalized base normalized →
      normalizeFrom base normalized rest = .ok result → Normalized base result := by
  intro rest
  induction rest with
  | nil =>
    intro normalized result _ hnormalized h
    cases h
    exact hnormalized
  | cons hole rest ih =>
    intro normalized result hsorted hnormalized h
    have hsorted' : (normalized ++ [hole] ++ rest).Pairwise fun a b => a.start ≤ b.start := by
      rwa [append_assoc, singleton_append]
    have hstart : ∀ existing ∈ normalized, existing.start ≤ hole.start := fun existing hmem =>
      (pairwise_append.mp hsorted).2.2 existing hmem hole mem_cons_self
    unfold normalizeFrom at h
    split at h
    · cases h
    · rename_i hins
      rw [Bool.not_eq_false] at hins
      split at h
      · rename_i existing hexisting
        split at h
        · cases h
        · rename_i hoverlap
          refine ih _ hsorted' (hnormalized.append hins fun other hoth => ?_) h
          rw [Option.mem_def, hexisting] at hoth
          cases hoth
          exact ⟨hstart existing (mem_of_getLast? hexisting), Bool.eq_false_iff.mpr hoverlap⟩
      · rename_i hemp
        refine ih _ hsorted' (hnormalized.append hins fun other hoth => ?_) h
        rw [Option.mem_def, hemp] at hoth
        cases hoth

theorem normalizeSparseHoles_normalized {holes result}
    (h : normalizeSparseHoles base holes = .ok result) :
    Normalized base result := by
  refine normalizeFrom_normalized _ [] ?_ ⟨by simp, Pairwise.nil⟩ h
  rw [nil_append]
  have hsorted := pairwise_mergeSort' (fun a b : AddressRange =>
    toLex (a.start, a.stop) ≤ toLex (b.start, b.stop)) holes
  refine hsorted.imp fun {a b} hle => ?_
  rcases Prod.Lex.le_iff.mp hle with hlt | ⟨heq, -⟩
  · exact hlt.le
  · exact heq.le

/-! ## Regions -/

structure AddressMapRegion where
  base : AddressRange
  holes : List AddressRange
  interleave : Option AddressInterleave
  normalized : Normalized base holes

open AddressMapRegion

namespace AddressMapRegion

def new (base : AddressRange) : AddressMapRegion where
  base
  holes := []
  interleave := none
  normalized := ⟨by simp, Pairwise.nil⟩

def withHoles (region : AddressMapRegion) (holes : List AddressRange) :
    Except MemoryError AddressMapRegion :=
  match h : normalizeSparseHoles region.base holes with
  | .error error => .error error
  | .ok holes => .ok { region with holes, normalized := normalizeSparseHoles_normalized h }

def withInterleave (region : AddressMapRegion) (interleave : AddressInterleave) :
    AddressMapRegion :=
  { region with interleave := some interleave }

/-- The loop of `sparseOffset`: the holes that end at or before the address are
    taken off. -/
def skipHoles (address : Nat) : List AddressRange → Nat → Nat
  | [], offset => offset
  | hole :: rest, offset =>
    if hole.stop ≤ address then skipHoles address rest (offset - hole.size.bytes) else offset

variable (region other : AddressMapRegion)

/-- The number of an address among those that are not in a hole. -/
def sparseOffset (address : Nat) : Nat :=
  skipHoles address region.holes (address - region.base.start)

def offset (address : Nat) : Option Nat :=
  if region.base.contains address = false || region.holes.any (·.contains address) then none
  else
    match region.interleave with
    | none => some (region.sparseOffset address)
    | some interleave => interleave.localOffset (region.sparseOffset address)

def contains (address : Nat) : Bool := (region.offset address).isSome

def overlaps : Bool :=
  if region.base.overlaps other.base = false then false
  else
    match region.interleave, other.interleave with
    | some left, some right => !left.disjointFrom right
    | _, _ => true

/-! ## The number of an address -/

/-- The bytes of the holes that end at or before an address. -/
def holesBefore (address : Nat) : List AddressRange → Nat
  | [] => 0
  | hole :: rest => if hole.stop ≤ address then hole.size.bytes + holesBefore address rest else 0

variable {address low a b : Nat}

theorem skipHoles_eq {holes : List AddressRange} {offset : Nat} :
    skipHoles address holes offset = offset - holesBefore address holes := by
  induction holes generalizing offset with
  | nil => rfl
  | cons hole rest ih =>
    unfold skipHoles holesBefore
    split
    · rw [ih, Nat.sub_sub]
    · rfl

/-- Holes that are apart and start at or after a place leave room for
    themselves between the place and the address. -/
theorem add_holesBefore_le {holes : List AddressRange} (hlow : low ≤ address)
    (hstart : (∀ hole ∈ holes, low ≤ hole.start))
    (hapart : holes.Pairwise (fun a b => a.stop ≤ b.start)) :
    low + holesBefore address holes ≤ address := by
  induction holes generalizing low with
  | nil => exact hlow
  | cons hole rest ih =>
    have hhole := hstart hole mem_cons_self
    rw [pairwise_cons] at hapart
    unfold holesBefore
    split
    · rename_i hstop
      -- What is left of the holes starts behind this one.
      have hrest := ih hstop hapart.1 hapart.2
      unfold stop at hrest
      omega
    · exact hlow

variable {address : Nat}

/-- The number of an address, the holes before it and the start of the base make
    up the address. -/
theorem sparseOffset_add (h : region.base.contains address = true) :
    region.sparseOffset address + (region.base.start + holesBefore address region.holes)
      = address := by
  have hstart : ∀ hole ∈ region.holes, region.base.start ≤ hole.start := fun hole hhole =>
    ((containsRange_iff _).mp (region.normalized.inside hole hhole)).1
  rw [contains_iff] at h
  have hle := add_holesBefore_le h.1 hstart region.normalized.apart
  rw [sparseOffset, skipHoles_eq]
  omega

/-- The two regions number the addresses they share alike: they have the same
    holes, and if they are stripes of one shape they start at the same place of a
    round. -/
structure Congruent (region other : AddressMapRegion) : Prop where
  holes : region.holes = other.holes
  starts : ∀ left ∈ region.interleave, ∀ right ∈ other.interleave,
    left.granularity = right.granularity → left.stripes = right.stripes →
      region.base.start ≡ other.base.start [MOD left.granularity.bytes * left.stripes]

variable {region other}

theorem base_of_contains (h : region.contains address = true) :
    region.base.contains address = true := by
  by_contra hout
  rw [Bool.not_eq_true] at hout
  rw [contains, offset, hout] at h
  exact absurd h (by simp)

theorem chunk_of_contains {interleave : AddressInterleave}
    (hinterleave : region.interleave = some interleave) (h : region.contains address = true) :
    region.sparseOffset address / interleave.granularity.bytes % interleave.stripes
      = interleave.matchIndex := by
  by_contra hoth
  have hloc : interleave.localOffset (region.sparseOffset address) = none := by
    rw [localOffset, containsOffset, decide_eq_false hoth]
    rfl
  rw [contains, offset, hinterleave] at h
  simp only [hloc] at h
  split at h <;>
    exact absurd h (by simp)

theorem chunk_of_modEq {granularity stripes} (h : a ≡ b [MOD granularity * stripes]) :
    a / granularity % stripes = b / granularity % stripes := by
  rw [← Nat.mod_mul_right_div_self, ← Nat.mod_mul_right_div_self, h]

/-- Stripes of one numbering with different indexes share no address. -/
theorem not_contains_of_disjointFrom {left right} (hcon : Congruent region other)
    (hleft : region.interleave = some left) (hright : other.interleave = some right)
    (hdis : left.disjointFrom right = true) (h : region.contains address = true)
    (h' : other.contains address = true) : False := by
  simp only [disjointFrom, Bool.and_eq_true, decide_eq_true_eq] at hdis
  rcases hdis with ⟨⟨hgranularity, hstr⟩, hidx⟩
  have hstarts := hcon.starts left hleft right hright hgranularity hstr
  have hnum := sparseOffset_add region (base_of_contains h)
  have hnum' := sparseOffset_add other (base_of_contains h')
  rw [← hcon.holes] at hnum'
  have hmod : region.sparseOffset address ≡ other.sparseOffset address
      [MOD left.granularity.bytes * left.stripes] := by
    refine Nat.ModEq.add_right_cancel (hstarts.add_right (holesBefore address region.holes)) ?_
    rw [hnum, hnum']
  have hchunk := chunk_of_contains hleft h
  have hchunk' := chunk_of_contains hright h'
  rw [chunk_of_modEq hmod, hgranularity, hstr, hchunk'] at hchunk
  exact hidx hchunk.symm

/-- Regions that do not overlap for the decoder share no address if they are
    numbered alike. -/
theorem not_contains_of_not_overlaps (hoverlap : region.overlaps other = false)
    (hcon : region.base.overlaps other.base = true → Congruent region other)
    (h : region.contains address = true) (h' : other.contains address = true) : False := by
  have hbase : region.base.overlaps other.base = true := by
    have hin := (contains_iff _ _).mp (base_of_contains h)
    have hin' := (contains_iff _ _).mp (base_of_contains h')
    rw [overlaps_iff]
    omega
  rw [overlaps, hbase, if_neg (by simp)] at hoverlap
  split at hoverlap
  · rename_i left right hleft hright
    rw [Bool.not_eq_false'] at hoverlap
    exact not_contains_of_disjointFrom (hcon hbase) hleft hright hoverlap h h'
  · exact absurd hoverlap (by simp)

theorem overlaps_comm (region other : AddressMapRegion) :
    region.overlaps other = other.overlaps region := by
  have hbase : region.base.overlaps other.base = other.base.overlaps region.base := by
    simp only [AddressRange.overlaps, Bool.and_comm]
  unfold overlaps
  rw [hbase]
  cases region.interleave with
  | none => cases other.interleave <;> rfl
  | some left =>
    cases other.interleave with
    | none => rfl
    | some right =>
      have hdis : left.disjointFrom right = right.disjointFrom left := by
        simp [disjointFrom, eq_comm]
      simp [hdis]

/-- The order of the regions of a decoder. A region that is not a stripe comes
    after the stripes of its base. -/
def key (entry : MemoryTargetId × AddressMapRegion) : Nat ×ₗ Nat ×ₗ Nat ×ₗ Nat :=
  toLex (entry.2.base.start, toLex (entry.2.base.stop,
    toLex (entry.2.interleave.elim (2 ^ 32 - 1) matchIndex, entry.1)))

theorem overlaps_of_key_eq {a b} (h : key a = key b) : a.2.overlaps b.2 = true := by
  simp only [key, toLex_inj, Prod.mk.injEq] at h
  rcases h with ⟨hstart, hstop, hidx, -⟩
  have hbase : a.2.base.overlaps b.2.base = true := by
    have hnon := a.2.base.start_lt_stop
    rw [overlaps_iff]
    omega
  rw [overlaps, hbase, if_neg (by simp)]
  split
  · rename_i left right hleft hright
    rw [hleft, hright] at hidx
    have hsame : left.matchIndex = right.matchIndex := hidx
    simp [disjointFrom, hsame]
  · rfl

end AddressMapRegion

/-! ## Decoders -/

structure AddressDecode where
  target : MemoryTargetId
  region : AddressMapRegion
  offset : Nat

structure AddressDecoder where
  regions : List (MemoryTargetId × AddressMapRegion)
  apart : regions.Pairwise fun a b => a.2.overlaps b.2 = false
  sorted : regions.Pairwise fun a b => key a ≤ key b

instance : Std.Symm fun a b : MemoryTargetId × AddressMapRegion => a.2.overlaps b.2 = false where
  symm a b h := by rwa [overlaps_comm]

theorem apart_of_perm {first second : List (MemoryTargetId × AddressMapRegion)}
    (hperm : first.Perm second) (h : first.Pairwise fun a b => a.2.overlaps b.2 = false) :
    second.Pairwise fun a b => a.2.overlaps b.2 = false :=
  hperm.pairwise h fun {a b} hab => by rwa [overlaps_comm]

namespace AddressDecoder

def new : AddressDecoder := ⟨[], Pairwise.nil, Pairwise.nil⟩

def insertRegion (decoder : AddressDecoder) (target : MemoryTargetId)
    (requested : AddressMapRegion) : Except MemoryError AddressDecoder :=
  match h : decoder.regions.find? fun existing => existing.2.overlaps requested with
  | some existing => .error (.overlappingAddressRegion existing.2.base requested.base)
  | none =>
    .ok {
      regions := (decoder.regions ++ [(target, requested)]).mergeSort fun a b => key a ≤ key b
      apart := by
        refine apart_of_perm (mergeSort_perm _ _).symm (pairwise_append.mpr
          ⟨decoder.apart, pairwise_singleton _ _, fun a ha b hb => ?_⟩)
        rw [mem_singleton.mp hb]
        exact Bool.eq_false_iff.mpr (find?_eq_none.mp h a ha)
      sorted := pairwise_mergeSort' (fun a b : MemoryTargetId × AddressMapRegion =>
        key a ≤ key b) _ }

/-- A range is inserted as a region without holes or stripes. -/
def insert (decoder : AddressDecoder) (target : MemoryTargetId) (start : Nat) (size : AccessSize) :
    Except MemoryError AddressDecoder :=
  match AddressRange.new start size with
  | .error error => .error error
  | .ok requested => decoder.insertRegion target (AddressMapRegion.new requested)

/-- Regions inserted one after another, into a decoder. -/
def insertFrom (decoder : AddressDecoder) :
    List (MemoryTargetId × AddressMapRegion) → Except MemoryError AddressDecoder
  | [] => .ok decoder
  | (target, requested) :: rest =>
    match decoder.insertRegion target requested with
    | .error error => .error error
    | .ok decoder => insertFrom decoder rest

def insertAll (requests : List (MemoryTargetId × AddressMapRegion)) :
    Except MemoryError AddressDecoder :=
  insertFrom new requests

def decodeDetail (decoder : AddressDecoder) (address : Nat) : Except MemoryError AddressDecode :=
  match decoder.regions.findSome? fun entry =>
      (entry.2.offset address).map fun offset => (⟨entry.1, entry.2, offset⟩ : AddressDecode) with
  | some decode => .ok decode
  | none => .error (.unmappedAddress address)

variable {decoder : AddressDecoder}

theorem insertRegion_of_apart (tgt : MemoryTargetId) (requested : AddressMapRegion)
    (h : ∀ existing ∈ decoder.regions, existing.2.overlaps requested = false) :
    ∃ decoder', decoder.insertRegion tgt requested = .ok decoder' ∧
      decoder'.regions.Perm ((tgt, requested) :: decoder.regions) := by
  unfold insertRegion
  split
  · rename_i existing hfind
    have hoverlap := find?_some hfind
    rw [h existing (mem_of_find?_eq_some hfind)] at hoverlap
    exact absurd hoverlap (by simp)
  · exact ⟨_, rfl, (mergeSort_perm _ _).trans (perm_append_singleton _ _)⟩

theorem apart_of_insertRegion {tgt requested decoder'}
    (h : decoder.insertRegion tgt requested = .ok decoder') :
    ∀ existing ∈ decoder.regions, existing.2.overlaps requested = false := by
  unfold insertRegion at h
  split at h
  · cases h
  · rename_i hfind
    exact fun existing hexisting => Bool.eq_false_iff.mpr (find?_eq_none.mp hfind _ hexisting)

/-- A run of insertions succeeds if no two regions overlap, and the decoder then
    has those regions. -/
theorem insertFrom_of_apart (reqs : List (MemoryTargetId × AddressMapRegion))
    (decoder : AddressDecoder)
    (hapart : (reqs ++ decoder.regions).Pairwise (fun a b => a.2.overlaps b.2 = false)) :
    ∃ decoder', decoder.insertFrom reqs = .ok decoder' ∧
        decoder'.regions.Perm (reqs ++ decoder.regions) := by
  induction reqs generalizing decoder with
  | nil => exact ⟨decoder, rfl, .rfl⟩
  | cons req rest ih =>
    rcases req with ⟨tgt, requested⟩
    rw [cons_append, pairwise_cons] at hapart
    have hnew : ∀ existing ∈ decoder.regions, existing.2.overlaps requested = false := by
      intro existing hexisting
      rw [overlaps_comm]
      exact hapart.1 existing (mem_append_right _ hexisting)
    rcases insertRegion_of_apart tgt requested hnew with ⟨next, hnext, hperm⟩
    -- The new region moves from the requests to the decoder.
    have hmoved : (rest ++ next.regions).Perm ((tgt, requested) :: rest ++ decoder.regions) :=
      (hperm.append_left rest).trans perm_middle
    rcases ih next (apart_of_perm hmoved.symm (pairwise_cons.mpr hapart)) with
      ⟨decoder', hins, hreg⟩
    refine ⟨decoder', ?_, hreg.trans hmoved⟩
    rwa [insertFrom, hnext]

theorem perm_of_insertFrom {decoder'} (reqs : List (MemoryTargetId × AddressMapRegion))
    (decoder : AddressDecoder) (h : decoder.insertFrom reqs = .ok decoder') :
    decoder'.regions.Perm (reqs ++ decoder.regions) := by
  induction reqs generalizing decoder decoder' with
  | nil =>
    cases h
    exact .rfl
  | cons req rest ih =>
    rcases req with ⟨tgt, requested⟩
    unfold insertFrom at h
    split at h
    · cases h
    · rename_i next hnext
      rcases insertRegion_of_apart tgt requested (apart_of_insertRegion hnext)
        with ⟨next', hnext', hperm⟩
      rw [hnext, Except.ok.injEq] at hnext'
      rw [← hnext'] at hperm
      exact (ih next h).trans ((hperm.append_left rest).trans perm_middle)

theorem eq_of_perm {first second : AddressDecoder} (h : first.regions.Perm second.regions) :
    first = second := by
  have hequ : first.regions = second.regions := by
    refine Perm.eq_of_pairwise (fun a b ha hb hab hba => ?_) first.sorted second.sorted h
    -- Two regions of one key would overlap.
    by_contra hne
    have hkey : key a = key b := le_antisymm hab hba
    have hapart := second.apart.forall (h.subset ha) hb hne
    rw [overlaps_of_key_eq hkey] at hapart
    exact absurd hapart (by simp only [Bool.true_eq_false, not_false_eq_true])
  cases first
  cases second
  simp only at hequ
  simp only [hequ]

/-- The order of insertion does not matter: every order of the requests gives the
    same decoder. -/
theorem insertAll_perm {reqs other : List (MemoryTargetId × AddressMapRegion)}
    (h : insertAll reqs = .ok decoder) (hperm : reqs.Perm other) :
    insertAll other = .ok decoder := by
  have hreg : decoder.regions.Perm (reqs ++ []) := perm_of_insertFrom reqs new h
  have hoth : decoder.regions.Perm (other ++ []) := hreg.trans (hperm.append_right [])
  rcases insertFrom_of_apart other new (apart_of_perm hoth decoder.apart) with
    ⟨decoder', hins, hreg'⟩
  rw [insertAll, hins, eq_of_perm (hreg'.trans hoth.symm)]

/-- Decoding is unambiguous. Whatever the order in which the regions are inserted
    the decoder is the same, and if any two of them whose bases overlap number
    their addresses alike no address is in two of them. -/
theorem insertAll_apart (requests : List (MemoryTargetId × AddressMapRegion))
    (decoder : AddressDecoder) (h : insertAll requests = .ok decoder)
    (hcongruent : ∀ a ∈ requests, ∀ b ∈ requests, a.2.base.overlaps b.2.base = true →
      a.2.Congruent b.2) :
    (decoder.regions.Pairwise fun a b =>
      ∀ address, ¬(a.2.contains address = true ∧ b.2.contains address = true)) ∧
    ∀ other, requests.Perm other → ∃ decoder', insertAll other = .ok decoder' ∧
      ∀ address, decoder'.decodeDetail address = decoder.decodeDetail address := by
  have hregions : decoder.regions.Perm (requests ++ []) := perm_of_insertFrom requests new h
  rw [append_nil] at hregions
  refine ⟨?_, fun other hperm => ⟨decoder, insertAll_perm h hperm, fun _ => rfl⟩⟩
  refine decoder.apart.imp_of_mem fun {a b} ha hb hoverlap => ?_
  rintro address ⟨hcontains, hcontains'⟩
  exact not_contains_of_not_overlaps hoverlap
    (hcongruent a (hregions.subset ha) b (hregions.subset hb)) hcontains hcontains'

/-- One of two stripes of single bytes. -/
def byteStripe (start : Nat) (hstart : start + 4 < wordLimit) (index : Nat) (hindex : index < 2) :
    AddressMapRegion :=
  (AddressMapRegion.new ⟨start, ⟨4, AccessSize.four_pos⟩, hstart⟩).withInterleave
    ⟨⟨1, by decide⟩, 2, index, by decide, hindex⟩

/-- Two stripes of one base are accepted, and are apart. -/
theorem stripes_apart :
    ∃ decoder, insertAll [(0, byteStripe 0 (by decide) 0 (by decide)),
        (1, byteStripe 0 (by decide) 1 (by decide))] = .ok decoder ∧
      decoder.regions.Pairwise fun a b =>
        ∀ address, ¬(a.2.contains address = true ∧ b.2.contains address = true) := by
  rcases insertFrom_of_apart [(0, byteStripe 0 (by decide) 0 (by decide)),
    (1, byteStripe 0 (by decide) 1 (by decide))] new (by decide) with ⟨decoder, hinsert, -⟩
  refine ⟨decoder, hinsert, (insertAll_apart _ decoder hinsert ?_).1⟩
  intro a ha b hb _
  have hshape : ∀ entry ∈ [(0, byteStripe 0 (by decide) 0 (by decide)),
      (1, byteStripe 0 (by decide) 1 (by decide))],
      entry.2.base.start = 0 ∧ entry.2.holes = [] := by
    decide
  refine ⟨(hshape a ha).2.trans (hshape b hb).2.symm, fun _ _ _ _ _ _ => ?_⟩
  rw [(hshape a ha).1, (hshape b hb).1]

/-- Two stripes whose bases are a byte apart are accepted, though both contain
    the address 2. -/
theorem shifted_stripes_share :
    ∃ decoder, insertAll [(0, byteStripe 0 (by decide) 0 (by decide)),
        (1, byteStripe 1 (by decide) 1 (by decide))] = .ok decoder ∧
      ∃ a ∈ decoder.regions, ∃ b ∈ decoder.regions, a.1 ≠ b.1 ∧
        a.2.contains 2 = true ∧ b.2.contains 2 = true := by
  rcases insertFrom_of_apart [(0, byteStripe 0 (by decide) 0 (by decide)),
    (1, byteStripe 1 (by decide) 1 (by decide))] new (by decide) with ⟨decoder, hinsert, hperm⟩
  refine ⟨decoder, hinsert, (0, byteStripe 0 (by decide) 0 (by decide)), ?_,
    (1, byteStripe 1 (by decide) 1 (by decide)), ?_, by decide, by decide, by decide⟩
  · exact hperm.symm.subset mem_cons_self
  · exact hperm.symm.subset (mem_cons_of_mem _ mem_cons_self)

end AddressDecoder

end Rem6.Memory
