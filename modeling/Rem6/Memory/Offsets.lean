import Mathlib.Data.Int.CardIntervalMod
import Mathlib.Data.Nat.Count
import Rem6.Memory.AddressMap

/-!
# Offsets into a Region

The offset of an address of a region is the number of the region's addresses below
it. Packing the holes away counts the addresses outside of them, and dividing by
the stripes counts those of the region's own chunks among these. A count among
what is counted is a count again (`count_count`), and so the two together count
the addresses of the region.

The rest is true of every count: it increases strictly and leaves no gap. The
check of a range looks only at the first and the last address. This is enough,
since the offsets between them are as many as the addresses only if none of the
addresses is missing.

## Main definitions

* `AddressMapRegion.containsRange`: The check of a range.
* `AddressMapRegion.inside`: The addresses of the base outside the holes.

## Theorems

* `sparseOffset_eq_count`, `localOffset_eq_count`: The two steps of an offset count.
* `offset_eq_count`: Offsets count the addresses of the region.
* `offset_dense`: Offsets increase, have no gaps, and decide ranges.
-/

namespace Rem6.Memory

open AddressRange Nat

section Count

variable {p q : Nat → Prop} [DecidablePred p] [DecidablePred q]

variable {n k : Nat}

theorem count_congr (h : ∀ k < n, (p k ↔ q k)) : count p n = count q n :=
  le_antisymm (count_mono_left fun k hk => (h k hk).mp) (count_mono_left fun k hk => (h k hk).mpr)

/-- What is counted among the things that are counted. -/
theorem count_count (n : Nat) : count (fun k => p k ∧ q (count p k)) n = count q (count p n) := by
  induction n with
  | zero => simp
  | succ n ih =>
    rw [count_succ, count_succ, ih]
    by_cases h : p n <;> simp [h, count_succ]

/-- A property of blocks of one size is counted block by block. -/
theorem count_blocks (size blocks : Nat) (hsize : 0 < size) :
    count (fun k => p (k / size)) (size * blocks) = size * count p blocks := by
  induction blocks with
  | zero => simp
  | succ blocks ih =>
    have hblockers : ∀ k < size, (size * blocks + k) / size = blocks := fun k hk => by
      rw [mul_add_div hsize, div_eq_of_lt hk, add_zero]
    rw [mul_succ, count_add, ih, count_succ, mul_add]
    congr 1
    split
    · rw [mul_one]
      exact count_iff_forall.mpr fun k hk => by rwa [hblockers k hk]
    · exact count_iff_forall_not.mpr fun k hk => by rwa [hblockers k hk]

/-- The offsets in the stripe of an offset: all of those in the whole rounds before
    it, and those in its own block. -/
theorem count_stripes {size stripes : Nat} (hsize : 0 < size) (hstr : 0 < stripes) (offset : Nat) :
    count (fun k => k / size % stripes = offset / size % stripes) offset
      = offset / size / stripes * size + offset % size := by
  have hwithin : ∀ k < offset % size,
      (size * (offset / size) + k) / size % stripes = offset / size % stripes := fun k hk => by
    rw [mul_add_div hsize, div_eq_of_lt (hk.trans (mod_lt _ hsize)), add_zero]
  have hrou : count (· % stripes = offset / size % stripes) (offset / size)
      = offset / size / stripes := by
    have hcnt := count_modEq_card (offset / size) hstr (offset / size)
    rwa [if_neg (lt_irrefl _)] at hcnt
  have hsplit := count_add (fun k => k / size % stripes = offset / size % stripes)
    (size * (offset / size)) (offset % size)
  rw [div_add_mod, count_iff_forall.mpr hwithin,
    count_blocks (p := (· % stripes = offset / size % stripes)) size _ hsize, hrou] at hsplit
  rw [hsplit, mul_comm]

/-- A count leaves no gap. -/
theorem exists_of_lt_count (h : k < count p n) : ∃ a < n, p a ∧ count p a = k := by
  induction n with
  | zero => simp at h
  | succ n ih =>
    by_cases hk : k < count p n
    · obtain ⟨a, ha, hcnt⟩ := ih hk
      exact ⟨a, lt_succ_of_lt ha, hcnt⟩
    · rw [count_succ] at h
      split at h
      · exact ⟨n, lt_succ_self n, ‹_›, by omega⟩
      · omega

end Count

variable {offset address adr : Nat}

theorem AddressInterleave.localOffset_eq_count {ilv : AddressInterleave}
    (h : ilv.containsOffset offset = true) :
    ilv.localOffset offset = some (count (ilv.containsOffset ·) offset) := by
  have hchunk := of_decide_eq_true h
  have hcnt := count_stripes ilv.granularity.pos (zero_lt_of_lt ilv.inRange) offset
  rw [localOffset, if_pos h]
  simp only [containsOffset, decide_eq_true_eq]
  rw [← hchunk, hcnt]

/-! ## Holes -/

namespace AddressMapRegion

open AddressInterleave List

/-- Between a place before the holes and an address outside of them, the holes and
    what is outside of them make up the distance. -/
theorem holesBefore_add_count (holes : List AddressRange) (low r : Nat)
    (hsta : ∀ hole ∈ holes, low ≤ hole.start) (hapart : holes.Pairwise fun a b => a.stop ≤ b.start)
    (hout : holes.any (·.contains (low + r)) = false) :
    holesBefore (low + r) holes
      + count (fun k => holes.any (·.contains (low + k)) = false) r = r := by
  induction holes generalizing low r with
  | nil => simp [holesBefore]
  | cons hole rest ih =>
    have hlow := hsta hole mem_cons_self
    have hnon := hole.start_lt_stop
    rw [pairwise_cons] at hapart
    have hbef : ∀ k, low + k < hole.start → (hole :: rest).any (·.contains (low + k)) = false := by
      intro k hk
      refine any_eq_false.mpr fun other hoth => ?_
      rw [contains_iff]
      rcases mem_cons.mp hoth with rfl | hrest
      · omega
      · have hle := hapart.1 other hrest
        omega
    rw [any_cons, Bool.or_eq_false_iff, ← Bool.not_eq_true, contains_iff] at hout
    unfold holesBefore
    split
    next hstop =>
      obtain ⟨gap, hgap⟩ := Nat.exists_eq_add_of_le hlow
      obtain ⟨tail, htail⟩ := Nat.exists_eq_add_of_le hstop
      have hr : r = gap + (hole.size.bytes + tail) := by
        unfold stop at htail
        omega
      have hshift : ∀ k, low + (gap + (hole.size.bytes + k)) = hole.stop + k := by
        intro k
        unfold stop
        omega
      have hrest := ih hole.stop tail hapart.1 hapart.2 (by rw [← htail]; exact hout.2)
      have hins : ∀ k < hole.size.bytes,
          ¬(hole :: rest).any (·.contains (low + (gap + k))) = false := by
        intro k hk
        rw [Bool.not_eq_false]
        refine any_eq_true.mpr ⟨hole, mem_cons_self, (contains_iff _ _).mpr ?_⟩
        unfold stop
        omega
      have haft : ∀ k < tail, ((hole :: rest).any (·.contains (hole.stop + k)) = false ↔
          rest.any (·.contains (hole.stop + k)) = false) := by
        intro k _
        have hpast : hole.contains (hole.stop + k) = false := by
          rw [← Bool.not_eq_true, contains_iff]
          omega
        rw [any_cons, hpast, Bool.false_or]
      rw [hr, count_add, count_add, count_iff_forall.mpr fun k hk => hbef k (by omega),
        count_iff_forall_not.mpr hins]
      simp only [hshift]
      rw [count_congr haft]
      omega
    next hstop =>
      rw [zero_add]
      exact count_iff_forall.mpr fun k hk => hbef k (by omega)

variable (region : AddressMapRegion)

/-- The addresses of the base outside the holes. -/
def inside (address : Nat) : Bool :=
  region.base.contains address && !region.holes.any (·.contains address)

/-- The check of a range by the offsets of its first and its last address. -/
def containsRange (range : AddressRange) : Bool :=
  match region.offset range.start, region.offset (range.stop - 1) with
  | some startOffset, some lastOffset =>
    startOffset ≤ lastOffset && lastOffset - startOffset + 1 < wordLimit
      && lastOffset - startOffset + 1 = range.size.bytes
  | _, _ => false

variable {region}

theorem sparseOffset_eq_count (h : region.inside address = true) :
    region.sparseOffset address = count (region.inside ·) address := by
  rw [inside, Bool.and_eq_true, Bool.not_eq_true'] at h
  have hsum := region.sparseOffset_add h.1
  rw [contains_iff] at h
  obtain ⟨r, rfl⟩ := Nat.exists_eq_add_of_le h.1.1
  have hholds := holesBefore_add_count region.holes region.base.start r (fun hole hhole =>
    ((containsRange_iff _).mp (region.normalized.inside hole hhole)).1) region.normalized.apart h.2
  have hbelow : ∀ k < region.base.start, ¬ region.inside k = true := by
    intro k hk
    rw [inside, Bool.and_eq_true, contains_iff]
    omega
  have hcon : ∀ k < r, (region.inside (region.base.start + k) = true ↔
      region.holes.any (·.contains (region.base.start + k)) = false) := by
    intro k hk
    have hbase : region.base.contains (region.base.start + k) = true := by
      rw [contains_iff]
      omega
    rw [inside, hbase, Bool.true_and, Bool.not_eq_true']
  rw [count_add, count_iff_forall_not.mpr hbelow, count_congr hcon]
  omega

/-! ## Offsets -/

theorem offset_eq (region : AddressMapRegion) (adr : Nat) :
    region.offset adr = if region.inside adr then
      match region.interleave with
      | none => some (region.sparseOffset adr)
      | some ilv => ilv.localOffset (region.sparseOffset adr)
    else none := by
  unfold offset inside
  cases region.base.contains adr <;> cases region.holes.any (·.contains adr) <;> rfl

/-- A region contains the addresses of its base outside the holes whose number, counted
    without the holes, falls into its own stripe. -/
theorem contains_iff_stripe (region : AddressMapRegion) (address : Nat) :
    region.contains address = true ↔ region.inside address = true ∧
      ∀ interleave, region.interleave = some interleave →
        interleave.containsOffset (count (region.inside ·) address) = true := by
  rw [contains, offset_eq]
  split
  next hinside =>
    rw [← sparseOffset_eq_count hinside]
    cases region.interleave with
    | none => simp [hinside]
    | some interleave =>
      simp only [localOffset]
      split <;> simp_all
  next houtside => simp [houtside]

theorem offset_eq_count {k : Nat} (h : region.offset address = some k) :
    k = count (region.contains ·) address := by
  have hcontains := region.contains_iff_stripe
  rw [offset_eq] at h
  split at h
  next hinside =>
    cases hstripe : region.interleave with
    | none =>
      simp only [hstripe, Option.some.injEq] at h
      simp only [hcontains, hstripe, reduceCtorEq, false_imp_iff, implies_true, and_true]
      rw [← sparseOffset_eq_count hinside, h]
    | some interleave =>
      simp only [hstripe] at h
      have hown : interleave.containsOffset (region.sparseOffset address) = true := by
        by_contra hother
        rw [localOffset, if_neg hother] at h
        cases h
      have hcount := count_count (p := (region.inside ·)) (q := (interleave.containsOffset ·))
        address
      simp only [hcontains, hstripe, Option.some.injEq, forall_eq']
      rw [hcount, ← sparseOffset_eq_count hinside]
      rw [localOffset_eq_count hown] at h
      exact (Option.some.inj h).symm
  next => cases h

theorem offset_of_contains (h : region.contains adr = true) :
    region.offset adr = some (count (region.contains ·) adr) := by
  obtain ⟨k, hk⟩ := Option.isSome_iff_exists.mp h
  rw [hk, ← offset_eq_count hk]

/-- The offsets of the first and the last address decide a range. -/
theorem containsRange_iff_forall {range : AddressRange} :
    region.containsRange range = true ↔
      ∀ address, range.contains address = true → region.contains address = true := by
  obtain ⟨n, hsize⟩ := Nat.exists_eq_add_of_lt range.size.pos
  have hstop : range.stop - 1 = range.start + n := by
    unfold stop
    omega
  have hbnd := range.bound
  rw [containsRange, hstop]
  constructor
  · intro h
    split at h
    next first last hfirst hlast =>
      simp only [Bool.and_eq_true, decide_eq_true_eq] at h
      rw [offset_eq_count hfirst, offset_eq_count hlast, count_add] at h
      have hall := count_iff_forall.mp (show count
        (fun k => region.contains (range.start + k) = true) n = n by omega)
      intro address haddress
      rw [contains_iff] at haddress
      obtain ⟨k, rfl⟩ := Nat.exists_eq_add_of_le haddress.1
      by_cases hk : k < n
      · exact hall k hk
      · have hkn : k = n := by
          unfold stop at haddress
          omega
        rw [hkn, contains, hlast]
        rfl
    next => cases h
  · intro h
    have hin : ∀ k ≤ n, region.contains (range.start + k) = true := fun k hk =>
      h _ ((contains_iff _ _).mpr (by unfold stop; omega))
    have hfirst := offset_of_contains (hin 0 (zero_le n))
    rw [add_zero] at hfirst
    rw [hfirst, offset_of_contains (hin n le_rfl)]
    have hall := count_iff_forall.mpr fun k (hk : k < n) => hin k hk.le
    simp only [count_add, hall, Bool.and_eq_true, decide_eq_true_eq]
    omega

/-- Offsets number the addresses of every region in their order and without gaps,
    and a range is accepted exactly when each of its addresses is. The addresses of a
    region are those of its base outside the holes and in its own stripe. -/
theorem offset_dense (region : AddressMapRegion) :
    (∀ address, (∃ i, region.offset address = some i) ↔
      region.base.contains address = true ∧ (∀ hole ∈ region.holes, hole.contains address = false) ∧
        ∀ interleave, region.interleave = some interleave →
          interleave.containsOffset (count (region.inside ·) address) = true) ∧
    (∀ a b i j, a < b → region.offset a = some i → region.offset b = some j → i < j) ∧
    (∃ n, (∀ a i, region.offset a = some i → i < n) ∧ ∀ k < n, ∃! a, region.offset a = some k) ∧
    ∀ range, region.containsRange range = true ↔
      ∀ address, range.contains address = true → region.contains address = true := by
  have hcontains : ∀ {a i}, region.offset a = some i → region.contains a = true := by
    intro a i h
    rw [contains, h]
    rfl
  have hlt : ∀ {a}, region.contains a = true → a < wordLimit := by
    intro a h
    have hbase := (contains_iff _ _).mp (base_of_contains h)
    exact hbase.2.trans region.base.bound
  refine ⟨fun address => ?_, fun a b i j hab ha hb => ?_, ⟨count (region.contains ·) wordLimit,
    fun a i ha => ?_, fun k hk => ?_⟩, fun range => containsRange_iff_forall⟩
  · rw [← Option.isSome_iff_exists, ← contains, contains_iff_stripe]
    simp [inside, and_assoc]
  · rw [offset_eq_count ha, offset_eq_count hb]
    exact count_strict_mono (hcontains ha) hab
  · rw [offset_eq_count ha]
    exact count_strict_mono (hcontains ha) (hlt (hcontains ha))
  · obtain ⟨a, -, ha, hcount⟩ := exists_of_lt_count hk
    refine ⟨a, hcount ▸ offset_of_contains ha, fun b hb => ?_⟩
    rw [offset_eq_count hb] at hcount
    exact (count_injective ha (hcontains hb) hcount).symm

end AddressMapRegion

end Rem6.Memory
