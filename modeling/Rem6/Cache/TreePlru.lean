import Mathlib.Algebra.Ring.Nat
import Mathlib.Data.List.Nodup
import Mathlib.Data.List.Perm.Subperm
import Mathlib.Logic.Function.Basic

/-!
# The Tree Replacement Policy

A set of a power of two ways has a bit for every inner node of a tree over them,
which points to the half that the next victim is in. Using a way points every
node above it to the other half. The bits are a heap: the children of a node are
at twice its index plus one and two, and the loops go down to the victim and up
from a used way. Only the tree policy is modelled, and of an entry only what it
changes.

Every leaf has a rank: a binary number with a digit for each node above it, the
root's the lowest, which is one where the node points to the other side. The victim
is the leaf of rank zero. Using it turns around the nodes above it, which takes one
off every rank, modulo the number of leaves: so each leaf is the victim after as
many rounds as its rank says.

Nodes are counted from one here, so that the node above `x` is `x / 2`; it is at
level `j` if `x / 2 ^ j = 1`.

## Main definitions

* `ReplacementSet`: A set with its bits; `touch`, `reset`, `victim`.
* `rank`: When a leaf is the victim.

## Theorems

* `descend_spec`: The loop down finds the leaf of rank zero.
* `rank_pointAway`: The loop up from it takes one off the ranks.
* `treePlru_sweeps`: Rounds take every way once, and a used way is not the next victim.
-/

namespace Rem6.Cache

/-- Why a configuration or a call is refused. -/
inductive CacheReplacementPolicyError where
  | zeroWays
  | treePlruWaysTooFew (ways : Nat)
  | treePlruWaysNotPowerOfTwo (ways : Nat)
  | unknownWay (way ways : Nat)
  | noCandidates
deriving DecidableEq, Repr

structure ReplacementEntry where
  way : Nat
  valid : Bool
deriving DecidableEq, Repr

structure ReplacementUpdate where
  way : Nat
  (before after : ReplacementEntry)
  updateCount : Nat
deriving DecidableEq, Repr

structure ReplacementDecision where
  way : Nat
  candidates : List Nat
  victimCount : Nat
deriving DecidableEq, Repr

/-- A set under the tree policy, whose configuration accepts powers of two from two
    on. There is a bit for each of the first `ways - 1` nodes. -/
structure ReplacementSet where
  ways : Nat
  treeBits : Nat → Bool
  entries : Nat → ReplacementEntry
  (resetCount touchCount victimCount : Nat)
  accepted : ∃ d, ways = 2 ^ (d + 1)

def leafNode (ways way : Nat) : Nat := way + ways - 1

def parent (index : Nat) : Nat := (index - 1) / 2

def leftChild (index : Nat) : Nat := 2 * index + 1

def rightChild (index : Nat) : Nat := 2 * index + 2

def isRightChild (index : Nat) : Bool := index % 2 = 0

/-- The loop of `setTreePointsAwayFromLeaf`, from a node up. -/
def pointAway (tree : Nat → Bool) (node : Nat) : Nat → Bool :=
  if node = 0 then tree
  else pointAway (Function.update tree (parent node) (!isRightChild node)) (parent node)
termination_by node
decreasing_by
  unfold parent
  omega

/-- The loop of `treePlruVictim`, from a node down. -/
def descend (tree : Nat → Bool) (len node : Nat) : Nat :=
  if node < len then descend tree len (if tree node then rightChild node else leftChild node)
  else node
termination_by len - node
decreasing_by
  unfold rightChild leftChild
  split <;> omega

namespace ReplacementSet

/-- A new set, with the checks of its configuration. That its vectors can be allocated is
    not checked here. -/
def new (ways : Nat) : Except CacheReplacementPolicyError ReplacementSet :=
  if ways = 0 then .error .zeroWays
  else if hfew : ways < 2 then .error (.treePlruWaysTooFew ways)
  else if hpower : ways = 2 ^ ways.log2 then
    .ok
      { ways
        treeBits := fun _ => false
        entries := fun way => ⟨way, false⟩
        resetCount := 0
        touchCount := 0
        victimCount := 0
        accepted := by
          refine ⟨ways.log2 - 1, ?_⟩
          have hlog : ways.log2 ≠ 0 := fun hzero => by
            rw [hzero] at hpower
            omega
          rw [Nat.sub_one_add_one hlog]
          exact hpower }
  else .error (.treePlruWaysNotPowerOfTwo ways)

variable (set : ReplacementSet)

def checkWay (way : Nat) : Except CacheReplacementPolicyError Unit :=
  if set.ways ≤ way then .error (.unknownWay way set.ways) else .ok ()

def setTreePointsAwayFromLeaf (way : Nat) : ReplacementSet :=
  { set with treeBits := pointAway set.treeBits (leafNode set.ways way) }

/-- A way that is used points the tree away and makes its entry valid. -/
def use (way : Nat) : ReplacementSet :=
  { set.setTreePointsAwayFromLeaf way with
    entries := Function.update set.entries way { set.entries way with valid := true } }

def touch (way : Nat) :
    Except CacheReplacementPolicyError (ReplacementUpdate × ReplacementSet) := do
  set.checkWay way
  let after := { set.use way with touchCount := set.touchCount + 1 }
  pure (⟨way, set.entries way, after.entries way, after.touchCount⟩, after)

def reset (way : Nat) :
    Except CacheReplacementPolicyError (ReplacementUpdate × ReplacementSet) := do
  set.checkWay way
  let after := { set.use way with resetCount := set.resetCount + 1 }
  pure (⟨way, set.entries way, after.entries way, after.resetCount⟩, after)

def treePlruVictim (candidates : List Nat) : Nat :=
  let way := descend set.treeBits (set.ways - 1) 0 - (set.ways - 1)
  if candidates.contains way then way else candidates.headD 0

def victim (candidates : List Nat) :
    Except CacheReplacementPolicyError (ReplacementDecision × ReplacementSet) := do
  if candidates.isEmpty then throw .noCandidates
  candidates.forM set.checkWay
  let after := { set with victimCount := set.victimCount + 1 }
  pure (⟨set.treePlruVictim candidates, candidates, after.victimCount⟩, after)

/-- Rounds of a victim among all ways and its reset, with the victims. -/
def replace : Nat → ReplacementSet → Except CacheReplacementPolicyError (List Nat × ReplacementSet)
  | 0, set => .ok ([], set)
  | n + 1, set => do
    let (decision, set) ← set.victim (List.range set.ways)
    let (_, set) ← set.reset decision.way
    let (victims, set) ← replace n set
    pure (decision.way :: victims, set)

end ReplacementSet

/-! ## Ranks -/

/-- The rank of a node of a level, by the nodes above it. -/
def rank (tree : Nat → Bool) : Nat → Nat → Nat
  | 0, _ => 0
  | j + 1, x => rank tree j (x / 2) + if tree (x / 2 - 1) = decide (x % 2 = 1) then 0 else 2 ^ j

variable {tree : Nat → Bool}

variable {x j i y len k way n : Nat}

theorem half_level (h : x / 2 ^ (j + 1) = 1) : x / 2 / 2 ^ j = 1 := by
  rwa [Nat.div_div_eq_div_mul, ← Nat.pow_succ']

theorem bounds_of_level (h : x / 2 ^ j = 1) : 2 ^ j ≤ x ∧ x < 2 * 2 ^ j := by
  have hsplit := Nat.div_add_mod x (2 ^ j)
  have hmod := Nat.mod_lt x (Nat.two_pow_pos j)
  rw [h] at hsplit
  omega

theorem pos_of_level (h : x / 2 ^ j = 1) : 0 < x :=
  Nat.lt_of_lt_of_le (Nat.two_pow_pos j) (bounds_of_level h).1

theorem ne_of_level (hij : i < j) (hx : x / 2 ^ i = 1) (hy : y / 2 ^ j = 1) : x ≠ y := by
  rintro rfl
  obtain ⟨k, rfl⟩ := Nat.exists_eq_add_of_lt hij
  rw [Nat.add_assoc, Nat.pow_add, ← Nat.div_div_eq_div_mul, hx,
    Nat.div_eq_of_lt (Nat.one_lt_two_pow (Nat.succ_ne_zero k))] at hy
  cases hy

/-- One leaf has rank zero. -/
theorem eq_of_rank (hx : x / 2 ^ j = 1) (hy : y / 2 ^ j = 1) (h : rank tree j x = 0)
    (h' : rank tree j y = 0) : x = y := by
  induction j generalizing x y with
  | zero => rw [← Nat.div_one x, ← Nat.div_one y]; exact hx.trans hy.symm
  | succ j ih =>
    have hpow := Nat.two_pow_pos j
    rw [rank, Nat.add_eq_zero_iff] at h h'
    have hhalf := ih (half_level hx) (half_level hy) h.1 h'.1
    have hlast : decide (x % 2 = 1) = decide (y % 2 = 1) := by
      rw [← hhalf] at h'
      by_contra hne
      split at h
      · split at h'
        · simp_all
        · omega
      · omega
    rw [decide_eq_decide] at hlast
    omega

/-- A rank reads only the levels above. -/
theorem rank_update {value} (hij : i ≤ j) (hx : x / 2 ^ i = 1) (hy : y / 2 ^ j = 1) :
    rank (Function.update tree (y - 1) value) i x = rank tree i x := by
  induction i generalizing x with
  | zero => rfl
  | succ i ih =>
    have hne := ne_of_level hij (half_level hx) hy
    have hpos := pos_of_level (half_level hx)
    have hpos' := pos_of_level hy
    rw [rank, rank, ih (Nat.le_of_succ_le hij) (half_level hx), Function.update_of_ne (by omega)]

theorem pointAway_step (hx : x / 2 ^ (j + 1) = 1) : pointAway tree (x - 1)
    = pointAway (Function.update tree (x / 2 - 1) (x % 2 = 0)) (x / 2 - 1) := by
  have hpos := pos_of_level (half_level hx)
  have hparent : parent (x - 1) = x / 2 - 1 := by
    unfold parent
    omega
  have hside : (!isRightChild (x - 1)) = decide (x % 2 = 0) := by
    unfold isRightChild
    rw [← decide_not, decide_eq_decide]
    omega
  rw [pointAway, if_neg (by omega), hparent, hside]

/-- The loop up leaves the levels below alone. -/
theorem pointAway_below (hij : i ≤ j) (hx : x / 2 ^ i = 1) (hy : y / 2 ^ j = 1) :
    pointAway tree (x - 1) (y - 1) = tree (y - 1) := by
  induction i generalizing x tree with
  | zero =>
    rw [Nat.pow_zero, Nat.div_one] at hx
    rw [hx, pointAway, if_pos rfl]
  | succ i ih =>
    have hne := ne_of_level hij (half_level hx) hy
    have hpos := pos_of_level (half_level hx)
    have hpos' := pos_of_level hy
    rw [pointAway_step hx, ih (Nat.le_of_succ_le hij) (half_level hx),
      Function.update_of_ne (by omega)]

/-- Pointing away from the leaf of rank zero takes one off every rank. -/
theorem rank_pointAway (hx : x / 2 ^ j = 1) (hy : y / 2 ^ j = 1) (h : rank tree j x = 0) :
    rank (pointAway tree (x - 1)) j y
      = if rank tree j y = 0 then 2 ^ j - 1 else rank tree j y - 1 := by
  induction j generalizing x y tree with
  | zero => rfl
  | succ j ih =>
    have hpow := Nat.two_pow_pos j
    have hx' := half_level hx
    have hy' := half_level hy
    rw [rank, Nat.add_eq_zero_iff] at h
    have hpoints : tree (x / 2 - 1) = decide (x % 2 = 1) := by
      by_contra hne
      rw [if_neg hne] at h
      omega
    rw [pointAway_step hx, rank, rank, pointAway_below (Nat.le_refl j) hx' hy',
      ih hx' hy' ((rank_update (Nat.le_refl j) hx' hx').trans h.1),
      rank_update (Nat.le_refl j) hy' hx', Nat.pow_succ]
    by_cases hsame : y / 2 = x / 2
    · -- The node above turns around, and the ranks of its two sides change places.
      rw [hsame, h.1, Function.update_self, hpoints]
      by_cases hside : y % 2 = x % 2
      · rw [hside]
        rcases Nat.mod_two_eq_zero_or_one x with h | h <;> simp [h] <;> omega
      · rcases Nat.mod_two_eq_zero_or_one x with h | h <;>
          rcases Nat.mod_two_eq_zero_or_one y with h' | h' <;> simp_all
    · have hrank : rank tree j (y / 2) ≠ 0 := fun hzero => hsame (eq_of_rank hy' hx' hzero h.1)
      have hpos := pos_of_level hx'
      have hpos' := pos_of_level hy'
      rw [Function.update_of_ne (by omega), if_neg hrank,
        if_neg fun hzero => hrank (Nat.add_eq_zero_iff.mp hzero).1]
      omega

/-- A leaf that the tree points away from is not the one of rank zero. -/
theorem rank_pointAway_self (hx : x / 2 ^ (j + 1) = 1) :
    rank (pointAway tree (x - 1)) (j + 1) x ≠ 0 := by
  have hpow := Nat.two_pow_pos j
  have hx' := half_level hx
  rw [pointAway_step hx, rank, pointAway_below (Nat.le_refl j) hx' hx', Function.update_self]
  rcases Nat.mod_two_eq_zero_or_one x with h | h <;> simp [h]

/-- The loop down ends at the leaf of rank zero. -/
theorem descend_spec (hlen : len + 1 = 2 ^ (j + k)) (hx : x / 2 ^ j = 1) (h : rank tree j x = 0) :
    (descend tree len (x - 1) + 1) / 2 ^ (j + k) = 1 ∧
      rank tree (j + k) (descend tree len (x - 1) + 1) = 0 := by
  have hpos := pos_of_level hx
  induction k generalizing j x with
  | zero =>
    have hlow := (bounds_of_level hx).1
    simp only [Nat.add_zero] at hlen ⊢
    rw [descend, if_neg (by omega), Nat.sub_add_cancel hpos]
    exact ⟨hx, h⟩
  | succ k ih =>
    have hinner : x - 1 < len := by
      have hhigh := (bounds_of_level hx).2
      have hle := Nat.le_mul_of_pos_right (2 * 2 ^ j) (Nat.two_pow_pos k)
      rw [show j + (k + 1) = 1 + j + k by omega, Nat.pow_add, Nat.pow_add, Nat.pow_one] at hlen
      omega
    have hchild : (if tree (x - 1) then rightChild (x - 1) else leftChild (x - 1))
        = 2 * x + (tree (x - 1)).toNat - 1 := by
      unfold rightChild leftChild
      cases tree (x - 1) <;> simp <;> omega
    have hhalf : (2 * x + (tree (x - 1)).toNat) / 2 = x := by
      have hbit := Bool.toNat_lt (tree (x - 1))
      omega
    rw [descend, if_pos hinner, hchild, show j + (k + 1) = j + 1 + k by omega]
    refine ih (by rw [hlen]; congr 1; omega) ?_ ?_ (by omega)
    · rw [Nat.pow_succ', ← Nat.div_div_eq_div_mul, hhalf, hx]
    · rw [rank, hhalf, h]
      cases tree (x - 1) <;> simp

/-! ## Rounds -/

namespace ReplacementSet

variable {set : ReplacementSet} {d : Nat}

/-- The node of a way, counted from one. -/
theorem way_level (hways : set.ways = 2 ^ d) (h : way < set.ways) :
    (way + set.ways) / 2 ^ d = 1 := by
  rw [hways] at h ⊢
  rw [Nat.add_div_right _ (Nat.two_pow_pos d), Nat.div_eq_of_lt h]

theorem checkWay_ok (h : way < set.ways) : set.checkWay way = .ok () := if_neg (Nat.not_le.mpr h)

theorem checkWays_ok {candidates : List Nat} (h : ∀ way ∈ candidates, way < set.ways) :
    candidates.forM set.checkWay = .ok () := by
  induction candidates with
  | nil => rfl
  | cons way rest ih =>
    rw [List.forall_mem_cons] at h
    show (set.checkWay way >>= fun _ => rest.forM set.checkWay) = _
    rw [checkWay_ok h.1]
    exact ih h.2

theorem victim_range (hways : set.ways = 2 ^ d) : ∃ decision,
    set.victim (List.range set.ways)
      = .ok (decision, { set with victimCount := set.victimCount + 1 }) ∧
    decision.way < set.ways ∧ rank set.treeBits d (decision.way + set.ways) = 0 := by
  have hpow := Nat.two_pow_pos d
  have hlen : set.ways - 1 + 1 = 2 ^ (0 + d) := by
    rw [Nat.zero_add]
    omega
  have hroot : rank set.treeBits 0 1 = 0 := rfl
  obtain ⟨hlevel, hrank⟩ := descend_spec hlen (Nat.div_one 1) hroot
  rw [Nat.zero_add, Nat.sub_self] at hlevel hrank
  have hbounds := bounds_of_level hlevel
  have hway : set.treePlruVictim (List.range set.ways) + set.ways
      = descend set.treeBits (set.ways - 1) 0 + 1 := by
    rw [treePlruVictim, if_pos (by simp; omega)]
    omega
  have hsome : (List.range set.ways).isEmpty = false := by simp; omega
  refine ⟨⟨set.treePlruVictim (List.range set.ways), List.range set.ways, set.victimCount + 1⟩,
    ?_, ?_, hway ▸ hrank⟩
  · rw [victim, hsome, checkWays_ok fun way => List.mem_range.mp]
    rfl
  · show set.treePlruVictim _ < _
    omega

theorem touch_ok (h : way < set.ways) : ∃ upd touched,
    set.touch way = .ok (upd, touched) ∧ touched.ways = set.ways ∧
      touched.treeBits = pointAway set.treeBits (way + set.ways - 1) := by
  rw [touch, checkWay_ok h]
  exact ⟨_, _, rfl, rfl, rfl⟩

theorem reset_ok (h : way < set.ways) : ∃ upd after,
    set.reset way = .ok (upd, after) ∧ after.ways = set.ways ∧
      after.treeBits = pointAway set.treeBits (way + set.ways - 1) := by
  rw [reset, checkWay_ok h]
  exact ⟨_, _, rfl, rfl, rfl⟩

/-- A round takes the leaf of rank zero and points the tree away from it. -/
theorem replace_succ (hways : set.ways = 2 ^ d) : ∃ way next,
    way < set.ways ∧ rank set.treeBits d (way + set.ways) = 0 ∧
    next.ways = set.ways ∧ next.treeBits = pointAway set.treeBits (way + set.ways - 1) ∧
    ∀ n, replace (n + 1) set = (replace n next).map (Prod.map (way :: ·) id) := by
  obtain ⟨decision, hvictim, hway, hzero⟩ := victim_range hways
  have hcounted : decision.way < { set with victimCount := set.victimCount + 1 }.ways := hway
  obtain ⟨upd, next, hreset, hsame, htree⟩ := reset_ok hcounted
  refine ⟨decision.way, next, hway, hzero, hsame, htree, fun n => ?_⟩
  rw [replace, hvictim]
  show (ReplacementSet.reset _ _ >>= fun _ => _) = _
  rw [hreset]
  show (replace n next >>= fun _ => _) = _
  cases replace n next <;> rfl

/-- The victims of a run of rounds are the leaves of rank zero, one, two and so on. -/
theorem replace_spec (hways : set.ways = 2 ^ d) (hn : n ≤ set.ways) : ∃ victims after,
    replace n set = .ok (victims, after) ∧ (∀ way ∈ victims, way < set.ways) ∧
    victims.map (fun way => rank set.treeBits d (way + set.ways)) = List.range n := by
  induction n generalizing set with
  | zero => exact ⟨[], set, rfl, fun _ h => (List.not_mem_nil h).elim, rfl⟩
  | succ n ih =>
    obtain ⟨first, next, hway, hzero, hsame, htree, hround⟩ := replace_succ hways
    obtain ⟨victims, after, hrun, hlt, hranks⟩ :=
      ih (hsame.trans hways) (hsame ▸ Nat.le_of_succ_le hn)
    rw [hsame] at hlt hranks
    refine ⟨first :: victims, after, ?_, List.forall_mem_cons.mpr ⟨hway, hlt⟩, ?_⟩
    · rw [hround, hrun]
      rfl
    · rw [List.map_cons, hzero, List.range_succ_eq_map, ← hranks, List.map_map]
      congr 1
      refine List.map_congr_left fun way hmem => ?_
      -- A leaf of the rest cannot have rank zero: it would come last.
      have hlast := List.mem_range.mp (hranks ▸ List.mem_map_of_mem hmem)
      have hnext := rank_pointAway (way_level hways hway) (way_level hways (hlt way hmem)) hzero
      simp only [htree, Function.comp_apply] at hlast ⊢
      split at hnext <;> omega

/-- As many rounds as there are ways, each of a victim among all ways and its reset,
    choose every way once from any state of the tree; and a way that was just
    touched is not the next victim. -/
theorem treePlru_sweeps (set : ReplacementSet) :
    (∃ victims after, replace set.ways set = .ok (victims, after) ∧
      victims.Perm (List.range set.ways)) ∧
    ∀ way < set.ways, ∃ update touched decision after, set.touch way = .ok (update, touched) ∧
      touched.victim (List.range set.ways) = .ok (decision, after) ∧ decision.way ≠ way := by
  obtain ⟨d, hways⟩ := set.accepted
  refine ⟨?_, fun way hway => ?_⟩
  · obtain ⟨victims, after, hrun, hlt, hranks⟩ := replace_spec hways (Nat.le_refl _)
    -- Victims of different ranks are different, and there are as many as ways.
    have hnodup : victims.Nodup := List.Nodup.of_map _ (hranks ▸ List.nodup_range)
    have hlength := congrArg List.length hranks
    rw [List.length_map] at hlength
    exact ⟨victims, after, hrun, (List.subperm_of_subset hnodup fun way hmem =>
      List.mem_range.mpr (hlt way hmem)).perm_of_length_le (Nat.le_of_eq hlength.symm)⟩
  · obtain ⟨update, touched, htouch, hsame, htree⟩ := touch_ok hway
    obtain ⟨decision, hvictim, -, hzero⟩ := victim_range (hsame.trans hways)
    refine ⟨update, touched, decision, _, htouch, by rw [← hsame]; exact hvictim, ?_⟩
    rintro rfl
    rw [hsame, htree] at hzero
    exact rank_pointAway_self (way_level hways hway) hzero

/-- A new set of four ways is one, and gives each of them up once. -/
theorem treePlru_sweeps_four :
    ∃ set victims after, new 4 = .ok set ∧ replace 4 set = .ok (victims, after) ∧
      victims.Perm (List.range 4) := by
  obtain ⟨victims, after, hrun, hperm⟩ := (treePlru_sweeps ⟨4, fun _ => false,
    fun way => ⟨way, false⟩, 0, 0, 0, 1, rfl⟩).1
  exact ⟨_, victims, after, rfl, hrun, hperm⟩

end ReplacementSet

end Rem6.Cache
