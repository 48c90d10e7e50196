import Rem6.Cache.Bank

/-!
# What the Steps of a Bank Keep

The steps of a call are composed in one relation, `Guards`: a line that is dirty
before a step is dirty after it, with the same bytes, or its bytes are queued as
a write-back; and what is queued stays queued. Steps that fail midway are no
exception.

The relation speaks of all lines but some that are exempt, because one step of a
fill breaks it: a fill that found no room is undone, which throws away the bytes
that the same fill brought. Nothing was dirty there before the call.

A fill could only move a modified line if its miss waited for something else
than data. No miss does (`FillsData`), and every step keeps it so.

## Main definitions

* `DirtyAt`, `Held`: A line is modified with these bytes; a write-back of them is
  queued.
* `FillsData`: Every miss waits for data.
* `Same`: Neither the lines nor the write queue are touched.
* `Guards`: Dirty lines stay dirty or are queued.

## Theorems

* `acceptCpuRequest_dirty`, `acceptFill_dirty`: What a controller does to a
  modified line.
* `bind_guards`, `check_guards`: Steps one after the other.
* `installReplacementLine_guards`: Only clean lines make room.
* `acceptUncacheableRequest_guards`, `acceptUncacheableWriteRequest_guards`,
  `acceptFill_guards`: Calls that store nothing.
-/

namespace Rem6.Cache

open Memory Protocol Lib CacheWriteQueue Fallible

/-! ## Controllers -/

variable {req writeback : Memory.MemoryRequest} {data : List UInt8}
  {victim other requiredEntries : Nat}

namespace CacheController

variable {c : MsiController} {data : List UInt8}

/-- A miss waits for data. -/
def AwaitsData (c : MsiController) : Prop :=
  ∀ pending, c.pending = some pending →
    ∀ event, pending.fillEvent = some event → event.isDataResponse = true

theorem awaitsData_of_pending_eq {d : MsiController} (h : c.AwaitsData)
    (hpend : d.pending = c.pending) : d.AwaitsData := by
  unfold AwaitsData
  rw [hpend]
  exact h

theorem awaitsData_of_none (h : c.pending = none) : c.AwaitsData := by
  intro pend hpend
  cases h.symm.trans hpend

/-- What a waiting state expects carries data. -/
theorem missFillEvent_isDataResponse {event} {state : MsiState}
    (h : state.missFillEvent = some event) :
    event.isDataResponse = true := by
  cases state with
  | invalidToShared | invalidToModified | sharedToModified => exact Option.some.inj h ▸ rfl
  | invalid | shared | modified =>
    cases h

theorem acceptCpuRequest_awaitsData (h : c.AwaitsData) :
    (c.acceptCpuRequest msi req).2.AwaitsData := by
  have hspec := acceptCpuRequest_spec msi c req
  generalize c.acceptCpuRequest msi req = oc at hspec ⊢
  cases hspec with
  | turnedAway | noAccess | refused => exact h
  | unsent => exact awaitsData_of_pending_eq h rfl
  | missed after =>
    intro pend hpend ev hev
    rw [← Option.some.inj hpend] at hev
    exact missFillEvent_isDataResponse hev
  | unserved after _ _ _ _ _ hserve | hit after _ _ _ _ _ hserve =>
    have hserved := completeCpuRequest_served { c with state := after } req
    rw [hserve] at hserved
    exact awaitsData_of_pending_eq h hserved.pending_eq

theorem acceptFill_awaitsData (resp : MemoryResponse) (h : c.AwaitsData) :
    (c.acceptFill msi resp none).2.AwaitsData := by
  have hspec := acceptFill_spec msi c resp
  generalize c.acceptFill msi resp none = oc at hspec ⊢
  cases hspec with
  | idle | unexpected => exact h
  | refused | unfit => exact awaitsData_of_none rfl
  | unserved pend ev after d d' _ _ _ _ _ hins hserve
  | filled pend ev after d d' _ _ _ _ _ hins hserve =>
    have hserved := completeCpuRequest_served d pend.original
    rw [hserve] at hserved
    exact awaitsData_of_none (hserved.pending_eq.trans (installData_ok hins).1)

theorem acceptSnoop_awaitsData (ev : MsiEvent) (h : c.AwaitsData) :
    (c.acceptSnoop msi ev).2.AwaitsData := by
  unfold acceptSnoop
  split
  · exact h
  · simp only
    split
    · exact awaitsData_of_pending_eq h rfl
    · exact awaitsData_of_pending_eq h rfl

/-- A modified line that a processor accesses stays modified, and holds its bytes
    or those that the access leaves. -/
theorem acceptCpuRequest_dirty (req : MemoryRequest) (hst : c.state = .modified)
    (hdata : c.data = some data) :
    (c.acceptCpuRequest msi req).2.state = .modified ∧
      ((c.acceptCpuRequest msi req).2.data = some data ∨
        req.lineAddress = c.line ∧
          (c.acceptCpuRequest msi req).2.data = some (req.lineEffect data)) := by
  have hspec := acceptCpuRequest_spec msi c req
  generalize c.acceptCpuRequest msi req = oc at hspec ⊢
  -- both accesses of a modified line hit
  have haft : ∀ after, msi.transition c.state (cpuEvent msi req) = some after →
      after = .modified := by
    intro after hmove
    rw [hst] at hmove
    unfold cpuEvent at hmove
    split at hmove
    · exact (Option.some.inj hmove).symm
    · exact (Option.some.inj hmove).symm
  cases hspec with
  | turnedAway | noAccess | refused => exact ⟨hst, .inl hdata⟩
  | unsent after _ _ hmove hwait | missed after _ _ hmove hwait =>
    rw [haft after hmove] at hwait
    cases hwait
  | unserved after _ _ hreaches hmove _ hserve | hit after _ _ hreaches hmove _ hserve =>
    have hsame := completeCpuRequest_sameLine { c with state := after } req
    have hserved := completeCpuRequest_served { c with state := after } req
    rw [hserve] at hsame hserved
    refine ⟨hsame.state_eq.trans (haft after hmove), ?_⟩
    rcases hserved.data_eq with hkept | ⟨line, hline, heffect⟩
    · exact .inl (hkept.trans hdata)
    · have hbytes : line = data := Option.some.inj (hline.symm.trans hdata)
      rw [hbytes] at heffect
      exact .inr ⟨hreaches.line_eq, heffect⟩

/-- A fill is refused by a modified line and leaves it alone. -/
theorem acceptFill_dirty (resp : MemoryResponse) (h : c.AwaitsData) (hst : c.state = .modified)
    (hdata : c.data = some data) :
    (∃ e, (c.acceptFill msi resp none).1 = .error e) ∧
      (c.acceptFill msi resp none).2.state = .modified ∧
      (c.acceptFill msi resp none).2.data = some data := by
  have hspec := acceptFill_spec msi c resp
  generalize c.acceptFill msi resp none = oc at hspec ⊢
  -- a modified line has no use for data
  have hmove : ∀ pend ev after, c.pending = some pend →
      pend.fillEvent = some ev → msi.transition c.state ev ≠ some after := by
    intro pend ev after hpend hev
    have hresp := h pend hpend ev hev
    rw [hst]
    cases ev with
    | dataShared | dataModified => exact nofun
    | cpuRead | cpuWrite | snoopRead | snoopWrite => cases hresp
  cases hspec with
  | idle | unexpected | refused => exact ⟨⟨_, rfl⟩, hst, hdata⟩
  | unfit pend ev after _ hpend _ hev hsome
  | unserved pend ev after _ _ _ hpend _ hev hsome
  | filled pend ev after _ _ _ hpend _ hev hsome =>
    exact absurd hsome (hmove pend ev after hpend hev)

end CacheController

namespace MsiCacheBank

variable {δ τ κ ε α β : Type}

/-! ## Dirty lines and queued write-backs -/

section

variable (bank : MsiCacheBank δ τ κ)

/-- The line is modified and holds these bytes. -/
def DirtyAt (line : Nat) (data : List UInt8) : Prop :=
  ∃ c, bank.lines line = some c ∧ c.state = .modified ∧ c.data = some data

/-- The request takes these bytes of the line back to memory. -/
structure WritesBack (kind : CacheWriteQueueEntryKind) (request : MemoryRequest) (line : Nat)
    (data : List UInt8) : Prop where
  dirty : kind = .writebackDirty
  start_eq : request.range.start = line
  data_eq : request.data = some data

def queued : List CacheWriteQueueEntry :=
  (bank.writeQueue.map (·.entries)).getD []

/-- A write-back of the line is queued. -/
def Held (line : Nat) (data : List UInt8) : Prop :=
  ∃ entry ∈ bank.queued, WritesBack entry.kind entry.request line data

/-- Every miss of the bank waits for data. -/
def FillsData : Prop :=
  ∀ line c, bank.lines line = some c → c.AwaitsData

end

/-- The lines and the write queue are what they were. -/
structure Same (bank after : MsiCacheBank δ τ κ) : Prop where
  lines : after.lines = bank.lines
  writeQueue : after.writeQueue = bank.writeQueue

/-- Lines that are dirty, and not exempt, stay dirty with their bytes or are
    queued, and what is queued stays queued. -/
structure Guards (exempt : Nat → Prop) (bank after : MsiCacheBank δ τ κ) : Prop where
  fills : bank.FillsData → after.FillsData
  queued : ∀ entry ∈ bank.queued, entry ∈ after.queued
  dirty : bank.FillsData → ∀ line, ¬ exempt line → ∀ data, bank.DirtyAt line data →
    after.DirtyAt line data ∨ after.Held line data

variable {exempt : Nat → Prop} {bank after : MsiCacheBank δ τ κ} {line : Nat}

theorem Guards.held (h : Guards exempt bank after) (hheld : bank.Held line data) :
    after.Held line data := by
  obtain ⟨entry, hent, hwrites⟩ := hheld
  exact ⟨entry, h.queued entry hent, hwrites⟩

/-- Guarding composes, as a held line stays held. -/
theorem Guards.trans {last} (h : Guards exempt bank after) (h' : Guards exempt after last) :
    Guards exempt bank last where
  fills hfills := h'.fills (h.fills hfills)
  queued entry hent := h'.queued entry (h.queued entry hent)
  dirty hfills line hline data hdirty := by
    rcases h.dirty hfills line hline data hdirty with hdirty' | hheld
    · exact h'.dirty (h.fills hfills) line hline data hdirty'
    · exact .inr (h'.held hheld)

/-- Nothing is lost where nothing moves. -/
theorem Same.guards (h : Same bank after) : Guards exempt bank after where
  fills hfills := by
    unfold FillsData
    rwa [h.lines]
  queued entry hent := by
    unfold MsiCacheBank.queued
    rwa [h.writeQueue]
  dirty _ line _ data hdirty := by
    refine .inl ?_
    unfold DirtyAt
    rwa [h.lines]

theorem Guards.refl (bank : MsiCacheBank δ τ κ) : Guards exempt bank bank := Same.guards ⟨rfl, rfl⟩

/-- A change of one line, which is exempt, or not dirty, or queued, or stays as
    dirty as it was. -/
theorem Guards.of_setLine {c} (hawaits : bank.FillsData → ∀ d, c = some d → d.AwaitsData)
    (hdirty : bank.FillsData → ¬ exempt line → ∀ data, bank.DirtyAt line data →
      (∃ d, c = some d ∧ d.state = .modified ∧ d.data = some data) ∨ bank.Held line data) :
    Guards exempt bank (bank.setLine line c) where
  fills hfills other d hoth := by
    by_cases heq : other = line
    · rw [heq] at hoth
      exact hawaits hfills d ((lines_setLine_self ..).symm.trans hoth)
    · exact hfills other d ((lines_setLine_of_ne _ heq).symm.trans hoth)
  queued _ hent := hent
  dirty hfills other hoth data hoth' := by
    by_cases heq : other = line
    · subst heq
      rcases hdirty hfills hoth data hoth' with ⟨d, hd, hkept⟩ | hheld
      · exact .inl ⟨d, (lines_setLine_self ..).trans hd, hkept⟩
      · exact .inr hheld
    · obtain ⟨d, hd, hkept⟩ := hoth'
      exact .inl ⟨d, (lines_setLine_of_ne _ heq).trans hd, hkept⟩

/-! ## Steps -/

section Steps

variable {m : Bank δ τ κ ε α} {f : α → Bank δ τ κ ε β}

/-- The rule for a sequence of steps. -/
theorem bind_guards (hm : Guards exempt bank (m bank).2)
    (hf : ∀ a next, m bank = (.ok a, next) → Guards exempt next (f a next).2) :
    Guards exempt bank ((m >>= f) bank).2 :=
  bind_within (fun h h' => h.trans h') hm hf

theorem get_guards {f : MsiCacheBank δ τ κ → Bank δ τ κ ε β}
    (h : Guards exempt bank (f bank bank).2) : Guards exempt bank ((get >>= f) bank).2 :=
  h

theorem check_guards {res} (hf : ∀ a, res = .ok a → Guards exempt bank (f a bank).2) :
    Guards exempt bank ((check res >>= f) bank).2 :=
  check_bind_within (.refl bank) hf

theorem Same.of_run {res} (hm : Same bank (m bank).2) (h : m bank = (res, after)) :
    Same bank after := by
  rwa [h] at hm

theorem bind_same (hm : Same bank (m bank).2)
    (hf : ∀ a next, m bank = (.ok a, next) → Same next (f a next).2) :
    Same bank ((m >>= f) bank).2 :=
  bind_within (fun h h' => ⟨h'.lines.trans h.lines, h'.writeQueue.trans h.writeQueue⟩) hm hf

theorem onMshr_same (m : Fallible MshrQueue MshrQueueError α) (bank : MsiCacheBank δ τ κ) :
    Same bank (onMshr (ε := ε) m bank).2 := by
  unfold onMshr
  split <;> exact ⟨rfl, rfl⟩

theorem onDirectory_same {m : Fallible δ ε α} : Same bank (onDirectory m bank).2 := by
  unfold onDirectory onComponent
  split <;> exact ⟨rfl, rfl⟩

theorem onSectors_same (m : Fallible τ ε α) (bank : MsiCacheBank δ τ κ) :
    Same bank (onSectors m bank).2 := by
  unfold onSectors onComponent
  split <;> exact ⟨rfl, rfl⟩

theorem onCompressed_same (m : Fallible κ ε α) (bank : MsiCacheBank δ τ κ) :
    Same bank (onCompressed m bank).2 := by
  unfold onCompressed onComponent
  split <;> exact ⟨rfl, rfl⟩

theorem touchReplacementLine_same (B : Backends δ τ κ ε) (line : Nat) (bank : MsiCacheBank δ τ κ) :
    Same bank (touchReplacementLine B line bank).2 := by
  unfold touchReplacementLine
  exact bind_same (onDirectory_same) fun _ _ _ => bind_same (onSectors_same _ _) fun _ _ _ =>
    bind_same (onCompressed_same _ _) fun _ _ _ => ⟨rfl, rfl⟩

theorem insertPendingFill_guards {pend} {id : MemoryRequestId} :
    Guards exempt bank (insertPendingFill (ε := ε) id pend bank).2 :=
  Same.guards ⟨rfl, rfl⟩

theorem enqueue_lines (req : MemoryRequest) (secure : Bool) (readyTick : Nat)
    (uncacheable useReserve : Bool) (bank : MsiCacheBank δ τ κ) :
    (onWriteQueue (ε := ε) (enqueue req secure readyTick uncacheable useReserve) bank).2.lines =
      bank.lines := by
  unfold onWriteQueue
  split <;> rfl

theorem enqueue_guards (req : MemoryRequest) (secure : Bool) (readyTick : Nat)
    (uncacheable useReserve : Bool) (bank : MsiCacheBank δ τ κ) :
    Guards exempt bank
      (onWriteQueue (ε := ε) (enqueue req secure readyTick uncacheable useReserve) bank).2 := by
  unfold onWriteQueue
  split
  · exact .refl bank
  next q hq =>
    refine ⟨fun hfills => hfills, fun entry hent => ?_, fun _ _ _ _ hdirty => .inl hdirty⟩
    have hmem : entry ∈ q.entries := by
      unfold MsiCacheBank.queued at hent
      rwa [hq] at hent
    show entry ∈ (enqueue req secure readyTick uncacheable useReserve q).2.entries
    rcases enqueue_entries req secure readyTick uncacheable useReserve q
      with ⟨e, herr⟩ | ⟨upd, q', added, hok, hents, -⟩
    · rwa [herr]
    · rw [hok, hents]
      exact List.mem_append_left _ hmem

/-- An accepted write-back is held by the queue. -/
theorem held_of_enqueueWriteback {upd} (hdirty : req.operation = .writebackDirty)
    (hstart : req.range.start = line) (hdata : req.data = some data)
    (h : onWriteQueue (ε := ε) (enqueueWriteback req false 0) bank = (.ok upd, after)) :
    after.Held line data := by
  unfold onWriteQueue at h
  split at h
  · cases (Prod.mk.inj h).1
  next q hq =>
    have haft : _ = after := (Prod.mk.inj h).2
    rcases enqueue_entries req false 0 false false q with
      ⟨e, herr⟩ | ⟨upd', q', added, hok, hents, hreq, hkind⟩
    · rw [enqueueWriteback, herr] at h
      cases (Prod.mk.inj h).1
    · rw [hdirty] at hkind
      refine ⟨added, ?_, (Option.some.inj hkind).symm, hreq ▸ hstart, hreq ▸ hdata⟩
      rw [← haft, enqueueWriteback, hok]
      show added ∈ q'.entries
      rw [hents]
      exact List.mem_append_right _ (List.mem_singleton.2 rfl)

variable (B : Backends δ τ κ ε)

theorem removeResidentLine_guards
    (h : ¬ exempt line → ∀ data, bank.DirtyAt line data → bank.Held line data) :
    Guards exempt bank (removeResidentLine B line bank).2 := by
  unfold removeResidentLine
  refine bind_guards ?_ fun _ _ _ => bind_guards onDirectory_same.guards fun _ _ _ =>
    bind_guards (onSectors_same _ _).guards fun _ _ _ =>
      bind_guards (onCompressed_same _ _).guards fun _ _ _ => .refl _
  exact .of_setLine (fun _ d hd => by cases hd) fun _ hline data hdirty =>
    .inr (h hline data hdirty)

/-! ## Making room -/

theorem not_dirtyAt_of_residentState (h : bank.residentState line ≠ some .modified) :
    ¬ bank.DirtyAt line data := by
  rintro ⟨c, hc, hst, -⟩
  exact h (by rw [residentState, hc, Option.map_some, hst])

/-- A line that is not modified may go. -/
theorem evict_guards (h : bank.residentState victim ≠ some .modified) :
    Guards exempt bank (bank.evict victim) := by
  have hline : Guards exempt bank (bank.setLine victim none) :=
    .of_setLine (fun _ d hd => by cases hd)
      fun _ _ data hdirty => absurd hdirty (not_dirtyAt_of_residentState h)
  exact hline.trans (Same.guards ⟨rfl, rfl⟩)

theorem residentState_evict (h : bank.residentState other ≠ some .modified) :
    (bank.evict victim).residentState other ≠ some .modified := by
  unfold residentState at h ⊢
  by_cases heq : other = victim
  · have hnone : (bank.evict victim).lines other = none := heq ▸ lines_setLine_self ..
    rw [hnone]
    exact nofun
  · have hsame : (bank.evict victim).lines other = bank.lines other := lines_setLine_of_ne _ heq
    rwa [hsame]

theorem foldl_evict_guards (victims : List Nat) (bank : MsiCacheBank δ τ κ)
    (h : ∀ victim ∈ victims, bank.residentState victim ≠ some .modified) :
    Guards exempt bank (victims.foldl evict bank) := by
  induction victims generalizing bank with
  | nil => exact .refl bank
  | cons victim rest ih =>
    refine (evict_guards (h victim List.mem_cons_self)).trans (ih _ fun other hoth => ?_)
    exact residentState_evict (h other (List.mem_cons_of_mem victim hoth))

theorem validateVictim_ok (h : bank.validateVictim (ε := ε) victim = .ok ()) :
    bank.residentState victim ≠ some .modified := by
  intro hmod
  unfold validateVictim at h
  simp [hmod] at h

/-- No victim that was checked is modified. -/
theorem validateCleanStableVictims_ok {victims}
    (h : bank.validateCleanStableVictims (ε := ε) victims = .ok ()) :
    ∀ victim ∈ victims, bank.residentState victim ≠ some .modified := by
  induction victims with
  | nil => exact fun _ hmem => absurd hmem (List.not_mem_nil)
  | cons victim rest ih =>
    unfold validateCleanStableVictims at h
    cases hvictim : bank.validateVictim (ε := ε) victim with
    | error e =>
      rw [hvictim] at h
      cases h
    | ok _ =>
      rw [hvictim] at h
      intro other hoth
      rcases List.mem_cons.1 hoth with heq | hrest
      · exact heq ▸ validateVictim_ok hvictim
      · exact ih h other hrest

theorem installTagLine_guards {θ : Type} {part : MsiCacheBank δ τ κ → Option θ}
    {on : {α : Type} → Fallible θ ε α → Bank δ τ κ ε (Option α)}
    (hon : ∀ {α : Type} (m : Fallible θ ε α) (bank : MsiCacheBank δ τ κ), Same bank (on m bank).2)
    (rules : TagRules θ ε (List Nat)) (line : Nat) (bits : Option Nat) (bank : MsiCacheBank δ τ κ) :
    Guards exempt bank (installTagLine part on rules line bits bank).2 := by
  unfold installTagLine
  refine get_guards ?_
  cases part bank with
  | none => exact .refl bank
  | some snap =>
    refine bind_guards (hon _ _).guards fun victims next hnext => ?_
    have hsame : Same bank next := .of_run (hon _ _) hnext
    cases hval : bank.validateCleanStableVictims (ε := ε) (victims.getD []) with
    | error e => exact bind_guards (hon _ _).guards fun _ _ _ => .refl _
    | ok _ =>
      refine foldl_evict_guards _ next fun victim hvictim => ?_
      unfold residentState
      rw [hsame.lines]
      exact validateCleanStableVictims_ok hval victim (List.mem_of_mem_filter hvictim)

theorem installReplacementLine_guards (line : Nat) (bits : Option Nat) (bank : MsiCacheBank δ τ κ) :
    Guards exempt bank (installReplacementLine B line bits bank).2 := by
  unfold installReplacementLine
  refine get_guards ?_
  cases bank.replacementDirectory with
  | none =>
    simp only
    split
    · exact installTagLine_guards onSectors_same _ _ _ _
    · exact installTagLine_guards onCompressed_same _ _ _ _
  | some dir =>
    refine bind_guards onDirectory_same.guards fun answer next hnext => ?_
    have hsame : Same bank next := .of_run (onDirectory_same) hnext
    cases answer.join with
    | none => exact .refl next
    | some victim =>
      simp only
      split
      · exact .refl next
      · refine check_guards fun _ hval => evict_guards ?_
        unfold residentState
        rw [hsame.lines]
        exact validateVictim_ok hval

/-! ## Uncacheable requests -/

theorem dirtyResidentWritebackRequest_some
    (h : bank.dirtyResidentWritebackRequest (ε := ε) line = .ok (some writeback)) :
    writeback.operation = .writebackDirty ∧ writeback.range.start = line ∧
      ∀ data, bank.DirtyAt line data → writeback.data = some data := by
  unfold dirtyResidentWritebackRequest at h
  cases hc : bank.lines line with
  | none => simp [hc] at h
  | some c =>
    rw [hc] at h
    simp only at h
    split at h
    · cases h
    · split at h
      · cases h
      next bytes hbytes =>
        split at h
        · cases h
        next req hreq =>
          have heq : req = writeback := Option.some.inj (Except.ok.inj h)
          obtain ⟨hop, hstart, hdata, -⟩ := MemoryRequest.writebackDirty_inv hreq
          subst heq
          refine ⟨hop, hstart, fun data hdirty => ?_⟩
          obtain ⟨d, hd, -, hdbytes⟩ := hdirty
          have hcd : c = d := Option.some.inj (hc.symm.trans hd)
          rw [hdata, ← hbytes, hcd, hdbytes]

/-- A dirty line is queued before it goes. -/
theorem enqueueDirtyResidentWritebackAndRemove_guards :
    Guards exempt bank
      (enqueueDirtyResidentWritebackAndRemove B req line requiredEntries bank).2 := by
  unfold enqueueDirtyResidentWritebackAndRemove
  refine get_guards (check_guards fun writeback hwriteback => ?_)
  cases writeback with
  | none => exact .refl bank
  | some writeback =>
    obtain ⟨hop, hstart, hdata⟩ := dirtyResidentWritebackRequest_some hwriteback
    refine check_guards fun _ _ => check_guards fun _ _ => ?_
    refine bind_guards (enqueue_guards ..) fun upd next hnext => ?_
    refine bind_guards (Same.guards ⟨rfl, rfl⟩) fun _ last hlast => ?_
    refine bind_guards (removeResidentLine_guards B fun _ data hdirty => ?_) fun _ _ _ => .refl _
    -- the line is still there, with the bytes that were queued
    have hlin : next.lines = bank.lines := by
      have hsame := enqueue_lines (ε := ε) writeback false 0 false false bank
      rwa [← enqueueWriteback, hnext] at hsame
    have hlast' : _ = last := (Prod.mk.inj hlast).2
    have hbef : bank.DirtyAt line data := by
      rw [← hlast'] at hdirty
      unfold DirtyAt at hdirty ⊢
      rwa [← hlin]
    have hheld : next.Held line data := held_of_enqueueWriteback hop hstart (hdata data hbef) hnext
    rwa [← hlast']

theorem not_dirtyAt_of_canBypass (h : bank.canBypassUncacheableResidentLine line = true) :
    ¬ bank.DirtyAt line data := by
  refine not_dirtyAt_of_residentState (fun hmod => ?_)
  unfold canBypassUncacheableResidentLine at h
  simp [hmod] at h

theorem acceptUncacheableRequest_guards :
    Guards exempt bank (acceptUncacheableRequest B req bank).2 := by
  unfold acceptUncacheableRequest
  refine bind_guards (enqueueDirtyResidentWritebackAndRemove_guards ..) fun writeback next _ => ?_
  cases writeback with
  | some handle => exact bind_guards (insertPendingFill_guards) fun _ _ _ => .refl _
  | none =>
    refine get_guards ?_
    split
    next hclean =>
      refine bind_guards (removeResidentLine_guards B fun _ data hdirty =>
        absurd hdirty (not_dirtyAt_of_canBypass hclean)) fun _ _ _ => ?_
      exact bind_guards (insertPendingFill_guards) fun _ _ _ => .refl _
    next => exact .refl next

theorem acceptUncacheableWriteRequest_guards :
    Guards exempt bank (acceptUncacheableWriteRequest B req bank).2 := by
  unfold acceptUncacheableWriteRequest
  refine bind_guards (enqueueDirtyResidentWritebackAndRemove_guards ..) fun writeback next _ => ?_
  cases writeback with
  | some handle => exact bind_guards (enqueue_guards ..) fun _ _ _ => .refl _
  | none =>
    refine get_guards ?_
    split
    next hclean =>
      refine check_guards fun _ _ => bind_guards (enqueue_guards ..) fun upd last hlast => ?_
      refine bind_guards (removeResidentLine_guards B fun _ data hdirty => ?_) fun _ _ _ => .refl _
      have hlin : last.lines = next.lines := by
        have hsame := enqueue_lines (ε := ε) req false 0 true false next
        rwa [← enqueueUncacheableWrite, hlast] at hsame
      unfold DirtyAt at hdirty
      rw [hlin] at hdirty
      exact absurd hdirty (not_dirtyAt_of_canBypass hclean)
    next => exact .refl next

/-! ## Fills -/

theorem enqueueDownstreamRequests_guards (reqs : List MemoryRequest) (bank : MsiCacheBank δ τ κ) :
    Guards exempt bank (enqueueDownstreamRequests (ε := ε) reqs bank).2 := by
  induction reqs generalizing bank with
  | nil => exact .refl bank
  | cons req rest ih =>
    unfold enqueueDownstreamRequests
    refine check_guards fun backed _ => ?_
    cases backed with
    | false => exact ih bank
    | true => exact bind_guards (enqueue_guards ..) fun _ next _ => ih next

theorem finishMiss_guards {res} {handle : Nat} :
    Guards exempt bank (finishMiss (ε := ε) res handle bank).2 := by
  unfold finishMiss
  refine get_guards ?_
  split
  · exact .refl bank
  · refine bind_guards (onMshr_same ..).guards fun completion next _ => ?_
    refine bind_guards (enqueueDownstreamRequests_guards ..) fun _ last _ => ?_
    exact get_guards (check_guards fun _ _ => .refl last)

theorem restoreController_pending {c snap restored}
    (h : restoreController (ε := ε) c snap = .ok restored) :
    restored.pending = snap.pending := by
  unfold restoreController at h
  split at h
  · split at h
    · exact Except.ok.inj h ▸ rfl
    · split at h
      · cases h
      · exact Except.ok.inj h ▸ rfl
  · cases h

/-- The snapshot of a line is put back. -/
theorem undoFill_guards {snap} (exempt : Nat → Prop) (hline : exempt line) (hsnap : snap.AwaitsData)
    (dir : Option δ) (bank : MsiCacheBank δ τ κ) :
    Guards exempt bank (undoFill B line snap dir bank).2 := by
  unfold undoFill
  refine get_guards ?_
  cases bank.lines line with
  | none => exact .refl bank
  | some c =>
    refine check_guards fun restored hrestored => ?_
    have hawaits : restored.AwaitsData := by
      refine CacheController.awaitsData_of_pending_eq hsnap ?_
      exact restoreController_pending hrestored
    refine bind_guards ?_ fun _ next _ => ?_
    · exact .of_setLine (fun _ d hd => Option.some.inj hd ▸ hawaits) fun _ hnot => absurd hline hnot
    · cases dir with
      | none => exact .refl next
      | some dir => exact bind_guards onDirectory_same.guards fun _ _ _ => .refl _

/-- A line that was not dirty needs no exemption. -/
theorem Guards.of_exempt (h : Guards (· = line) bank after)
    (hclean : ∀ data, ¬ bank.DirtyAt line data) : Guards exempt bank after where
  fills := h.fills
  queued := h.queued
  dirty hfills other _ data hdirty := by
    refine h.dirty hfills other (fun heq => ?_) data hdirty
    exact hclean data (heq ▸ hdirty)

/-- A fill that is refused leaves its line as dirty as it was. A fill that is
    accepted found its line clean, so whatever happens to the line in the end,
    nothing dirty is lost. -/
theorem acceptLineFill_guards {resp} {bits : Option Nat} {mshr : Option Nat}
    (hfills : bank.FillsData) :
    Guards exempt bank (acceptLineFill B resp bits line mshr bank).2 := by
  unfold acceptLineFill
  refine get_guards (check_guards fun forwarded _ => check_guards fun _ _ => ?_)
  cases hc : bank.lines line with
  | none => exact .refl bank
  | some c =>
    have hawaits := hfills line c hc
    have haft := CacheController.acceptFill_awaitsData resp hawaits
    have hat : ∀ {data}, bank.DirtyAt line data → c.state = .modified ∧ c.data = some data := by
      rintro data ⟨d, hd, hdirty⟩
      rwa [Option.some.inj (hc.symm.trans hd)]
    cases hanswer : (c.acceptFill msi resp none).1 with
    | error e =>
      refine bind_guards (.of_setLine (fun _ d hd => Option.some.inj hd ▸ haft)
        fun _ _ data hdirty => .inl ⟨_, rfl, ?_⟩) fun _ next _ => check_guards fun res hok => ?_
      · obtain ⟨hst, hdata⟩ := hat hdirty
        exact (CacheController.acceptFill_dirty resp hawaits hst hdata).2
      · rw [hanswer] at hok
        cases hok
    | ok res =>
      have hclean : ∀ data, ¬ bank.DirtyAt line data := by
        intro data hdirty
        obtain ⟨hst, hdata⟩ := hat hdirty
        obtain ⟨e, he⟩ := (CacheController.acceptFill_dirty resp hawaits hst hdata).1
        cases hanswer.symm.trans he
      refine Guards.of_exempt ?_ hclean
      refine bind_guards (.of_setLine (fun _ d hd => Option.some.inj hd ▸ haft)
        fun _ hnot => absurd rfl hnot) fun _ next _ => check_guards fun res _ => ?_
      refine bind_guards ?_ fun _ last _ => bind_guards (Same.guards ⟨rfl, rfl⟩) fun _ final _ => ?_
      · refine handle_within (fun h h' => h.trans h')
          (installReplacementLine_guards B line bits next) fun e last _ => ?_
        exact bind_guards (undoFill_guards B (· = line) rfl hawaits _ last) fun _ _ _ => .refl _
      · cases mshr with
        | none => exact .refl final
        | some handle => exact finishMiss_guards

theorem acceptFill_guards {resp} {bits : Option Nat} (hfills : bank.FillsData) :
    Guards exempt bank (acceptFill B resp bits bank).2 := by
  unfold acceptFill
  refine get_guards ?_
  cases Assoc.find bank.pendingFills resp.requestId with
  | none => exact .refl bank
  | some pend =>
    cases pend with
    | uncacheable =>
      exact check_guards fun _ _ => bind_guards (Same.guards ⟨rfl, rfl⟩) fun _ _ _ => .refl _
    | line line mshr => exact acceptLineFill_guards B hfills

end Steps

end MsiCacheBank

end Rem6.Cache
