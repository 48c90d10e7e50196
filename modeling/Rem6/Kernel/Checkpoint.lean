import Mathlib.Data.List.Perm.Subperm
import Rem6.Kernel.Scheduler

/-!
# What a Restore Can Do

The checkpoint calls of the scheduler, from outside and from inside a serial
callback, all take events out of queues and may set clocks and counters to
those of a snapshot. `Restored` says what is true of the scheduler after any of
them, whether it succeeded or not: no queue holds an event it did not hold before, the token
counters go on counting, and either the clocks are untouched or they are all at
the tick of the snapshot and no event that was kept is earlier than that.

The last point is the one with some work in it. The projection restore checks
the ticks of the snapshots it was given, takes the events of those ids off their
queues and puts the same events back, so the events put back are the ones that
were checked (`removeEvents_snapshots`).

## Main definitions

* `SameShape`: The numbers of the constructor are the same.
* `Restored`: What a checkpoint call leaves.

## Theorems

* `restored_restoreQuiescent`, `restored_restoreCheckpointProjection`,
  `restored_discardExactEvents`: The result of a checkpoint call is `Restored`.
-/

namespace Rem6.Kernel

open Lib List

variable {κ : Type}

/-- The numbers a scheduler is built with. -/
structure SameShape (s s' : PartitionedScheduler κ) : Prop where
  instanceId : s'.instanceId = s.instanceId
  minRemoteDelay : s'.minRemoteDelay = s.minRemoteDelay
  maxParallelWorkers : s'.maxParallelWorkers = s.maxParallelWorkers
  partitionCount : s'.partitionCount = s.partitionCount

theorem SameShape.refl (s : PartitionedScheduler κ) : SameShape s s := ⟨rfl, rfl, rfl, rfl⟩

theorem SameShape.trans {κ} {a b c : PartitionedScheduler κ} (h : SameShape a b)
    (h' : SameShape b c) : SameShape a c :=
  ⟨h'.1.trans h.1, h'.2.trans h.2, h'.3.trans h.3, h'.4.trans h.4⟩

/-- What a checkpoint call leaves of a scheduler. -/
structure Restored (s s' : PartitionedScheduler κ) : Prop where
  shape : SameShape s s'
  tokens : ∀ p, (s'.queues p).nextRuntimeToken = (s.queues p).nextRuntimeToken
  pending : ∀ p, (s'.queues p).pending.items.Subperm (s.queues p).pending.items
  clocks : (s'.now = s.now ∧ ∀ p, (s'.queues p).now = (s.queues p).now) ∨
    ∀ p < s.partitionCount, (s'.queues p).now = s'.now ∧
      ∀ e ∈ (s'.queues p).pending, s'.now ≤ e.tick
  counters : ∀ p < s.partitionCount, ((s'.queues p).nextId = (s.queues p).nextId ∧
      (s'.queues p).nextOrder = (s.queues p).nextOrder) ∨
    ∀ e ∈ (s'.queues p).pending, e.NotLast →
      e.id.localId < (s'.queues p).nextId ∧ e.order < (s'.queues p).nextOrder
  timeline : s.timelineRevision < s'.timelineRevision ∨
    s'.timelineRevision = s.timelineRevision ∧ s'.now = s.now

theorem Restored.refl (s : PartitionedScheduler κ) : Restored s s :=
  ⟨SameShape.refl s, fun _ => rfl, fun _ => Subperm.refl _, Or.inl ⟨rfl, fun _ => rfl⟩,
    fun _ _ => Or.inl ⟨rfl, rfl⟩, Or.inr ⟨rfl, rfl⟩⟩

namespace PartitionedScheduler

variable (s : PartitionedScheduler κ)

variable {snap : SchedulerSnapshot} {items : List (PartitionEvent κ)}

/-- What restoring the queues leaves: at the tick of the snapshot, without
    events, the token counters as they were. -/
theorem restoredQueues_spec
    (h : s.validateQuiescentSnapshotCompatibility snap = .ok ()) :
    (∀ p, (s.restoredQueues snap p).nextRuntimeToken = (s.queues p).nextRuntimeToken) ∧
      (∀ p, (s.restoredQueues snap p).pending.items = [] ∨ s.restoredQueues snap p = s.queues p) ∧
      ∀ p < s.partitionCount, (s.restoredQueues snap p).now = snap.now ∧
        (s.restoredQueues snap p).pending.items = [] := by
  refine ⟨fun p => ?_, fun p => ?_, fun p hp => ?_⟩
  · unfold restoredQueues
    split <;> rfl
  · unfold restoredQueues
    split
    · exact .inl rfl
    · exact .inr rfl
  · rcases s.partitions_of_compatible h p hp with ⟨ptn, hget, hnow⟩
    simp [restoredQueues, hget, PartitionQueue.restoreQuiescent, hnow, Agenda.items_empty]

/-- A quiescent restore fails and changes nothing, or leaves the restored
    queues. -/
theorem restoreQuiescent_eq (snap : SchedulerSnapshot) :
    (∃ error, s.restoreQuiescent snap = (.error error, s)) ∨
      s.validateQuiescentSnapshotCompatibility snap = .ok () ∧ s.totalPendingEvents = 0 ∧
      s.restoreQuiescent snap = (.ok (),
        { s with
          now := snap.now
          queues := s.restoredQueues snap
          timelineRevision := s.timelineRevision + 1 }) := by
  unfold restoreQuiescent
  cases hval : s.validateQuiescentRestore snap with
  | error error => exact .inl ⟨error, rfl⟩
  | ok _ =>
    refine .inr ⟨?_, ?_, rfl⟩ <;> unfold validateQuiescentRestore at hval <;>
      split at hval <;> try split at hval
    all_goals first
      | exact absurd hval (by simp)
      | exact hval
      | omega

theorem restored_restoreQuiescent :
    Restored s (s.restoreQuiescent snap).2 := by
  rcases s.restoreQuiescent_eq snap with ⟨error, hfails⟩ | ⟨hval, -, hok⟩
  · rw [hfails]
    exact Restored.refl s
  · rcases s.restoredQueues_spec hval with ⟨htoks, hqs, hclocks⟩
    rw [hok]
    refine ⟨⟨rfl, rfl, rfl, rfl⟩, htoks, fun p => ?_, .inr (fun p hp => ?_), fun p hp => ?_,
      Or.inl (Nat.lt_succ_self _)⟩
    · rcases hqs p with hemp | hsame
      · rw [hemp]
        exact nil_subperm
      · simp only [hsame]
        exact Subperm.refl _
    · refine ⟨(hclocks p hp).1, fun e he => ?_⟩
      simp [Agenda.mem_def, (hclocks p hp).2] at he
    · refine .inr (fun e he => ?_)
      simp [Agenda.mem_def, (hclocks p hp).2] at he

theorem find_eraseP {a b} (hne : a ≠ b) :
    (items.eraseP (·.id = a)).find? (·.id = b) = items.find? (·.id = b) := by
  induction items with
  | nil => rfl
  | cons ev items ih =>
    by_cases ha : ev.id = a
    · have hb : ev.id ≠ b := fun hb => hne (ha.symm.trans hb)
      simp [ha, hne]
    · simp [ha, find?_cons, ih]

theorem id_of_find {ev} {id : PartitionEventId}
    (h : items.find? (·.id = id) = some ev) : ev.id = id := by
  have hid := find?_some h
  exact of_decide_eq_true hid

theorem removeEvent_spec (q : PartitionQueue κ) (id : PartitionEventId) :
    (q.removeEvent id).2.now = q.now ∧ (q.removeEvent id).2.nextId = q.nextId ∧
      (q.removeEvent id).2.nextOrder = q.nextOrder ∧ (q.removeEvent id).2.nextRuntimeToken =
      q.nextRuntimeToken ∧ (q.removeEvent id).1 = q.pending.items.find? (·.id = id) ∧
      (q.removeEvent id).2.pending.items = q.pending.items.eraseP (·.id = id) := by
  unfold PartitionQueue.removeEvent
  cases hfind : q.pending.items.find? (fun ev => decide (ev.id = id)) with
  | none =>
    refine ⟨rfl, rfl, rfl, rfl, rfl, (eraseP_of_forall_not ?_).symm⟩
    exact fun ev hev => find?_eq_none.mp hfind ev hev
  | some ev => exact ⟨rfl, rfl, rfl, rfl, rfl, rfl⟩

theorem removeEvent_perm (q : PartitionQueue κ) (id : PartitionEventId) :
    ((q.removeEvent id).1.toList ++ (q.removeEvent id).2.pending.items).Perm q.pending.items := by
  rcases removeEvent_spec q id with ⟨-, -, -, -, hfound, hrest⟩
  rw [hfound, hrest]
  cases hfind : q.pending.items.find? (fun ev => decide (ev.id = id)) with
  | none =>
    rw [eraseP_of_forall_not (fun ev hev => find?_eq_none.mp hfind ev hev)]
    exact .rfl
  | some ev =>
    rcases find?_eq_some_iff_append.mp hfind with ⟨hid, front, back, hitems, hfront⟩
    rw [hitems, eraseP_append_right _ (fun e he => by
      have := hfront e he
      simp only [Bool.not_eq_true'] at this
      rw [this]
      exact Bool.false_ne_true), eraseP_cons, hid, cond_true]
    rw [Option.toList_some, singleton_append]
    exact perm_middle.symm

/-- Taking events off their queues: clocks and counters stay, and each queue
    loses what was taken. -/
theorem removeEvents_spec (evs : List PendingEventSnapshot) (s : PartitionedScheduler κ) :
    SameShape s (s.removeEvents evs).2 ∧ ((s.removeEvents evs).2.now = s.now ∧
        (s.removeEvents evs).2.timelineRevision = s.timelineRevision) ∧
      (∀ p, ((s.removeEvents evs).2.queues p).now = (s.queues p).now ∧
        ((s.removeEvents evs).2.queues p).nextId = (s.queues p).nextId ∧
        ((s.removeEvents evs).2.queues p).nextOrder = (s.queues p).nextOrder ∧
        ((s.removeEvents evs).2.queues p).nextRuntimeToken = (s.queues p).nextRuntimeToken) ∧
      ∀ p, ((s.removeEvents evs).1.filter (·.id.partition = p)
        ++ ((s.removeEvents evs).2.queues p).pending.items).Perm (s.queues p).pending.items := by
  induction evs generalizing s with
  | nil => exact ⟨SameShape.refl s, ⟨rfl, rfl⟩, fun p => ⟨rfl, rfl, rfl, rfl⟩, fun p => .rfl⟩
  | cons ev evs ih =>
    rcases ih (s.setQueue ev.id.partition
      ((s.queues ev.id.partition).removeEvent ev.id).2) with ⟨hshape, hnow, hqs, hperm⟩
    rcases removeEvent_spec (s.queues ev.id.partition) ev.id with
      ⟨hclk, hid, hord, htok, hfound, -⟩
    refine ⟨⟨hshape.1, hshape.2, hshape.3, hshape.4⟩, hnow, fun p => ?_, fun p => ?_⟩
    · have hp := hqs p
      rw [queue_setQueue] at hp
      split at hp
      next hpartition =>
        rw [hclk, hid, hord, htok] at hp
        rw [hpartition] at hp ⊢
        exact hp
      · exact hp
    · have hp := hperm p
      rw [queue_setQueue] at hp
      simp only [removeEvents, filter_append, append_assoc]
      by_cases hpartition : p = ev.id.partition
      · -- The event found has the id looked for, so it is of this partition.
        rw [if_pos hpartition] at hp
        have hsame : ((s.queues ev.id.partition).removeEvent ev.id).1.toList.filter
            (·.id.partition = p) = ((s.queues ev.id.partition).removeEvent ev.id).1.toList := by
          refine filter_eq_self.mpr (fun e he => ?_)
          rw [hfound, Option.mem_toList] at he
          have hide := id_of_find he
          rw [hide, hpartition]
          exact decide_eq_true rfl
        rw [hsame]
        refine (hp.append_left _).trans ?_
        rw [hpartition]
        exact removeEvent_perm _ _
      · rw [if_neg hpartition] at hp
        have hnone : ((s.queues ev.id.partition).removeEvent ev.id).1.toList.filter
            (·.id.partition = p) = [] := by
          refine filter_eq_nil_iff.mpr (fun e he hpe => hpartition ?_)
          rw [hfound, Option.mem_toList] at he
          have hide := id_of_find he
          rw [← of_decide_eq_true hpe, hide]
        rwa [hnone, nil_append]

theorem pendingEventSnapshot_remove {a b} (hne : a ≠ b) :
    (s.setQueue a.partition ((s.queues a.partition).removeEvent a).2).pendingEventSnapshot b
      = s.pendingEventSnapshot b := by
  rcases removeEvent_spec (s.queues a.partition) a with ⟨-, -, -, -, -, hrest⟩
  unfold pendingEventSnapshot
  rw [queue_setQueue]
  by_cases hpartition : b.partition = a.partition
  · rw [if_pos hpartition, hrest, hpartition, find_eraseP hne]
    rfl
  · rw [if_neg hpartition]
    rfl

/-- Of events listed once each, as they are pending, the later ones have other
    ids than the first and are pending without it. -/
theorem pending_tail {ev evs} {s : PartitionedScheduler κ}
    (hpend : ∀ e ∈ ev :: evs, s.pendingEventSnapshot e.id = some e) (hnd : (ev :: evs).Nodup) :
    ∀ e ∈ evs, (s.setQueue ev.id.partition
      ((s.queues ev.id.partition).removeEvent ev.id).2).pendingEventSnapshot e.id = some e := by
  intro e he
  rw [pendingEventSnapshot_remove s ?_]
  · exact hpend e (mem_cons_of_mem _ he)
  · intro hid
    have hev := hpend ev mem_cons_self
    rw [hid, hpend e (mem_cons_of_mem _ he)] at hev
    exact (nodup_cons.mp hnd).1 (Option.some.inj hev ▸ he)

theorem found_of_pending {s : PartitionedScheduler κ} {event : PendingEventSnapshot}
    (h : s.pendingEventSnapshot event.id = some event) :
    event.id.partition < s.partitionCount ∧
      ∃ found, ((s.queues event.id.partition).removeEvent event.id).1 = some found ∧
        found.snapshot = event := by
  rcases removeEvent_spec (s.queues event.id.partition) event.id with ⟨-, -, -, -, hfound, -⟩
  unfold pendingEventSnapshot at h
  split at h
  · rename_i hp
    rcases Option.map_eq_some_iff.mp h with ⟨found, hfind, hsnap⟩
    exact ⟨hp, found, hfound.trans hfind, hsnap⟩
  · cases h

/-- Events listed once each, as they are pending, are taken off exactly. -/
theorem removeEvents_snapshots : ∀ (events : List PendingEventSnapshot)
    (s : PartitionedScheduler κ), (∀ e ∈ events, s.pendingEventSnapshot e.id = some e) →
      events.Nodup → (s.removeEvents events).1.map PartitionEvent.snapshot = events := by
  intro events
  induction events with
  | nil => intro s _ _; rfl
  | cons event events ih =>
    intro s hpend hnd
    rcases found_of_pending (hpend event mem_cons_self) with
      ⟨-, found, hfound, hsnap⟩
    have htail := ih _ (pending_tail hpend hnd) (nodup_cons.mp hnd).2
    simp only [removeEvents, map_append, htail]
    rw [hfound, Option.toList_some, map_singleton, hsnap, singleton_append]

/-- The counters go past an event that is put back, if that can be. -/
theorem lt_saturatingSucc {n : Nat} (h : n + 1 < Memory.wordLimit) :
    n < Memory.saturatingSucc n := by
  rw [Memory.saturatingSucc, if_pos h]
  exact Nat.lt_succ_self n

/-- Putting events back: the clocks and token counters stay, every queue gains
    the events of its partition, and the counters go past them if they can. -/
theorem restorePreserved_spec (evs : List (PartitionEvent κ)) (s : PartitionedScheduler κ) :
    let restored := evs.foldl (fun s ev =>
      s.setQueue ev.id.partition ((s.queues ev.id.partition).restorePreservedEvent ev)) s
    SameShape s restored ∧ (restored.now = s.now ∧ restored.timelineRevision = s.timelineRevision) ∧
      (∀ p, (restored.queues p).now = (s.queues p).now ∧
        (restored.queues p).nextRuntimeToken = (s.queues p).nextRuntimeToken ∧
        (s.queues p).nextId ≤ (restored.queues p).nextId ∧
        (s.queues p).nextOrder ≤ (restored.queues p).nextOrder) ∧
      (∀ e ∈ evs, e.NotLast → e.id.localId < (restored.queues e.id.partition).nextId ∧
        e.order < (restored.queues e.id.partition).nextOrder) ∧
      ∀ p, (restored.queues p).pending.items.Perm
        (evs.filter (·.id.partition = p) ++ (s.queues p).pending.items) := by
  induction evs generalizing s with
  | nil =>
    refine ⟨SameShape.refl s, ⟨rfl, rfl⟩,
      fun p => ⟨rfl, rfl, le_rfl, le_rfl⟩, fun e he => ?_,
      fun p => .rfl⟩
    cases he
  | cons ev evs ih =>
    rcases ih (s.setQueue ev.id.partition
      ((s.queues ev.id.partition).restorePreservedEvent ev)) with
      ⟨hshape, hnow, hqs, hpast, hperm⟩
    refine ⟨⟨hshape.1, hshape.2, hshape.3, hshape.4⟩, hnow, fun p => ?_, fun e he => ?_,
      fun p => ?_⟩
    · have hp := hqs p
      rw [queue_setQueue] at hp
      split at hp
      next hpartition =>
        rw [hpartition] at hp ⊢
        exact ⟨hp.1, hp.2.1, Nat.le_trans (Nat.le_max_left _ _) hp.2.2.1,
          Nat.le_trans (Nat.le_max_left _ _) hp.2.2.2⟩
      · exact hp
    · rcases mem_cons.mp he with rfl | he
      · have hp := (hqs e.id.partition).2.2
        rw [queue_setQueue, if_pos rfl] at hp
        intro hlast
        exact ⟨(lt_saturatingSucc hlast.1).trans_le ((Nat.le_max_right _ _).trans hp.1),
          (lt_saturatingSucc hlast.2).trans_le ((Nat.le_max_right _ _).trans hp.2)⟩
      · exact hpast e he
    · have hp := hperm p
      rw [queue_setQueue] at hp
      refine hp.trans ?_
      by_cases hpartition : ev.id.partition = p
      · rw [if_pos hpartition.symm, filter_cons, if_pos (decide_eq_true hpartition), hpartition]
        refine ((perm_orderedInsert _ ev (s.queues p).pending.items).append_left _).trans ?_
        exact perm_middle
      · rw [if_neg (fun h => hpartition h.symm), filter_cons,
          if_neg (fun h => hpartition (of_decide_eq_true h))]

/-- What a projection that may be restored has been checked for. -/
structure Classified (s : PartitionedScheduler κ) (snapshot : SchedulerSnapshot)
    (discarded preserved : List PendingEventSnapshot) : Prop where
  compatible : s.validateQuiescentSnapshotCompatibility snapshot = .ok ()
  pending : ∀ e ∈ preserved ++ discarded, s.pendingEventSnapshot e.id = some e
  nodup : (preserved ++ discarded).Nodup
  total : s.totalPendingEvents = (preserved ++ discarded).length
  ticks : ∀ e ∈ preserved, ∀ partition, snapshot.partitions[e.id.partition]? = some partition →
    partition.now ≤ e.tick

theorem validateCheckpointProjection_ok {dropped preserved}
    (h : s.validateCheckpointProjection snap dropped preserved = .ok ()) :
    Classified s snap dropped preserved := by
  unfold validateCheckpointProjection at h
  split at h
  next => cases h
  next _ hval =>
    split at h
    · cases h
    rename_i hfind
    split at h
    · cases h
    rename_i hdup
    split at h
    · cases h
    rename_i htot
    split at h
    · cases h
    rename_i hticks
    refine ⟨hval, fun e he => ?_, ?_, ?_, fun e he ptn hget => ?_⟩
    · have hmem : e ∈ dropped ++ preserved := by
        rw [mem_append] at he ⊢
        exact he.symm
      have hnot := find?_eq_none.mp hfind e hmem
      simpa using hnot
    · simp only [hasDuplicateOrConflictingEvents, Bool.or_eq_true, Bool.not_eq_true',
        decide_eq_false_iff_not, not_or, not_not, any_eq_true, not_exists, not_and,
        contains_iff_mem] at hdup
      refine nodup_append.mpr ⟨hdup.2, hdup.1.2, fun a ha b hb hsame => ?_⟩
      exact hdup.1.1 b hb (hsame ▸ ha)
    · rw [length_append]
      omega
    · have hnone := findSome?_eq_none_iff.mp hticks e he
      simp only [hget] at hnone
      split at hnone
      · cases hnone
      · rename_i hle
        exact Nat.le_of_not_lt hle

/-- A projection restore keeps only events that were pending, and they are no
    earlier than the tick it sets every clock to. The inner restore comes after
    the events are off their queues, so its failure is a case of its own. -/
theorem restored_restoreCheckpointProjection (snapshot : SchedulerSnapshot)
    (discarded preserved : List PendingEventSnapshot) :
    Restored s (s.restoreCheckpointProjection snapshot discarded preserved).2 := by
  unfold restoreCheckpointProjection
  cases hval : s.validateCheckpointProjection snapshot discarded preserved with
  | error error => exact Restored.refl s
  | ok _ =>
    have hclassified := s.validateCheckpointProjection_ok hval
    have hsna := removeEvents_snapshots preserved s
      (fun e he => hclassified.pending e (mem_append_left _ he))
      (nodup_append.mp hclassified.nodup).1
    rcases removeEvents_spec preserved s with ⟨hshape, hnow, hqs, hperm⟩
    rcases removeEvents_spec discarded (s.removeEvents preserved).2 with
      ⟨hshape', hnow', hqs', hperm'⟩
    -- What was kept and what is left on the queues was there before.
    have hsub : ∀ p, ((s.removeEvents preserved).1.filter (·.id.partition = p)
        ++ (((s.removeEvents preserved).2.removeEvents discarded).2.queues p).pending.items).Subperm
        (s.queues p).pending.items := by
      intro p
      refine Subperm.trans ?_ (hperm p).subperm
      refine (subperm_append_left _).mpr ?_
      exact Subperm.trans (Sublist.subperm (sublist_append_right _ _)) (hperm' p).subperm
    simp only
    rcases (((s.removeEvents preserved).2.removeEvents discarded).2).restoreQuiescent_eq snapshot
      with ⟨error, hfails⟩ | ⟨hval', -, hok⟩
    · rw [hfails]
      refine ⟨hshape.trans hshape', fun p => ?_, fun p => ?_,
        Or.inl ⟨hnow'.1.trans hnow.1, fun p => ?_⟩, fun p _ => Or.inl ⟨?_, ?_⟩,
        Or.inr ⟨hnow'.2.trans hnow.2, hnow'.1.trans hnow.1⟩⟩
      · exact (hqs' p).2.2.2.trans (hqs p).2.2.2
      · exact Subperm.trans (Sublist.subperm (sublist_append_right _ _)) (hsub p)
      · exact (hqs' p).1.trans (hqs p).1
      · exact (hqs' p).2.1.trans (hqs p).2.1
      · exact (hqs' p).2.2.1.trans (hqs p).2.2.1
    · rw [hok]
      simp only
      rcases restoredQueues_spec _ hval' with ⟨htoks, hemp, hclocks⟩
      rcases restorePreserved_spec (s.removeEvents preserved).1
        { ((s.removeEvents preserved).2.removeEvents discarded).2 with
          now := snapshot.now
          queues := ((s.removeEvents preserved).2.removeEvents discarded).2.restoredQueues snapshot
          timelineRevision :=
            ((s.removeEvents preserved).2.removeEvents discarded).2.timelineRevision + 1 } with
        ⟨hshapeR, hnowR, hqsR, hpastR, hpermR⟩
      refine ⟨(hshape.trans hshape').trans ⟨hshapeR.1, hshapeR.2, hshapeR.3, hshapeR.4⟩,
        fun p => ?_, fun p => ?_, .inr (fun p hp => ⟨?_, fun e he => ?_⟩),
        fun p hp => Or.inr (fun e he => ?_), .inl ?_⟩
      · exact ((hqsR p).2.1.trans (htoks p)).trans ((hqs' p).2.2.2.trans (hqs p).2.2.2)
      · refine Subperm.trans (hpermR p).subperm (Subperm.trans ?_ (hsub p))
        refine (subperm_append_left _).mpr ?_
        rcases hemp p with hnone | hsame
        · simp only [hnone]
          exact nil_subperm
        · simp only [hsame]
          exact Subperm.refl _
      · have hp' : p < ((s.removeEvents preserved).2.removeEvents discarded).2.partitionCount := by
          rwa [hshape'.4, hshape.4]
        rw [(hqsR p).1, hnowR.1]
        exact (hclocks p hp').1
      · -- Every event kept is one whose snapshot was checked.
        have hp' : p < ((s.removeEvents preserved).2.removeEvents discarded).2.partitionCount := by
          rwa [hshape'.4, hshape.4]
        have hmem := (hpermR p).mem_iff.mp he
        simp only [(hclocks p hp').2, append_nil, mem_filter, decide_eq_true_eq] at hmem
        have hchecked : e.snapshot ∈ preserved := by
          rw [← hsna]
          exact mem_map.mpr ⟨e, hmem.1, rfl⟩
        rcases s.partitions_of_compatible hclassified.compatible p hp with
          ⟨partition, hget, hclk⟩
        have htk := hclassified.ticks e.snapshot hchecked partition (by
          rw [← hget, ← hmem.2]
          rfl)
        rwa [hnowR.1, ← hclk]
      · have hp' : p < ((s.removeEvents preserved).2.removeEvents discarded).2.partitionCount := by
          rwa [hshape'.4, hshape.4]
        have hmem := (hpermR p).mem_iff.mp he
        simp only [(hclocks p hp').2, append_nil, mem_filter, decide_eq_true_eq] at hmem
        rw [← hmem.2]
        exact hpastR e hmem.1
      · rw [hnowR.2]
        exact Nat.lt_succ_of_le (Nat.le_of_eq (hnow'.2.trans hnow.2).symm)

theorem restored_discardExactEvents {evs} : Restored s (s.discardExactEvents evs).2 := by
  unfold discardExactEvents
  split
  · exact Restored.refl s
  split
  · exact Restored.refl s
  split
  · exact Restored.refl s
  · rcases removeEvents_spec evs s with ⟨hshape, hnow, hqs, hperm⟩
    refine ⟨⟨hshape.1, hshape.2, hshape.3, hshape.4⟩, fun p => (hqs p).2.2.2, fun p => ?_,
      Or.inl ⟨hnow.1, fun p => (hqs p).1⟩,
      fun p _ => Or.inl ⟨(hqs p).2.1, (hqs p).2.2.1⟩,
      Or.inl (Nat.lt_succ_of_le (hnow.2.symm.le))⟩
    exact Subperm.trans (Sublist.subperm (sublist_append_right _ _)) (hperm p).subperm

end PartitionedScheduler

end Rem6.Kernel
