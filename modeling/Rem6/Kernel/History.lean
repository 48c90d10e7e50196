import Rem6.Kernel.Moves

/-!
# The Moves of Commands

Every command takes every queue through a trace of moves, and the labels of the
trace account for what the command showed (`perform_moves`): the events it
dispatched, those it and its callbacks queued, those that were rolled back, the
remote events that arrived. A queue is lost only in a run that found no room on
the tick scale.

A batch lets its workers move their own queues, puts them back and merges. The
partitions of a batch are different ones, so each queue is moved by one worker at
most (`putBack_moved`), and the merge moves it on.

## Main definitions

* `RunMoves`: A queue went through the moves of a run.
* `Explained`: The labels account for a command.
* `HistoryMoves`: A queue went through the moves of a history.
* `Outcome.Roomy`: No event had the largest id or order.

## Theorems

* `EpochCall.moves`, `MixedEnd.moves`: The moves of the parallel runs.
* `perform_moves`, `performAll_moves`: The moves of a command and of a history.
* `performAll_tokened`: The tokens of a queue are apart after every history.
* `performAll_fresh`: Queues are fresh after every history in which no counter came
  round.
-/

namespace Rem6.Kernel

open Lib PartitionedScheduler PartitionQueue QueueLabel SameShape List

variable {κ ω σ : Type} {checkpoints : Prop} {cbs : Callbacks κ ω σ}

section Batches

variable {hor : Nat}

theorem nodup_nextBatch {m : Machine κ ω σ} : (nextBatch hor m).Nodup := by
  refine Nodup.sublist (take_sublist _ _) ?_
  unfold readyPartitionsAtOrBefore sortReadyPartitions
  refine ((perm_insertionSort _ (m.scheduler.readyAt _)).map Prod.snd).nodup_iff.mpr ?_
  refine pairwise_map.mpr ((m.scheduler.sorted_readyAt).imp ?_)
  exact ne_of_lt

variable {hor rounds : Nat} {m : Machine κ ω σ}
  {rs : List (Nat × ParallelPartitionResult κ σ)}

theorem BatchResults.keys {ready} (h : BatchResults cbs rounds hor ready m rs) :
    rs.map (·.1) = ready := by
  unfold BatchResults at h
  induction h with
  | nil => rfl
  | cons hhead htail ih => rw [map_cons, hhead.1, ih]

/-- Queues that were moved by their workers and put back. -/
theorem putBack_moved : ∀ (rs : List (Nat × ParallelPartitionResult κ σ)) (m : Machine κ ω σ),
    (rs.map (·.1)).Nodup →
    (∀ entry ∈ rs,
      Moved checkpoints entry.1 entry.2.dispatches [] (m.scheduler.queues entry.1) entry.2.queue ∧
        AtPartition entry.1 entry.2.dispatches) →
    ∀ p, Moved checkpoints p (rs.flatMap (·.2.dispatches)) [] (m.scheduler.queues p)
      ((m.putBack rs).scheduler.queues p) := by
  intro rs
  induction rs with
  | nil => intro m _ _ p; exact Moved.refl p _
  | cons entry rs ih =>
    intro m hnd hents p
    rw [map_cons, nodup_cons] at hnd
    have hne : ∀ other ∈ rs, other.1 ≠ entry.1 := fun other hoth hsame =>
      hnd.1 (mem_map.mpr ⟨other, hoth, hsame⟩)
    have hrest := ih { m with
      scheduler := m.scheduler.setQueue entry.1 entry.2.queue
      stores := Function.update m.stores entry.1 entry.2.store } hnd.2 (fun other hoth => ?_) p
    · have hfirst := hents entry mem_cons_self
      simp only [queue_setQueue] at hrest
      rw [flatMap_cons]
      split at hrest
      next hp =>
        rw [hp] at hrest ⊢
        exact hfirst.1.append hrest
      next hp => exact (hfirst.2.elsewhere hp).append hrest
    · simp only [queue_setQueue, if_neg (hne other hoth)]
      exact hents other (mem_cons_of_mem _ hoth)

theorem BatchResults.moved (h : BatchResults cbs rounds hor (nextBatch hor m) m rs)
    (htokened : AllTokened m.scheduler) (hserial : NoSerialIn hor m.scheduler) :
    ∀ p, Moved checkpoints p (rs.flatMap (·.2.dispatches)) [] (m.scheduler.queues p)
      ((m.putBack rs).scheduler.queues p) := by
  refine putBack_moved rs m ?_ (fun entry hent => ?_)
  · rw [h.keys]
    exact nodup_nextBatch
  · rcases h.worker entry hent with ⟨hready, hrun⟩
    have hp := mem_nextBatch hready
    exact runParallelPartition_moved checkpoints hrun (htokened _ hp) (hserial _ hp)

theorem BatchResults.shape (h : BatchResults cbs rounds hor (nextBatch hor m) m rs)
    (htokened : AllTokened m.scheduler) (hserial : NoSerialIn hor m.scheduler) :
    RunShape m.scheduler (m.putBack rs).scheduler (rs.flatMap (·.2.dispatches)) := by
  refine ⟨shape_putBack, fun d hd id e hqd => ?_⟩
  rcases mem_flatMap.mp hd with ⟨entry, hent, hd⟩
  rcases h.worker entry hent with ⟨hready, hrun⟩
  have hp := mem_nextBatch hready
  have hat := (runParallelPartition_moved True hrun (htokened _ hp) (hserial _ hp)).2
  rwa [((hat d hd).2 id e hqd).1]

/-- Remote events that a queue receives are put in, and are pending afterwards. -/
theorem receive_moved (checkpoints : Prop) (p : Nat) (evs : List (RemoteScheduledEvent κ))
    (queue : PartitionQueue κ) :
    ∃ arrived, arrived.map (·.1) = evs ∧ (∀ a ∈ arrived, a.2 ∈ (queue.receive p evs).pending) ∧
      (∀ e ∈ queue.pending, e ∈ (queue.receive p evs).pending) ∧
      Moved checkpoints p [] arrived queue (queue.receive p evs) := by
  induction evs generalizing queue with
  | nil => exact ⟨[], rfl, by simp, fun e he => he, Moved.refl p queue⟩
  | cons ev evs ih =>
    obtain ⟨arrived, hevents, hpending, hold, hmoved⟩ :=
      ih (queue.enqueue p ev.tick (.parallel ev.callback))
    have hfirst : Moved checkpoints p []
        [(ev, queue.nextEvent p ev.tick (.parallel ev.callback))] queue
        (queue.enqueue p ev.tick (.parallel ev.callback)) := by
      refine ⟨_, .cons (.arrived queue ev) (.nil _), ⟨rfl, rfl, rfl, ?_, by simp⟩, rfl, ?_⟩
      · intro lowered hmem
        simp only [mem_singleton, reduceCtorEq] at hmem
      · exact forall_mem_singleton.mpr trivial
    refine ⟨(ev, queue.nextEvent p ev.tick (.parallel ev.callback)) :: arrived,
      congrArg (ev :: ·) hevents, forall_mem_cons.mpr ⟨?_, hpending⟩,
      fun e he => ?_, hfirst.append hmoved⟩
    · exact hold _ ((mem_enqueue ..).mpr (.inl rfl))
    · exact hold e ((mem_enqueue ..).mpr (.inr he))

theorem deliverAll_error (evs : List (RemoteScheduledEvent κ)) (s : PartitionedScheduler κ)
    (error : SchedulerError) (h : (deliverAll evs s).1 = .error error) : InPast (some error) := by
  induction evs generalizing s error with
  | nil => cases h
  | cons ev evs ih =>
    unfold deliverAll at h
    simp only at h
    by_cases hle : (s.queues ev.target).now ≤ ev.tick
    · simp only [PartitionQueue.scheduleParallelAt, scheduleEventAt_of_le _ _ _ _ hle] at h
      exact ih _ error h
    · simp only [PartitionQueue.scheduleParallelAt, scheduleEventAt_of_lt _ _ _ _ (not_le.mp hle),
        Except.error.injEq] at h
      exact ⟨_, _, _, congrArg some h.symm⟩

/-- A merge moves every queue. Events that arrive are pending after it, and unless an
    event is in the past all of them arrive. -/
theorem merge_moved (s : PartitionedScheduler κ) (remote : List (RemoteScheduledEvent κ))
    (p : Nat) :
    let merged := mergeRemoteParallelEvents s remote
    ∃ arrived, Moved checkpoints p [] arrived (s.queues p) (merged.2.queues p) ∧
      (∀ a ∈ arrived, a.2 ∈ (merged.2.queues p).pending) ∧
      (merged.1 = .ok () → (arrived.map (·.1)).Perm (eventsFor p remote)) := by
  rcases deliverAll_prefix (remote.insertionSort RemoteScheduledEvent.DeliversBefore) s with
    ⟨front, -, hrec, hall⟩
  obtain ⟨arrived, hevents, hpending, -, hmoved⟩ :=
    receive_moved checkpoints p (eventsFor p front) (s.queues p)
  refine ⟨arrived, ?_, ?_, fun hok => ?_⟩
  · unfold mergeRemoteParallelEvents
    rwa [hrec]
  · unfold mergeRemoteParallelEvents
    rwa [hrec]
  · rw [hevents, hall hok]
    exact (perm_insertionSort _ _).filter _

end Batches

variable {p tick epochs target tgt rounds partitions : Nat}

section Runs

/-- What arrived at a partition is pending after one of the deliveries, and unless an
    event was in the past it is all that was sent there. -/
structure Arrives (p : Nat) (error : Option SchedulerError) (deliveries : List (Delivery κ))
    (arrived : List (RemoteScheduledEvent κ × PartitionEvent κ)) : Prop where
  pending : ∀ a ∈ arrived, ∃ delivery ∈ deliveries, a.2 ∈ (delivery.scheduler.queues p).pending
  all : ¬ InPast error →
    (arrived.map (·.1)).Perm (eventsFor p (deliveries.flatMap (·.remoteEvents)))

theorem Arrives.nil (p : Nat) (error : Option SchedulerError) :
    Arrives p error ([] : List (Delivery κ)) [] :=
  ⟨by simp, fun _ => .rfl⟩

/-- A queue went through the moves of a run that ended with this error, if any. -/
def RunMoves (checkpoints : Prop) (p : Nat) (error : Option SchedulerError)
    (dispatches : List (Dispatch κ)) (deliveries : List (Delivery κ))
    (queue queue' : PartitionQueue κ) : Prop :=
  ∃ labels, Trace (QueueMove p) queue labels queue' ∧ Shows p dispatches labels ∧
    Arrives p error deliveries (arrivedOf labels) ∧
    ∀ label ∈ labels, label.Running checkpoints ∨ label = .lost ∧ Overflows error

theorem eventsFor_append {front back : List (RemoteScheduledEvent κ)} :
    eventsFor p (front ++ back) = eventsFor p front ++ eventsFor p back :=
  filter_append _ _

variable {p hor rounds : Nat} {dispatches : List (Dispatch κ)} {queue queue' : PartitionQueue κ}

theorem Moved.run {arrived} (h : Moved checkpoints p dispatches arrived queue queue')
    (error : Option SchedulerError) (dels : List (Delivery κ))
    (harr : Arrives p error dels arrived) :
    RunMoves checkpoints p error dispatches dels queue queue' := by
  rcases h with ⟨labels, htr, hshows, hsame, hrunning⟩
  exact ⟨labels, htr, hshows, hsame ▸ harr, fun label hmem => Or.inl (hrunning label hmem)⟩

theorem RunMoves.refl (p : Nat) (error : Option SchedulerError) (queue : PartitionQueue κ) :
    RunMoves checkpoints p error [] [] queue queue :=
  (Moved.refl p queue).run error [] (.nil p error)

theorem not_inPast_none : ¬ InPast none := by
  rintro ⟨_, _, _, ⟨⟩⟩

theorem not_overflows_none : ¬ Overflows none := by
  rintro ⟨_, _, _, ⟨⟩⟩

variable {error : Option SchedulerError}

variable {front back : List (Dispatch κ)} {first second : List (Delivery κ)}

theorem RunMoves.append
    {a b c : PartitionQueue κ} (h : RunMoves checkpoints p none front first a b)
    (h' : RunMoves checkpoints p error back second b c) :
    RunMoves checkpoints p error (front ++ back) (first ++ second) a c := by
  rcases h with ⟨labels, htr, hshows, harr, hlab⟩
  rcases h' with ⟨labels', htr', hshows', harr', hlab'⟩
  refine ⟨labels ++ labels', htr.append htr', hshows.append hshows', ⟨?_, fun hpast => ?_⟩,
    fun label hmem => ?_⟩
  · rw [arrivedOf_append]
    refine forall_mem_append.mpr ⟨fun a ha => ?_, fun a ha => ?_⟩
    · obtain ⟨delivery, hmem, hpending⟩ := harr.pending a ha
      exact ⟨delivery, mem_append_left _ hmem, hpending⟩
    · obtain ⟨delivery, hmem, hpending⟩ := harr'.pending a ha
      exact ⟨delivery, mem_append_right _ hmem, hpending⟩
  · rw [arrivedOf_append, map_append, flatMap_append, eventsFor_append]
    exact (harr.all not_inPast_none).append (harr'.all hpast)
  · rcases mem_append.mp hmem with hmem | hmem
    · rcases hlab label hmem with hrunning | ⟨-, hoverflow⟩
      · exact .inl hrunning
      · exact absurd hoverflow not_overflows_none
    · exact hlab' label hmem

theorem RunMoves.tokened {dels} (h : RunMoves checkpoints p error dispatches dels queue queue')
    (htokened : Tokened p queue) : Tokened p queue' := by
  rcases h with ⟨labels, htr, -⟩
  exact trace_tokened htr htokened

/-- A run that ended with this error, if any, took a scheduler to another: it keeps
    the shape, and every queue went through the moves of the run. -/
def RunsThrough (checkpoints : Prop) (error : Option SchedulerError)
    (dispatches : List (Dispatch κ)) (deliveries : List (Delivery κ))
    (s s' : PartitionedScheduler κ) : Prop :=
  RunShape s s' dispatches ∧
    ∀ p, RunMoves checkpoints p error dispatches deliveries (s.queues p) (s'.queues p)

theorem RunsThrough.refl (error : Option SchedulerError) (s : PartitionedScheduler κ) :
    RunsThrough checkpoints error [] [] s s :=
  ⟨.nil (SameShape.refl _), fun p => RunMoves.refl p _ _⟩

theorem RunsThrough.append
    {a b c : PartitionedScheduler κ} (h : RunsThrough checkpoints none front first a b)
    (h' : RunsThrough checkpoints error back second b c) :
    RunsThrough checkpoints error (front ++ back) (first ++ second) a c :=
  ⟨h.1.append h'.1, fun p => (h.2 p).append (h'.2 p)⟩

theorem RunsThrough.tokened {dels s s'} (h : RunsThrough checkpoints error dispatches dels s s')
    (htokened : AllTokened s) : AllTokened s' := fun p hp =>
  (h.2 p).tokened (htokened p (by rw [← h.1.partitionCount]; exact hp))

variable {m : Machine κ ω σ}

theorem mergeBatch_moves {rs remote}
    (h : BatchResults cbs rounds hor (nextBatch hor m) m rs)
    (htokened : AllTokened m.scheduler) (hserial : NoSerialIn hor m.scheduler) {now : Nat} :
    let merged := mergeRemoteParallelEvents { (m.putBack rs).scheduler with now } remote
    (∀ e, merged.1 = .error e → error = some e) →
    RunsThrough checkpoints error (rs.flatMap (·.2.dispatches)) [⟨remote, merged.2⟩]
      m.scheduler merged.2 := by
  intro merged herr
  have hshape : SameShape _ merged.2 := shape_merge { (m.putBack rs).scheduler with now } remote
  refine ⟨(h.shape htokened hserial).after ⟨hshape.1, hshape.2, hshape.3, hshape.4⟩, fun p => ?_⟩
  rcases merge_moved { (m.putBack rs).scheduler with now } remote p with
    ⟨arrived, hmoved, hpending, hall⟩
  have hboth := (h.moved htokened hserial p).append hmoved
  rw [append_nil, nil_append] at hboth
  refine hboth.run error _ ⟨fun a ha => ⟨_, mem_singleton_self _, hpending a ha⟩, fun hpast => ?_⟩
  rw [flatMap_singleton]
  refine hall ?_
  cases hmerged : merged.1 with
  | ok _ => rfl
  | error e =>
    refine absurd ?_ hpast
    rw [herr e hmerged]
    exact deliverAll_error _ _ e hmerged

theorem BatchStep.moves {record m'} (h : BatchStep cbs rounds hor m record m')
    (htokened : AllTokened m.scheduler)
    (hserial : NoSerialIn hor m.scheduler) :
    RunsThrough checkpoints none record.dispatches [record.delivery] m.scheduler m'.scheduler := by
  rcases h with ⟨rs, hresults, -, hok, -, rfl, rfl⟩
  refine mergeBatch_moves hresults htokened hserial (fun e he => ?_)
  cases hok.symm.trans he

variable (checkpoints)

theorem batches_moves {records mid} (htr : Trace (BatchStep cbs rounds hor) m records mid)
    (htokened : AllTokened m.scheduler) (hserial : NoSerialIn hor m.scheduler) :
    NoSerialIn hor mid.scheduler ∧
      RunsThrough checkpoints none (records.flatMap (·.dispatches)) (records.map (·.delivery))
        m.scheduler mid.scheduler := by
  refine htr.invariant (fun past m' => NoSerialIn hor m'.scheduler ∧
    RunsThrough checkpoints none (past.flatMap (·.dispatches)) (past.map (·.delivery))
      m.scheduler m'.scheduler) ?_ [] ⟨hserial, .refl none _⟩
  rintro past m₁ record m₂ ⟨hnone, hmoves⟩ hstep
  rw [flatMap_append, map_append, flatMap_singleton, map_singleton]
  exact ⟨batches_noSerial (.cons hstep (.nil _)) hnone,
    hmoves.append (hstep.moves (hmoves.tokened htokened) hnone)⟩

theorem lost_moves (lost : List Nat) (s : PartitionedScheduler κ) {error : SchedulerError}
    (hoverflow : Overflows (some error)) :
    let after := lost.foldl (fun s q => s.setQueue q new) s
    SameShape s after ∧
      ∀ p, RunMoves checkpoints p (some error) [] [] (s.queues p) (after.queues p) := by
  have hall : ∀ (lost : List Nat) (s : PartitionedScheduler κ),
      SameShape s (lost.foldl (fun s q => s.setQueue q new) s) ∧
        ∀ p, (lost.foldl (fun s q => s.setQueue q new) s).queues p = s.queues p ∨
          (lost.foldl (fun s q => s.setQueue q new) s).queues p
            = new := by
    intro lost
    induction lost with
    | nil => intro s; exact ⟨refl s, fun p => Or.inl rfl⟩
    | cons q lost ih =>
      intro s
      rcases ih (s.setQueue q new) with ⟨hshape, hqs⟩
      refine ⟨⟨hshape.1, hshape.2, hshape.3, hshape.4⟩, fun p => ?_⟩
      rcases hqs p with hsame | hnew
      · rw [queue_setQueue] at hsame
        split at hsame
        · exact .inr hsame
        · exact .inl hsame
      · exact .inr hnew
  refine ⟨(hall lost s).1, fun p => ?_⟩
  rcases (hall lost s).2 p with hsame | hnew
  · rw [hsame]
    exact RunMoves.refl p _ _
  · rw [hnew]
    refine ⟨[.lost], .cons (.lost _) (.nil _), ⟨rfl, rfl, rfl, ?_, by simp⟩, .nil p _, ?_⟩
    · intro lowered hmem
      simp only [mem_singleton, reduceCtorEq] at hmem
    · exact fun label hmem => Or.inr ⟨mem_singleton.mp hmem, hoverflow⟩

variable {run : EpochRun κ ω σ}

/-- However the batches of an epoch end, every queue is moved. -/
theorem EpochEnd.moves (h : EpochEnd cbs rounds hor m run) (htokened : AllTokened m.scheduler)
    (hserial : NoSerialIn hor m.scheduler) :
    RunsThrough checkpoints (errorOf run.result) run.dispatches run.deliveries m.scheduler
      run.machine.scheduler := by
  cases h with
  | finished hready => exact .refl _ _
  | failed batch error hbat hres =>
    cases hbat with
    | overflow p lost _ hp hfull hmach hoverflow hdisp hdel =>
      rw [hoverflow, Except.error.injEq] at hres
      simp only [hmach, hdisp, hdel]
      rcases lost_moves checkpoints lost m.scheduler
        ⟨_, _, _, congrArg some hres.symm⟩ with ⟨hshape, hmoves⟩
      exact ⟨.nil hshape, hmoves⟩
    | failed rs error' latest hresults =>
      refine mergeBatch_moves hresults htokened hserial (fun e he => ?_)
      rw [he] at hres
      exact congrArg some (Except.error.inj hres).symm
    | finished =>
      cases hres
  | stopped rs error hresults hnone herr =>
    refine mergeBatch_moves hresults htokened hserial (fun e he => ?_)
    rcases herr with hmerge | ⟨hok, -⟩
    · exact congrArg some (Except.error.inj (hmerge.symm.trans he))
    · cases hok.symm.trans he

theorem RunMoves.advanceTo {dels} (h : RunMoves checkpoints p none dispatches dels queue queue') :
    RunMoves checkpoints p error dispatches dels queue (queue'.advanceTo tick) := by
  have hadv : Moved checkpoints p [] [] queue' (queue'.advanceTo tick) :=
    (Moved.refl p queue').advanceTo
  have hboth := h.append (hadv.run error [] (.nil p error))
  rwa [append_nil, append_nil] at hboth

/-- A call for the next epoch moves every queue. -/
theorem EpochCall.moves (h : EpochCall cbs rounds m run) (htokened : AllTokened m.scheduler) :
    RunsThrough checkpoints (errorOf run.result) run.dispatches run.deliveries m.scheduler
      run.machine.scheduler := by
  cases h with
  | unplanned run hmach hdisp hdel =>
    rw [hmach, hdisp, hdel]
    exact .refl _ _
  | planned plan run hplan hend =>
    cases hend with
    | blocked => exact .refl _ _
    | failed mid records last error hblockers htr hlast =>
      rcases batches_moves checkpoints htr htokened (hplan.spec.2.2 hblockers) with
        ⟨hserial, hmoves⟩
      unfold epochRunOf
      rw [errorOf_after]
      exact hmoves.append (hlast.moves checkpoints (hmoves.tokened htokened) hserial)
    | finished mid records run hblockers htr hready hmach hdisp hdel =>
      rcases batches_moves checkpoints htr htokened (hplan.spec.2.2 hblockers) with
        ⟨-, hshape, hmoves⟩
      rw [hmach, hdisp, hdel]
      exact ⟨hshape.after ⟨rfl, rfl, rfl, rfl⟩, fun p => (hmoves p).advanceTo⟩

theorem runUntilIdleParallel_moves {run : EpochRun κ ω σ}
    (hrun : runUntilIdleParallel cbs rounds epochs m = some run)
    (htokened : AllTokened m.scheduler) :
    RunsThrough checkpoints (errorOf run.result) run.dispatches run.deliveries m.scheduler
      run.machine.scheduler := by
  rcases runUntilIdleParallel_trace hrun with
    ⟨mid, runs, last, htr, hlast, hmach, herr, hdisp, hdel, -⟩
  have hmid : RunsThrough checkpoints none (runs.flatMap (·.dispatches))
      (runs.flatMap (·.deliveries)) m.scheduler mid.scheduler := by
    refine htr.invariant (fun past m' => RunsThrough checkpoints none
      (past.flatMap (·.dispatches)) (past.flatMap (·.deliveries)) m.scheduler m'.scheduler) ?_ []
      (.refl none _)
    rintro past m₁ epoch m₂ hmoves ⟨hcall, ⟨summary, hok⟩, rfl⟩
    have hmoves' := hcall.moves checkpoints (hmoves.tokened htokened)
    rw [errorOf_ok hok] at hmoves'
    simp only [flatMap_append, flatMap_singleton]
    exact hmoves.append hmoves'
  rw [hmach, herr, hdisp, hdel]
  exact hmid.append (hlast.moves checkpoints (hmid.tokened htokened))

variable (cbs) in
theorem dispatchNextParallelInPartition_moves {ev rest cb}
    (hp : p < m.scheduler.partitionCount)
    (hpop : (m.scheduler.queues p).popNext = some (ev, rest)) (htokened : AllTokened m.scheduler) :
    let run := dispatchNextParallelInPartition cbs m p ev rest cb
    RunsThrough checkpoints (errorOf run.result) run.dispatches run.deliveries m.scheduler
      run.machine.scheduler := by
  have hdispatch := dispatchParallel_moved checkpoints cbs
    ⟨p, m.scheduler.partitionCount, fun q => (m.scheduler.queues q).now,
      m.scheduler.minRemoteDelay⟩ ev (m.scheduler.queues p) rest cb (m.stores p) []
    (htokened p hp) hpop
  unfold dispatchNextParallelInPartition
  simp only
  generalize dispatchParallel cbs
    ⟨p, m.scheduler.partitionCount, fun q => (m.scheduler.queues q).now,
      m.scheduler.minRemoteDelay⟩ ev rest cb (m.stores p) [] = after at hdispatch ⊢
  have hput : ∀ q, Moved checkpoints q [after.dispatch] [] (m.scheduler.queues q)
      ((m.scheduler.setQueue p after.queue).queues q) := by
    intro q
    rw [queue_setQueue]
    split
    next hq =>
      rw [hq]
      exact hdispatch.1
    next hq => exact hdispatch.2.elsewhere hq
  have hknown : RunShape m.scheduler (m.scheduler.setQueue p after.queue) [after.dispatch] := by
    refine ⟨⟨rfl, rfl, rfl, rfl⟩, fun d hd id e hqd => ?_⟩
    rwa [((hdispatch.2 d hd).2 id e hqd).1]
  split
  · exact ⟨hknown.after ⟨rfl, rfl, rfl, rfl⟩, fun q => ((hput q).advanceTo).run _ [] (.nil q _)⟩
  · have hshape := shape_merge { m.scheduler.setQueue p after.queue with now := ev.tick }
      after.remoteEvents
    have hmerged :
        let merged := mergeRemoteParallelEvents
          { m.scheduler.setQueue p after.queue with now := ev.tick } after.remoteEvents
        ∀ q, ∃ arrived,
          Moved checkpoints q [after.dispatch] arrived (m.scheduler.queues q) (merged.2.queues q) ∧
          (∀ a ∈ arrived, a.2 ∈ (merged.2.queues q).pending) ∧
          (merged.1 = .ok () → (arrived.map (·.1)).Perm (eventsFor q after.remoteEvents)) := by
      intro merged q
      rcases merge_moved { m.scheduler.setQueue p after.queue with now := ev.tick }
        after.remoteEvents q with ⟨arrived, hmoved, hall⟩
      exact ⟨arrived, (hput q).append hmoved, hall⟩
    cases hres : (mergeRemoteParallelEvents
        { m.scheduler.setQueue p after.queue with now := ev.tick } after.remoteEvents).1 with
    | error error =>
      simp only
      refine ⟨hknown.after ⟨hshape.1, hshape.2, hshape.3, hshape.4⟩, fun q => ?_⟩
      rcases hmerged q with ⟨arrived, hmoved, hpending, -⟩
      exact hmoved.run _ _ ⟨fun a ha => ⟨_, mem_singleton_self _, hpending a ha⟩,
        fun hpast => absurd (deliverAll_error _ _ error hres) hpast⟩
    | ok _ =>
      simp only
      split <;> refine ⟨hknown.after ⟨hshape.1, hshape.2, hshape.3, hshape.4⟩, fun q => ?_⟩ <;>
        rcases hmerged q with ⟨arrived, hmoved, hpending, hall⟩ <;>
        refine hmoved.advanceTo.run _ _ ⟨fun a ha => ⟨_, mem_singleton_self _, hpending a ha⟩,
          fun _ => ?_⟩ <;> rw [flatMap_singleton] <;> exact hall hres

/-- A mixed step moves every queue. -/
theorem MixedEnd.moves {plan} (h : MixedEnd cbs plan m run) (htokened : AllTokened m.scheduler) :
    RunShape m.scheduler run.machine.scheduler run.dispatches ∧
      ∀ p < m.scheduler.partitionCount, RunMoves True p (errorOf run.result) run.dispatches
        run.deliveries (m.scheduler.queues p) (run.machine.scheduler.queues p) := by
  cases h with
  | rejected run hmach hdisp hdel =>
    rw [hmach, hdisp, hdel]
    exact ⟨.nil (refl _), fun p _ => RunMoves.refl p _ _⟩
  | serial d m' run hplan hstep hready hmach hdisp hdel =>
    rcases hstep.moved with ⟨hshape, hmoved⟩
    rw [hmach, hdisp, hdel]
    refine ⟨hshape.after ⟨rfl, rfl, rfl, rfl⟩, fun p hp => ?_⟩
    exact (hmoved p hp).advanceTo.run _ _ (.nil p _)
  | parallel p ev rest cb hplan hp hpop =>
    rcases dispatchNextParallelInPartition_moves True cbs hp hpop htokened with ⟨hshape, hmoves⟩
    exact ⟨hshape, fun q _ => hmoves q⟩

end Runs

section Commands

/-- All a command got, itself and through its callbacks. -/
def Outcome.allPostings (outcome : Outcome κ ω σ) : List (Posting κ) :=
  outcome.postings ++ outcome.dispatches.flatMap (·.postings)

/-- The labels of the moves of a partition account for a command. -/
structure Explained (p : Nat) (command : Command κ) (outcome : Outcome κ ω σ)
    (labels : List (QueueLabel κ)) : Prop where
  dispatched : dispatchedOf labels = (outcome.dispatches.filter (·.partition = p)).map (·.event)
  queued : queuedOf labels = (queuedBy outcome.postings ++
    queuedEnding .returned outcome.dispatches).filter (·.id.partition = p)
  rolledBack : rolledBackOf labels =
    (queuedEnding .panicked outcome.dispatches).filter (·.id.partition = p)
  arrived : Arrives p outcome.error outcome.deliveries (arrivedOf labels)
  restored : ∀ lowered, restored lowered ∈ labels →
    ∃ lowered', Posting.restored lowered' ∈ outcome.allPostings ∧ (lowered = true → lowered' = true)
  cancelled : ∀ event, cancelled event ∈ labels → command = .cancelEvent event.id
  rescheduled : ∀ event tick, rescheduled event tick ∈ labels →
    command = .rescheduleEvent event.id tick
  lost : lost ∈ labels → Overflows outcome.error
  handles : ∀ id event, Posting.queued id event ∈ outcome.allPostings → id = event.id

variable {command : Command κ} {outcome : Outcome κ ω σ}

theorem RunMoves.explained {queue queue'} (hpos : outcome.postings = [])
    (h : RunMoves checkpoints p outcome.error outcome.dispatches outcome.deliveries queue queue') :
    ∃ labels, Trace (QueueMove p) queue labels queue' ∧ Explained p command outcome labels := by
  rcases h with ⟨labels, htr, hshows, harr, hlab⟩
  have hrunning : ∀ label ∈ labels, label ≠ .lost → label.Running checkpoints := by
    intro label hmem hne
    rcases hlab label hmem with hrunning | ⟨hlost, -⟩
    · exact hrunning
    · exact absurd hlost hne
  refine ⟨labels, htr, ⟨hshows.dispatched, ?_, hshows.rolledBack, harr,
    fun lowered hmem => ?_, fun ev hmem => ?_, fun ev tick hmem => ?_, fun hmem => ?_,
    fun id ev hmem => ?_⟩⟩
  · rw [hpos, queuedBy_nil, nil_append]
    exact hshows.queued
  · rcases hshows.restored lowered hmem with ⟨d, hd, lowered', hposting, himp⟩
    exact ⟨lowered', mem_append_right _ (mem_flatMap.mpr ⟨d, hd, hposting⟩), himp⟩
  · exact absurd (hrunning _ hmem (by simp))
      (fun hfalse => hfalse)
  · exact absurd (hrunning _ hmem (by simp))
      (fun hfalse => hfalse)
  · rcases hlab _ hmem with hrunning | ⟨-, hoverflow⟩
    · exact absurd hrunning (fun hfalse => hfalse)
    · exact hoverflow
  · rw [Outcome.allPostings, hpos, nil_append] at hmem
    rcases mem_flatMap.mp hmem with ⟨d, hd, hposting⟩
    exact hshows.handles d hd id ev hposting

theorem explained_by {labels}
    (hdisp : outcome.dispatches = []) (hdel : outcome.deliveries = [])
    (hdispatched : dispatchedOf labels = []) (hrolledBack : rolledBackOf labels = [])
    (harr : arrivedOf labels = [])
    (hqd : queuedOf labels = (queuedBy outcome.postings).filter (·.id.partition = p))
    (hrestored : ∀ lowered, restored lowered ∈ labels → ∃ lowered',
      Posting.restored lowered' ∈ outcome.postings ∧ (lowered = true → lowered' = true))
    (hcan : ∀ ev, cancelled ev ∈ labels → command = .cancelEvent ev.id)
    (hres : ∀ ev tick, rescheduled ev tick ∈ labels → command = .rescheduleEvent ev.id tick)
    (hlost : lost ∉ labels)
    (hhandles : ∀ id ev, Posting.queued id ev ∈ outcome.postings → id = ev.id) :
    Explained p command outcome labels := by
  refine ⟨?_, ?_, ?_, ?_, fun lowered hmem => ?_, hcan, hres,
    fun hmem => absurd hmem hlost, fun id ev hmem => ?_⟩
  · rw [hdispatched, hdisp]
    rfl
  · rw [hqd, hdisp, queuedEnding, filter_nil, flatMap_nil, append_nil]
  · rw [hrolledBack, hdisp]
    rfl
  · rw [harr, hdel]
    exact .nil p _
  · rcases hrestored lowered hmem with ⟨lowered', hposting, himp⟩
    exact ⟨lowered', mem_append_left _ hposting, himp⟩
  · rw [Outcome.allPostings, hdisp, flatMap_nil, append_nil] at hmem
    exact hhandles id ev hmem

theorem explained_nothing {queue} (hdisp : outcome.dispatches = []) (hdel : outcome.deliveries = [])
    (hqd : ∀ id e, Posting.queued id e ∈ outcome.postings → e.id.partition ≠ p ∧ id = e.id) :
    ∃ labels, Trace (QueueMove p) queue labels queue ∧ Explained p command outcome labels := by
  refine ⟨[], .nil _, explained_by hdisp hdel rfl rfl rfl ?_
    (by simp) (by simp)
    (by simp) not_mem_nil
    (fun id e hmem => (hqd id e hmem).2)⟩
  refine (filter_eq_nil_iff.mpr (fun e he => ?_)).symm
  simp only [decide_eq_true_eq]
  rcases (mem_queuedBy _).mp he with ⟨id, hmem⟩
  exact (hqd id e hmem).1

/-- What is shown of every command. -/
structure PerformMoves (m : Machine κ ω σ) (command : Command κ) (outcome : Outcome κ ω σ) :
    Prop where
  shape : SameShape m.scheduler outcome.machine.scheduler
  known : ∀ id e, Posting.queued id e ∈ outcome.allPostings →
    e.id.partition < m.scheduler.partitionCount
  moves : ∀ p < m.scheduler.partitionCount,
    ∃ labels, Trace (QueueMove p) (m.scheduler.queues p) labels
        (outcome.machine.scheduler.queues p) ∧
      Explained p command outcome labels

variable {m : Machine κ ω σ}

theorem RunShape.posted (hpos : outcome.postings = [])
    (h : RunShape m.scheduler outcome.machine.scheduler outcome.dispatches) :
    ∀ id e, Posting.queued id e ∈ outcome.allPostings →
      e.id.partition < m.scheduler.partitionCount := by
  intro id e hmem
  rw [Outcome.allPostings, hpos, nil_append] at hmem
  rcases mem_flatMap.mp hmem with ⟨d, hd, hqd⟩
  exact h.known d hd id e hqd

theorem schedule_moves {callback}
    {outcome : Except SchedulerError PartitionEventId × PartitionedScheduler κ}
    (hcases : (∃ error, outcome = (.error error, m.scheduler)) ∨
      ∃ id, outcome.1 = .ok id ∧ Scheduled m.scheduler target tick callback id outcome.2) :
    PerformMoves m command (scheduledOutcome m target tick callback outcome) := by
  rcases hcases with ⟨error, rfl⟩ | ⟨id, hok, htgt, -, hid, haft⟩
  · exact ⟨refl _, fun _ _ hmem => absurd hmem not_mem_nil,
      fun p _ => explained_nothing rfl rfl (fun _ _ hmem => absurd hmem not_mem_nil)⟩
  · have hpos : (scheduledOutcome m target tick callback outcome).postings
        = [.queued id ((m.scheduler.queues target).nextEvent target tick callback)] := by
      simp [scheduledOutcome, hok]
    have hhandle : ∀ id' e,
        Posting.queued id' e ∈ (scheduledOutcome m target tick callback outcome).postings →
        id' = e.id ∧ e = (m.scheduler.queues target).nextEvent target tick callback := by
      intro id' e hmem
      rw [hpos, mem_singleton, Posting.queued.injEq] at hmem
      rcases hmem with ⟨rfl, rfl⟩
      exact ⟨hid, rfl⟩
    have hq : ∀ p, (scheduledOutcome m target tick callback outcome).machine.scheduler.queues p
        = if p = target then (m.scheduler.queues target).enqueue target tick callback
          else m.scheduler.queues p := by
      intro p
      simp [scheduledOutcome, haft, queue_setQueue]
    refine ⟨?_, fun id' e hmem => ?_, fun p hp => ?_⟩
    · simp only [scheduledOutcome, haft]
      exact ⟨rfl, rfl, rfl, rfl⟩
    · rcases mem_append.mp hmem with hmem | hmem
      · rwa [(hhandle id' e hmem).2]
      · cases hmem
    · rw [hq]
      split
      next hpt =>
        rw [hpt]
        refine ⟨_, .cons (.queued _ tick callback) (.nil _), explained_by rfl rfl rfl rfl rfl ?_
          (by simp) (by simp) (by simp) (by simp) (fun id' e hmem => (hhandle id' e hmem).1)⟩
        rw [hpos]
        show _ = filter _ [_]
        simp only [filter_cons, nextEvent, decide_true, if_true, filter_nil]
        rfl
      next hpt =>
        refine explained_nothing rfl rfl (fun id' e hmem => ?_)
        rcases hhandle id' e hmem with ⟨hsame, rfl⟩
        exact ⟨fun hsame => hpt hsame.symm, hsame⟩

/-- Work on one queue that makes at most one move, which takes or moves an event. -/
theorem onPartition_moves
    {f : PartitionQueue κ → Except SchedulerError Unit × PartitionQueue κ}
    (hf : ∀ queue, (f queue).2 = queue ∨ ∃ label, QueueMove tgt queue label (f queue).2 ∧
      ((∃ ev, label = .cancelled ev ∧ command = .cancelEvent ev.id) ∨
        ∃ ev tick, label = .rescheduled ev tick ∧ command = .rescheduleEvent ev.id tick)) :
    PerformMoves m command (changedOutcome m (m.scheduler.onPartition tgt f)) := by
  unfold onPartition
  split
  · refine ⟨⟨rfl, rfl, rfl, rfl⟩, fun _ _ hmem => absurd hmem not_mem_nil, fun p hp => ?_⟩
    simp only [changedOutcome, queue_setQueue]
    split
    next hpt =>
      rw [← hpt]
      rcases hf (m.scheduler.queues p) with hsame | ⟨label, hmove, hlab⟩
      · rw [hsame]
        exact explained_nothing rfl rfl (by simp)
      · rw [← hpt] at hmove
        refine ⟨[label], .cons hmove (.nil _), ?_⟩
        rcases hlab with ⟨ev, rfl, hcmd⟩ | ⟨ev, tick, rfl, hcmd⟩
        · refine explained_by rfl rfl rfl rfl rfl rfl (by simp) (fun other hmem => ?_) (by simp)
            (by simp) (by simp)
          cases mem_singleton.mp hmem
          exact hcmd
        · refine explained_by rfl rfl rfl rfl rfl rfl (by simp) (by simp)
            (fun other tick' hmem => ?_) (by simp) (by simp)
          cases mem_singleton.mp hmem
          exact hcmd
    · exact explained_nothing rfl rfl (by simp)
  · exact ⟨refl _, fun _ _ hmem => absurd hmem not_mem_nil,
      fun p _ => explained_nothing rfl rfl (fun _ _ hmem => absurd hmem not_mem_nil)⟩

theorem cancelEvent_move (p : Nat) (queue : PartitionQueue κ) (id : PartitionEventId) :
    (queue.cancelEvent id).2 = queue ∨ ∃ ev, ev.id = id ∧
      QueueMove p queue (.cancelled ev) (queue.cancelEvent id).2 := by
  have hperm := removeEvent_perm queue id
  rcases removeEvent_spec queue id with
    ⟨-, hid, hord, htok, hfound, -⟩
  unfold PartitionQueue.cancelEvent
  rcases hremoved : queue.removeEvent id with ⟨_ | ev, rest⟩
  · rw [hremoved] at hperm hfound
    refine .inl ?_
    unfold removeEvent at hremoved
    rw [← hfound] at hremoved
    exact (Prod.mk.inj hremoved).2.symm
  · rw [hremoved] at hperm hid hord htok hfound
    exact .inr ⟨ev, id_of_find hfound.symm, .cancelled ⟨hid, hord, htok⟩ hperm.symm⟩

theorem rescheduleEvent_move (p tick : Nat) (queue : PartitionQueue κ) (id : PartitionEventId) :
    (queue.rescheduleEvent id tick).2 = queue ∨ ∃ ev, ev.id = id ∧
      QueueMove p queue (.rescheduled ev tick) (queue.rescheduleEvent id tick).2 := by
  have hperm := removeEvent_perm queue id
  rcases removeEvent_spec queue id with
    ⟨-, hid, hord, htok, hfound, -⟩
  unfold PartitionQueue.rescheduleEvent
  split
  · exact .inl rfl
  split
  · exact .inl rfl
  rcases hremoved : queue.removeEvent id with ⟨_ | ev, rest⟩
  · rw [hremoved] at hfound
    refine .inl ?_
    unfold removeEvent at hremoved
    rw [← hfound] at hremoved
    exact (Prod.mk.inj hremoved).2.symm
  · rw [hremoved] at hperm hid hord htok hfound
    refine .inr ⟨ev, id_of_find hfound.symm,
      .rescheduled rest.pending.items ⟨hid, hord, htok⟩ hperm.symm ?_⟩
    exact perm_orderedInsert _ _ _

theorem restored_moves {outcome : Except SchedulerError Unit × PartitionedScheduler κ}
    (h : Restored m.scheduler outcome.2) : PerformMoves m command (restoredOutcome m outcome) := by
  refine ⟨h.shape, fun id e hmem => ?_, fun p hp => ?_⟩
  · simp only [Outcome.allPostings, restoredOutcome, flatMap_nil, append_nil,
      mem_singleton, reduceCtorEq] at hmem
  rcases h.move hp with ⟨lowered, hmove, himp⟩
  refine ⟨_, .cons hmove (.nil _), explained_by rfl rfl rfl rfl rfl rfl (fun lowered' hmem => ?_)
    (by simp) (by simp) (by simp) (by simp [restoredOutcome])⟩
  cases mem_singleton.mp hmem
  exact ⟨_, mem_singleton.mpr rfl, himp⟩

/-- Every command takes every queue through moves that account for it. -/
theorem perform_moves (htokened : AllTokened m.scheduler)
    (hperf : perform cbs rounds m command = some outcome) : PerformMoves m command outcome := by
  have hpar : ∀ {res : Option (EpochRun κ ω σ)}, res.map parallelOutcome = some outcome →
      (∀ run, res = some run → RunShape m.scheduler run.machine.scheduler run.dispatches ∧
        ∀ p < m.scheduler.partitionCount, RunMoves True p (errorOf run.result) run.dispatches
          run.deliveries (m.scheduler.queues p) (run.machine.scheduler.queues p)) →
      PerformMoves m command outcome := by
    intro res hmap hruns
    obtain ⟨run, hrun, rfl⟩ := Option.map_eq_some_iff.mp hmap
    obtain ⟨hshape, hmoves⟩ := hruns run hrun
    exact ⟨hshape.toSameShape, hshape.posted rfl, fun p hp => RunMoves.explained rfl (hmoves p hp)⟩
  by_cases hserial : command.RunsSerial
  · obtain ⟨m', ds, rfl, hrun⟩ := perform_serial hserial hperf
    obtain ⟨hshape, hmoved⟩ := hrun.run.moved
    refine ⟨hshape.toSameShape, hshape.posted rfl, fun p hp => ?_⟩
    exact RunMoves.explained rfl ((hmoved p hp).run none [] (.nil p _))
  cases command with
  | scheduleAt ptn tick cb =>
    cases hperf
    exact schedule_moves (m.scheduler.schedule_cases ptn tick (.serial cb))
  | scheduleParallelAt ptn tick cb =>
    cases hperf
    exact schedule_moves (m.scheduler.schedule_cases ptn tick (.parallel cb))
  | scheduleAfter ptn delay cb =>
    cases hperf
    refine schedule_moves ?_
    unfold scheduleAfter
    cases htk : checkedAdd m.scheduler.now delay with
    | none => exact .inl ⟨_, rfl⟩
    | some tick =>
      rw [← checkedAdd_eq_some htk]
      exact m.scheduler.schedule_cases ptn tick (.serial cb)
  | cancelEvent id =>
    cases hperf
    refine onPartition_moves (fun queue => ?_)
    rcases cancelEvent_move id.partition queue id with hsame | ⟨ev, hid, hmove⟩
    · exact .inl hsame
    · exact .inr ⟨_, hmove, .inl ⟨ev, rfl, by rw [hid]⟩⟩
  | rescheduleEvent id tick =>
    cases hperf
    refine onPartition_moves (fun queue => ?_)
    rcases rescheduleEvent_move id.partition tick queue id with hsame | ⟨ev, hid, hmove⟩
    · exact .inl hsame
    · exact .inr ⟨_, hmove, .inr ⟨ev, tick, rfl, by rw [hid]⟩⟩
  | restoreQuiescent snap =>
    cases hperf
    exact restored_moves (m.scheduler.restored_restoreQuiescent)
  | restoreProjection snap dropped preserved =>
    cases hperf
    exact restored_moves (m.scheduler.restored_restoreCheckpointProjection snap dropped preserved)
  | discardExactEvents evs =>
    cases hperf
    exact restored_moves (m.scheduler.restored_discardExactEvents)
  | runNextEpochParallel =>
    refine hpar hperf fun run hrun => ?_
    have hmoves := (runNextEpochParallel_call hrun).moves True htokened
    exact ⟨hmoves.1, fun p _ => hmoves.2 p⟩
  | runNextEpochParallelUntil tickLimit =>
    refine hpar hperf fun run hrun => ?_
    have hmoves := (runNextEpochParallelUntil_call hrun).moves True htokened
    exact ⟨hmoves.1, fun p _ => hmoves.2 p⟩
  | runUntilIdleParallel =>
    refine hpar hperf fun run hrun => ?_
    have hmoves := runUntilIdleParallel_moves True hrun htokened
    exact ⟨hmoves.1, fun p _ => hmoves.2 p⟩
  | runNextMixedEvent plan =>
    exact hpar hperf fun run hrun => (runNextMixedEvent_end hrun).moves htokened
  | _ => exact absurd trivial hserial

/-- The moves of a queue through a history: every label is accounted for by one
    of its commands. -/
def HistoryMoves (p : Nat) (commands : List (Nat × Command κ)) (outcomes : List (Outcome κ ω σ))
    (labels : List (QueueLabel κ)) : Prop :=
  ∀ label ∈ labels, ∃ entry ∈ commands.zip outcomes, ∃ part, label ∈ part ∧
    Explained p entry.1.2 entry.2 part

theorem HistoryMoves.cons {front cmds ocs back} (h : Explained p command outcome front)
    (h' : HistoryMoves p cmds ocs back) :
    HistoryMoves p ((rounds, command) :: cmds) (outcome :: ocs) (front ++ back) := by
  intro label hmem
  rw [zip_cons_cons]
  rcases mem_append.mp hmem with hmem | hmem
  · exact ⟨_, mem_cons_self, front, hmem, h⟩
  · rcases h' label hmem with ⟨entry, hent, part, hpart⟩
    exact ⟨entry, mem_cons_of_mem _ hent, part, hpart⟩

theorem PerformMoves.tokened (h : PerformMoves m command outcome)
    (htokened : AllTokened m.scheduler) : AllTokened outcome.machine.scheduler := by
  intro p hp
  rw [h.shape.partitionCount] at hp
  rcases h.moves p hp with ⟨labels, htr, -⟩
  exact trace_tokened htr (htokened p hp)

/-- Every history takes every queue through moves that account for it. -/
theorem performAll_moves (cmds : List (Nat × Command κ)) (ocs : List (Outcome κ ω σ))
    (m m' : Machine κ ω σ) (htokened : AllTokened m.scheduler)
    (hrun : performAll cbs cmds m = some (ocs, m')) :
    SameShape m.scheduler m'.scheduler ∧ ∀ p < m.scheduler.partitionCount,
      ∃ labels, Trace (QueueMove p) (m.scheduler.queues p) labels (m'.scheduler.queues p) ∧
        HistoryMoves p cmds ocs labels := by
  induction cmds generalizing ocs m m' with
  | nil =>
    simp only [performAll] at hrun
    cases hrun
    exact ⟨refl _, fun p _ => ⟨[], .nil _, fun _ hmem => absurd hmem not_mem_nil⟩⟩
  | cons entry cmds ih =>
    rcases entry with ⟨rounds, command⟩
    simp only [performAll] at hrun
    split at hrun
    next => cases hrun
    next outcome hperf =>
      simp only [Option.map_eq_some_iff, Prod.mk.injEq] at hrun
      rcases hrun with ⟨⟨rest, last⟩, hrest, rfl, rfl⟩
      have hfirst := perform_moves htokened hperf
      rcases ih rest outcome.machine last (hfirst.tokened htokened) hrest with ⟨hshape', hmoves'⟩
      refine ⟨hfirst.shape.trans hshape', fun p hp => ?_⟩
      rcases hfirst.moves p hp with ⟨front, htr, hexp⟩
      rcases hmoves' p (by rw [hfirst.shape.partitionCount]; exact hp) with
        ⟨back, htr', hexp'⟩
      exact ⟨front ++ back, htr.append htr', .cons hexp hexp'⟩

/-- The tokens of every queue stay apart through every history. -/
theorem performAll_tokened {cmds ocs m'} (htokened : AllTokened m.scheduler)
    (hrun : performAll cbs cmds m = some (ocs, m')) : AllTokened m'.scheduler := by
  rcases performAll_moves cmds ocs m m' htokened hrun with ⟨hshape, hmoves⟩
  intro p hp
  rw [hshape.partitionCount] at hp
  rcases hmoves p hp with ⟨labels, htr, -⟩
  exact trace_tokened htr (htokened p hp)

/-- No event that a command put in has the largest word as its id or order: none that
    a call answered with, and none that is pending after a merge. -/
@[mk_iff]
structure Outcome.Roomy (outcome : Outcome κ ω σ) : Prop where
  queued : ∀ e ∈ queuedBy outcome.allPostings, e.NotLast
  arrived : ∀ delivery ∈ outcome.deliveries, ∀ p, ∀ e ∈ (delivery.scheduler.queues p).pending,
    e.NotLast

theorem notLast_of_queuedEnding {ending e} (h : outcome.Roomy)
    (he : e ∈ queuedEnding ending outcome.dispatches) : e.NotLast := by
  obtain ⟨d, hd, hqueued⟩ := mem_flatMap.mp he
  obtain ⟨id, hposting⟩ := (mem_queuedBy _).mp hqueued
  exact h.queued e ((mem_queuedBy _).mpr
    ⟨id, mem_append_right _ (mem_flatMap.mpr ⟨d, (mem_filter.mp hd).1, hposting⟩)⟩)

theorem Outcome.Roomy.of_queued (hdeliveries : outcome.deliveries = [])
    (hqueued : ∀ e ∈ queuedBy outcome.allPostings, e.NotLast) : outcome.Roomy :=
  ⟨hqueued, by simp [hdeliveries]⟩

/-- In the moves of such a command no counter comes round. -/
theorem Explained.roomy {labels} (h : Explained p command outcome labels) (hroomy : outcome.Roomy) :
    ∀ label ∈ labels, label.Roomy := by
  refine roomy_of_parts labels (fun e he => ?_) (fun a ha => ?_) (fun e he => ?_)
  · rw [h.queued] at he
    rcases mem_append.mp (mem_filter.mp he).1 with hown | hcallback
    · obtain ⟨id, hposting⟩ := (mem_queuedBy _).mp hown
      exact hroomy.queued e ((mem_queuedBy _).mpr ⟨id, mem_append_left _ hposting⟩)
    · exact notLast_of_queuedEnding hroomy hcallback
  · obtain ⟨delivery, hdelivery, hpending⟩ := h.arrived.pending a ha
    exact hroomy.arrived delivery hdelivery p a.2 hpending
  · rw [h.rolledBack] at he
    exact notLast_of_queuedEnding hroomy (mem_filter.mp he).1

theorem HistoryMoves.roomy {cmds labels} {ocs : List (Outcome κ ω σ)}
    (h : HistoryMoves p cmds ocs labels)
    (hroomy : ∀ outcome ∈ ocs, Outcome.Roomy outcome) : ∀ label ∈ labels, label.Roomy := by
  intro label hmem
  obtain ⟨entry, hentry, part, hpart, hexplained⟩ := h label hmem
  exact hexplained.roomy (hroomy _ (of_mem_zip hentry).2) label hpart

/-- Every queue of the scheduler is fresh. -/
def AllFresh (s : PartitionedScheduler κ) : Prop := ∀ p < s.partitionCount, Fresh p (s.queues p)

variable {s : PartitionedScheduler κ}

theorem AllFresh.tokened (h : AllFresh s) : AllTokened s :=
  fun p hp => (h p hp).toTokened

theorem PerformMoves.fresh (h : PerformMoves m command outcome) (hfresh : AllFresh m.scheduler)
    (hroomy : outcome.Roomy) : AllFresh outcome.machine.scheduler := by
  intro p hp
  rw [h.shape.partitionCount] at hp
  obtain ⟨labels, htrace, hexplained⟩ := h.moves p hp
  exact (trace_clean htrace (hfresh p hp) (hexplained.roomy hroomy)).2

/-- Queues stay fresh through every history in which no counter came round. -/
theorem performAll_fresh {cmds ocs m'} (hfresh : AllFresh m.scheduler)
    (hrun : performAll cbs cmds m = some (ocs, m'))
    (hroomy : ∀ outcome ∈ ocs, Outcome.Roomy outcome) : AllFresh m'.scheduler := by
  rcases performAll_moves cmds ocs m m' hfresh.tokened hrun with ⟨hshape, hmoves⟩
  intro p hp
  rw [hshape.partitionCount] at hp
  rcases hmoves p hp with ⟨labels, htr, hhistory⟩
  exact (trace_clean htr (hfresh p hp) (hhistory.roomy hroomy)).2

theorem new_fresh {instanceId maxWorkers minRemoteDelay}
    (h : PartitionedScheduler.withParallelWorkerLimit instanceId partitions minRemoteDelay
      maxWorkers = .ok s) : AllFresh s := by
  intro p _
  rw [(withParallelWorkerLimit_ok h).2 p]
  exact fresh_new

end Commands

end Rem6.Kernel
