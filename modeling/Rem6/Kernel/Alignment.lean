import Rem6.Kernel.Lookahead

/-!
# Aligned Clocks and Quiescent Snapshots

A quiescent snapshot is taken of a scheduler without pending events, and is
restored only if every clock in it is at the tick of the snapshot. So whether
what a scheduler saves can be restored comes down to whether its clocks are
aligned when it is idle.

Every run that goes through ends by raising all clocks to one tick, and so does
a mixed step, also when its callback panics. Between runs the clocks are then
all at the scheduler's tick, which is what `Aligned` says; inside a serial run
they are at most there and no event is before it (`Behind`).

A parallel epoch in which a callback panics does not raise the clocks: each
partition stays where its worker got to, and the scheduler is put to the latest
of them. Nothing repairs that later if nothing is left to run, and a quiescent
snapshot of such a scheduler cannot be restored (`panicked_epoch_not_restorable`).

## Main definitions

* `Aligned`: Every clock is at the scheduler's tick, and no event is before it.
* `Behind`: The clocks inside a serial run.
* `Command.RunsEpochs`: The commands that run parallel epochs.

## Theorems

* `SerialStep.behind`: A serial dispatch keeps the clocks behind.
* `EpochCall.aligned`: An epoch without a panic keeps the clocks aligned.
* `MixedEnd.aligned`: So does every mixed step.
* `Aligned.restorable`: What an aligned scheduler saves can be restored.
* `quiescent_restorable`: Quiescent snapshots can be restored after every history
  whose epochs went without a panic.
-/

namespace Rem6.Kernel

open Lib PartitionedScheduler List

variable {κ ω σ : Type} {callbacks : Callbacks κ ω σ}

/-- Every clock is at the scheduler's tick, and no event is before it. -/
def Aligned (s : PartitionedScheduler κ) : Prop := ClocksIn s.now s.now s

variable {lo hi tick p start tgt rounds hor epochs partitions : Nat} {m m' mid : Machine κ ω σ}

section Serial

/-- No clock is past the scheduler's tick, and no event is before it. -/
def Behind (s : PartitionedScheduler κ) : Prop :=
  ∀ p < s.partitionCount, QueueWindow 0 s.now s.now (s.queues p)

variable {s : PartitionedScheduler κ}

theorem Aligned.behind (h : Aligned s) : Behind s := by
  intro p hp
  have habove := (h p hp).above
  refine ⟨Nat.zero_le _, (h p hp).below, fun e he => ⟨((h p hp).pending e he).1, ?_⟩⟩
  exact habove.trans ((h p hp).pending e he).1

theorem ClocksIn.advance (h : ClocksIn lo hi s) (hhi : hi ≤ tick)
    (hpend : ∀ p < s.partitionCount, ∀ e ∈ (s.queues p).pending, tick ≤ e.tick) :
    Aligned (s.advancePartitionsTo tick) := by
  intro p hp
  have hadv := (h p hp).advanceTo (hpend p hp)
  have habove := hadv.above
  have hbelow := hadv.below
  refine ⟨?_, ?_, hadv.pending⟩
  · show tick ≤ ((s.queues p).advanceTo tick).now
    omega
  · show ((s.queues p).advanceTo tick).now ≤ tick
    omega

theorem Behind.clocksIn (h : Behind s) : ClocksIn 0 s.now s :=
  fun p hp => (h p hp).mono (Nat.zero_le _)

/-- Behind inside a callback that was started at a tick, with the same proviso on
    where it schedules from as `InCallback`. -/
def BehindIn (start : Nat) (s : PartitionedScheduler κ) : Prop :=
  Behind s ∧ (s.now ≤ start ∨ ∀ p < s.partitionCount, s.now ≤ (s.queues p).now)

theorem behindIn_started {ev rest} (h : Behind s) (hp : p < s.partitionCount) (hleast : Least s ev)
    (hpop : (s.queues p).popNext = some (ev, rest)) :
    BehindIn ev.tick (startedScheduler s p rest ev.tick) := by
  obtain ⟨hmem, hrest⟩ := PartitionQueue.tick_le_of_popNext _ hpop
  have hnow := ((h p hp).pending ev hmem).2
  refine ⟨fun q hq => ?_, .inl le_rfl⟩
  simp only [startedScheduler, queue_setQueue]
  split
  · exact ⟨Nat.zero_le _, le_rfl, fun e he => ⟨(hrest e he).2, (hrest e he).2⟩⟩
  · refine ⟨Nat.zero_le _, Nat.le_trans (h q hq).below hnow, fun e he => ⟨?_, hleast q hq e he⟩⟩
    exact ((h q hq).pending e he).1

theorem BehindIn.scheduled {cb s'} {id : PartitionEventId} (h : BehindIn start s)
    (hstart : start ≤ tick)
    (hsch : Scheduled s tgt tick cb id s') : BehindIn start s' := by
  have hnow : s.now ≤ tick := by
    rcases h.2 with hnow | hnow
    · exact hnow.trans hstart
    · exact (hnow tgt hsch.1).trans hsch.2.1
  have hbehind := InWindow.scheduled h.1 hsch hnow
  obtain ⟨htgt, -, -, rfl⟩ := hsch
  refine ⟨hbehind, h.2.imp_right fun hle p hp => ?_⟩
  rw [queue_setQueue]
  split
  · exact hle tgt htgt
  · exact hle p hp

theorem BehindIn.restored {s'} (h : BehindIn start s) (hrestored : Restored s s') :
    BehindIn start s' := by
  rcases hrestored.window with ⟨hsame, hkeeps⟩ | hall
  · refine ⟨?_, ?_⟩
    · rw [Behind, hsame]
      exact hkeeps h.1
    · rw [hsame]
      -- With the clocks at the scheduler's tick the window has one tick.
      refine h.2.imp_right fun hle p hp => ?_
      have hone : InWindow s.now s.now s.now s :=
        fun q hq => ⟨hle q hq, (h.1 q hq).below, (h.1 q hq).pending⟩
      exact (hkeeps hone p hp).above
  · refine ⟨fun p hp => ⟨Nat.zero_le _, (hall p hp).below, (hall p hp).pending⟩, .inr ?_⟩
    exact fun p hp => (hall p hp).above

theorem SerialStep.behind {d} (h : SerialStep callbacks m d m') (hbehind : Behind m.scheduler) :
    Behind m'.scheduler := by
  have hin : BehindIn d.event.tick m'.scheduler := by
    refine h.invariant (fun s _ => BehindIn d.event.tick s) ?_ ⟨?_, ?_, ?_⟩
    · exact fun rest hpop => behindIn_started hbehind (h.known) (h.least) hpop
    · exact fun s posts error hs => hs
    · exact fun s posts tgt tick cb id after hs _ htk haft => hs.scheduled htk haft
    · exact fun s posts after _ hs haft => hs.restored haft
  exact hin.1

theorem runUntilIdle_aligned {ds} (h : Aligned m.scheduler)
    (hrun : runUntilIdle callbacks rounds m = some (m', ds)) : Aligned m'.scheduler := by
  obtain ⟨last, htr, hidle, rfl⟩ := runUntilIdle_trace hrun
  have hlast : Behind last.scheduler := htr.invariant (fun _ m => Behind m.scheduler)
    (fun past m d m' hm hstep => hstep.behind hm) [] h.behind
  refine hlast.clocksIn.advance le_rfl (fun q hq e he => ?_)
  exact ((hlast q hq).pending e he).2

theorem runSerialEpochTo_aligned {horizon ds} (h : Aligned m.scheduler)
    (hhor : m.scheduler.now ≤ horizon)
    (hrun : runSerialEpochTo callbacks horizon rounds m = some (m', ds)) :
    Aligned m'.scheduler := by
  rcases runSerialEpochTo_trace hrun with
    ⟨mid, front, htr, hend⟩
  have hmid : Behind mid.scheduler ∧ mid.scheduler.now ≤ horizon := by
    refine htr.invariant (fun _ m => Behind m.scheduler ∧ m.scheduler.now ≤ horizon) ?_ []
      ⟨h.behind, hhor⟩
    rintro past m d m' ⟨hm, -⟩ ⟨hstep, htk, hrev⟩
    exact ⟨hstep.behind hm, (hstep.timeline hrev).symm ▸ htk⟩
  rcases hend with ⟨-, hleft, rfl⟩ | ⟨d, last, -, hstep, -, rfl⟩
  · exact hmid.1.clocksIn.advance hmid.2 (fun q hq e he => (hleft q hq e he).le)
  · have hlast := hstep.behind hmid.1
    exact hlast.clocksIn.advance le_rfl (fun q hq e he => ((hlast q hq).pending e he).2)

theorem Aligned.horizon {horizon : Nat} (h : Aligned s) (hhor : planNextEpoch s = some horizon) :
    s.now ≤ horizon := by
  unfold planNextEpoch nextEpochHorizon at hhor
  split at hhor
  · cases hhor
  split at hhor
  · obtain ⟨p, hp, rfl⟩ := mem_map.mp (min?_eq_some_iff.mp hhor).1
    exact Nat.le_trans (h p (mem_range.mp hp)).above (Nat.le_add_right ..)
  · cases hhor

theorem SerialLegs.aligned {ds} (h : SerialLegs callbacks m ds m')
    (haligned : Aligned m.scheduler) :
    Aligned m'.scheduler := by
  obtain ⟨legs, htr, -⟩ := h
  refine htr.invariant (fun _ m => Aligned m.scheduler) ?_ [] haligned
  rintro past m ds m' hm (⟨rounds, hrun⟩ | ⟨rounds, hor, planned, hplan, hhor, hrun⟩)
  · exact runUntilIdle_aligned hm hrun
  · have hplanned := hm.horizon hplan
    exact runSerialEpochTo_aligned hm (by omega) hrun

end Serial

section Parallel

/-- Every callback that was dispatched returned. -/
def AllReturned (dispatches : List (Dispatch κ)) : Prop := ∀ d ∈ dispatches, d.ending = .returned

variable {m : Machine κ ω σ}

theorem batches_noSerial {records} (htr : Trace (BatchStep callbacks rounds hor) m records mid)
    (h : NoSerialIn hor m.scheduler) : NoSerialIn hor mid.scheduler := by
  refine htr.invariant (fun _ m => NoSerialIn hor m.scheduler) ?_ [] h
  rintro past m record m' hm ⟨rs, hresults, -, -, -, -, rfl⟩
  exact (hresults.noSerial (fun p hp => mem_nextBatch hp) hm).1.merge

variable {run : EpochRun κ ω σ}

/-- Inside the window and without serial events in the way, the batches of an
    epoch end with an error only if there is no room or a callback panicked. -/
theorem EpochEnd.error (h : EpochEnd callbacks rounds hor m run) (hhor : hor ≤ hi)
    (hhi : hi ≤ lo + m.scheduler.minRemoteDelay) (hclocks : ClocksIn lo hi m.scheduler)
    (hserial : NoSerialIn hor m.scheduler) (error : SchedulerError)
    (herr : run.result = .error error) :
    (Overflows (some error) ∧ ∃ p < m.scheduler.partitionCount,
        checkedAdd (m.scheduler.queues p).now m.scheduler.minRemoteDelay = none) ∨
      (∃ p, error = .parallelWorkerPanicked p) ∧ ∃ d ∈ run.dispatches, d.ending = .panicked := by
  cases h with
  | finished hready => cases herr
  | failed batch error' hbat hres =>
    simp only [Except.error.injEq] at herr
    rw [herr] at hres
    cases hbat with
    | overflow p lost _ hp hfull hmach hoverflow =>
      rw [hres, Except.error.injEq] at hoverflow
      exact .inl ⟨⟨p, _, _, congrArg some hoverflow⟩, p, mem_nextBatch hp, hfull⟩
    | failed rs error'' latest hresults hworker =>
      obtain ⟨hok, -⟩ := mergeBatch_window hresults hhor hhi hclocks latest .rfl
      simp only [hok, Except.error.injEq] at hres
      rcases (hresults.noSerial (fun p hp => mem_nextBatch hp) hserial).2 error'' hworker with
        ⟨p, hpan, hd⟩
      exact .inr ⟨⟨p, hres ▸ hpan⟩, hd⟩
    | finished =>
      cases hres
  | stopped rs error' hresults hnone hcases =>
    obtain ⟨hok, -⟩ := batch_window hresults hhor hhi hclocks
    rcases hcases with hrefused | ⟨-, entry, hfirst, -⟩
    · cases hok.symm.trans hrefused
    · have hnoSerial : NoSerialIn hor (mergedBatch m rs).2 :=
        (hresults.noSerial (fun p hp => mem_nextBatch hp) hserial).1.merge
      cases hnoSerial.first.symm.trans hfirst

/-- An epoch that found room and in which no callback panicked keeps the clocks
    aligned. -/
theorem EpochCall.aligned (h : EpochCall callbacks rounds m run) (haligned : Aligned m.scheduler)
    (hroom : ¬ Overflows (errorOf run.result)) (hret : AllReturned run.dispatches) :
    Aligned run.machine.scheduler := by
  cases h with
  | unplanned run hmach => exact hmach ▸ haligned
  | planned plan run hplan hend hahead =>
    have hle : m.scheduler.now ≤ plan.horizon := by
      rcases hahead with hlt | ⟨p, hp, hsame⟩
      · exact hlt.le
      · rw [hsame]
        exact Nat.le_trans (haligned p hp).above (Nat.le_add_right ..)
    have hhi : plan.horizon ≤ m.scheduler.now + m.scheduler.minRemoteDelay := by
      have hspec := hplan.spec.2.1 0 m.scheduler.count_pos
      have hbelow := (haligned 0 m.scheduler.count_pos).below
      omega
    have hclocks : ClocksIn m.scheduler.now plan.horizon m.scheduler := fun p hp =>
      ⟨(haligned p hp).above, Nat.le_trans (haligned p hp).below hle, (haligned p hp).pending⟩
    cases hend with
    | blocked => exact haligned
    | failed mid records last error hblockers htr hlast herr =>
      rcases batches_window htr le_rfl hhi hclocks with
        ⟨hmid, hhi', -⟩
      have hserial := batches_noSerial htr (hplan.spec.2.2 hblockers)
      rcases hlast.error le_rfl hhi' hmid hserial error herr with
        ⟨hoverflow, -⟩ | ⟨-, d, hd, hpan⟩
      · refine absurd ?_ hroom
        rwa [epochRunOf, errorOf_after, herr]
      · have hback := hret d (mem_append_right _ hd)
        cases hback.symm.trans hpan
    | finished mid records run hblockers htr hready hmach =>
      obtain ⟨hmid, _⟩ := batches_window htr le_rfl hhi hclocks
      rw [hmach]
      exact hmid.advance le_rfl (fun q hq e he => (pending_of_not_ready hready q hq e he).le)

theorem runUntilIdleParallel_aligned {run : EpochRun κ ω σ} (haligned : Aligned m.scheduler)
    (hrun : runUntilIdleParallel callbacks rounds epochs m = some run)
    (hroom : ¬ Overflows (errorOf run.result)) (hret : AllReturned run.dispatches) :
    Aligned run.machine.scheduler := by
  rcases runUntilIdleParallel_trace hrun with
    ⟨mid, runs, last, htr, hlast, hmach, herr, hdisp, _⟩
  rw [hdisp] at hret
  have hmid : AllReturned (runs.flatMap (·.dispatches)) → Aligned mid.scheduler := by
    refine htr.invariant (fun past m => AllReturned (past.flatMap (·.dispatches)) →
      Aligned m.scheduler) ?_ [] (fun _ => haligned)
    rintro past m run m' hm ⟨hcall, ⟨summary, hok⟩, rfl⟩ hpast
    rw [flatMap_append, flatMap_singleton] at hpast
    refine hcall.aligned (hm (fun d hd => hpast d (mem_append_left _ hd))) ?_
      (fun d hd => hpast d (mem_append_right _ hd))
    rintro ⟨p, now, delay, hoverflow⟩
    simp [errorOf_ok hok] at hoverflow
  rw [hmach]
  rw [herr] at hroom
  exact hlast.aligned (hmid (fun d hd => hret d (mem_append_left _ hd))) hroom
    (fun d hd => hret d (mem_append_right _ hd))

/-- A mixed step keeps the clocks aligned, whatever its callback does. -/
theorem MixedEnd.aligned {plan} (h : MixedEnd callbacks plan m run)
    (haligned : Aligned m.scheduler) :
    Aligned run.machine.scheduler := by
  cases h with
  | rejected run hmach => exact hmach ▸ haligned
  | serial d m' run hplan hstep hready hmach =>
    have hbehind := hstep.behind haligned.behind
    rw [hmach]
    exact hbehind.clocksIn.advance le_rfl (fun q hq e he => ((hbehind q hq).pending e he).2)
  | parallel p ev rest cb hplan hp hpop hleast hcb hready =>
    have hmem := (PartitionQueue.tick_le_of_popNext _ hpop).1
    have hle : m.scheduler.now ≤ ev.tick :=
      Nat.le_trans (haligned p hp).above ((haligned p hp).pending ev hmem).1
    have hhi : ev.tick ≤ m.scheduler.now + m.scheduler.minRemoteDelay := by
      have htk := (hplan.ready _ hready).2.2
      have hspec := hplan.spec.2.1 p hp
      have hbelow := (haligned p hp).below
      omega
    have hclocks : ClocksIn m.scheduler.now ev.tick m.scheduler := fun q hq =>
      ⟨(haligned q hq).above, Nat.le_trans (haligned q hq).below hle, (haligned q hq).pending⟩
    rcases dispatchNextParallelInPartition_window callbacks hclocks hhi hp hpop hleast
      le_rfl with ⟨-, -, s, hmach, -, hclocks', hpend⟩
    rw [hmach]
    exact hclocks'.advance le_rfl hpend

end Parallel

section Histories

theorem Aligned.onPartition {s} {α : Type} (h : Aligned s) (p : Nat)
    (f : PartitionQueue κ → Except SchedulerError α × PartitionQueue κ)
    (hf : ∀ lo hi q, QueueWindow lo hi 0 q → QueueWindow lo hi 0 (f q).2) :
    Aligned (s.onPartition p f).2 := by
  unfold PartitionedScheduler.onPartition
  split
  next hp => exact InWindow.setQueue h p (hf _ _ _ (h p hp))
  · exact h

theorem Aligned.restored {s s' : PartitionedScheduler κ} (h : Aligned s)
    (hrestored : Restored s s') : Aligned s' := by
  rcases hrestored.window with ⟨hsame, hkeeps⟩ | hall
  · rw [Aligned, hsame]
    exact hkeeps h
  · exact fun p hp => (hall p hp).mono (Nat.zero_le _)

/-- A run of parallel epochs. -/
def Command.RunsEpochs : Command κ → Prop
  | .runNextEpochParallel | .runNextEpochParallelUntil _ | .runUntilIdleParallel => True
  | _ => False

/-- The epochs of a command found room, and no callback panicked in them. -/
def SettlesEpochs (command : Command κ) (outcome : Outcome κ ω σ) : Prop :=
  command.RunsEpochs → ¬ Overflows outcome.error ∧ AllReturned outcome.dispatches

theorem perform_aligned {cmd oc} (h : Aligned m.scheduler)
    (hperf : perform callbacks rounds m cmd = some oc)
    (hset : SettlesEpochs cmd oc) : Aligned oc.machine.scheduler := by
  by_cases hpar : cmd.RunsParallel
  · cases cmd with
    | runNextEpochParallel =>
      obtain ⟨run, hrun, rfl⟩ := Option.map_eq_some_iff.mp hperf
      obtain ⟨hroom, hret⟩ := hset trivial
      exact (runNextEpochParallel_call hrun).aligned h hroom hret
    | runNextEpochParallelUntil tickLimit =>
      obtain ⟨run, hrun, rfl⟩ := Option.map_eq_some_iff.mp hperf
      obtain ⟨hroom, hret⟩ := hset trivial
      exact (runNextEpochParallelUntil_call hrun).aligned h hroom hret
    | runUntilIdleParallel =>
      obtain ⟨run, hrun, rfl⟩ := Option.map_eq_some_iff.mp hperf
      obtain ⟨hroom, hret⟩ := hset trivial
      exact runUntilIdleParallel_aligned h hrun hroom hret
    | runNextMixedEvent plan =>
      obtain ⟨run, hrun, rfl⟩ := Option.map_eq_some_iff.mp hperf
      exact (runNextMixedEvent_end hrun).aligned h
    | _ => cases hpar
  · exact perform_kept (fun p f hf hs => hs.onPartition p f hf)
      (fun hrestored hs => hs.restored hrestored)
      (fun hrun hs => hrun.aligned hs) h hperf hpar

theorem new_aligned {s : PartitionedScheduler κ} {instanceId maxWorkers minRemoteDelay}
    (h : PartitionedScheduler.withParallelWorkerLimit instanceId partitions minRemoteDelay
      maxWorkers = .ok s) : Aligned s := by
  obtain ⟨hnow, hqs⟩ := PartitionedScheduler.withParallelWorkerLimit_ok h
  intro p hp
  rw [hqs p, hnow]
  exact ⟨le_rfl, le_rfl, fun e he => absurd he not_mem_nil⟩

end Histories

section Snapshots

variable {s : PartitionedScheduler κ}

theorem quiescentSnapshot_ok {snap} (h : s.quiescentSnapshot = .ok snap) :
    snap = s.snapshot ∧ snap.totalPendingEvents = 0 ∧
      ∀ p < s.partitionCount, (s.queues p).pending.items = [] := by
  unfold quiescentSnapshot at h
  split at h
  · cases h
  rename_i htot
  rw [not_not] at htot
  cases h
  refine ⟨rfl, htot, fun p hp => ?_⟩
  have hmem : ((s.queues p).snapshot p).pendingEvents.length ∈
      s.snapshot.partitions.map (·.pendingEvents.length) :=
    mem_map.mpr ⟨_, mem_map.mpr ⟨p, mem_range.mpr hp, rfl⟩, rfl⟩
  have hle := le_sum_of_mem hmem
  have hzero : ((s.queues p).pending.items.map PartitionEvent.snapshot).length = 0 :=
    Nat.le_zero.mp (hle.trans (Nat.le_of_eq htot))
  rw [length_map] at hzero
  exact length_eq_zero_iff.mp hzero

theorem getElem_snapshot :
    s.snapshot.partitions[p]? = if p < s.partitionCount then some ((s.queues p).snapshot p)
      else none := by
  unfold snapshot
  simp only [getElem?_map]
  by_cases hp : p < s.partitionCount
  · rw [if_pos hp, getElem?_range hp]
    rfl
  · rw [if_neg hp, getElem?_eq_none (by rw [length_range]; omega)]
    rfl

/-- With aligned clocks every entry of a snapshot is in its place and at the tick
    of the snapshot. -/
theorem Aligned.noMismatch (h : Aligned s) : partitionMismatch s.snapshot = none := by
  unfold partitionMismatch
  refine findSome?_eq_none_iff.mpr (fun entry hent => ?_)
  obtain ⟨ptn, p⟩ := entry
  have hget := mk_mem_zipIdx_iff_getElem?.mp hent
  rw [getElem_snapshot] at hget
  split at hget
  next hp =>
    rw [Option.some.injEq] at hget
    have habove := (h p hp).above
    have hbelow := (h p hp).below
    rw [← hget, if_neg, if_neg, if_neg]
    · exact Nat.not_lt.mpr habove
    · exact Nat.not_lt.mpr hbelow
    · exact not_not.mpr rfl
  · cases hget

/-- What an aligned scheduler saves can be restored into any idle scheduler of
    its shape, which then has the same snapshot. -/
theorem Aligned.restorable {snapshot} {κ' : Type} (h : Aligned s)
    (hsnap : s.quiescentSnapshot = .ok snapshot) {t : PartitionedScheduler κ'}
    (hidle : t.isIdle = true) (hcnt : t.partitionCount = s.partitionCount)
    (hdel : t.minRemoteDelay = s.minRemoteDelay)
    (hworkers : t.maxParallelWorkers = s.maxParallelWorkers) :
    ∃ t', t.restoreQuiescent snapshot = (.ok (), t') ∧ t'.snapshot = snapshot := by
  obtain ⟨rfl, htot, hemp⟩ := quiescentSnapshot_ok hsnap
  have hlen : s.snapshot.partitions.length = t.partitionCount := by
    rw [hcnt]
    simp [snapshot]
  have hdel' : s.snapshot.minRemoteDelay = t.minRemoteDelay := hdel.symm
  have hworkers' : s.snapshot.maxParallelWorkers = t.maxParallelWorkers := hworkers.symm
  have hval : t.validateQuiescentRestore s.snapshot = .ok () := by
    unfold validateQuiescentRestore
    rw [if_neg (not_not.mpr htot), if_neg (not_not.mpr (t.total_zero_of_isIdle hidle))]
    unfold validateQuiescentSnapshotCompatibility
    rw [if_neg (not_not.mpr htot), if_neg (not_not.mpr hlen), h.noMismatch]
    simp only
    rw [if_neg (not_not.mpr hdel'), if_neg (not_not.mpr hworkers')]
  unfold restoreQuiescent
  rw [hval]
  refine ⟨_, rfl, ?_⟩
  -- Every queue gets back the entry that was taken of its partition.
  have hqs : ∀ p < s.partitionCount,
      (t.restoredQueues s.snapshot p).snapshot p = (s.queues p).snapshot p := by
    intro p hp
    unfold restoredQueues
    rw [getElem_snapshot, if_pos hp]
    simp [PartitionQueue.restoreQuiescent, PartitionQueue.snapshot, hemp p hp, Agenda.items_empty]
  unfold snapshot
  simp only [hcnt, hdel, hworkers, SchedulerSnapshot.mk.injEq, true_and]
  exact map_congr_left (fun p hp => hqs p (mem_range.mp hp))

variable (callbacks) in
/-- Quiescent snapshots can be restored after every history in whose epochs no
    callback panicked. -/
theorem quiescent_restorable {κ' : Type}
    (instanceId partitions minRemoteDelay maxParallelWorkers : Nat) (s : PartitionedScheduler κ)
    (world : ω) (stores : Nat → σ) (commands : List (Nat × Command κ))
    (outcomes : List (Outcome κ ω σ)) (m : Machine κ ω σ)
    (hnew : withParallelWorkerLimit instanceId partitions minRemoteDelay maxParallelWorkers = .ok s)
    (hrun : performAll callbacks commands ⟨s, world, stores⟩ = some (outcomes, m))
    (hsettles : ∀ entry ∈ commands.zip outcomes, SettlesEpochs entry.1.2 entry.2)
    (snapshot : SchedulerSnapshot) (hsnapshot : m.scheduler.quiescentSnapshot = .ok snapshot)
    (t : PartitionedScheduler κ') (hidle : t.isIdle = true)
    (hcount : t.partitionCount = m.scheduler.partitionCount)
    (hdelay : t.minRemoteDelay = m.scheduler.minRemoteDelay)
    (hworkers : t.maxParallelWorkers = m.scheduler.maxParallelWorkers) :
    ∃ t', t.restoreQuiescent snapshot = (.ok (), t') ∧ t'.snapshot = snapshot := by
  have haligned : Aligned m.scheduler := by
    refine performAll_invariant SettlesEpochs (fun _ m => Aligned m.scheduler) ?_
      commands [] _ m outcomes (new_aligned hnew) hrun hsettles
    exact fun past m rounds command outcome hm hperform hsettled =>
      perform_aligned hm hperform hsettled
  exact haligned.restorable hsnapshot hidle hcount hdelay hworkers

/-- A callback that panics, and one that does nothing. -/
def panics : Callbacks Bool Unit Unit where
  serial _ _ _ := .done
  parallel callback _ _ := if callback then .panic else .done

/-- A mixed step whose callback panics, then an epoch: the quiescent snapshot
    goes back into the scheduler. -/
theorem quiescent_restorable_mixed_panic :
    ∃ s outcomes m plan snapshot, withParallelWorkerLimit 0 2 5 2 = .ok s ∧
      performAll panics
        [(1, .scheduleParallelAt 0 3 true), (1, .runNextMixedEvent plan),
          (1, .scheduleParallelAt 1 4 false), (3, .runNextEpochParallel)]
        ⟨s, (), fun _ => ()⟩ = some (outcomes, m) ∧
      m.scheduler.quiescentSnapshot = .ok snapshot ∧
      ∃ t', m.scheduler.restoreQuiescent snapshot = (.ok (), t') ∧ t'.snapshot = snapshot := by
  let plan : ParallelEpochPlan :=
    { schedulerInstance := some 0
      horizon := 5
      readyPartitions := [(3, 0)]
      readyEventTokens := [(0, 0)]
      frontiers := [⟨0, 0, 5, some 3, 1⟩, ⟨1, 0, 5, none, 0⟩]
      serialBlockers := []
      serialBlockerTokens := []
      parallelWorkerLimit := 2 }
  refine ⟨_, _, _, plan, _, rfl, rfl, rfl, quiescent_restorable panics 0 2 5 2 _ () (fun _ => ())
    [(1, .scheduleParallelAt 0 3 true), (1, .runNextMixedEvent plan),
      (1, .scheduleParallelAt 1 4 false), (3, .runNextEpochParallel)]
    _ _ rfl rfl ?_ _ rfl _ rfl rfl rfl rfl⟩
  refine forall_mem_cons.mpr ⟨fun hepochs => absurd hepochs (fun h => h),
    forall_mem_cons.mpr ⟨fun hepochs => absurd hepochs (fun h => h),
      forall_mem_cons.mpr ⟨fun hepochs => absurd hepochs (fun h => h),
        forall_mem_singleton.mpr (fun _ => ⟨?_, ?_⟩)⟩⟩⟩
  · rintro ⟨p, now, delay, hoverflow⟩
    have hnone : (none : Option SchedulerError) = some (.epochHorizonOverflow p now delay) :=
      hoverflow
    cases hnone
  · exact forall_mem_singleton.mpr rfl

/-- After an epoch in which a callback panics a clock is behind the scheduler's
    tick, and the quiescent snapshot is refused by a scheduler just like it. -/
theorem panicked_epoch_not_restorable :
    ∃ s outcomes m snapshot t, withParallelWorkerLimit 0 2 5 2 = .ok s ∧
      performAll panics [(1, .scheduleParallelAt 0 3 true), (3, .runNextEpochParallel)]
        ⟨s, (), fun _ => ()⟩ = some (outcomes, m) ∧
      outcomes.map (·.error) = [none, some (.parallelWorkerPanicked 0)] ∧
      m.scheduler.quiescentSnapshot = .ok snapshot ∧ s.isIdle = true ∧
      s.partitionCount = m.scheduler.partitionCount ∧
      s.minRemoteDelay = m.scheduler.minRemoteDelay ∧
      s.maxParallelWorkers = m.scheduler.maxParallelWorkers ∧
      s.restoreQuiescent snapshot = (.error (.snapshotPartitionClockBeforeGlobalTick 3 1 0), t) :=
  ⟨_, _, _, _, _, rfl, rfl, rfl, rfl, rfl, rfl, rfl, rfl, rfl⟩

end Snapshots

end Rem6.Kernel
