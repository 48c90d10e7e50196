import Mathlib.Data.Finset.Max
import Rem6.Kernel.Batches

/-!
# Lookahead Safety

Between calls of the scheduler no pending event is before the clock of its
partition, and no clock is further than the lookahead past the slowest one. This
is what makes it safe to run the partitions of an epoch on their own: whatever
they send to each other is due at the lookahead past the slowest clock or later,
and no clock is past that, so a merge never finds an event in the past.

Inside a run the clocks spread further. The serial dispatcher puts the clock of
one partition to the tick of its event, however far ahead that is, and leaves
the others where they are. What holds then is `WindowAt lo bound`: all clocks
are at `lo` or later, none is past both `lo` plus the lookahead and `bound`, and
no event is before `bound`. With `bound` the tick of the scheduler this holds
after each dispatch, and the advance at the end of a run closes the gap.

A callback may also restore a snapshot while it runs. The clocks are all at the
tick of the snapshot then, while the callback goes on scheduling from the tick
it was started at (`InCallback`).

## Main definitions

* `LookaheadSafe`: The property of the states between calls.
* `QueueWindow`, `WindowAt`: The property inside a run.
* `Delivery.Complete`, `Delivered`: Every event sent is in its target's queue
  after the merge.

## Theorems

* `SerialStep.window`: A serial dispatch keeps the window.
* `mergeBatch_window`: So does a batch, and its merge delivers everything.
* `EpochCall.safe`, `MixedEnd.safe`: Epochs and mixed steps are safe.
* `perform_safe`: Every command keeps the property.
* `lookahead_safe`: The property holds after every history, and every parallel
  run delivers everything its callbacks sent.
-/

namespace Rem6.Kernel

open Lib PartitionedScheduler PartitionQueue List

variable {κ ω σ : Type} {callbacks : Callbacks κ ω σ}

/-- No event is before its partition's clock, and no clock is more than the
    lookahead past another. -/
structure LookaheadSafe (s : PartitionedScheduler κ) : Prop where
  pending : ∀ p < s.partitionCount, ∀ e ∈ (s.queues p).pending, (s.queues p).now ≤ e.tick
  clocks : ∀ p < s.partitionCount, ∀ q < s.partitionCount,
    (s.queues p).now ≤ (s.queues q).now + s.minRemoteDelay

section Windows

/-- A clock between `lo` and `hi`, with no event before it or before `bound`. -/
structure QueueWindow (lo hi bound : Nat) (queue : PartitionQueue κ) : Prop where
  above : lo ≤ queue.now
  below : queue.now ≤ hi
  pending : ∀ e ∈ queue.pending, queue.now ≤ e.tick ∧ bound ≤ e.tick

/-- All queues are in the window. -/
def WindowAt (lo bound : Nat) (s : PartitionedScheduler κ) : Prop :=
  ∀ p < s.partitionCount, QueueWindow lo (max (lo + s.minRemoteDelay) bound) bound (s.queues p)

variable {lo bound hi tick : Nat} {s : PartitionedScheduler κ}

theorem WindowAt.safe (h : WindowAt lo 0 s) : LookaheadSafe s := by
  refine ⟨fun p hp e he => ((h p hp).pending e he).1, fun p hp q hq => ?_⟩
  have hbelow := (h p hp).below
  have habove := (h q hq).above
  omega

/-- The slowest clock is the lower end of the window. -/
theorem LookaheadSafe.window (h : LookaheadSafe s) :
    ∃ p < s.partitionCount, WindowAt (s.queues p).now 0 s := by
  rcases Finset.exists_min_image (Finset.range s.partitionCount) (fun p => (s.queues p).now)
    ⟨0, Finset.mem_range.mpr s.count_pos⟩ with ⟨p, hp, hmin⟩
  rw [Finset.mem_range] at hp
  refine ⟨p, hp, fun q hq => ⟨hmin q (Finset.mem_range.mpr hq), ?_, fun e he => ⟨?_, ?_⟩⟩⟩
  · exact (h.clocks q hq p hp).trans (le_max_left _ _)
  · exact h.pending q hq e he
  · exact Nat.zero_le _

variable {queue : PartitionQueue κ}

variable {bound' tgt : Nat}

theorem QueueWindow.mono (h : QueueWindow lo hi bound queue) (hbnd : bound' ≤ bound) :
    QueueWindow lo hi bound' queue :=
  ⟨h.above, h.below, fun e he => ⟨(h.pending e he).1, Nat.le_trans hbnd (h.pending e he).2⟩⟩

theorem QueueWindow.enqueue (h : QueueWindow lo hi bound queue) (p tick : Nat)
    (cb : PartitionEventCallback κ) (hclk : queue.now ≤ tick) (hbnd : bound ≤ tick) :
    QueueWindow lo hi bound (queue.enqueue p tick cb) := by
  refine ⟨h.above, h.below, fun e he => ?_⟩
  rcases (mem_enqueue queue).mp he with rfl | hold
  · exact ⟨hclk, hbnd⟩
  · exact h.pending e hold

theorem QueueWindow.receive (p : Nat) :
    ∀ (evs : List (RemoteScheduledEvent κ)) (queue : PartitionQueue κ),
      QueueWindow lo hi bound queue → (∀ r ∈ evs, hi ≤ r.tick ∧ bound ≤ r.tick) →
      QueueWindow lo hi bound (queue.receive p evs) := by
  intro evs
  induction evs with
  | nil => intro queue h _; exact h
  | cons ev evs ih =>
    intro queue h hevs
    have hev := hevs ev mem_cons_self
    refine ih _ (h.enqueue p ev.tick _ ?_ hev.2) (fun r hr => hevs r (mem_cons_of_mem _ hr))
    exact h.below.trans hev.1

theorem QueueWindow.advanceTo (h : QueueWindow lo hi bound queue)
    (hpend : ∀ e ∈ queue.pending, tick ≤ e.tick) :
    QueueWindow (max lo tick) (max hi tick) 0 (queue.advanceTo tick) := by
  have habove := h.above
  have hbelow := h.below
  refine ⟨?_, ?_, fun e he => ⟨?_, Nat.zero_le _⟩⟩
  · rw [now_advanceTo]
    omega
  · rw [now_advanceTo]
    omega
  · rw [pending_advanceTo] at he
    rw [now_advanceTo]
    have hclk := (h.pending e he).1
    have htk := hpend e he
    omega

/-- All queues are in one window. -/
def InWindow (lo hi bound : Nat) (s : PartitionedScheduler κ) : Prop :=
  ∀ p < s.partitionCount, QueueWindow lo hi bound (s.queues p)

theorem InWindow.setQueue (h : InWindow lo hi bound s) (p : Nat)
    (hqueue : QueueWindow lo hi bound queue) : InWindow lo hi bound (s.setQueue p queue) := by
  intro q hq
  rw [queue_setQueue]
  split
  · exact hqueue
  · exact h q hq

theorem InWindow.scheduled {cb s'} {id : PartitionEventId} (h : InWindow lo hi bound s)
    (hsch : Scheduled s tgt tick cb id s') (hbnd : bound ≤ tick) : InWindow lo hi bound s' := by
  rcases hsch with ⟨htgt, hclk, -, rfl⟩
  exact h.setQueue tgt ((h tgt htgt).enqueue tgt tick cb hclk hbnd)

/-- A checkpoint call leaves the clocks alone or puts them all to the tick of
    the snapshot. -/
theorem Restored.window {s'} (h : Restored s s') :
    (s'.now = s.now ∧ ∀ {lo hi bound}, InWindow lo hi bound s → InWindow lo hi bound s') ∨
      InWindow s'.now s'.now s'.now s' := by
  rcases h.clocks with ⟨hsame, hclocks⟩ | hclocks
  · refine .inl ⟨hsame, fun hwin p hp => ?_⟩
    have hq := hwin p (h.shape.partitionCount ▸ hp)
    refine ⟨hclocks p ▸ hq.above, hclocks p ▸ hq.below, fun e he => ?_⟩
    rw [hclocks p]
    exact hq.pending e ((h.pending p).subset he)
  · refine .inr fun p hp => ?_
    obtain ⟨hclk, hpend⟩ := hclocks p (h.shape.partitionCount ▸ hp)
    refine ⟨hclk.ge, hclk.le, fun e he => ⟨?_, hpend e he⟩⟩
    rw [hclk]
    exact hpend e he

theorem WindowAt.advance (h : WindowAt lo bound s) (hbnd : bound ≤ tick)
    (hpend : ∀ p < s.partitionCount, ∀ e ∈ (s.queues p).pending, tick ≤ e.tick) :
    LookaheadSafe (s.advancePartitionsTo tick) := by
  have hclosed : WindowAt (max lo tick) 0 (s.advancePartitionsTo tick) := by
    intro p hp
    have hadv := (h p hp).advanceTo (hpend p hp)
    refine ⟨hadv.above, hadv.below.trans ?_, hadv.pending⟩
    show max (max (lo + s.minRemoteDelay) bound) tick ≤ max (max lo tick + s.minRemoteDelay) 0
    omega
  exact hclosed.safe

end Windows

section Serial

/-- The window inside a callback that was started at a tick: the bound is the
    tick of the scheduler, and either that is not past the tick the callback
    schedules from, or all clocks are at it. -/
def InCallback (tick : Nat) (s : PartitionedScheduler κ) : Prop :=
  ∃ lo, WindowAt lo s.now s ∧ (s.now ≤ tick ∨ s.now ≤ lo)

variable {start tick tgt lo bound p rounds : Nat} {s s' : PartitionedScheduler κ}
  {m m' : Machine κ ω σ}

theorem InCallback.scheduled {cb} {id : PartitionEventId} (h : InCallback start s)
    (hstart : start ≤ tick)
    (hsch : Scheduled s tgt tick cb id s') : InCallback start s' := by
  rcases h with ⟨lo, hwin, hnow⟩
  have hbnd : s.now ≤ tick := by
    have habove := (hwin tgt hsch.1).above
    have hclk := hsch.2.1
    omega
  have hwin' := InWindow.scheduled hwin hsch hbnd
  rcases hsch with ⟨-, -, -, rfl⟩
  exact ⟨lo, hwin', hnow⟩

theorem InCallback.restored (h : InCallback start s) (hrestored : Restored s s') :
    InCallback start s' := by
  rcases h with ⟨lo, hwin, hnow⟩
  rcases hrestored.window with ⟨hsame, hkeeps⟩ | hall
  · refine ⟨lo, ?_, hsame ▸ hnow⟩
    rw [WindowAt, hrestored.shape.minRemoteDelay, hsame]
    exact hkeeps hwin
  · refine ⟨s'.now, fun p hp => ⟨(hall p hp).above, ?_, (hall p hp).pending⟩, .inr le_rfl⟩
    exact (hall p hp).below.trans (le_max_right _ _)

theorem inCallback_started {ev rest} (h : WindowAt lo bound s) (hp : p < s.partitionCount)
    (hleast : Least s ev)
    (hpop : (s.queues p).popNext = some (ev, rest)) :
    InCallback ev.tick (startedScheduler s p rest ev.tick) := by
  rcases tick_le_of_popNext _ hpop with ⟨hmem, hrest⟩
  rcases (h p hp).pending ev hmem with ⟨hclk, hbnd⟩
  refine ⟨lo, fun q hq => ?_, Or.inl le_rfl⟩
  simp only [startedScheduler, queue_setQueue]
  split
  · refine ⟨?_, le_max_right _ _, fun e he => ⟨(hrest e he).2, (hrest e he).2⟩⟩
    exact Nat.le_trans (h p hp).above hclk
  · refine ⟨(h q hq).above, ?_, fun e he => ⟨((h q hq).pending e he).1, hleast q hq e he⟩⟩
    have hbelow := (h q hq).below
    show _ ≤ max (lo + s.minRemoteDelay) ev.tick
    omega

/-- A serial dispatch keeps the window, with the tick of the scheduler as the
    bound. -/
theorem SerialStep.window {d} (h : SerialStep callbacks m d m')
    (hwin : WindowAt lo bound m.scheduler) :
    ∃ lo', WindowAt lo' m'.scheduler.now m'.scheduler := by
  have hin : InCallback d.event.tick m'.scheduler := by
    refine h.invariant (fun s _ => InCallback d.event.tick s) ?_ ⟨?_, ?_, ?_⟩
    · exact fun rest hpop => inCallback_started hwin (h.known) (h.least) hpop
    · exact fun s posts error hs => hs
    · exact fun s posts tgt tick cb id after hs _ htk haft => hs.scheduled htk haft
    · exact fun s posts after _ hs haft => hs.restored haft
  rcases hin with ⟨lo', hwin', -⟩
  exact ⟨lo', hwin'⟩

/-- A serial dispatch that stays on the timeline leaves the scheduler at the
    tick of its event. -/
theorem SerialStep.timeline {d} (h : SerialStep callbacks m d m')
    (hsame : m'.scheduler.timelineRevision = m.scheduler.timelineRevision) :
    m'.scheduler.now = d.event.tick := by
  have hcases : m.scheduler.timelineRevision < m'.scheduler.timelineRevision ∨
      m'.scheduler.timelineRevision = m.scheduler.timelineRevision ∧
        m'.scheduler.now = d.event.tick := by
    refine h.invariant (fun s _ => m.scheduler.timelineRevision < s.timelineRevision ∨
      s.timelineRevision = m.scheduler.timelineRevision ∧ s.now = d.event.tick) ?_ ⟨?_, ?_, ?_⟩
    · exact fun rest hpop => Or.inr ⟨rfl, rfl⟩
    · exact fun s posts error hs => hs
    · rintro s posts tgt tick cb id after hs - htk ⟨-, -, -, rfl⟩
      exact hs
    · intro s posts after _ hs haft
      rcases haft.timeline with hlt | ⟨hrev, hnow⟩
      · rcases hs with hs | hs
        · exact .inl (hs.trans hlt)
        · exact .inl (hs.1 ▸ hlt)
      · rwa [hrev, hnow]
  rcases hcases with hlt | ⟨-, hnow⟩
  · omega
  · exact hnow

theorem runUntilIdle_safe {ds} (h : LookaheadSafe m.scheduler)
    (hrun : runUntilIdle callbacks rounds m = some (m', ds)) : LookaheadSafe m'.scheduler := by
  rcases runUntilIdle_trace hrun with ⟨last, htr, hidle, rfl⟩
  rcases h.window with ⟨p, -, hstart⟩
  have hlast : ∃ lo bound, bound ≤ last.scheduler.now ∧ WindowAt lo bound last.scheduler := by
    refine htr.invariant (fun _ m => ∃ lo bound, bound ≤ m.scheduler.now ∧
      WindowAt lo bound m.scheduler) ?_ [] ⟨_, 0, Nat.zero_le _, hstart⟩
    rintro past m d m' ⟨lo, bound, -, hwin⟩ hstep
    rcases hstep.window hwin with ⟨lo', hwin'⟩
    exact ⟨lo', _, le_rfl, hwin'⟩
  rcases hlast with ⟨lo, bound, hbnd, hwin⟩
  refine hwin.advance hbnd (fun q hq e he => ?_)
  simp [Agenda.mem_def, hidle q hq] at he

theorem runSerialEpochTo_safe (horizon rounds : Nat) (m m' : Machine κ ω σ) (ds : List (Dispatch κ))
    (h : LookaheadSafe m.scheduler)
    (hrun : runSerialEpochTo callbacks horizon rounds m = some (m', ds)) :
    LookaheadSafe m'.scheduler := by
  rcases runSerialEpochTo_trace hrun with
    ⟨mid, front, htr, hend⟩
  rcases h.window with ⟨p, -, hstart⟩
  -- On the timeline every dispatch leaves the scheduler at a tick of the epoch.
  have hmid : ∃ lo bound, bound ≤ horizon ∧ WindowAt lo bound mid.scheduler := by
    refine htr.invariant (fun _ m => ∃ lo bound, bound ≤ horizon ∧
      WindowAt lo bound m.scheduler) ?_ [] ⟨_, 0, Nat.zero_le _, hstart⟩
    rintro past m d m' ⟨lo, bound, -, hwin⟩ ⟨hstep, htk, hrev⟩
    rcases hstep.window hwin with ⟨lo', hwin'⟩
    exact ⟨lo', _, (hstep.timeline hrev).symm ▸ htk, hwin'⟩
  rcases hmid with ⟨lo, bound, hbnd, hwin⟩
  rcases hend with ⟨-, hleft, rfl⟩ | ⟨d, last, -, hstep, -, rfl⟩
  · exact hwin.advance hbnd (fun q hq e he => (hleft q hq e he).le)
  · rcases hstep.window hwin with ⟨lo', hwin'⟩
    exact hwin'.advance le_rfl (fun q hq e he => ((hwin' q hq).pending e he).2)

theorem SerialLegs.safe {ds} (h : SerialLegs callbacks m ds m')
    (hsafe : LookaheadSafe m.scheduler) :
    LookaheadSafe m'.scheduler := by
  obtain ⟨legs, htr, -⟩ := h
  refine htr.invariant (fun _ m => LookaheadSafe m.scheduler) ?_ [] hsafe
  rintro past m ds m' hm (⟨rounds, hrun⟩ | ⟨rounds, horizon, -, -, -, hrun⟩)
  · exact runUntilIdle_safe hm hrun
  · exact runSerialEpochTo_safe horizon rounds m m' ds hm hrun

end Serial

section Parallel

/-- A delivery after which every target has its events. -/
def Delivery.Complete (delivery : Delivery κ) : Prop :=
  ∀ p, ((eventsFor p delivery.remoteEvents).map
      (fun r => (r.tick, PartitionEventCallback.parallel r.callback))).Subperm
    ((delivery.scheduler.queues p).pending.items.map (fun e => (e.tick, e.callback)))

/-- What was sent by callbacks that returned is delivered, once each, and
    nothing else is. -/
def Delivered (dispatches : List (Dispatch κ)) (deliveries : List (Delivery κ)) : Prop :=
  (deliveries.flatMap (·.remoteEvents)).Perm (sentByReturned dispatches) ∧
    ∀ delivery ∈ deliveries, delivery.Complete

theorem Delivered.nil : Delivered ([] : List (Dispatch κ)) [] := ⟨Perm.refl _, by simp⟩

theorem Delivered.append {front back : List (Dispatch κ)} {first second : List (Delivery κ)}
    (h : Delivered front first) (h' : Delivered back second) :
    Delivered (front ++ back) (first ++ second) := by
  refine ⟨?_, fun delivery hdel => ?_⟩
  · rw [flatMap_append, sentByReturned_append]
    exact h.1.append h'.1
  · rcases mem_append.mp hdel with hmem | hmem
    · exact h.2 delivery hmem
    · exact h'.2 delivery hmem

/-- Events for some partition, due at `tick` or later. -/
def DueFrom (tick partitionCount : Nat) (events : List (RemoteScheduledEvent κ)) : Prop :=
  ∀ r ∈ events, r.target < partitionCount ∧ tick ≤ r.tick

variable {hi lo horizon rounds : Nat}

variable {bound tick p epochs : Nat} {m' mid : Machine κ ω σ}

variable (callbacks) in
theorem dispatchParallel_window {queue ev rest} (worker : ParallelWorker) (cb : κ) (store : σ)
    (remote : List (RemoteScheduledEvent κ)) (h : QueueWindow lo hi bound queue)
    (hpop : queue.popNext = some (ev, rest)) (hhi : ev.tick ≤ hi) :
    QueueWindow lo hi ev.tick
      (dispatchParallel callbacks worker ev rest cb store remote).queue := by
  rcases tick_le_of_popNext _ hpop with ⟨hmem, hrest⟩
  have hlo : lo ≤ ev.tick := h.above.trans (h.pending ev hmem).1
  have haft := endedContext_after callbacks worker ev rest cb store remote
  have hclk : (endedContext callbacks worker ev rest cb store remote).queue.now
      = ev.tick := haft.clock
  have hpend : ∀ e ∈ (endedContext callbacks worker ev rest cb store
      remote).queue.pending, ev.tick ≤ e.tick := by
    intro e he
    rcases mem_append.mp (haft.pending.mem_iff.mp he) with hqd | hold
    · exact (haft.queued e hqd).1
    · exact (hrest e hold).2
  rcases dispatchParallel_cases callbacks worker ev rest cb store remote with
    ⟨-, hq, -⟩ | ⟨-, hq, -⟩
  · rw [hq]
    refine ⟨hclk ▸ hlo, hclk ▸ hhi, fun e he => ?_⟩
    rw [hclk]
    exact ⟨hpend e he, hpend e he⟩
  · -- A rollback keeps the clock and only drops events.
    rw [hq]
    refine ⟨hclk ▸ hlo, hclk ▸ hhi, fun e he => ?_⟩
    have hkept := hpend e (mem_of_mem_filter he)
    exact ⟨hclk ▸ hkept, hkept⟩

variable (callbacks) in
theorem dispatchParallel_due (worker : ParallelWorker) (ev : PartitionEvent κ)
    (rest : PartitionQueue κ) (cb : κ) (store : σ) (remote : List (RemoteScheduledEvent κ))
    (htk : tick ≤ ev.tick + worker.minRemoteDelay) (h : DueFrom tick worker.partitionCount remote) :
    DueFrom tick worker.partitionCount
      (dispatchParallel callbacks worker ev rest cb store remote).remoteEvents := by
  have haft := endedContext_after callbacks worker ev rest cb store remote
  rcases dispatchParallel_cases callbacks worker ev rest cb store remote with
    ⟨-, -, hremote⟩ | ⟨-, -, hremote⟩
  · rw [hremote, haft.remoteEvents]
    intro r hr
    rcases mem_append.mp hr with hr | hr
    · exact h r hr
    · rcases haft.sent r hr with ⟨-, hcnt, -, hlook⟩
      exact ⟨hcnt, htk.trans hlook⟩
  · rwa [hremote]

/-- A queue in the window, and events due the lookahead past its lower end or later. -/
def WorksIn (worker : ParallelWorker) (lo hi : Nat) (queue : PartitionQueue κ)
    (remote : List (RemoteScheduledEvent κ)) : Prop :=
  QueueWindow lo hi 0 queue ∧ DueFrom (lo + worker.minRemoteDelay) worker.partitionCount remote

/-- A worker stays inside the window. -/
theorem runParallelPartition_window {worker queue res} {store : σ}
    (hrun : runParallelPartition callbacks worker horizon rounds queue store [] = some res)
    (hhor : horizon ≤ hi) (h : QueueWindow lo hi 0 queue) :
    WorksIn worker lo hi res.queue res.remoteEvents := by
  rcases runParallelPartition_trace worker ⟨queue, store, []⟩ hrun
    with ⟨mid, front, htr, hend⟩
  have hstep : ∀ (w : WorkerState κ σ) (ev : PartitionEvent κ) (rest : PartitionQueue κ)
      (cb : κ), WorksIn worker lo hi w.queue w.remoteEvents →
      w.queue.popNext = some (ev, rest) → ev.tick ≤ horizon →
      WorksIn worker lo hi (nextDispatch callbacks worker w ev rest cb).queue
        (nextDispatch callbacks worker w ev rest cb).remoteEvents := by
    rintro w ev rest cb ⟨hwin, hdue⟩ hpop htk
    refine ⟨(dispatchParallel_window callbacks worker cb w.store
      w.remoteEvents hwin hpop (htk.trans hhor)).mono (Nat.zero_le _),
      dispatchParallel_due callbacks worker ev rest cb w.store w.remoteEvents ?_ hdue⟩
    have hmem := (tick_le_of_popNext _ hpop).1
    have hclk := (hwin.pending ev hmem).1
    have habove := hwin.above
    omega
  have hmid : WorksIn worker lo hi mid.queue mid.remoteEvents := by
    refine htr.invariant (fun _ w => WorksIn worker lo hi w.queue w.remoteEvents) ?_ []
      ⟨h, fun r hr => absurd hr not_mem_nil⟩
    rintro past w d w' hw ⟨rest, cb, hpop, htk, -, -, -, rfl⟩
    exact hstep w d.event rest cb hw hpop htk
  cases hend with
  | finished hleft => exact hmid
  | blocked ev rest cb hpop htk =>
    rcases tick_le_of_popNext _ hpop with ⟨hmem, hrest⟩
    refine ⟨⟨?_, htk.trans hhor, fun e he => ⟨(hrest e he).2, Nat.zero_le _⟩⟩, hmid.2⟩
    exact hmid.1.above.trans (hmid.1.pending ev hmem).1
  | panicked ev rest cb hpop htk => exact hstep mid ev rest cb hmid hpop htk

/-- All clocks are between `lo` and `hi`, with no event before them. -/
def ClocksIn (lo hi : Nat) (s : PartitionedScheduler κ) : Prop :=
  ∀ p < s.partitionCount, QueueWindow lo hi 0 (s.queues p)

variable {s : PartitionedScheduler κ}

theorem WindowAt.clocksIn (h : WindowAt lo 0 s) : ClocksIn lo (lo + s.minRemoteDelay) s := by
  intro p hp
  have hbelow := (h p hp).below
  exact ⟨(h p hp).above, by omega, (h p hp).pending⟩

theorem ClocksIn.window (h : ClocksIn lo hi s) (hhi : hi ≤ lo + s.minRemoteDelay) :
    WindowAt lo 0 s := by
  intro p hp
  have hbelow := (h p hp).below
  exact ⟨(h p hp).above, by omega, (h p hp).pending⟩

variable {m : Machine κ ω σ} {results : List (Nat × ParallelPartitionResult κ σ)}

/-- The workers of a batch keep the window, and what they send is due the
    lookahead past its lower end or later. -/
theorem batchResults_window {ready}
    (hresults : BatchResults callbacks rounds horizon ready m results)
    (hready : ∀ p ∈ ready, p < m.scheduler.partitionCount) (hhor : horizon ≤ hi)
    (h : ClocksIn lo hi m.scheduler) :
    ClocksIn lo hi (m.putBack results).scheduler ∧
      DueFrom (lo + m.scheduler.minRemoteDelay) m.scheduler.partitionCount
        (results.flatMap (·.2.remoteEvents)) := by
  have hworkers : ∀ entry ∈ results, QueueWindow lo hi 0 entry.2.queue ∧
      DueFrom (lo + m.scheduler.minRemoteDelay) m.scheduler.partitionCount
        entry.2.remoteEvents := by
    intro entry hent
    rcases hresults.worker entry hent with ⟨hp, hrun⟩
    exact runParallelPartition_window hrun hhor (h entry.1 (hready entry.1 hp))
  rcases queues_putBack results m with ⟨hsame, hqs⟩
  refine ⟨fun p hp => ?_, fun r hr => ?_⟩
  · rw [hsame] at hp ⊢
    rcases hqs p with hold | ⟨res, hmem, hq⟩
    · simp only [hold]
      exact h p hp
    · simp only [hq]
      exact (hworkers (p, res) hmem).1
  · rcases mem_flatMap.mp hr with ⟨entry, hent, hr⟩
    exact (hworkers entry hent).2 r hr

theorem merge_eq {remote} (hhi : hi ≤ lo + s.minRemoteDelay) (h : ClocksIn lo hi s)
    (hdue : DueFrom (lo + s.minRemoteDelay) s.partitionCount remote) :
    mergeRemoteParallelEvents s remote
      = (.ok (), s.received (remote.insertionSort RemoteScheduledEvent.DeliversBefore)) := by
  refine deliverAll_eq _ _ (fun r hr => ?_)
  rcases hdue r ((mem_insertionSort _).mp hr) with ⟨htgt, htk⟩
  exact (Nat.le_trans (h r.target htgt).below hhi).trans htk

theorem merge_window {remote} (hhi : hi ≤ lo + s.minRemoteDelay) (h : ClocksIn lo hi s)
    (hdue : DueFrom (lo + s.minRemoteDelay) s.partitionCount remote) :
    (mergeRemoteParallelEvents s remote).1 = .ok () ∧
      ClocksIn lo hi (mergeRemoteParallelEvents s remote).2 ∧
      Delivery.Complete ⟨remote, (mergeRemoteParallelEvents s remote).2⟩ := by
  have hsorted : ∀ r ∈ remote.insertionSort RemoteScheduledEvent.DeliversBefore,
      r.target < s.partitionCount ∧ lo + s.minRemoteDelay ≤ r.tick :=
    fun r hr => hdue r ((mem_insertionSort _).mp hr)
  rw [merge_eq hhi h hdue]
  refine ⟨rfl, fun p hp => ?_, fun p => ?_⟩
  · refine (h p hp).receive p _ _ (fun r hr => ⟨?_, Nat.zero_le _⟩)
    exact hhi.trans (hsorted r (mem_of_mem_filter hr)).2
  · -- The queue received them in the order of the merge.
    rcases (s.queues p).receive_spec p (eventsFor p (remote.insertionSort
      RemoteScheduledEvent.DeliversBefore)) with ⟨arrived, hperm, hmap⟩
    have hsub : (arrived.map (fun e => (e.tick, e.callback))).Subperm
        (((s.queues p).receive p (eventsFor p (remote.insertionSort
          RemoteScheduledEvent.DeliversBefore))).pending.items.map
            (fun e => (e.tick, e.callback))) := by
      refine Subperm.trans (Sublist.subperm ?_) (hperm.map _).symm.subperm
      rw [map_append]
      exact sublist_append_left _ _
    rw [hmap] at hsub
    refine Subperm.trans (Perm.subperm ?_) hsub
    exact (((perm_insertionSort _ remote).filter _).map _).symm

theorem mem_nextBatch (h : p ∈ nextBatch horizon m) : p < m.scheduler.partitionCount := by
  rcases mem_map.mp (mem_of_mem_take h) with ⟨entry, hent, rfl⟩
  have hready := (mem_insertionSort _).mp hent
  exact ((m.scheduler.mem_readyAt _ entry).mp hready).1

/-- What the workers of a batch sent is merged as a whole, in whatever order it is
    handed on. -/
theorem mergeBatch_window {remote}
    (hresults : BatchResults callbacks rounds horizon (nextBatch horizon m) m results)
    (hhor : horizon ≤ hi) (hhi : hi ≤ lo + m.scheduler.minRemoteDelay)
    (h : ClocksIn lo hi m.scheduler) (now : Nat)
    (hperm : remote.Perm (results.flatMap (·.2.remoteEvents))) :
    let merged := mergeRemoteParallelEvents { (m.putBack results).scheduler with now } remote
    merged.1 = .ok () ∧ ClocksIn lo hi merged.2 ∧
      Delivered (results.flatMap (·.2.dispatches)) [⟨remote, merged.2⟩] := by
  rcases batchResults_window hresults (fun p hp => mem_nextBatch hp) hhor h with
    ⟨hwin, hdue⟩
  have hshape := (queues_putBack results m).1
  have hdue' : DueFrom (lo + (m.putBack results).scheduler.minRemoteDelay)
      (m.putBack results).scheduler.partitionCount remote := by
    rw [hshape]
    exact fun r hr => hdue r (hperm.mem_iff.mp hr)
  have hhi' : hi ≤ lo + (m.putBack results).scheduler.minRemoteDelay := by
    rwa [hshape]
  rcases merge_window (s := { (m.putBack results).scheduler with now }) hhi' hwin hdue' with
    ⟨hok, hmerged, hcom⟩
  refine ⟨hok, hmerged, ?_, forall_mem_singleton.mpr hcom⟩
  rwa [flatMap_singleton, ← hresults.sent]

theorem batch_window (hresults : BatchResults callbacks rounds horizon
      (nextBatch horizon m) m results)
    (hhor : horizon ≤ hi) (hhi : hi ≤ lo + m.scheduler.minRemoteDelay)
    (h : ClocksIn lo hi m.scheduler) :
    (mergedBatch m results).1 = .ok () ∧ ClocksIn lo hi (mergedBatch m results).2 ∧
      Delivered (results.flatMap (·.2.dispatches))
        [⟨sortedRemote results, (mergedBatch m results).2⟩] :=
  mergeBatch_window hresults hhor hhi h _ (perm_insertionSort _ _)

theorem BatchStep.window {record} (h : BatchStep callbacks rounds horizon m record m')
    (hhor : horizon ≤ hi)
    (hhi : hi ≤ lo + m.scheduler.minRemoteDelay) (hwin : ClocksIn lo hi m.scheduler) :
    ClocksIn lo hi m'.scheduler ∧ m'.scheduler.minRemoteDelay = m.scheduler.minRemoteDelay ∧
      Delivered record.dispatches [record.delivery] := by
  rcases h with ⟨results, hresults, -, -, -, rfl, rfl⟩
  rcases batch_window hresults hhor hhi hwin with ⟨-, hmerged, hdelivered⟩
  exact ⟨hmerged, (shape_mergedBatch).minRemoteDelay, hdelivered⟩

/-- There was no room left on the tick scale. -/
def Overflows (error : Option SchedulerError) : Prop :=
  ∃ p now delay, error = some (.epochHorizonOverflow p now delay)

/-- An event was due before its partition's clock. -/
def InPast (error : Option SchedulerError) : Prop :=
  ∃ p now requested, error = some (.inThePast p now requested)

/-- What is shown of every parallel run. -/
structure SafeRun (run : EpochRun κ ω σ) : Prop where
  safe : ¬ Overflows (errorOf run.result) → LookaheadSafe run.machine.scheduler
  delivered : Delivered run.dispatches run.deliveries
  notPast : ¬ InPast (errorOf run.result)

theorem not_inPast {α} {res res' : Except SchedulerError α} (h' : ¬ InPast (errorOf res'))
    (h : res = res' ∨ ∃ p now delay, res = .error (.epochHorizonOverflow p now delay)) :
    ¬ InPast (errorOf res) := by
  rcases h with rfl | ⟨p, now, delay, rfl⟩
  · exact h'
  · rintro ⟨_, _, _, ⟨⟩⟩

variable {run : EpochRun κ ω σ}

theorem SafeRun.still (h : LookaheadSafe m.scheduler) (hmach : run.machine = m)
    (hdisp : run.dispatches = []) (hdel : run.deliveries = [])
    (hpast : ¬ InPast (errorOf run.result)) : SafeRun run := by
  refine ⟨fun _ => hmach ▸ h, ?_, hpast⟩
  rw [hdisp, hdel]
  exact Delivered.nil

theorem SafeRun.after {dispatches dels} (h : SafeRun run) (hdelivered : Delivered dispatches dels) :
    SafeRun (run.after dispatches dels) := by
  refine ⟨fun hroom => ?_, hdelivered.append h.delivered, ?_⟩
  · rw [errorOf_after] at hroom
    exact h.safe hroom
  · rw [errorOf_after]
    exact h.notPast

/-- However the batches of an epoch end, they do so inside the window. -/
theorem EpochEnd.safe (h : EpochEnd callbacks rounds horizon m run) (hhor : horizon ≤ hi)
    (hhi : hi ≤ lo + m.scheduler.minRemoteDelay) (hwin : ClocksIn lo hi m.scheduler) :
    SafeRun run := by
  cases h with
  | finished hready => exact .still (hwin.window hhi).safe rfl rfl rfl (by rintro ⟨_, _, _, ⟨⟩⟩)
  | failed batch error hbat hres =>
    cases hbat with
    | overflow p lost _ hp hfull hmach hoverflow hdisp hdel =>
      rw [hres, Except.error.injEq] at hoverflow
      refine ⟨fun hroom => absurd ⟨p, _, _, congrArg some hoverflow⟩ hroom, ?_, ?_⟩
      · simp only [hdisp, hdel]
        exact Delivered.nil
      · rw [hoverflow]
        rintro ⟨_, _, _, ⟨⟩⟩
    | failed results error' latest hresults herr =>
      rcases mergeBatch_window hresults hhor hhi hwin latest .rfl with
        ⟨hok, hmerged, hdelivered⟩
      simp only [hok, Except.error.injEq] at hres
      refine ⟨fun _ => (hmerged.window ?_).safe, hdelivered, ?_⟩
      · rw [(shape_merge _ _).minRemoteDelay]
        show hi ≤ lo + (m.putBack results).scheduler.minRemoteDelay
        rwa [(shape_putBack).minRemoteDelay]
      rintro ⟨p, now, requested, hpast⟩
      rw [← hres] at hpast
      rcases hresults.error error' herr with ⟨q, -, ⟨tick, hq⟩ | hq⟩ <;> rw [hq] at hpast <;>
        cases hpast
    | finished =>
      cases hres
  | stopped results error hresults hnone herr =>
    rcases batch_window hresults hhor hhi hwin with ⟨hok, hmerged, hdelivered⟩
    refine ⟨fun _ => (hmerged.window ?_).safe, hdelivered, ?_⟩
    · rwa [(shape_mergedBatch).minRemoteDelay]
    rintro ⟨p, now, requested, hpast⟩
    rcases herr with hrefused | ⟨-, entry, -, hserial⟩
    · cases hok.symm.trans hrefused
    · rw [hserial] at hpast
      cases hpast

theorem batches_window {records} (htr : Trace (BatchStep callbacks rounds horizon) m records mid)
    (hhor : horizon ≤ hi) (hhi : hi ≤ lo + m.scheduler.minRemoteDelay)
    (hwin : ClocksIn lo hi m.scheduler) :
    ClocksIn lo hi mid.scheduler ∧ hi ≤ lo + mid.scheduler.minRemoteDelay ∧
      Delivered (records.flatMap (·.dispatches)) (records.map (·.delivery)) := by
  refine htr.invariant (fun past m => ClocksIn lo hi m.scheduler ∧
    hi ≤ lo + m.scheduler.minRemoteDelay ∧
    Delivered (past.flatMap (·.dispatches)) (past.map (·.delivery))) ?_ []
    ⟨hwin, hhi, Delivered.nil⟩
  rintro past m record m' ⟨hwin, hhi, hpast⟩ hstep
  rcases hstep.window hhor hhi hwin with ⟨hwin', hdel, hdelivered⟩
  refine ⟨hwin', hdel.symm ▸ hhi, ?_⟩
  rw [flatMap_append, flatMap_singleton, map_append, map_singleton]
  exact hpast.append hdelivered

theorem pending_of_not_ready (h : s.readyPartitionsAtOrBefore horizon = []) :
    ∀ p < s.partitionCount, ∀ e ∈ (s.queues p).pending, horizon < e.tick := by
  intro p hp e he
  by_contra hle
  rcases peekTick_le _ he with ⟨tick, hpeek, htk⟩
  have hmem : (tick, p) ∈ s.readyAt (· ≤ horizon) :=
    (s.mem_readyAt _ _).mpr ⟨hp, hpeek, decide_eq_true (show tick ≤ horizon by omega)⟩
  have hready : p ∈ s.readyPartitionsAtOrBefore horizon :=
    mem_map.mpr ⟨(tick, p), (mem_insertionSort _).mpr hmem, rfl⟩
  simp [h] at hready

/-- A call for the next epoch is safe. -/
theorem EpochCall.safe (h : EpochCall callbacks rounds m run) (hsafe : LookaheadSafe m.scheduler) :
    SafeRun run := by
  cases h with
  | unplanned run hmach hdisp hdel hres =>
    exact .still hsafe hmach hdisp hdel (not_inPast (by rintro ⟨_, _, _, ⟨⟩⟩) hres)
  | planned plan run hplan hend =>
    rcases hsafe.window with ⟨p, hp, hwin⟩
    have hhor := hplan.spec.2.1 p hp
    cases hend with
    | blocked => exact .still hsafe rfl rfl rfl (by rintro ⟨_, _, _, ⟨⟩⟩)
    | failed mid records last error hblockers htr hlast =>
      rcases batches_window htr hhor le_rfl hwin.clocksIn with
        ⟨hmid, hhi, hdelivered⟩
      exact (hlast.safe hhor hhi hmid).after hdelivered
    | finished mid records run hblockers htr hready hmach hdisp hdel hres =>
      rcases batches_window htr hhor le_rfl hwin.clocksIn with ⟨hmid, hhi, hdelivered⟩
      refine ⟨fun _ => ?_, ?_, not_inPast (by rintro ⟨_, _, _, ⟨⟩⟩) hres⟩
      · rw [hmach]
        exact (hmid.window hhi).advance (Nat.zero_le _)
          (fun q hq e he => (pending_of_not_ready hready q hq e he).le)
      · rwa [hdisp, hdel]

theorem errorOf_ok {α : Type} {res : Except SchedulerError α} {value : α} (h : res = .ok value) :
    errorOf res = none := by
  rw [h]
  rfl

theorem runUntilIdleParallel_safe {m : Machine κ ω σ} {run : EpochRun κ ω σ}
    (hsafe : LookaheadSafe m.scheduler)
    (hrun : runUntilIdleParallel callbacks rounds epochs m = some run) : SafeRun run := by
  rcases runUntilIdleParallel_trace hrun with
    ⟨mid, runs, last, htr, hlast, hmach, herr, hdisp, hdel, -⟩
  have hmid : LookaheadSafe mid.scheduler ∧
      Delivered (runs.flatMap (·.dispatches)) (runs.flatMap (·.deliveries)) := by
    refine htr.invariant (fun past m => LookaheadSafe m.scheduler ∧
      Delivered (past.flatMap (·.dispatches)) (past.flatMap (·.deliveries))) ?_ []
      ⟨hsafe, Delivered.nil⟩
    rintro past m run m' ⟨hm, hpast⟩ ⟨hcall, ⟨summary, hok⟩, rfl⟩
    have hcal := hcall.safe hm
    refine ⟨hcal.safe ?_, ?_⟩
    · rintro ⟨p, now, delay, hoverflow⟩
      simp [errorOf_ok hok] at hoverflow
    · rw [flatMap_append, flatMap_append, flatMap_cons, flatMap_cons,
        flatMap_nil, flatMap_nil, append_nil, append_nil]
      exact hpast.append hcal.delivered
  have hend := hlast.safe hmid.1
  refine ⟨fun hroom => ?_, ?_, ?_⟩
  · rw [hmach]
    rw [herr] at hroom
    exact hend.safe hroom
  · rw [hdisp, hdel]
    exact hmid.2.append hend.delivered
  · rw [herr]
    exact hend.notPast

theorem SerialStep.sent {d} (h : SerialStep callbacks m d m') : sentBy d.postings = [] := by
  refine h.invariant (fun _ posts => sentBy posts = []) ?_ ⟨?_, ?_, ?_⟩
  · exact fun rest hpop => rfl
  · intro s posts error hs
    rw [sentBy_refused, hs]
  · intro s posts tgt tick cb id after hs _ htk haft
    rw [sentBy_queued, hs]
  · intro s posts after _ hs haft
    rw [sentBy_restored, hs]

variable (callbacks) in
/-- A mixed step on a parallel event of the window: it ends by putting every
    clock to the tick of the event, which nothing pending is before. -/
theorem dispatchNextParallelInPartition_window {ev rest cb}
     (hclocks : ClocksIn lo hi m.scheduler)
    (hhi : hi ≤ lo + m.scheduler.minRemoteDelay) (hp : p < m.scheduler.partitionCount)
    (hpop : (m.scheduler.queues p).popNext = some (ev, rest)) (hleast : Least m.scheduler ev)
    (htk : ev.tick ≤ hi) :
    let run := dispatchNextParallelInPartition callbacks m p ev rest cb
    ¬ InPast (errorOf run.result) ∧ Delivered run.dispatches run.deliveries ∧
      ∃ s, run.machine.scheduler = s.advancePartitionsTo ev.tick ∧
        s.minRemoteDelay = m.scheduler.minRemoteDelay ∧ ClocksIn lo hi s ∧
        ∀ q < s.partitionCount, ∀ e ∈ (s.queues q).pending, ev.tick ≤ e.tick := by
  unfold dispatchNextParallelInPartition
  simp only
  generalize hworker : (⟨p, m.scheduler.partitionCount, fun q => (m.scheduler.queues q).now,
    m.scheduler.minRemoteDelay⟩ : ParallelWorker) = worker
  have hqueue := dispatchParallel_window callbacks worker cb (m.stores p) [] (hclocks p hp) hpop htk
  have hlo : lo + worker.minRemoteDelay ≤ ev.tick + worker.minRemoteDelay := by
    have hmem := (tick_le_of_popNext _ hpop).1
    have hclk := ((hclocks p hp).pending ev hmem).1
    have habove := (hclocks p hp).above
    omega
  have hdue := dispatchParallel_due callbacks worker ev rest cb (m.stores p) [] hlo
    (fun r hr => absurd hr not_mem_nil)
  have hcases := dispatchParallel_cases callbacks worker ev rest cb (m.stores p) []
  have haft := endedContext_after callbacks worker ev rest cb (m.stores p) []
  generalize dispatchParallel callbacks worker ev rest cb (m.stores p) [] = after at *
  generalize endedContext callbacks worker ev rest cb (m.stores p) [] = ended at *
  subst hworker
  have hput : ClocksIn lo hi (m.scheduler.setQueue p after.queue) :=
    InWindow.setQueue hclocks p (hqueue.mono (Nat.zero_le _))
  -- Nothing is pending before the event, in its own queue or in another.
  have hpend : ∀ q < m.scheduler.partitionCount,
      ∀ e ∈ ((m.scheduler.setQueue p after.queue).queues q).pending, ev.tick ≤ e.tick := by
    intro q hq e he
    rw [queue_setQueue] at he
    split at he
    · exact (hqueue.pending e he).2
    · exact hleast q hq e he
  rcases hcases with ⟨hcase, hq, hremote⟩ | ⟨hcase, hq, hremote⟩
  · rw [hcase]
    simp only
    have hput' : ClocksIn lo hi
        { m.scheduler.setQueue p after.queue with now := ev.tick } := hput
    have hhi' : hi ≤ lo
      + { m.scheduler.setQueue p after.queue with now := ev.tick }.minRemoteDelay := hhi
    have hmerge := merge_window hhi' hput' hdue
    rw [merge_eq hhi' hput' hdue] at hmerge ⊢
    have hdelivered : Delivered [⟨p, ev, ended.postings, .returned⟩]
        [⟨after.remoteEvents, received
          { m.scheduler.setQueue p after.queue with now := ev.tick }
          (after.remoteEvents.insertionSort RemoteScheduledEvent.DeliversBefore)⟩] := by
      refine ⟨?_, fun delivery hdel => ?_⟩
      · rw [flatMap_singleton, hremote, haft.remoteEvents]
        simp only [startedContext, sentByReturned, filter_cons, decide_true, if_true,
          filter_nil, flatMap_singleton, nil_append]
        exact .rfl
      · rw [mem_singleton.mp hdel]
        exact hmerge.2.2
    have hmerged : ∀ q < m.scheduler.partitionCount, ∀ e ∈ ((received
        { m.scheduler.setQueue p after.queue with now := ev.tick }
        (after.remoteEvents.insertionSort
          RemoteScheduledEvent.DeliversBefore)).queues q).pending, ev.tick ≤ e.tick := by
      intro q hq e he
      rcases mem_receive q he with hold | ⟨r, hr, hsame, -⟩
      · exact hpend q hq e hold
      · have hr' := (mem_insertionSort _).mp (mem_of_mem_filter hr)
        rw [hsame]
        exact (htk.trans hhi).trans (hdue r hr').2
    simp only
    split
    · rename_i error hfrontiers
      rcases frontiers_error hfrontiers with ⟨p', now, delay, rfl⟩
      exact ⟨by rintro ⟨_, _, _, ⟨⟩⟩, hdelivered, _, rfl, rfl, hmerge.2.1, hmerged⟩
    · exact ⟨by rintro ⟨_, _, _, ⟨⟩⟩, hdelivered, _, rfl, rfl, hmerge.2.1, hmerged⟩
  · rw [hcase]
    simp only
    refine ⟨?_, ⟨?_, ?_⟩, _, rfl, rfl, hput, hpend⟩
    · rintro ⟨q, now', requested, hpast⟩
      cases hpast
    · simp only [sentByReturned, flatMap_nil, filter_cons, reduceCtorEq, decide_false,
        Bool.false_eq_true, if_false, filter_nil]
      exact .rfl
    · exact by simp

theorem MixedEnd.safe {plan} (h : MixedEnd callbacks plan m run)
    (hsafe : LookaheadSafe m.scheduler) :
    SafeRun run := by
  rcases hsafe.window with ⟨slowest, hslowest, hwin⟩
  cases h with
  | rejected run hmach hdisp hdel hres =>
    exact .still hsafe hmach hdisp hdel (not_inPast (by rintro ⟨_, _, _, ⟨⟩⟩) hres)
  | serial d m' run hplan hstep hready hmach hdisp hdel hres =>
    refine ⟨fun _ => ?_, ⟨?_, ?_⟩, fun ⟨_, _, _, hpast⟩ => by cases hres.symm.trans hpast⟩
    · rcases hstep.window hwin with ⟨lo', hwin'⟩
      rw [hmach]
      exact hwin'.advance le_rfl (fun q hq e he => ((hwin' q hq).pending e he).2)
    · rw [hdisp, hdel]
      simp only [sentByReturned, flatMap_nil, filter_cons, filter_nil]
      split
      · rw [flatMap_cons, hstep.sent, flatMap_nil]
        exact .rfl
      · exact .rfl
    · rw [hdel]
      exact by simp
  | parallel p ev rest cb hplan hp hpop hleast hcb hready =>
    have htk := (hplan.ready _ hready).2.2
    rcases dispatchNextParallelInPartition_window callbacks hwin.clocksIn le_rfl hp
      hpop hleast (htk.trans (hplan.spec.2.1 slowest hslowest)) with
      ⟨hnotPast, hdelivered, s, hmach, hdelay, hclocks, hpend⟩
    refine ⟨fun _ => ?_, hdelivered, hnotPast⟩
    rw [hmach]
    exact (hclocks.window (Nat.le_of_eq (by rw [hdelay]))).advance (Nat.zero_le _) hpend

end Parallel

section Histories

variable {hi lo : Nat} {queue : PartitionQueue κ}

section

variable (h : QueueWindow lo hi 0 queue)
include h

theorem QueueWindow.scheduleEventAt (p tick : Nat)
    (cb : PartitionEventCallback κ) : QueueWindow lo hi 0 (queue.scheduleEventAt p tick cb).2 := by
  by_cases hle : queue.now ≤ tick
  · rw [scheduleEventAt_of_le _ _ _ _ hle]
    exact h.enqueue p tick cb hle (Nat.zero_le _)
  · rwa [scheduleEventAt_of_lt _ _ _ _ (not_le.mp hle)]

theorem QueueWindow.removeEvent (id : PartitionEventId) :
    QueueWindow lo hi 0 (queue.removeEvent id).2 := by
  rcases removeEvent_spec queue id with ⟨hclk, -, -, -, -, hitems⟩
  refine ⟨hclk ▸ h.above, hclk ▸ h.below, fun e he => ?_⟩
  rw [hclk]
  rw [Agenda.mem_def, hitems] at he
  exact h.pending e (mem_of_mem_eraseP he)

theorem QueueWindow.cancelEvent (id : PartitionEventId) :
    QueueWindow lo hi 0 (queue.cancelEvent id).2 := by
  have hremoved := h.removeEvent id
  unfold PartitionQueue.cancelEvent
  split <;> rename_i queue' hcase <;> rw [hcase] at hremoved <;> exact hremoved

theorem QueueWindow.rescheduleEvent (id : PartitionEventId)
    (tick : Nat) : QueueWindow lo hi 0 (queue.rescheduleEvent id tick).2 := by
  have hremoved := h.removeEvent id
  have hclk := (removeEvent_spec queue id).1
  unfold PartitionQueue.rescheduleEvent
  split
  · exact h
  split
  · exact h
  rename_i htk
  split
  · rename_i queue' hcase
    rwa [hcase] at hremoved
  · rename_i ev queue' hcase
    rw [hcase] at hremoved hclk
    refine ⟨hremoved.above, hremoved.below, fun e he => ?_⟩
    rcases (Agenda.mem_push _).mp he with rfl | hold
    · simp only at hclk ⊢
      omega
    · exact hremoved.pending e hold

end

theorem LookaheadSafe.onPartition {s} {α : Type} (h : LookaheadSafe s) (p : Nat)
    (f : PartitionQueue κ → Except SchedulerError α × PartitionQueue κ)
    (hf : ∀ lo hi queue, QueueWindow lo hi 0 queue → QueueWindow lo hi 0 (f queue).2) :
    LookaheadSafe (s.onPartition p f).2 := by
  unfold PartitionedScheduler.onPartition
  split
  · rename_i hp
    rcases h.window with ⟨slowest, -, hwin⟩
    exact WindowAt.safe (InWindow.setQueue hwin p (hf _ _ _ (hwin p hp)))
  · exact h

theorem LookaheadSafe.restored {s s' : PartitionedScheduler κ} (h : LookaheadSafe s)
    (hrestored : Restored s s') :
    LookaheadSafe s' := by
  rcases h.window with ⟨slowest, -, hwin⟩
  rcases hrestored.window with ⟨-, hkeeps⟩ | hall
  · have hwin' : WindowAt (s.queues slowest).now 0 s' := by
      rw [WindowAt, hrestored.shape.minRemoteDelay]
      exact hkeeps hwin
    exact hwin'.safe
  · refine ClocksIn.window (fun p hp => (hall p hp).mono (Nat.zero_le _)) ?_ |>.safe
    exact Nat.le_add_right _ _

/-- A run of the parallel dispatcher or a mixed step. -/
def Command.RunsParallel : Command κ → Prop
  | .runNextEpochParallel | .runNextEpochParallelUntil _ | .runUntilIdleParallel
  | .runNextMixedEvent _ => True
  | _ => False

variable {rounds partitions : Nat} {m m' : Machine κ ω σ}

/-- Every parallel run from a safe state is safe. -/
theorem perform_parallel {cmd oc} (h : LookaheadSafe m.scheduler) (hpar : cmd.RunsParallel)
    (hperf : perform callbacks rounds m cmd = some oc) :
    ∃ run, oc = parallelOutcome run ∧ SafeRun run := by
  cases cmd with
  | runNextEpochParallel =>
    rcases Option.map_eq_some_iff.mp hperf with ⟨run, hrun, rfl⟩
    exact ⟨run, rfl, (runNextEpochParallel_call hrun).safe h⟩
  | runNextEpochParallelUntil tickLimit =>
    rcases Option.map_eq_some_iff.mp hperf with ⟨run, hrun, rfl⟩
    exact ⟨run, rfl, (runNextEpochParallelUntil_call hrun).safe h⟩
  | runUntilIdleParallel =>
    rcases Option.map_eq_some_iff.mp hperf with ⟨run, hrun, rfl⟩
    exact ⟨run, rfl, runUntilIdleParallel_safe h hrun⟩
  | runNextMixedEvent plan =>
    rcases Option.map_eq_some_iff.mp hperf with ⟨run, hrun, rfl⟩
    exact ⟨run, rfl, (runNextMixedEvent_end hrun).safe h⟩
  | _ => cases hpar

/-- What calls on one queue, checkpoint calls and serial legs keep, every command
    keeps that runs nothing in parallel. -/
theorem perform_kept {cmd oc} {P : PartitionedScheduler κ → Prop}
    (hqueue : ∀ {α : Type} {s} p (f : PartitionQueue κ →
      Except SchedulerError α × PartitionQueue κ),
      (∀ lo hi queue, QueueWindow lo hi 0 queue → QueueWindow lo hi 0 (f queue).2) → P s →
      P (s.onPartition p f).2) (hrestored : ∀ {s s'}, Restored s s' → P s → P s')
    (hlegs : ∀ {m m' : Machine κ ω σ} {ds}, SerialLegs callbacks m ds m' → P m.scheduler →
      P m'.scheduler) (h : P m.scheduler) (hperf : perform callbacks rounds m cmd = some oc)
    (hpar : ¬ cmd.RunsParallel) : P oc.machine.scheduler := by
  by_cases hserial : cmd.RunsSerial
  · obtain ⟨m', ds, rfl, hrun⟩ := perform_serial hserial hperf
    exact hlegs hrun h
  cases cmd with
  | scheduleAt ptn | scheduleParallelAt ptn =>
    cases hperf
    exact hqueue ptn _ (fun lo hi queue hq => hq.scheduleEventAt _ _ _) h
  | scheduleAfter ptn delay cb =>
    cases hperf
    show P (m.scheduler.scheduleAfter ptn delay cb).2
    unfold scheduleAfter
    split
    · exact h
    · exact hqueue ptn _ (fun lo hi queue hq => hq.scheduleEventAt _ _ _) h
  | cancelEvent id =>
    cases hperf
    exact hqueue id.partition _ (fun lo hi queue hq => hq.cancelEvent id) h
  | rescheduleEvent id tick =>
    cases hperf
    exact hqueue id.partition _ (fun lo hi queue hq => hq.rescheduleEvent id tick) h
  | restoreQuiescent snap =>
    cases hperf
    exact hrestored (m.scheduler.restored_restoreQuiescent) h
  | restoreProjection snap dropped preserved =>
    cases hperf
    exact hrestored (m.scheduler.restored_restoreCheckpointProjection snap dropped preserved) h
  | discardExactEvents evs =>
    cases hperf
    exact hrestored (m.scheduler.restored_discardExactEvents) h
  | _ =>
    first
    | exact absurd trivial hpar
    | exact absurd trivial hserial

/-- Every command that finds room on the tick scale keeps the property. -/
theorem perform_safe {cmd oc} (h : LookaheadSafe m.scheduler)
    (hperf : perform callbacks rounds m cmd = some oc) (hroom : ¬ Overflows oc.error) :
    LookaheadSafe oc.machine.scheduler := by
  by_cases hpar : cmd.RunsParallel
  · rcases perform_parallel h hpar hperf with ⟨run, rfl, hsafe⟩
    exact hsafe.safe hroom
  · exact perform_kept (fun p f hf hs => hs.onPartition p f hf)
      (fun hrestored hs => hs.restored hrestored) (fun hrun hs => hrun.safe hs) h hperf hpar

theorem new_safe {s : PartitionedScheduler κ} {instanceId maxWorkers minRemoteDelay}
    (h : PartitionedScheduler.withParallelWorkerLimit instanceId partitions minRemoteDelay
      maxWorkers = .ok s) : LookaheadSafe s := by
  have hqs := (withParallelWorkerLimit_ok h).2
  refine ⟨fun p hp e he => ?_, fun p hp q hq => ?_⟩
  · rw [hqs p] at he
    cases he
  · rw [hqs p]
    exact Nat.zero_le _

theorem performAll_safe {cmds ocs} (h : LookaheadSafe m.scheduler)
    (hrun : performAll callbacks cmds m = some (ocs, m'))
    (hroom : ∀ oc ∈ ocs, ¬ Overflows oc.error) : LookaheadSafe m'.scheduler :=
  performAll_invariant (fun _ oc => ¬ Overflows oc.error) (fun _ m => LookaheadSafe m.scheduler)
    (fun _ _ _ _ _ hm hperf hall => perform_safe hm hperf hall) cmds [] m m' ocs h hrun
    (fun entry hent => hroom entry.2 (of_mem_zip hent).2)

variable (callbacks) in
/-- After every history without an overflow the scheduler is lookahead safe, and
    every parallel run from there delivers what its callbacks sent. -/
theorem lookahead_safe (instanceId partitions minRemoteDelay maxParallelWorkers : Nat)
    (s : PartitionedScheduler κ) (world : ω) (stores : Nat → σ) (commands : List (Nat × Command κ))
    (outcomes : List (Outcome κ ω σ)) (m : Machine κ ω σ)
    (hnew : withParallelWorkerLimit instanceId partitions minRemoteDelay maxParallelWorkers = .ok s)
    (hrun : performAll callbacks commands ⟨s, world, stores⟩ = some (outcomes, m))
    (hroom : ∀ outcome ∈ outcomes, ¬ Overflows outcome.error) :
    LookaheadSafe m.scheduler ∧
      ∀ rounds command outcome, Command.RunsParallel command →
        perform callbacks rounds m command = some outcome →
        Delivered outcome.dispatches outcome.deliveries ∧ ¬ InPast outcome.error := by
  have hsafe := performAll_safe (new_safe hnew) hrun hroom
  refine ⟨hsafe, fun rounds command outcome hparallel hperform => ?_⟩
  rcases perform_parallel hsafe hparallel hperform with ⟨run, rfl, hrun⟩
  exact ⟨hrun.delivered, hrun.notPast⟩

/-- A callback that sends an event, and one that does so and then panics. -/
def sends : Callbacks Bool Unit Unit where
  serial _ _ _ := .done
  parallel callback _ _ :=
    .scheduleRemoteAfter 1 1 true (fun _ => if callback then .done else .panic)

/-- An epoch whose callback sends an event: the scheduler is safe after it. -/
theorem lookahead_safe_sends :
    ∃ s outcomes m, withParallelWorkerLimit 0 2 1 2 = .ok s ∧
      performAll sends [(1, .scheduleParallelAt 0 0 true), (3, .runNextEpochParallel)]
        ⟨s, (), fun _ => ()⟩ = some (outcomes, m) ∧
      LookaheadSafe m.scheduler ∧
      ∀ rounds command outcome, Command.RunsParallel command → perform sends rounds m command = some
        outcome → Delivered outcome.dispatches outcome.deliveries ∧ ¬ InPast outcome.error := by
  refine ⟨_, _, _, rfl, rfl, lookahead_safe sends 0 2 1 2 _ () (fun _ => ())
    [(1, .scheduleParallelAt 0 0 true), (3, .runNextEpochParallel)] _ _ rfl rfl ?_⟩
  intro outcome houtcome
  have hnone : outcome.error = none := by
    rcases mem_cons.mp houtcome with rfl | houtcome
    · rfl
    · rw [mem_singleton.mp houtcome]
      rfl
  rintro ⟨p, now, delay, hoverflow⟩
  cases hnone.symm.trans hoverflow

/-- An event that was accepted is not delivered when its callback panics. -/
theorem sent_not_delivered :
    ∃ s outcomes m outcome, withParallelWorkerLimit 0 2 1 2 = .ok s ∧
      performAll sends [(1, .scheduleParallelAt 0 0 false)] ⟨s, (), fun _ => ()⟩
        = some (outcomes, m) ∧ (∀ outcome ∈ outcomes, outcome.error = none) ∧
      perform sends 2 m .runNextEpochParallel = some outcome ∧
      ∃ d ∈ outcome.dispatches, ∃ r ∈ sentBy d.postings,
        (∀ delivery ∈ outcome.deliveries, r ∉ delivery.remoteEvents) ∧
        (outcome.machine.scheduler.queues r.target).pending.items = [] := by
  refine ⟨_, _, _, _, rfl, rfl, fun outcome houtcome => ?_, rfl, ?_⟩
  · rw [mem_singleton.mp houtcome]
    rfl
  · refine ⟨_, mem_singleton.mpr rfl, ⟨0, 1, 0, 1, 0, true⟩, ?_, ?_, rfl⟩
    · decide
    · decide

end Histories

end Rem6.Kernel
