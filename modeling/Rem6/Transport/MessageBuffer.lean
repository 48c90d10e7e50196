import Rem6.Kernel.Queue
import Rem6.Lib.Run

/-!
# Message Buffers

A buffer of messages that are ready at some tick, in the order of these ticks
and, at one tick, in the order they came in. A strict buffer refuses a message
that would be ready before the one enqueued last. A message may bypass this
check, and the message after it is not checked either.

So two ordinary messages keep their order as long as no message bypasses the
check between them: `strict_fifo_order`. With one in between they may come out
the other way round, since the second is compared with nothing:
`bypass_lets_pass`.

## Main definitions

* `TransportMessageBuffer`, `enqueueInner`, `popReady`: The buffer.
* `BufferCall`, `BufferEvent`: What is done to it, and what it shows.
* `InOrder`: The messages that were taken and given out, compared.

## Theorems

* `strict_fifo_order`: Every run of a strict buffer.
-/

namespace Rem6.Transport

open Lib Kernel List

structure TransportMessageBufferConfig where
  (strictFifo allowZeroLatency : Bool)

inductive TransportMessageBufferError where
  | zeroLatency (currentTick : Nat)
  | tickOverflow (currentTick delta : Nat)
  | sequenceOverflow (nextSequence : Nat)
  | strictFifoArrivalRegression (currentTick delta arrivalTick lastArrivalTick : Nat)

structure TransportQueuedMessage (τ : Type) where
  (arrivalTick sequence : Nat)
  bypassedStrictFifo : Bool
  payload : τ

variable {τ : Type}

/-- The order of `compare_message_order`. -/
def MessageOrder (a b : TransportQueuedMessage τ) : Prop :=
  a.arrivalTick < b.arrivalTick ∨ a.arrivalTick = b.arrivalTick ∧ a.sequence ≤ b.sequence

instance decidableMessageOrder : DecidableRel (@MessageOrder τ) :=
  fun _ _ => inferInstanceAs (Decidable (_ ∨ _ ∧ _))

instance totalMessageOrder : Std.Total (@MessageOrder τ) :=
  ⟨fun a b => by unfold MessageOrder; omega⟩

instance transMessageOrder : IsTrans (TransportQueuedMessage τ) MessageOrder :=
  ⟨fun a b c hab hbc => by unfold MessageOrder at *; omega⟩

structure TransportMessageBuffer (τ : Type) where
  config : TransportMessageBufferConfig
  nextSequence : Nat := 0
  lastArrivalTick : Option Nat := none
  lastMessageBypassedStrictFifo : Bool := false
  queue : Agenda (TransportQueuedMessage τ) MessageOrder := .empty

open TransportMessageBuffer

namespace TransportMessageBuffer

def new (config : TransportMessageBufferConfig) : TransportMessageBuffer τ := { config }

variable (buffer : TransportMessageBuffer τ)

def validateArrival (currentTick delta arrivalTick : Nat) (bypassedStrictFifo : Bool) :
    Except TransportMessageBufferError Unit :=
  if !buffer.config.strictFifo || bypassedStrictFifo || buffer.lastMessageBypassedStrictFifo then
    .ok ()
  else
    match buffer.lastArrivalTick with
    | some last =>
      if arrivalTick < last then
        .error (.strictFifoArrivalRegression currentTick delta arrivalTick last)
      else .ok ()
    | none => .ok ()

/-- The message that is taken, and the buffer with it. -/
def enqueueInner (currentTick delta : Nat) (bypassedStrictFifo : Bool) (payload : τ) :
    Except TransportMessageBufferError (TransportQueuedMessage τ × TransportMessageBuffer τ) :=
  if delta = 0 ∧ !buffer.config.allowZeroLatency then .error (.zeroLatency currentTick)
  else
    match checkedAdd currentTick delta with
    | none => .error (.tickOverflow currentTick delta)
    | some arrivalTick => do
      buffer.validateArrival currentTick delta arrivalTick bypassedStrictFifo
      match checkedAdd buffer.nextSequence 1 with
      | none => .error (.sequenceOverflow buffer.nextSequence)
      | some nextSequence =>
        let message := ⟨arrivalTick, buffer.nextSequence, bypassedStrictFifo, payload⟩
        .ok (message, { buffer with
          nextSequence
          lastArrivalTick := some arrivalTick
          lastMessageBypassedStrictFifo := bypassedStrictFifo
          queue := buffer.queue.push message })

def popReady (currentTick : Nat) : Option (TransportQueuedMessage τ × TransportMessageBuffer τ) :=
  match buffer.queue.pop with
  | some (message, queue) =>
    if message.arrivalTick ≤ currentTick then some (message, { buffer with queue }) else none
  | none => none

end TransportMessageBuffer

inductive BufferCall (τ : Type) where
  /-- `enqueue`, or `enqueue_bypassing_strict_fifo`. -/
  | enqueue (bypassedStrictFifo : Bool) (currentTick delta : Nat) (payload : τ)
  | popReady (currentTick : Nat)

/-- What a call shows: a message was taken, or given out at a tick. -/
inductive BufferEvent (τ : Type) where
  | accepted (message : TransportQueuedMessage τ)
  | popped (tick : Nat) (message : TransportQueuedMessage τ)

/-- What a call shows and leaves behind. A refused message leaves the buffer as
    it was. -/
def perform (buffer : TransportMessageBuffer τ) (call : BufferCall τ) :
    Option (BufferEvent τ × TransportMessageBuffer τ) :=
  match call with
  | .enqueue bypass tick delta payload =>
    (buffer.enqueueInner tick delta bypass payload).toOption.map (Prod.map .accepted id)
  | .popReady tick => (buffer.popReady tick).map (Prod.map (.popped tick) id)

def next (buffer : TransportMessageBuffer τ) (call : BufferCall τ) : TransportMessageBuffer τ :=
  ((perform buffer call).map Prod.snd).getD buffer

def shows (buffer : TransportMessageBuffer τ) (call : BufferCall τ) : Option (BufferEvent τ) :=
  (perform buffer call).map Prod.fst

def acceptedOf (seen : List (BufferEvent τ)) : List (TransportQueuedMessage τ) :=
  seen.filterMap fun
    | .accepted message => some message
    | .popped _ _ => none

def poppedOf (seen : List (BufferEvent τ)) : List (Nat × TransportQueuedMessage τ) :=
  seen.filterMap fun
    | .accepted _ => none
    | .popped tick message => some (tick, message)

/-- From one accepted message to another, no message bypassed the check. -/
def Ordinary (accepted : List (TransportQueuedMessage τ)) (first last : Nat) : Prop :=
  ∀ message ∈ accepted, first ≤ message.sequence → message.sequence ≤ last →
    message.bypassedStrictFifo = false

/-- What was taken was given out or waits. It was given out when it was ready,
    and after every message before it that no bypass separates from it. -/
structure InOrder (accepted : List (TransportQueuedMessage τ))
    (popped : List (Nat × TransportQueuedMessage τ)) (waiting : List (TransportQueuedMessage τ)) :
    Prop where
  numbered : accepted.map (·.sequence) = range accepted.length
  held : accepted.Perm (popped.map Prod.snd ++ waiting)
  ready : ∀ entry ∈ popped, entry.2.arrivalTick ≤ entry.1
  ordered : ∀ before entry after, popped = before ++ entry :: after →
    ∀ earlier ∈ accepted, earlier.sequence < entry.2.sequence →
      Ordinary accepted earlier.sequence entry.2.sequence → earlier ∈ before.map Prod.snd

section Runs

variable {buffer buffer' : TransportMessageBuffer τ} {message : TransportQueuedMessage τ}

/-- What it means that a buffer takes a message. -/
structure Takes (buffer : TransportMessageBuffer τ) (message : TransportQueuedMessage τ)
    (buffer' : TransportMessageBuffer τ) : Prop where
  sequence : message.sequence = buffer.nextSequence
  checked : buffer.config.strictFifo = true → message.bypassedStrictFifo = false →
    buffer.lastMessageBypassedStrictFifo = false →
      ∀ last ∈ buffer.lastArrivalTick, last ≤ message.arrivalTick
  after : buffer' = { buffer with
    nextSequence := buffer.nextSequence + 1
    lastArrivalTick := some message.arrivalTick
    lastMessageBypassedStrictFifo := message.bypassedStrictFifo
    queue := buffer.queue.push message }

variable {tick delta : Nat}

theorem enqueueInner_takes {bypass payload}
    (h : (buffer.enqueueInner tick delta bypass payload).toOption = some (message, buffer')) :
    Takes buffer message buffer' := by
  unfold enqueueInner at h
  split at h
  · cases h
  split at h
  · cases h
  next arrival _ =>
    cases hval : buffer.validateArrival tick delta arrival bypass with
    | error error =>
      rw [hval] at h
      cases h
    | ok _ =>
      rw [hval] at h
      simp only [bind, Except.bind] at h
      split at h
      · cases h
      next following hnext =>
        cases h
        rw [checkedAdd_eq_some hnext]
        refine ⟨rfl, fun hstr hbyp hlast last hsome => ?_, rfl⟩
        simp only at hbyp
        by_contra hlt
        simp [validateArrival, hstr, hbyp, hlast, Option.mem_def.mp hsome, not_le.mp hlt] at hval

variable {accepted : List (TransportQueuedMessage τ)}
  {popped : List (Nat × TransportQueuedMessage τ)}

/-- A strict buffer beside what it has taken and given out. -/
structure Kept (buffer : TransportMessageBuffer τ) (accepted : List (TransportQueuedMessage τ))
    (popped : List (Nat × TransportQueuedMessage τ)) : Prop
    extends InOrder accepted popped buffer.queue.items where
  strict : buffer.config.strictFifo = true
  next : buffer.nextSequence = accepted.length
  last : ∀ message ∈ accepted, message.sequence + 1 = buffer.nextSequence →
    buffer.lastArrivalTick = some message.arrivalTick ∧
      buffer.lastMessageBypassedStrictFifo = message.bypassedStrictFifo
  rises : ∀ first ∈ accepted, ∀ second ∈ accepted, first.sequence ≤ second.sequence →
    Ordinary accepted first.sequence second.sequence → first.arrivalTick ≤ second.arrivalTick

theorem Kept.mem_iff (h : Kept buffer accepted popped) (n : Nat) :
    (∃ message ∈ accepted, message.sequence = n) ↔ n < buffer.nextSequence := by
  rw [h.next, ← mem_range, ← h.numbered, mem_map]

theorem Kept.take (h : Kept buffer accepted popped) (htakes : Takes buffer message buffer') :
    Kept buffer' (accepted ++ [message]) popped := by
  have hlt : ∀ other ∈ accepted, other.sequence < message.sequence := fun other hoth => by
    rw [htakes.sequence, ← h.mem_iff]
    exact ⟨other, hoth, rfl⟩
  have hcut : ∀ {first last}, Ordinary (accepted ++ [message]) first last →
      Ordinary accepted first last :=
    fun hall other hoth => hall other (mem_append_left _ hoth)
  have hmem : ∀ {other}, other ∈ accepted ++ [message] → other.sequence < message.sequence →
      other ∈ accepted := by
    intro other hoth hbef
    rcases mem_append.mp hoth with hold | hnew
    · exact hold
    · rw [mem_singleton.mp hnew] at hbef
      exact absurd hbef (lt_irrefl _)
  rw [htakes.after]
  refine ⟨⟨?_, ?_, h.ready, ?_⟩, h.strict, by simp [h.next], ?_, ?_⟩
  · simp [h.numbered, range_succ, htakes.sequence, h.next]
  · refine (h.held.append_right _).trans ?_
    rw [append_assoc]
    exact (perm_append_singleton _ _).trans (perm_orderedInsert ..).symm |>.append_left _
  · intro before entry after hsplit earlier hearlier hbef hord
    have hent : entry.2 ∈ accepted :=
      h.held.mem_iff.mpr (mem_append_left _ (mem_map_of_mem (by simp [hsplit])))
    exact h.ordered before entry after hsplit earlier (hmem hearlier (hbef.trans (hlt _ hent)))
      hbef (hcut hord)
  · intro other hoth hnext
    rcases mem_append.mp hoth with hold | hnew
    · have hbef := hlt other hold
      rw [htakes.sequence] at hbef
      simp only at hnext
      omega
    · rw [mem_singleton.mp hnew]
      exact ⟨rfl, rfl⟩
  · intro first hfirst second hsecond hle hord
    rcases mem_append.mp hsecond with hold | hnew
    · exact h.rises first (hmem hfirst (hle.trans_lt (hlt _ hold))) second hold hle (hcut hord)
    obtain rfl := mem_singleton.mp hnew
    rcases mem_append.mp hfirst with hfirst | hsame
    · -- The new message was checked against the one before it.
      have hbef := hlt first hfirst
      obtain ⟨last, hlast, hnum⟩ := (h.mem_iff (second.sequence - 1)).mpr
        (by rw [← htakes.sequence]; omega)
      obtain ⟨htk, hbyp⟩ := h.last last hlast (by rw [← htakes.sequence]; omega)
      refine (h.rises first hfirst last hlast (by omega) fun other hoth hge hle' =>
        hcut hord other hoth hge (by omega)).trans (htakes.checked h.strict ?_ ?_ _ htk)
      · exact hord second hsecond hbef.le le_rfl
      · rw [hbyp]
        exact hcut hord last hlast (by omega) (by omega)
    · rw [mem_singleton.mp hsame]

theorem Kept.pop {rest} (h : Kept buffer accepted popped)
    (hpop : buffer.queue.pop = some (message, rest))
    (hready : message.arrivalTick ≤ tick) :
    Kept { buffer with queue := rest } accepted (popped ++ [(tick, message)]) := by
  have hheld := h.held
  rw [(Agenda.pop_eq_some_iff _).mp hpop] at hheld
  refine ⟨⟨h.numbered, by simpa using hheld, ?_, ?_⟩, h.strict, h.next, h.last, h.rises⟩
  · exact forall_mem_append.mpr ⟨h.ready, forall_mem_singleton.mpr hready⟩
  · intro before entry after hsplit earlier hearlier hbef hord
    rcases eq_nil_or_concat after with rfl | ⟨after, final, rfl⟩
    · obtain ⟨rfl, hent⟩ := append_inj' hsplit rfl
      obtain rfl := singleton_inj.mp hent
      rcases mem_append.mp (hheld.mem_iff.mp hearlier) with hout | hwaits
      · exact hout
      -- A message that waits comes after the one given out.
      have hmes : message ∈ accepted := hheld.mem_iff.mpr (by simp)
      have hle := h.rises earlier hearlier message hmes hbef.le hord
      have horder : MessageOrder message earlier := by
        rcases mem_cons.mp hwaits with rfl | hrest
        · exact .inr ⟨rfl, le_rfl⟩
        · exact Agenda.pop_first _ _ _ hpop earlier hrest
      unfold MessageOrder at horder
      simp only at hbef
      omega
    · rw [concat_eq_append, ← cons_append, ← append_assoc] at hsplit
      exact h.ordered before entry after (append_inj' hsplit rfl).1 earlier hearlier hbef hord

/-- In every run of a strict buffer the accepted messages are numbered in turn,
    each is given out at most once and not before it is ready, and two ordinary
    ones with no bypass between them in the order they came in. -/
theorem strict_fifo_order (config : TransportMessageBufferConfig)
    (hstrict : config.strictFifo = true) (calls : List (BufferCall τ)) :
    InOrder (acceptedOf (observe next shows (.new config) calls))
      (poppedOf (observe next shows (.new config) calls))
      (run next (.new config) calls).queue.items := by
  refine (along_observed next shows (fun _ _ => True)
    (fun buffer seen => Kept buffer (acceptedOf seen) (poppedOf seen)) ?_ calls _ [] ?_
    (along_of_forall next (fun _ => True) calls _ fun _ _ => trivial)).toInOrder
  · intro buffer call seen h _
    unfold next shows
    simp only [acceptedOf, poppedOf, filterMap_append] at h ⊢
    cases call with
    | enqueue bypass tick delta payload =>
      cases htaken : (buffer.enqueueInner tick delta bypass payload).toOption with
      | none => simpa [perform, htaken] using h
      | some result => simpa [perform, htaken] using h.take (enqueueInner_takes htaken)
    | popReady tick =>
      cases hpop : buffer.queue.pop with
      | none => simpa [perform, popReady, hpop] using h
      | some result =>
        by_cases hready : result.1.arrivalTick ≤ tick
        · simpa [perform, popReady, hpop, hready] using h.pop hpop hready
        · simpa [perform, popReady, hpop, hready] using h
  · exact ⟨⟨rfl, .refl _, by simp [poppedOf], by simp [poppedOf]⟩, hstrict, rfl,
      by simp [acceptedOf], by simp [acceptedOf]⟩

/-- An ordinary message, one that bypasses the check, and two more ordinary ones. -/
def aroundBypass : List (BufferCall Unit) :=
  [.enqueue false 0 9 (), .enqueue true 0 1 (), .enqueue false 0 2 (), .enqueue false 0 3 (),
    .popReady 9, .popReady 9, .popReady 9, .popReady 9]

/-- The two messages after the bypass have none between them. -/
theorem strict_fifo_order_bypass :
    InOrder (acceptedOf (observe next shows (.new ⟨true, false⟩) aroundBypass))
      (poppedOf (observe next shows (.new ⟨true, false⟩) aroundBypass))
      (run next (.new ⟨true, false⟩) aroundBypass).queue.items :=
  strict_fifo_order ⟨true, false⟩ rfl aroundBypass

/-- The messages after the bypass overtake the one before it, and keep their own order. -/
theorem bypass_lets_pass :
    acceptedOf (observe next shows (.new ⟨true, false⟩) aroundBypass)
        = [⟨9, 0, false, ()⟩, ⟨1, 1, true, ()⟩, ⟨2, 2, false, ()⟩, ⟨3, 3, false, ()⟩] ∧
      poppedOf (observe next shows (.new ⟨true, false⟩) aroundBypass)
        = [(9, ⟨1, 1, true, ()⟩), (9, ⟨2, 2, false, ()⟩), (9, ⟨3, 3, false, ()⟩),
          (9, ⟨9, 0, false, ()⟩)] := by
  constructor <;> rfl

end Runs

end Rem6.Transport
