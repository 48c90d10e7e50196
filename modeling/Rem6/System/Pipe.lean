import Mathlib.Algebra.Ring.Nat
import Mathlib.Data.Nat.Log
import Rem6.Lib.Assoc
import Rem6.Lib.Run

/-!
# Guest Pipes

A pipe is a buffer with a capacity, reached through file descriptions at its two
ends. A transfer is made in steps: a plan says how many bytes there is room for,
they are copied through guest memory that may fault, and the plan is made again
when they are appended. A read takes from the pipe what the guest has got.

What a call can do to a pipe is said once, in `Flows`: what the pipe held and what
the call put in is what the call took out and what the pipe holds then. Along a
run this adds up to a stream (`pipes_are_streams`), whatever happens to the table
of descriptors in between. `Counts` ties these bytes to the call: a write that
answers with a number has put in as many bytes of guest memory.

A plan for a blocking write asks for room for all of its bytes. A write of more
bytes than the capacity never finds it, not even in an empty pipe
(`oversized_write_blocks`), so no reader can let the writer go on. Every other
write goes through (`emptied_pipe_accepts`), because no capacity is below the size
up to which writes are taken whole.

Neither a read nor a write looks for the other end of the pipe: an empty pipe reads
as an end of file, whoever may still write to it and also without `O_NONBLOCK`.

Where the source returns an error of the descriptor table, which every caller
answers with `EBADF`, a result here has a case `badFd`.

## Main definitions

* `PipeState`: The tables of descriptors, descriptions and pipes.
* `RiscvGuestPipe.plan`, `writeGathered`, `readDelivered`, `syscallTee`: Transfers.
* `PipeCall`, `PipeState.answer`: The calls, and what one of them does.
* `RiscvGuestPipe.Room`: The writes that a plan lets through.
* `Flows`: What a call can do to the pipes.
* `Counts`: Which bytes a number stands for.
* `Tracked`: A state with what went into each pipe and what came out.

## Theorems

* `answer_flows`: Every call is such a flow.
* `pipes_are_streams`: The bytes of a pipe along a run.
* `emptied_pipe_accepts`: The writes that an empty pipe takes.
* `pipe_ends_reported`: When an answer tells that the other end is closed.
-/

namespace Rem6.System

open Lib Assoc

abbrev Bytes := List UInt8

inductive Errno where
  | eagain | ebadf | ebusy | efault | efbig | einval | eperm | espipe
  deriving DecidableEq

/-- A transfer returns a number of bytes. Here they stand for it, with the number of
    the pipe that took them from guest memory or gave them to it. A call on a
    descriptor that is no pipe goes on elsewhere. -/
inductive PipeOutcome where
  | value (count : Nat) | accepted (id : Nat) (bytes : Bytes)
  | delivered (id : Nat) (bytes : Bytes) | errno (error : Errno) | blocked | elsewhere
  deriving DecidableEq

/-- The number that the guest finds, if the call returns one that is no error. -/
def PipeOutcome.returned : PipeOutcome → Option Nat
  | value count => some count
  | accepted _ bytes | delivered _ bytes => some bytes.length
  | _ => none

def PipeOutcome.taken (id : Nat) : PipeOutcome → Bytes
  | accepted pipe bytes => if pipe = id then bytes else []
  | _ => []

def PipeOutcome.given (id : Nat) : PipeOutcome → Bytes
  | delivered pipe bytes => if pipe = id then bytes else []
  | _ => []

def openNonblock : Nat := 0x800

structure GuestFileDescription where
  (statusFlags fileOffset : Nat)

structure GuestFdTable where
  entries : List (Nat × Nat)
  descriptions : List (Nat × GuestFileDescription)

structure RiscvGuestPipe where
  buffer : Bytes
  capacity : Nat

/-- The part of a system call state that pipes are kept in. An end of a pipe is a
    description that has the pipe's number. -/
structure PipeState where
  guestFds : GuestFdTable
  (readDescriptions writeDescriptions : List (Nat × Nat))
  pipes : List (Nat × RiscvGuestPipe)

def pipeBufBytes : Nat := 4096

def pipeMaxCapacityBytes : Nat := 1024 * 1024

inductive RiscvGuestPipeWrite where
  | badFd | notPipe | written (count : Nat) | wouldBlock | blocked

inductive RiscvGuestPipeRead where
  | badFd | notPipe | bytes (bytes : Bytes) | wouldBlock | blocked

/-- What a descriptor is, when it is looked up as an end of a pipe. -/
inductive PipeEnd where
  | badFd | notPipe | pipe (id : Nat) (pipe : RiscvGuestPipe)

/-- How a write that does not go through is answered. With the hint set no plan is
    `blocked`. -/
def RiscvGuestPipeWrite.refused : RiscvGuestPipeWrite → PipeOutcome
  | wouldBlock => .errno .eagain
  | blocked => .blocked
  | _ => .errno .ebadf

theorem RiscvGuestPipeWrite.returned_refused (write : RiscvGuestPipeWrite) :
    write.refused.returned = none := by
  cases write <;> rfl

def RiscvGuestPipe.plan (pipe : RiscvGuestPipe) (byteCount : Nat) (nonblocking : Bool) :
    RiscvGuestPipeWrite :=
  let available := pipe.capacity - pipe.buffer.length
  if available = 0 then if nonblocking then .wouldBlock else .blocked
  else if byteCount ≤ pipeBufBytes ∧ available < byteCount then
    if nonblocking then .wouldBlock else .blocked
  else if nonblocking = false ∧ available < byteCount then .blocked
  else .written (min available byteCount)

/-- A write goes through if all of it fits, or else if it is too large to be taken
    whole and does not wait. -/
def RiscvGuestPipe.Room (pipe : RiscvGuestPipe) (byteCount : Nat) (nonblocking : Bool) : Prop :=
  pipe.buffer.length < pipe.capacity ∧ (pipe.buffer.length + byteCount ≤ pipe.capacity ∨
    pipeBufBytes < byteCount ∧ nonblocking = true)

variable {byteCount flags : Nat} {nonblocking : Bool}

theorem RiscvGuestPipe.plan_of_room {pipe : RiscvGuestPipe}
    (h : pipe.Room byteCount nonblocking) :
    pipe.plan byteCount nonblocking =
      .written (min (pipe.capacity - pipe.buffer.length) byteCount) := by
  grind [plan, Room]

theorem RiscvGuestPipe.plan_of_no_room {pipe : RiscvGuestPipe}
    (h : ¬ pipe.Room byteCount nonblocking) :
    pipe.plan byteCount nonblocking = if nonblocking then .wouldBlock else .blocked := by
  grind [plan, Room]

namespace PipeState

variable (s : PipeState)

def description (fd : Nat) : Option Nat := find s.guestFds.entries fd

def statusFlags (fd : Nat) : Option Nat :=
  ((s.description fd).bind (find s.guestFds.descriptions)).map GuestFileDescription.statusFlags

def endpoint (ends : List (Nat × Nat)) (fd : Nat) : PipeEnd :=
  match s.description fd with
  | none => .badFd
  | some description =>
    match find ends description with
    | none => .notPipe
    | some id =>
      match find s.pipes id with
      | none => .badFd
      | some pipe => .pipe id pipe

def setPipe (id : Nat) (pipe : RiscvGuestPipe) : PipeState :=
  { s with pipes := insert s.pipes id pipe }

def guestPipeWritePlan (fd byteCount : Nat) (forceNonblocking : Bool) : RiscvGuestPipeWrite :=
  match s.endpoint s.writeDescriptions fd, s.statusFlags fd with
  | .notPipe, _ => .notPipe
  | .pipe _ pipe, some flags =>
    pipe.plan byteCount (forceNonblocking || flags &&& openNonblock != 0)
  | _, _ => .badFd

def writeGuestPipeFromFd (fd : Nat) (bytes : Bytes) (forceNonblocking : Bool) :
    PipeOutcome × PipeState :=
  match s.guestPipeWritePlan fd bytes.length forceNonblocking,
      s.endpoint s.writeDescriptions fd with
  | .written count, .pipe id pipe =>
    (.accepted id (bytes.take count),
      s.setPipe id { pipe with buffer := pipe.buffer ++ bytes.take count })
  | write, _ => (write.refused, s)

/-- The pipe path of `write`, `writev` and `vmsplice`, which gather the bytes from
    guest memory once their number is known. -/
def writeGathered (forceNonblocking : Bool) (gather : Nat → Option Bytes) (fd total : Nat) :
    PipeOutcome × PipeState :=
  if total = 0 then (.value 0, s)
  else
    match s.guestPipeWritePlan fd total forceNonblocking with
    | .notPipe => (.elsewhere, s)
    | .written planned =>
      match (gather planned).filter (·.length = planned) with
      | none => (.errno .efault, s)
      | some bytes => s.writeGuestPipeFromFd fd bytes forceNonblocking
    | plan => (plan.refused, s)

/-- The pipe path of `read` and `readv`, which deliver to guest memory before they
    take from the pipe. -/
def readDelivered (deliver : Bytes → Bool) (fd total : Nat) : PipeOutcome × PipeState :=
  if total = 0 then (.value 0, s)
  else
    match s.endpoint s.readDescriptions fd with
    | .badFd => (.errno .ebadf, s)
    | .notPipe => (.elsewhere, s)
    | .pipe id pipe =>
      let bytes := pipe.buffer.take total
      if bytes = [] then (.value 0, s)
      else if deliver bytes then
        (.delivered id bytes, s.setPipe id { pipe with buffer := pipe.buffer.drop bytes.length })
      else (.errno .efault, s)

def guestPipeRead (fd count : Nat) (forceNonblocking : Bool) : RiscvGuestPipeRead :=
  match s.endpoint s.readDescriptions fd with
  | .badFd => .badFd
  | .notPipe => .notPipe
  | .pipe id pipe =>
    let bytes := pipe.buffer.take count
    if bytes ≠ [] ∨ count = 0 then .bytes bytes
    else if ∀ candidate ∈ s.writeDescriptions, candidate.2 ≠ id then .bytes []
    else
      match s.statusFlags fd with
      | none => .badFd
      | some flags =>
        if forceNonblocking || flags &&& openNonblock != 0 then .wouldBlock else .blocked

def guestPipeEndpoint (description : Nat) : Option Nat :=
  (find s.readDescriptions description).or (find s.writeDescriptions description)

/-- The error of a transfer between these two descriptors, if enough of them are
    pipes only by `enough`, or both are ends of one. -/
def pairError (enough : Bool → Bool → Bool) (input output : Nat) : Option Errno :=
  match s.description input, s.description output with
  | some input, some output =>
    let input := s.guestPipeEndpoint input
    let output := s.guestPipeEndpoint output
    if enough input.isSome output.isSome = false ∨ input.isSome ∧ input = output then some .einval
    else none
  | _, _ => some .ebadf

def syscallTee (input output count flags : Nat) : PipeOutcome × PipeState :=
  if 16 ≤ flags then (.errno .einval, s)
  else if count = 0 then (.value 0, s)
  else
    match s.statusFlags input, s.statusFlags output, s.pairError and input output with
    | some inFlags, some outFlags, error =>
      if inFlags &&& 3 = 1 ∨ outFlags &&& 3 = 0 then (.errno .ebadf, s)
      else
        match error, s.guestPipeRead input count (flags &&& 2 != 0) with
        | some error, _ => (.errno error, s)
        | none, .bytes bytes =>
          if bytes = [] then (.value 0, s)
          else s.writeGuestPipeFromFd output bytes (flags &&& 2 != 0)
        | none, .wouldBlock => (.errno .eagain, s)
        | none, .blocked => (.blocked, s)
        | none, _ => (.errno .ebadf, s)
    | _, _, _ => (.errno .ebadf, s)

def setGuestPipeCapacity (fd requested : Nat) : PipeOutcome × PipeState :=
  match (s.description fd).bind s.guestPipeEndpoint with
  | none => (.errno .ebadf, s)
  | some id =>
    -- Rounded up to a power of two, if that is still a machine word.
    let capacity := 2 ^ Nat.clog 2 (max requested pipeBufBytes)
    if 2 ^ 64 ≤ capacity then (.errno .einval, s)
    else if pipeMaxCapacityBytes < capacity then (.errno .eperm, s)
    else
      match find s.pipes id with
      | none => (.errno .ebadf, s)
      | some pipe =>
        if capacity < pipe.buffer.length then (.errno .ebusy, s)
        else (.value capacity, s.setPipe id { pipe with capacity })

/-- The pipe's own part of `open_guest_pipe`, with the first number that is free. -/
def openGuestPipe (readDescription writeDescription : Nat) : PipeState :=
  match (List.range (s.pipes.length + 1)).find? fun id => (find s.pipes id).isNone with
  | none => s
  | some id =>
    setPipe { s with
      readDescriptions := insert s.readDescriptions readDescription id
      writeDescriptions := insert s.writeDescriptions writeDescription id } id ⟨[], 64 * 1024⟩

/-- A pipe goes with the last description at an end of it. -/
def removeGuestPipeDescription (description : Nat) : PipeState :=
  let drop (s : PipeState) (id : Nat) : PipeState :=
    if ∃ candidate ∈ s.readDescriptions ++ s.writeDescriptions, candidate.2 = id then s
    else { s with pipes := remove s.pipes id }
  match find s.readDescriptions description, find s.writeDescriptions description with
  | some id, _ => drop { s with readDescriptions := remove s.readDescriptions description } id
  | none, some id => drop { s with writeDescriptions := remove s.writeDescriptions description } id
  | none, none => s

end PipeState

/-- The calls. `dup` changes the descriptors, `dup3` and `close` may then release a
    description, and so may any other call. -/
inductive PipeCall where
  | descriptors (guestFds : GuestFdTable) | release (description : Nat)
  | pipe2 (readDescription writeDescription : Nat) | setPipeSize (fd requested : Nat)
  | read (deliver : Bytes → Bool) (fd total : Nat)
  | write (force : Bool) (gather : Nat → Option Bytes) (fd total : Nat)
  | tee (input output count flags : Nat)

namespace PipeState

variable (s : PipeState)

def answer : PipeCall → PipeOutcome × PipeState
  | .descriptors guestFds => (.value 0, { s with guestFds })
  | .release description => (.value 0, s.removeGuestPipeDescription description)
  | .pipe2 readDescription writeDescription =>
    (.value 0, s.openGuestPipe readDescription writeDescription)
  | .setPipeSize fd requested => s.setGuestPipeCapacity fd requested
  | .read deliver fd total => s.readDelivered deliver fd total
  | .write force gather fd total => s.writeGathered force gather fd total
  | .tee input output count flags => s.syscallTee input output count flags

end PipeState

structure RiscvGuestPipe.Sound (pipe : RiscvGuestPipe) : Prop where
  fits : pipe.buffer.length ≤ pipe.capacity
  atLeast : pipeBufBytes ≤ pipe.capacity
  atMost : pipe.capacity ≤ pipeMaxCapacityBytes
  power : ∃ k, pipe.capacity = 2 ^ k

/-- The bytes that a positive number stands for: those that a write found in guest
    memory, the first ones of the pipe that a `tee` reads, those that a read put
    into guest memory. No other call moves any. -/
def PipeState.Counts (s : PipeState) (outcome : PipeOutcome) : PipeCall → Prop
  | .write _ gather fd _ => ∃ id pipe bytes, s.endpoint s.writeDescriptions fd = .pipe id pipe ∧
      gather bytes.length = some bytes ∧ outcome = .accepted id bytes
  | .read deliver fd _ => ∃ id pipe bytes, s.endpoint s.readDescriptions fd = .pipe id pipe ∧
      deliver bytes = true ∧ outcome = .delivered id bytes
  | .tee input output _ _ => ∃ id pipe source bytes,
      s.endpoint s.writeDescriptions output = .pipe id pipe ∧
      (∃ from', s.endpoint s.readDescriptions input = .pipe from' source) ∧
      bytes <+: source.buffer ∧ outcome = .accepted id bytes
  | _ => ∀ id, outcome.taken id = [] ∧ outcome.given id = []

/-- A pipe that is new is empty. Of any other one, what it held and what it took is
    what it gave and what it holds. -/
def Flows (s : PipeState) (answer : PipeOutcome × PipeState) : Prop :=
  ∀ id after, find answer.2.pipes id = some after →
    match find s.pipes id with
    | none => after.buffer = [] ∧ after.Sound
    | some before => (before.Sound → after.Sound) ∧
      before.buffer ++ answer.1.taken id = answer.1.given id ++ after.buffer

namespace PipeState

variable {s t : PipeState} {id fd total count : Nat} {pipe after : RiscvGuestPipe} {force : Bool}
  {bytes : Bytes} {outcome : PipeOutcome}

theorem flows_still (hquiet : ∀ id, outcome.taken id = [] ∧ outcome.given id = [])
    (h : ∀ id after, find t.pipes id = some after → find s.pipes id = some after) :
    Flows s (outcome, t) := by
  intro id after hfind
  rw [h id after hfind]
  simp [hquiet id]

theorem flows_same (hquiet : ∀ id, outcome.taken id = [] ∧ outcome.given id = []) :
    Flows s (outcome, s) :=
  flows_still hquiet fun _ _ h => h

theorem flows_setPipe (hpipe : find s.pipes id = some pipe) (hsound : pipe.Sound → after.Sound)
    (hbytes : pipe.buffer ++ outcome.taken id = outcome.given id ++ after.buffer)
    (hothers : ∀ other, other ≠ id → outcome.taken other = [] ∧ outcome.given other = []) :
    Flows s (outcome, s.setPipe id after) := by
  intro other found hfind
  rw [show (outcome, s.setPipe id after).2.pipes = insert s.pipes id after from rfl, find_insert]
    at hfind
  split at hfind
  next hother =>
    cases hfind
    rw [hother, hpipe]
    exact ⟨hsound, hbytes⟩
  next hother =>
    rw [hfind]
    simp [hothers other hother]

theorem endpoint_eq {ends : List (Nat × Nat)} (h : s.endpoint ends fd = .pipe id pipe) :
    find s.pipes id = some pipe := by
  unfold endpoint at h
  split at h
  · cases h
  · split at h
    · cases h
    · split at h
      · cases h
      · cases h
        assumption

/-- What is planned fits, is all of a small write, and would be planned again. -/
theorem plan_eq (h : pipe.plan total force = .written count) :
    count ≤ pipe.capacity - pipe.buffer.length ∧ (total ≤ pipeBufBytes → count = total) ∧
      pipe.plan count force = .written count := by
  by_cases hroom : pipe.Room total force
  · rw [RiscvGuestPipe.plan_of_room hroom] at h
    cases h
    obtain ⟨hfree, hfits⟩ := hroom
    refine ⟨Nat.min_le_left _ _, fun hsmall => by omega, ?_⟩
    rw [RiscvGuestPipe.plan_of_room ⟨hfree, Or.inl (by omega)⟩, ← min_assoc, min_self]
  · rw [RiscvGuestPipe.plan_of_no_room hroom] at h
    split at h <;> cases h

theorem guestPipeWritePlan_eq (h : s.guestPipeWritePlan fd total force = .written count) :
    ∃ id pipe flags, s.endpoint s.writeDescriptions fd = .pipe id pipe ∧
      s.statusFlags fd = some flags ∧
      pipe.plan total (force || flags &&& openNonblock != 0) = .written count := by
  unfold guestPipeWritePlan at h
  split at h
  · cases h
  · exact ⟨_, _, _, by assumption, by assumption, h⟩
  · cases h

theorem refused_flows (write : RiscvGuestPipeWrite) (s : PipeState) :
    Flows s (write.refused, s) := by
  cases write <;> exact flows_same fun _ => ⟨rfl, rfl⟩

section

variable (s : PipeState)

theorem writeGuestPipeFromFd_flows (fd : Nat) (bytes : Bytes) (force : Bool) :
    Flows s (s.writeGuestPipeFromFd fd bytes force) := by
  unfold writeGuestPipeFromFd
  split
  next count id pipe hplan hend =>
    obtain ⟨_, _, flags, hsame, -, hplan⟩ := guestPipeWritePlan_eq hplan
    rw [hend] at hsame
    cases hsame
    have hroom := (plan_eq hplan).1
    refine flows_setPipe (endpoint_eq hend) (fun h => ⟨?_, h.atLeast, h.atMost, h.power⟩) ?_ ?_
    · have hfits := h.fits
      simp only [List.length_append, List.length_take]
      omega
    · simp [PipeOutcome.taken, PipeOutcome.given]
    · intro other hother
      simp [PipeOutcome.taken, PipeOutcome.given, Ne.symm hother]
  · exact refused_flows _ s

theorem writeGathered_flows (force : Bool) (gather : Nat → Option Bytes)
    (fd total : Nat) : Flows s (s.writeGathered force gather fd total) := by
  unfold writeGathered
  repeat' split
  all_goals first
    | exact flows_same fun _ => ⟨rfl, rfl⟩
    | exact writeGuestPipeFromFd_flows s fd _ force
    | exact refused_flows _ s

theorem readDelivered_flows (deliver : Bytes → Bool) (fd total : Nat) :
    Flows s (s.readDelivered deliver fd total) := by
  unfold readDelivered
  dsimp only
  repeat' split
  all_goals try exact flows_same fun _ => ⟨rfl, rfl⟩
  -- What is left is the read that takes bytes.
  rename_i id pipe hend _ _
  refine flows_setPipe (endpoint_eq hend) (fun h => ⟨?_, h.atLeast, h.atMost, h.power⟩) ?_ ?_
  · have hfits := h.fits
    simp only [List.length_drop]
    omega
  · simp only [PipeOutcome.taken, PipeOutcome.given, if_pos, List.append_nil]
    exact (List.prefix_iff_eq_append.mp (List.take_prefix total pipe.buffer)).symm
  · intro other hother
    simp [PipeOutcome.taken, PipeOutcome.given, Ne.symm hother]

theorem syscallTee_flows (input output count flags : Nat) :
    Flows s (s.syscallTee input output count flags) := by
  unfold syscallTee
  repeat' split
  all_goals first
    | exact flows_same fun _ => ⟨rfl, rfl⟩
    | exact writeGuestPipeFromFd_flows s output _ _

theorem setGuestPipeCapacity_flows (fd requested : Nat) :
    Flows s (s.setGuestPipeCapacity fd requested) := by
  unfold setGuestPipeCapacity
  dsimp only
  repeat' split
  all_goals try exact flows_same fun _ => ⟨rfl, rfl⟩
  rename_i hmax _ pipe hpipe hbusy
  have hlow := Nat.le_pow_clog (by decide : 1 < 2) (max requested pipeBufBytes)
  refine flows_setPipe hpipe (fun _ => ⟨not_lt.mp hbusy, ?_, not_lt.mp hmax, _, rfl⟩) ?_
    fun _ _ => ⟨rfl, rfl⟩
  · exact le_trans (le_max_right _ _) hlow
  · simp [PipeOutcome.taken, PipeOutcome.given]

theorem openGuestPipe_flows (readDescription writeDescription : Nat) :
    Flows s (.value 0, s.openGuestPipe readDescription writeDescription) := by
  unfold openGuestPipe
  split
  · exact flows_same fun _ => ⟨rfl, rfl⟩
  next id hfree =>
    intro other found hfind
    rw [setPipe, find_insert] at hfind
    split at hfind
    next hother =>
      cases hfind
      have hnone : find s.pipes id = none := by simpa using List.find?_some hfree
      rw [hother, hnone]
      exact ⟨rfl, Nat.zero_le _, by decide, by decide, 16, by decide⟩
    next =>
      rw [hfind]
      simp [PipeOutcome.taken, PipeOutcome.given]

theorem removeGuestPipeDescription_flows (description : Nat) :
    Flows s (.value 0, s.removeGuestPipeDescription description) := by
  refine flows_still (fun _ => ⟨rfl, rfl⟩) fun id after h => ?_
  unfold removeGuestPipeDescription at h
  dsimp only at h
  have hremove : ∀ id', find (remove s.pipes id') id = some after →
      find s.pipes id = some after := by
    intro id' h
    rw [find_remove] at h
    split at h
    · cases h
    · exact h
  repeat' split at h
  all_goals first
    | exact h
    | exact hremove _ h

theorem answer_flows (call : PipeCall) : Flows s (s.answer call) := by
  cases call with
  | descriptors guestFds => exact flows_still (fun _ => ⟨rfl, rfl⟩) fun _ _ h => h
  | release description => exact removeGuestPipeDescription_flows s _
  | pipe2 readDescription writeDescription => exact openGuestPipe_flows s _ _
  | setPipeSize fd requested => exact setGuestPipeCapacity_flows s _ _
  | read deliver fd total => exact readDelivered_flows s _ _ _
  | write force gather fd total => exact writeGathered_flows s _ _ _ _
  | tee input output count flags => exact syscallTee_flows s _ _ _ _

end

theorem gathered_eq {gathered : Option Bytes}
    (h : gathered.filter (·.length = count) = some bytes) :
    gathered = some bytes ∧ bytes.length = count := by
  simpa using Option.filter_eq_some_iff.mp h

/-- The second plan of a write gives all that the first one gave. -/
theorem writeGuestPipeFromFd_again (h : s.guestPipeWritePlan fd total force = .written count)
    (hbytes : bytes.length = count) :
    ∃ id pipe, s.endpoint s.writeDescriptions fd = .pipe id pipe ∧
      (s.writeGuestPipeFromFd fd bytes force).1 = .accepted id bytes := by
  obtain ⟨id, pipe, flags, hend, hflags, hplan⟩ := guestPipeWritePlan_eq h
  have hsame : s.guestPipeWritePlan fd bytes.length force = .written bytes.length := by
    rw [guestPipeWritePlan, hend, hflags, hbytes]
    exact (plan_eq hplan).2.2
  refine ⟨id, pipe, hend, ?_⟩
  rw [writeGuestPipeFromFd, hsame, hend]
  simp

/-- A write either leaves the state, with no number above zero, or is planned and
    takes what it finds in guest memory. -/
theorem writeGathered_cases (s : PipeState) (force : Bool) (gather : Nat → Option Bytes)
    (fd total : Nat) :
    ((s.writeGathered force gather fd total).2 = s ∧
      ∀ count, (s.writeGathered force gather fd total).1.returned = some count → count = 0) ∨
    ∃ id pipe bytes, s.endpoint s.writeDescriptions fd = .pipe id pipe ∧
      s.guestPipeWritePlan fd total force = .written bytes.length ∧
      gather bytes.length = some bytes ∧
      (s.writeGathered force gather fd total).1 = .accepted id bytes := by
  unfold writeGathered
  split_ifs
  · exact Or.inl ⟨rfl, fun count h => by cases h; rfl⟩
  split
  · exact Or.inl ⟨rfl, fun count h => by cases h⟩
  next planned hplan =>
    split
    · exact Or.inl ⟨rfl, fun count h => by cases h⟩
    next bytes hbytes =>
      obtain ⟨hgather, rfl⟩ := gathered_eq hbytes
      obtain ⟨id, pipe, hend, hwrite⟩ := writeGuestPipeFromFd_again hplan rfl
      exact Or.inr ⟨id, pipe, bytes, hend, hplan, hgather, hwrite⟩
  · refine Or.inl ⟨rfl, fun count h => ?_⟩
    rw [RiscvGuestPipeWrite.returned_refused] at h
    cases h

/-- With room for it, a write is answered by what guest memory holds. -/
theorem writeGathered_of_room
    (hend : s.endpoint s.writeDescriptions fd = .pipe id pipe)
    (hflags : s.statusFlags fd = some flags) (htotal : total ≠ 0)
    (hroom : pipe.Room total (force || flags &&& openNonblock != 0))
    (gather : Nat → Option Bytes) :
    let planned := min (pipe.capacity - pipe.buffer.length) total
    (s.writeGathered force gather fd total).1 =
      ((gather planned).filter (·.length = planned)).elim (.errno .efault) (.accepted id) := by
  intro planned
  have hplan : s.guestPipeWritePlan fd total force = .written planned := by
    rw [guestPipeWritePlan, hend, hflags]
    exact RiscvGuestPipe.plan_of_room hroom
  rw [writeGathered, if_neg htotal, hplan]
  dsimp only
  split
  next hnone => rw [hnone, Option.elim_none]
  next bytes hbytes =>
    obtain ⟨other, _, hsame, hwrite⟩ := writeGuestPipeFromFd_again hplan (gathered_eq hbytes).2
    cases hend.symm.trans hsame
    rw [hwrite, hbytes, Option.elim_some]

/-- Without it, the write waits or says that it would have to. -/
theorem writeGathered_of_no_room
    (hend : s.endpoint s.writeDescriptions fd = .pipe id pipe)
    (hflags : s.statusFlags fd = some flags) (htotal : total ≠ 0)
    (hroom : ¬ pipe.Room total (force || flags &&& openNonblock != 0))
    (gather : Nat → Option Bytes) :
    (s.writeGathered force gather fd total).1 =
      if force || flags &&& openNonblock != 0 then .errno .eagain else .blocked := by
  rw [writeGathered, if_neg htotal, guestPipeWritePlan, hend, hflags]
  simp only [RiscvGuestPipe.plan_of_no_room hroom]
  split_ifs <;> rfl

theorem writeGathered_of_no_flags (hend : s.endpoint s.writeDescriptions fd = .pipe id pipe)
    (hflags : s.statusFlags fd = none) (htotal : total ≠ 0) (gather : Nat → Option Bytes) :
    (s.writeGathered force gather fd total).1 = .errno .ebadf := by
  simp [writeGathered, htotal, guestPipeWritePlan, hend, hflags, RiscvGuestPipeWrite.refused]

/-- A read is answered with no number above zero, or delivers. -/
theorem readDelivered_cases (s : PipeState) (deliver : Bytes → Bool) (fd total : Nat) :
    (∀ count, (s.readDelivered deliver fd total).1.returned = some count → count = 0) ∨
    ∃ id pipe bytes, s.endpoint s.readDescriptions fd = .pipe id pipe ∧ deliver bytes = true ∧
      (s.readDelivered deliver fd total).1 = .delivered id bytes := by
  unfold readDelivered
  split_ifs
  · exact Or.inl fun count h => by cases h; rfl
  split
  · exact Or.inl fun count h => by cases h
  · exact Or.inl fun count h => by cases h
  next id pipe hend =>
    dsimp only
    split_ifs with hempty hdeliver
    · exact Or.inl fun count h => by cases h; rfl
    · exact Or.inr ⟨id, pipe, _, hend, hdeliver, rfl⟩
    · exact Or.inl fun count h => by cases h

/-- What a `tee` reads is at the front of the pipe. -/
theorem guestPipeRead_eq (h : s.guestPipeRead fd count force = .bytes bytes) (hne : bytes ≠ []) :
    ∃ id pipe, s.endpoint s.readDescriptions fd = .pipe id pipe ∧ bytes <+: pipe.buffer := by
  unfold guestPipeRead at h
  split at h
  · cases h
  · cases h
  next id pipe hend =>
    dsimp only at h
    repeat' split at h
    all_goals cases h
    · exact ⟨id, pipe, hend, List.take_prefix _ _⟩
    · exact absurd rfl hne

theorem writeGuestPipeFromFd_cases (s : PipeState) (fd : Nat) (bytes : Bytes) (force : Bool) :
    (∀ count, (s.writeGuestPipeFromFd fd bytes force).1.returned = some count → count = 0) ∨
    ∃ id pipe count, s.endpoint s.writeDescriptions fd = .pipe id pipe ∧
      (s.writeGuestPipeFromFd fd bytes force).1 = .accepted id (bytes.take count) := by
  unfold writeGuestPipeFromFd
  split
  next count id pipe _ hend => exact Or.inr ⟨id, pipe, count, hend, rfl⟩
  · refine Or.inl fun count h => ?_
    rw [RiscvGuestPipeWrite.returned_refused] at h
    cases h

theorem syscallTee_cases (s : PipeState) (input output count flags : Nat) :
    (∀ count', (s.syscallTee input output count flags).1.returned = some count' → count' = 0) ∨
    ∃ id pipe source bytes, s.endpoint s.writeDescriptions output = .pipe id pipe ∧
      (∃ from', s.endpoint s.readDescriptions input = .pipe from' source) ∧
      bytes <+: source.buffer ∧ (s.syscallTee input output count flags).1 = .accepted id bytes := by
  unfold syscallTee
  repeat' split
  all_goals try exact Or.inl fun count' h => by cases h <;> rfl
  -- What is left is the `tee` that found bytes to copy.
  next bytes _ hread hne =>
    obtain ⟨from', source, hinput, hprefix⟩ := guestPipeRead_eq hread hne
    rcases s.writeGuestPipeFromFd_cases output bytes (flags &&& 2 != 0) with
      hzero | ⟨id, pipe, planned, houtput, hwrite⟩
    · exact Or.inl hzero
    · exact Or.inr ⟨id, pipe, source, bytes.take planned, houtput, ⟨from', hinput⟩,
        (List.take_prefix _ _).trans hprefix, hwrite⟩

/-- A positive number stands for bytes that the call has moved. -/
theorem answer_counts (s : PipeState) (call : PipeCall) {count : Nat} (hpos : 0 < count)
    (h : (s.answer call).1.returned = some count) : s.Counts (s.answer call).1 call := by
  cases call with
  | write force gather fd total =>
    rcases s.writeGathered_cases force gather fd total with
      ⟨-, hzero⟩ | ⟨id, pipe, bytes, hend, -, hgather, hwrite⟩
    · exact absurd (hzero count h) (Nat.ne_of_gt hpos)
    · exact ⟨id, pipe, bytes, hend, hgather, hwrite⟩
  | read deliver fd total =>
    rcases s.readDelivered_cases deliver fd total with hzero | hread
    · exact absurd (hzero count h) (Nat.ne_of_gt hpos)
    · exact hread
  | tee input output count' flags =>
    rcases s.syscallTee_cases input output count' flags with hzero | htee
    · exact absurd (hzero count h) (Nat.ne_of_gt hpos)
    · exact htee
  | setPipeSize fd requested =>
    intro id
    simp only [answer, setGuestPipeCapacity]
    repeat' split
    all_goals exact ⟨rfl, rfl⟩
  | _ => exact fun _ => ⟨rfl, rfl⟩

end PipeState

open PipeState

/-- A state with the bytes that each pipe has taken and given since it was opened. -/
structure Tracked where
  state : PipeState
  (taken given : Nat → Bytes)

def Tracked.next (t : Tracked) (call : PipeCall) : Tracked :=
  let answer := t.state.answer call
  let log (sum : Nat → Bytes) (bytes : Nat → PipeOutcome → Bytes) (id : Nat) : Bytes :=
    if (find t.state.pipes id).isSome then sum id ++ bytes id answer.1 else []
  ⟨answer.2, log t.taken PipeOutcome.taken, log t.given PipeOutcome.given⟩

/-- A pipe holds what it took and has not given, and stays within its bounds. -/
def Tracked.Streams (t : Tracked) : Prop :=
  ∀ id pipe, find t.state.pipes id = some pipe → pipe.Sound ∧ t.taken id = t.given id ++ pipe.buffer

theorem Tracked.streams_next {t : Tracked} (h : t.Streams) (call : PipeCall) :
    (t.next call).Streams := by
  intro id after hafter
  have hflow := answer_flows t.state call id after hafter
  simp only [next]
  cases hbefore : find t.state.pipes id with
  | none =>
    rw [hbefore] at hflow
    simp [hflow.1, hflow.2]
  | some before =>
    rw [hbefore] at hflow
    obtain ⟨hsound, hbytes⟩ := h id before hbefore
    refine ⟨hflow.1 hsound, ?_⟩
    simp [hbytes, hflow.2]

/-- A state before any pipe is opened, whatever the descriptors. -/
def Tracked.start (guestFds : GuestFdTable) : Tracked :=
  ⟨⟨guestFds, [], [], []⟩, fun _ => [], fun _ => []⟩

theorem Tracked.streams_run (guestFds : GuestFdTable) (calls : List PipeCall) :
    (run next (start guestFds) calls).Streams := by
  refine along_invariant next (fun _ _ => True) Streams (fun t call h _ => streams_next h call)
    calls _ (fun id pipe h => ?_) (along_of_forall next (fun _ => True) calls _ fun _ _ => trivial)
  cases h

/-- The bytes of a pipe are a stream, of the bytes that the calls count, and a small
    write is taken whole or not at all. -/
theorem pipes_are_streams (guestFds : GuestFdTable) (calls : List PipeCall) :
    let t := run Tracked.next (.start guestFds) calls
    (∀ id pipe, find t.state.pipes id = some pipe →
      t.taken id = t.given id ++ pipe.buffer ∧ pipe.buffer.length ≤ pipe.capacity ∧
        (∃ k, pipe.capacity = 2 ^ k) ∧ 4096 ≤ pipe.capacity ∧ pipe.capacity ≤ 1024 * 1024) ∧
    (∀ call count, 0 < count → (t.state.answer call).1.returned = some count →
      t.state.Counts (t.state.answer call).1 call) ∧
    ∀ force gather fd total, total ≤ 4096 →
      (t.state.writeGathered force gather fd total).2 = t.state ∨
        ∃ id bytes, (t.state.writeGathered force gather fd total).1 = .accepted id bytes ∧
          bytes.length = total := by
  intro t
  refine ⟨fun id pipe hpipe => ?_, fun call count => t.state.answer_counts call, ?_⟩
  · obtain ⟨hsound, hbytes⟩ := Tracked.streams_run guestFds calls id pipe hpipe
    exact ⟨hbytes, hsound.fits, hsound.power, hsound.atLeast, hsound.atMost⟩
  intro force gather fd total hsmall
  rcases t.state.writeGathered_cases force gather fd total with
    ⟨hsame, -⟩ | ⟨id, pipe, bytes, -, hplan, -, hwrite⟩
  · exact Or.inl hsame
  · obtain ⟨_, _, _, -, -, hcount⟩ := guestPipeWritePlan_eq hplan
    exact Or.inr ⟨id, bytes, hwrite, (plan_eq hcount).2.1 hsmall⟩

/-- An empty pipe has room for what does not wait, and for what it can hold. -/
theorem RiscvGuestPipe.Sound.room_empty_iff {pipe : RiscvGuestPipe} {total : Nat}
    (h : pipe.Sound) (hempty : pipe.buffer = []) :
    pipe.Room total nonblocking ↔ nonblocking = true ∨ total ≤ pipe.capacity := by
  have hlow := h.atLeast
  simp only [Room, hempty, List.length_nil, pipeBufBytes] at hlow ⊢
  grind

/-- A write to an empty pipe goes through, unless it waits for more room than the
    pipe has in all. -/
theorem emptied_pipe_accepts (guestFds : GuestFdTable) (calls : List PipeCall)
    (gather : Nat → Option Bytes) (force : Bool) (fd total : Nat) :
    let s := (run Tracked.next (.start guestFds) calls).state
    ∀ id pipe, s.endpoint s.writeDescriptions fd = .pipe id pipe → pipe.buffer = [] →
      ((s.writeGathered force gather fd total).1 ≠ .blocked ∧
        (s.writeGathered force gather fd total).1 ≠ .errno .eagain ↔
      ∀ flags, s.statusFlags fd = some flags →
        (force || flags &&& openNonblock != 0) = true ∨ total ≤ pipe.capacity) := by
  intro s id pipe hend hempty
  have hsound := (Tracked.streams_run guestFds calls id pipe (endpoint_eq hend)).1
  rcases Nat.eq_zero_or_pos total with rfl | hpos
  · simp [writeGathered]
  have htotal := Nat.ne_of_gt hpos
  cases hflags : s.statusFlags fd with
  | none => simp [writeGathered_of_no_flags hend hflags htotal]
  | some flags =>
    simp only [Option.some.injEq, forall_eq', ← hsound.room_empty_iff hempty]
    by_cases hroom : pipe.Room total (force || flags &&& openNonblock != 0)
    · have hwrite := writeGathered_of_room hend hflags htotal hroom gather
      simp only [hwrite, hroom, iff_true]
      cases (gather (min (pipe.capacity - pipe.buffer.length) total)).filter _ <;> simp
    · rw [writeGathered_of_no_room hend hflags htotal hroom]
      split_ifs <;> simp [hroom]

theorem oversized_write_blocks :
    let s := (run Tracked.next (.start ⟨[(1, 1)], [(1, ⟨1, 0⟩)]⟩) [.pipe2 0 1]).state
    s.endpoint s.writeDescriptions 1 = .pipe 0 ⟨[], 65536⟩ ∧
      (s.writeGathered false (fun count => some (List.replicate count 0)) 1 65537).1 = .blocked :=
  ⟨rfl, by decide⟩

theorem emptied_pipe_accepts_one :
    let s := (run Tracked.next (.start ⟨[(1, 1)], [(1, ⟨1, 0⟩)]⟩) [.pipe2 0 1]).state
    (s.writeGathered false (fun count => some (List.replicate count 0)) 1 65536).1 ≠ .blocked ∧
      (s.writeGathered false (fun count => some (List.replicate count 0)) 1 65536).1 ≠
        .errno .eagain :=
  (emptied_pipe_accepts _ _ _ false 1 65536 0 ⟨[], 65536⟩ rfl rfl).mpr
    fun _ _ => Or.inr (le_refl _)

/-- Some descriptor is open for this end of the pipe. -/
def PipeState.HasEnd (s : PipeState) (ends : List (Nat × Nat)) (id : Nat) : Prop :=
  ∃ fd description, s.description fd = some description ∧ find ends description = some id

/-- Neither a read nor a write looks for the other end. So the end of a file is told
    truly when there is something to read or nobody to write it, and a number is told
    truly when there is no room to write or somebody to read. -/
theorem pipe_ends_reported (s : PipeState) (fd total id : Nat) (pipe : RiscvGuestPipe)
    (hpos : 0 < total) :
    (∀ deliver, s.endpoint s.readDescriptions fd = .pipe id pipe →
      (((s.readDelivered deliver fd total).1.returned = some 0 →
          ¬ s.HasEnd s.writeDescriptions id) ↔
        (pipe.buffer = [] → ¬ s.HasEnd s.writeDescriptions id))) ∧
    ∀ force, s.endpoint s.writeDescriptions fd = .pipe id pipe →
      ((∀ gather count, 0 < count →
          (s.writeGathered force gather fd total).1.returned = some count →
          s.HasEnd s.readDescriptions id) ↔
        ∀ flags, s.statusFlags fd = some flags →
          pipe.Room total (force || flags &&& openNonblock != 0) →
          s.HasEnd s.readDescriptions id) := by
  have htotal : total ≠ 0 := Nat.ne_of_gt hpos
  constructor
  · intro deliver hend
    have hread : (s.readDelivered deliver fd total).1.returned = some 0 ↔ pipe.buffer = [] := by
      rw [readDelivered, if_neg htotal, hend]
      dsimp only
      split_ifs with hempty <;> simp_all [PipeOutcome.returned]
    rw [hread]
  · intro force hend
    constructor
    · intro htold flags hflags hroom
      have hwrite := writeGathered_of_room hend hflags htotal hroom
        fun count => some (List.replicate count 0)
      refine htold _ (min (pipe.capacity - pipe.buffer.length) total) ?_ (by
        rw [hwrite]
        simp [PipeOutcome.returned, Option.filter])
      have hfree := hroom.1
      omega
    · intro htold gather count hcount hreturned
      rcases s.writeGathered_cases force gather fd total with
        ⟨-, hzero⟩ | ⟨_, _, bytes, hsame, hplan, -, -⟩
      · exact absurd (hzero count hreturned) (Nat.ne_of_gt hcount)
      · obtain ⟨_, _, flags, hother, hflags, hplan⟩ := guestPipeWritePlan_eq hplan
        cases hend.symm.trans hother
        refine htold flags hflags (by_contra fun hroom => ?_)
        rw [RiscvGuestPipe.plan_of_no_room hroom] at hplan
        split at hplan <;> cases hplan

theorem read_of_open_pipe_is_zero :
    let s := (run Tracked.next (.start ⟨[(0, 0), (1, 1)], [(0, ⟨0, 0⟩), (1, ⟨1, 0⟩)]⟩)
      [.pipe2 0 1]).state
    s.HasEnd s.writeDescriptions 0 ∧ (s.readDelivered (fun _ => true) 0 1).1 = .value 0 :=
  ⟨⟨1, 1, rfl, rfl⟩, by decide⟩

/-- A byte that was written is read before any end of file, while both ends are open. -/
theorem pipe_ends_reported_one :
    let s := (run Tracked.next (.start ⟨[(0, 0), (1, 1)], [(0, ⟨0, 0⟩), (1, ⟨1, 0⟩)]⟩)
      [.pipe2 0 1, .write false (fun _ => some [7]) 1 1]).state
    s.HasEnd s.writeDescriptions 0 ∧
      (s.readDelivered (fun _ => true) 0 1).1.returned ≠ some 0 :=
  have hopen : PipeState.HasEnd _ _ 0 := ⟨1, 1, rfl, rfl⟩
  ⟨hopen, fun hzero => ((pipe_ends_reported _ 0 1 0 ⟨[7], 65536⟩ Nat.one_pos).1
    (fun _ => true) rfl).mpr (fun hempty => by cases hempty) hzero hopen⟩

end Rem6.System
