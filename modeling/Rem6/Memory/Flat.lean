import Rem6.Lib.Window
import Rem6.Memory.Response

/-!
# The Memory a Line is a Window of

What a coherent memory system is for: every agent sees one flat memory, and a
request that was served has had its effect on it. This is the abstract model
the harnesses are compared with. It has no caches, no directory and no backing
store, only the bytes.

`serve` is the effect of one completed request. A block zero stores zeros over
the whole line, as the memory crate's line store does. `latest` replays a
history, so the byte it finds at an address is the one left there by the most
recent served store that covers it, or the initial byte if there was none.

## Main definitions

* `MemoryRequest.maskAt`: Whether a byte of the payload is stored.
* `serve`: The memory after a request was served.
* `latest`: The memory after a history of served requests.
* `MemoryRequest.load`: The bytes a request reads from a memory.

## Theorems

* `serve_of_loads`: A request that carries nothing leaves the memory alone.
* `latest_append_singleton`: A history grows by serving one more request.
-/

namespace Rem6.Memory

open Lib

/-- Whether the byte at an index of the payload is stored. Without a mask all
    bytes are. -/
def MemoryRequest.maskAt (request : MemoryRequest) (index : Nat) : Bool :=
  match request.byteMask with
  | none => true
  | some mask => mask.bits.getD index false

/-- The bytes a request reads. -/
def MemoryRequest.load (request : MemoryRequest) (memory : Nat → UInt8) : List UInt8 :=
  window memory request.range.start request.size.bytes

/-- The memory after a request has been served. -/
def serve (memory : Nat → UInt8) (request : MemoryRequest) : Nat → UInt8 :=
  match request.operation with
  | .cacheBlockZero =>
    store memory request.range.start (fun _ => true) (List.replicate request.size.bytes 0)
  | .atomic | .atomicNoReturn =>
    match request.atomicWriteData (request.load memory) with
    | .ok new => store memory request.range.start request.maskAt new
    | .error _ => memory
  | _ =>
    match request.data with
    | some payload => store memory request.range.start request.maskAt payload
    | none => memory

/-- The memory after a history of served requests, oldest first. -/
def latest (initial : Nat → UInt8) (history : List MemoryRequest) : Nat → UInt8 :=
  history.foldl serve initial

variable {initial memory mem : Nat → UInt8}

@[simp]
theorem latest_nil : latest initial [] = initial := rfl

variable {request req : MemoryRequest}

/-- A history grows at its end: the last request is served on what the others
    left. -/
theorem latest_append_singleton {history} :
    latest initial (history ++ [request]) = serve (latest initial history) request := by
  rw [latest, List.foldl_append]
  rfl

/-- A request that carries no data, and does not zero its line, leaves the
    memory alone. -/
theorem serve_of_loads (hzero : request.operation ≠ .cacheBlockZero)
    (hdata : request.carriesData = false) : serve memory request = memory := by
  have hnone := request.data_of_not_carriesData hdata
  unfold serve
  unfold MemoryRequest.carriesData at hdata
  cases hop : request.operation <;> simp only [hnone]
  · exact absurd hop hzero
  · rw [hop] at hdata
    cases hdata
  · rw [hop] at hdata
    cases hdata

theorem serve_of_atomic {new} (hop : req.operation.isAtomic = true)
    (hnew : req.atomicWriteData (req.load mem) = .ok new) :
    serve mem req = store mem req.range.start req.maskAt new := by
  unfold serve
  cases ho : req.operation <;> rw [ho] at hop <;> first
      | exact absurd hop (by decide)
      | simp [hnew]

theorem serve_of_refused_atomic {e} (hop : request.operation.isAtomic = true)
    (he : request.atomicWriteData (request.load memory) = .error e) :
    serve memory request = memory := by
  unfold serve
  cases ho : request.operation <;> rw [ho] at hop <;> first
      | exact absurd hop (by decide)
      | simp [he]

theorem serve_of_data {payload} (hatomic : req.operation.isAtomic = false)
    (hcarry : req.carriesData = true) (hdata : req.data = some payload) :
    serve mem req = store mem req.range.start req.maskAt payload := by
  unfold serve
  unfold MemoryRequest.carriesData at hcarry
  cases ho : req.operation <;> rw [ho] at hatomic hcarry <;> first
      | exact absurd hatomic (by decide)
      | exact absurd hcarry (by decide)
      | simp [hdata]

end Rem6.Memory
