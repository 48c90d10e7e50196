import Rem6.Cache.WriteQueue

/-!
# Reads from the Write Queue

A read may be answered from the write queue while the writes in it have not
reached memory yet. `satisfyRead` walks the entries once, oldest first, and keeps
the bytes it has found so far; memory sees the same entries one by one, as they
are issued. The two agree if entries leave in the order they came in, which they
do when nothing becomes ready before something older.

The walk and memory go through the entries side by side. What was found is at
every point what memory would hold in the range: `satisfyFrom_agrees`.

## Main definitions

* `applyTo`, `applyAll`: What issued requests write.
* `QueueWrite`, `queueWrite`: Requests put into a queue.
* `issueStep`, `issued`: Taking them out again.

## Theorems

* `issueStep_cases`: The oldest entry leaves first.
* `satisfyRead_drained`: What a read finds is what memory holds in the end.
-/

namespace Rem6.Cache

open Memory Lib CacheWriteQueue CacheWriteQueueEntry List

def CacheWriteQueueIssue.fromEntry (entry : CacheWriteQueueEntry) : CacheWriteQueueIssue :=
  ⟨entry.handle, entry.request, none, entry.secure, entry.readyTick, entry.order, entry.kind⟩

/-- Memory after an issued request: a whole line, the bytes of the mask, or
    nothing for a line that is given up. -/
def applyTo (kind : CacheWriteQueueEntryKind) (request : MemoryRequest) (memory : Nat → UInt8)
    (address : Nat) : UInt8 :=
  let data := request.data.getD []
  match kind with
  | .writebackClean | .writebackDirty =>
    if request.lineAddress ≤ address ∧ address < request.lineAddress + request.lineLayout.bytes then
      data.getD (address - request.lineAddress) (memory address)
    else memory address
  | .uncacheableWrite =>
    if request.range.start ≤ address ∧ address < request.range.stop ∧
        request.byteMask.any (·.bits.getD (address - request.range.start) false) then
      data.getD (address - request.range.start) (memory address)
    else memory address
  | .cleanEvict => memory address

/-- Memory after issued requests, the first one first. -/
def applyAll (issues : List CacheWriteQueueIssue) (memory : Nat → UInt8) : Nat → UInt8 :=
  issues.foldl (fun memory issue => applyTo issue.kind issue.request memory) memory

/-- The bytes of a range. -/
def bytesAt (memory : Nat → UInt8) (range : AddressRange) : List UInt8 :=
  (List.range range.size.bytes).map fun k => memory (range.start + k)

/-- The range does not leave the line it starts in. -/
def InsideLine (range : AddressRange) (layout : CacheLineLayout) : Prop :=
  range.stop ≤ layout.lineAddress range.start + layout.bytes

/-- A write-back is a whole line, as its constructors build it. -/
def WholeLine (request : MemoryRequest) : Prop :=
  request.operation.carriesByteMask = false →
    request.range.start = request.lineAddress ∧ request.size = request.lineLayout.lineSize

section Walk

variable {range : AddressRange} {memory : Nat → UInt8} {entry : CacheWriteQueueEntry}

theorem take_drop_eq_bytesAt {offset} {data : List UInt8}
    (hlen : offset + range.size.bytes ≤ data.length)
    (h : ∀ k < range.size.bytes,
      ∃ default, memory (range.start + k) = data.getD (offset + k) default) :
    (data.drop offset).take range.size.bytes = bytesAt memory range := by
  refine ext_getElem (by simp [bytesAt]; omega) fun k _ hk => ?_
  have hlt : k < range.size.bytes := by simpa [bytesAt] using hk
  have hin : offset + k < data.length := by omega
  obtain ⟨default, hbyte⟩ := h k hlt
  simp [bytesAt, hbyte, getElem?_eq_getElem hin]

theorem bytesAt_congr {memory' : Nat → UInt8}
    (h : ∀ k < range.size.bytes, memory' (range.start + k) = memory (range.start + k)) :
    bytesAt memory range = bytesAt memory' range :=
  List.map_congr_left fun k hk => (h k (List.mem_range.mp hk)).symm

theorem lineAddress_eq {adr line} {layout : CacheLineLayout}
    (hline : layout.lineAddress line = line)
    (hle : line ≤ adr) (hlt : adr < line + layout.bytes) : layout.lineAddress adr = line := by
  unfold CacheLineLayout.lineAddress at hline ⊢
  rw [Nat.div_eq_of_lt_le (by rwa [hline]) (by rwa [Nat.succ_mul, hline]), hline]

/-- A written-back line holds the range, or leaves it alone. -/
theorem readFromWriteback_agrees
    (hkind : entry.kind = .writebackClean ∨ entry.kind = .writebackDirty)
    (hwhole : WholeLine entry.request) (hins : InsideLine range entry.request.lineLayout) :
    (entry.readFromWriteback range).getD (bytesAt memory range)
      = bytesAt (applyTo entry.kind entry.request memory) range := by
  have hoperation : entry.request.carriesData = true ∧
      entry.request.operation.carriesByteMask = false := by
    have hop := entry.kind_eq
    unfold entryKind at hop
    unfold MemoryRequest.carriesData
    split at hop <;> rcases hkind with hkind | hkind <;> simp_all only [Option.some.injEq,
      reduceCtorEq, MemoryOperation.carriesRequestData, MemoryOperation.carriesByteMask, and_self]
  replace hwhole := hwhole hoperation.2
  have h : ∀ address, applyTo entry.kind entry.request memory address
      = if entry.request.lineAddress ≤ address ∧
          address < entry.request.lineAddress + entry.request.lineLayout.bytes then
        (entry.request.data.getD []).getD (address - entry.request.lineAddress) (memory address)
      else memory address := by
    rcases hkind with hkind | hkind <;> simp [applyTo, hkind]
  obtain ⟨data, hsome, hlen⟩ := entry.request.data_of_carriesData hoperation.1
  have hbnd := entry.request.range.bound
  rw [hwhole.1, show entry.request.range.size = _ from hwhole.2] at hbnd
  have hnew : AddressRange.new entry.request.lineAddress entry.request.lineLayout.lineSize
      = .ok ⟨_, _, hbnd⟩ := dif_pos hbnd
  have hbytes : data.length = entry.request.lineLayout.bytes :=
    hlen.trans (congrArg AccessSize.bytes hwhole.2)
  have hown : entry.request.lineLayout.lineAddress entry.request.lineAddress
      = entry.request.lineAddress := CacheLineLayout.lineAddress_lineAddress ..
  simp only [readFromWriteback, hnew, hsome, Option.getD_some, InsideLine,
    AddressRange.stop] at h hins ⊢
  rw [show entry.request.lineLayout.lineSize.bytes = entry.request.lineLayout.bytes from rfl]
  by_cases hin : entry.request.lineAddress ≤ range.start ∧ range.start + range.size.bytes
      ≤ entry.request.lineAddress + entry.request.lineLayout.bytes
  · have hpos := range.size.pos
    have hsame := lineAddress_eq hown hin.1 (by omega)
    have hoff : entry.request.lineLayout.lineOffset range.start
        = range.start - entry.request.lineAddress := by rw [CacheLineLayout.lineOffset, hsame]
    rw [if_pos hin, if_pos (by omega), Option.getD_some]
    refine take_drop_eq_bytesAt (by omega) fun k hk => ?_
    rw [h, if_pos (by omega), hoff, Nat.sub_add_comm hin.1]
    exact ⟨_, rfl⟩
  · rw [if_neg hin, Option.getD_none]
    refine bytesAt_congr fun k hk => ?_
    rw [h, if_neg]
    rintro ⟨hle, hlt⟩
    -- Both lines hold the byte, so they are one.
    have hsame := lineAddress_eq hown hle hlt
    have hoff := entry.request.lineLayout.lineAddress_add_lineOffset range.start
    have hstart := lineAddress_eq (entry.request.lineLayout.lineAddress_lineAddress range.start)
      (show _ ≤ range.start + k by omega) (by omega)
    omega

theorem overlayUncacheable_agrees (hwr : entry.kind = .uncacheableWrite) :
    entry.overlayUncacheable range (bytesAt memory range)
      = bytesAt (applyTo entry.kind entry.request memory) range := by
  unfold overlayUncacheable
  cases hmask : entry.request.byteMask with
  | none => simp [bytesAt, applyTo, hwr, hmask]
  | some mask =>
    cases hdata : entry.request.data with
    | none => simp [bytesAt, applyTo, hwr, hdata]
    | some payload =>
      refine ext_getElem (by simp [bytesAt]) fun k _ hk => ?_
      have hlt : range.start + k < range.stop := by
        simpa [bytesAt, AddressRange.stop] using hk
      simp [bytesAt, applyTo, hwr, hmask, hdata, hlt]

theorem readFromUncacheable_agrees (hwr : entry.kind = .uncacheableWrite) {bytes : List UInt8}
    (h : entry.readFromUncacheable range = some bytes) :
    bytes = bytesAt (applyTo entry.kind entry.request memory) range := by
  unfold readFromUncacheable at h
  cases hmask : entry.request.byteMask with
  | none => simp [hmask] at h
  | some mask =>
    cases hdata : entry.request.data with
    | none => simp [hdata] at h
    | some data =>
      simp only [hmask, hdata] at h
      split at h
      · next hin =>
          split at h
          · next hcovers =>
              cases h
              obtain ⟨hbits, hall, hlen⟩ := hcovers
              refine take_drop_eq_bytesAt hlen fun k hk => ⟨memory (range.start + k), ?_⟩
              have hbit : mask.bits.getD (range.start - entry.request.range.start + k) false
                  = true := by
                have hmem := all_eq_true.mp hall
                  (mask.bits[range.start - entry.request.range.start + k])
                  (mem_take_iff_getElem.mpr ⟨k, by simp; omega, by simp⟩)
                simpa [show range.start - entry.request.range.start + k < mask.bits.length by omega]
                  using hmem
              have hstop : range.start + k < entry.request.range.stop := by
                have hlast := hin.2
                simp only [AddressRange.stop] at hlast ⊢
                omega
              have hplace : range.start + k - entry.request.range.start
                  = range.start - entry.request.range.start + k := Nat.sub_add_comm hin.1
              simp only [applyTo, hwr, hmask, hdata, hplace, Option.any_some, hbit, hstop,
                Option.getD_some]
              rw [if_pos ⟨by omega, trivial, trivial⟩]
          · cases h
      · cases h

/-- An entry keeps what was found in step with memory. -/
theorem satisfyFrom_agrees {found} (hwhole : WholeLine entry.request)
    (hins : InsideLine range entry.request.lineLayout)
    (h : ∀ bytes ∈ found, bytes = bytesAt memory range) :
    ∀ bytes ∈ satisfyFrom range found entry,
      bytes = bytesAt (applyTo entry.kind entry.request memory) range := by
  have hwriteback : (entry.kind = .writebackClean ∨ entry.kind = .writebackDirty) →
      ∀ bytes ∈ (entry.readFromWriteback range).or found,
        bytes = bytesAt (applyTo entry.kind entry.request memory) range := by
    intro hkind bytes hbytes
    rw [← readFromWriteback_agrees hkind hwhole hins]
    cases hread : entry.readFromWriteback range with
    | none => exact h bytes (by simpa [hread] using hbytes)
    | some read => simpa [hread, eq_comm] using hbytes
  intro bytes hbytes
  unfold satisfyFrom at hbytes
  split at hbytes
  next hkind => exact hwriteback (.inl hkind) bytes hbytes
  next hkind => exact hwriteback (.inr hkind) bytes hbytes
  next hkind =>
    cases found with
    | none => exact readFromUncacheable_agrees hkind hbytes
    | some old =>
      cases hbytes
      rw [h old rfl]
      exact overlayUncacheable_agrees hkind
  next hkind =>
    rw [h bytes hbytes]
    exact bytesAt_congr fun k _ => by simp [applyTo, hkind]

/-- The walk over the entries, beside memory. -/
theorem foldl_agrees {found} (memory : Nat → UInt8) (entries : List CacheWriteQueueEntry)
    (hents : ∀ entry ∈ entries, WholeLine entry.request ∧ InsideLine range entry.request.lineLayout)
    (h : ∀ bytes ∈ found, bytes = bytesAt memory range) :
    ∀ bytes ∈ entries.foldl (satisfyFrom range) found,
      bytes = bytesAt (applyAll (entries.map .fromEntry) memory) range := by
  induction entries generalizing found memory with
  | nil => exact h
  | cons entry rest ih =>
    obtain ⟨⟨hwhole, hins⟩, hrest⟩ := forall_mem_cons.mp hents
    exact ih _ hrest (satisfyFrom_agrees hwhole hins h)

end Walk

section Runs

/-- A request for the queue, and how it is queued. -/
structure QueueWrite where
  request : MemoryRequest
  readyTick : Nat
  (uncacheable useReserve : Bool)

/-- The queue after a request, whether it was taken or not. -/
def queueWrite (secure : Bool) (queue : CacheWriteQueue) (write : QueueWrite) : CacheWriteQueue :=
  (enqueue write.request secure write.readyTick write.uncacheable write.useReserve queue).2

/-- The queue after a chance to issue at a tick. -/
def issueStep (queue : CacheWriteQueue) (tick : Nat) : CacheWriteQueue := (issueNext tick queue).2

/-- What is issued at a tick. -/
def issued (queue : CacheWriteQueue) (tick : Nat) : Option CacheWriteQueueIssue :=
  (issueNext tick queue).1.toOption.join

/-- A queue of some writes in the order they came in. -/
structure Queued (secure : Bool) (writes : List QueueWrite) (queue : CacheWriteQueue) : Prop where
  sorted : queue.entries.Pairwise fun a b => a.readySortKey ≤ b.readySortKey
  source : ∀ entry ∈ queue.entries, entry.secure = secure ∧ ∃ write ∈ writes,
    entry.request = write.request ∧ entry.readyTick = write.readyTick
  before : ∀ entry ∈ queue.entries, entry.order ≤ queue.nextOrder ∧ entry.handle ≤ queue.nextHandle

theorem queued_run (secure : Bool) (cfg : CacheWriteQueueConfig) (writes : List QueueWrite)
    (hticks : writes.Pairwise (·.readyTick ≤ ·.readyTick)) :
    Queued secure writes (run (queueWrite secure) (.new cfg) writes) := by
  induction writes using reverseRecOn with
  | nil => exact ⟨.nil, by simp [new], by simp [new]⟩
  | append_singleton writes write ih =>
    obtain ⟨hold, -, hlast⟩ := pairwise_append.mp hticks
    have hqd := ih hold
    rw [run_append]
    generalize run (queueWrite secure) (.new cfg) writes = q at hqd ⊢
    have hsrc : ∀ entry ∈ q.entries, entry.secure = secure ∧
        ∃ write' ∈ writes ++ [write], entry.request = write'.request ∧
          entry.readyTick = write'.readyTick := by
      intro entry hent
      obtain ⟨hsec, write', hmem, hsame⟩ := hqd.source entry hent
      exact ⟨hsec, write', mem_append_left _ hmem, hsame⟩
    simp only [run_cons, run_nil, queueWrite, enqueue]
    split
    · exact ⟨hqd.sorted, hsrc, hqd.before⟩
    split
    · exact ⟨hqd.sorted, hsrc, hqd.before⟩
    refine ⟨pairwise_append.mpr ⟨hqd.sorted, pairwise_singleton _ _, ?_⟩,
      forall_mem_append.mpr ⟨hsrc, forall_mem_singleton.mpr ⟨rfl, write, by simp, rfl, rfl⟩⟩,
      forall_mem_append.mpr ⟨fun entry hent => ?_,
        forall_mem_singleton.mpr ⟨le_saturatingSucc _, le_saturatingSucc _⟩⟩⟩
    · -- The new entry is ready no sooner than the others, and its counters are not lower.
      intro entry hent new hnew
      obtain ⟨-, write', hmem, _⟩ := hqd.source entry hent
      have hle := hlast write' hmem write (mem_singleton_self _)
      have hbef := hqd.before entry hent
      rw [mem_singleton.mp hnew]
      simp only [readySortKey, Prod.Lex.toLex_le_toLex]
      omega
    · have hbef := hqd.before entry hent
      exact ⟨hbef.1.trans (le_saturatingSucc _), hbef.2.trans (le_saturatingSucc _)⟩

theorem argmin_cons_of_forall_le {α β : Type} [LinearOrder β] {f : α → β} {a : α} {l : List α}
    (h : ∀ b ∈ l, f a ≤ f b) : (a :: l).argmin f = some a := by
  rw [argmin_cons]
  cases hleast : l.argmin f with
  | none => rfl
  | some b => exact if_neg (not_lt.mpr (h b (argmin_mem hleast)))

/-- An entry leaves the queue at its front, or none does. -/
theorem issueStep_cases {q}
    (hsorted : q.entries.Pairwise fun a b => a.readySortKey ≤ b.readySortKey)
    (tick : Nat) :
    (issued q tick = none ∧ issueStep q tick = q) ∨
      ∃ entry rest, q.entries = entry :: rest ∧ issued q tick = some (.fromEntry entry) ∧
        issueStep q tick = { q with entries := rest } := by
  unfold issued issueStep issueNext
  cases hents : q.entries with
  | nil => exact .inl ⟨rfl, rfl⟩
  | cons entry rest =>
    rw [hents, pairwise_cons] at hsorted
    by_cases hready : entry.readyTick ≤ tick
    · refine .inr ⟨entry, rest, rfl, ?_⟩
      have hfirst : (((entry :: rest).zipIdx.filter fun entry => entry.1.readyTick ≤ tick).argmin
          fun entry => entry.1.readySortKey) = some (entry, 0) := by
        rw [zipIdx_cons, filter_cons_of_pos (by simpa using hready)]
        refine argmin_cons_of_forall_le fun later hlater => ?_
        exact hsorted.1 _ (fst_mem_of_mem_zipIdx (mem_filter.mp hlater).1)
      rw [hfirst]
      exact ⟨rfl, rfl⟩
    · have hnone : ((entry :: rest).zipIdx.filter fun entry => entry.1.readyTick ≤ tick) = [] := by
        refine filter_eq_nil_iff.mpr fun later hlater => ?_
        rcases mem_cons.mp (fst_mem_of_mem_zipIdx hlater) with hsame | hmem
        · simpa [hsame] using hready
        · have hle := hsorted.1 _ hmem
          simp only [readySortKey, Prod.Lex.toLex_le_toLex] at hle
          simp only [decide_eq_true_eq]
          omega
      rw [hnone]
      exact .inl ⟨rfl, rfl⟩

/-- The issued entries are the oldest ones, in order. -/
theorem observe_issued {q} (ticks : List Nat)
    (hsorted : q.entries.Pairwise fun a b => a.readySortKey ≤ b.readySortKey) :
    ∃ front, q.entries = front ++ (run issueStep q ticks).entries ∧
      observe issueStep issued q ticks = front.map .fromEntry := by
  induction ticks generalizing q with
  | nil => exact ⟨[], rfl, rfl⟩
  | cons tick ticks ih =>
    rcases issueStep_cases hsorted tick with ⟨hnone, hsame⟩ | ⟨entry, rest, hents, hsome, hnext⟩
    · obtain ⟨front, hsplit, hobserved⟩ := ih hsorted
      refine ⟨front, ?_, ?_⟩
      · rw [run_cons, hsame, hsplit]
      · rw [observe, hnone, hsame, hobserved]
        rfl
    · rw [hents, pairwise_cons] at hsorted
      have hrest : (issueStep q tick).entries = rest := by rw [hnext]
      have hlater := hsorted.2
      rw [← hrest] at hlater
      obtain ⟨front, hsplit, hobserved⟩ := ih hlater
      refine ⟨entry :: front, ?_, ?_⟩
      · rw [hents, run_cons, cons_append, ← hsplit, hrest]
      · rw [observe, hsome, hobserved]
        rfl

/-- If a read finds bytes in a queue of writes of one security domain that
    become ready in the order they came in, memory holds these bytes once the
    queue is empty, whatever it held before. -/
theorem satisfyRead_drained (config : CacheWriteQueueConfig) (secure : Bool)
    (writes : List QueueWrite) (range : AddressRange) (readSecure : Bool)
    (hticks : writes.Pairwise (·.readyTick ≤ ·.readyTick))
    (hwhole : ∀ write ∈ writes, WholeLine write.request)
    (hinside : ∀ write ∈ writes, InsideLine range write.request.lineLayout) (bytes : List UInt8)
    (hread : (run (queueWrite secure) (.new config) writes).satisfyRead range.start range.size
      readSecure = .ok (some bytes)) (ticks : List Nat)
    (hempty : (run issueStep (run (queueWrite secure) (.new config) writes) ticks).entries = [])
    (memory : Nat → UInt8) :
    bytesAt (applyAll (observe issueStep issued (run (queueWrite secure) (.new config) writes)
      ticks) memory) range = bytes := by
  have hqueued := queued_run secure config writes hticks
  generalize run (queueWrite secure) (.new config) writes = queue at *
  obtain ⟨front, hsplit, hobserved⟩ := observe_issued ticks hqueued.sorted
  rw [hempty, append_nil] at hsplit
  have hnew : AddressRange.new range.start range.size = .ok range := dif_pos range.bound
  simp only [satisfyRead, hnew, Except.ok.injEq] at hread
  have hentries : ∀ entry ∈ queue.entries.filter fun entry => entry.secure = readSecure,
      WholeLine entry.request ∧ InsideLine range entry.request.lineLayout := by
    intro entry hentry
    obtain ⟨-, write, hmem, hsame, -⟩ := hqueued.source entry (mem_filter.mp hentry).1
    rw [hsame]
    exact ⟨hwhole write hmem, hinside write hmem⟩
  have hfound := foldl_agrees memory _ hentries (by simp) bytes hread
  by_cases hsecure : readSecure = secure
  · rw [filter_eq_self.mpr fun entry hentry => by simp [hsecure, hqueued.source entry hentry]]
      at hfound
    rw [hobserved, ← hsplit, ← hfound]
  · -- A read of the other domain finds nothing.
    rw [filter_eq_nil_iff.mpr fun entry hentry => by
      simp [hqueued.source entry hentry, Ne.symm hsecure]] at hread
    cases hread

/-- A line is written back, and then one of its bytes is written around the cache. -/
def lineThenByte : List QueueWrite :=
  [⟨{ id := ⟨1, 0⟩, operation := .writebackDirty, range := ⟨0, quadLayout.lineSize, by decide⟩
      lineLayout := quadLayout, data := some [1, 2, 3, 4], valid := rfl, answered := fun h => h },
    0, false, false⟩,
   ⟨{ id := ⟨1, 1⟩, operation := .write, range := byteAt 1, lineLayout := quadLayout
      data := some [9], byteMask := some ⟨.replicate 1 true, by decide⟩, valid := rfl
      answered := fun h => h }, 5, true, false⟩]

theorem satisfyRead_drained_byte :
    bytesAt (applyAll (observe issueStep issued
      (run (queueWrite false) (.new ⟨2, 0, by decide⟩) lineThenByte) [3, 5]) fun _ => 0)
      (byteAt 1) = [9] := by
  refine satisfyRead_drained ⟨2, 0, by decide⟩ false lineThenByte (byteAt 1) false
    (by simp [lineThenByte]) ?_ ?_ [9] (by decide) [3, 5] (by decide) _
  · simp [lineThenByte, WholeLine, MemoryOperation.carriesByteMask]
    decide
  · simp [lineThenByte, InsideLine]
    decide

end Runs

end Rem6.Cache
