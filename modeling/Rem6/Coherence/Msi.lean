import Rem6.Coherence.Owners

/-!
# The MSI Harness

`DirectoryLineHarness` over whole runs. The state machine and the directory
agree with each other in every reachable state, but the harness never writes
an owner's data back: when an owner is downgraded by a reader, its copy moves to
the reader and the line has sharers and no owner, while the backing line still
has the old bytes. The next agent that misses is answered from the backing line
and reads a value that was overwritten.

So reads are coherent in the runs where this cannot be seen, and not in others.
`BackingCurrent` is the condition on the state before a call, and
`msi_data_coherent` the result. The example after it is the shortest run that
goes wrong: a write, a read by a second agent, and a read by a third.

## Main definitions

* `msiDiscipline`: Owner or sharers, and no write-back.
* `MsiInv`: What holds between two calls.

## Theorems

* `msi_sound`: The tables keep the discipline.
* `msi_data_coherent`: Reads are coherent while the backing line is current.
* `msi_never_stuck`: Every call is answered, and a modified copy is alone.
* `msi_third_reader_stale`: A third reader is given the overwritten bytes.
-/

namespace Rem6.Coherence

open Memory Protocol Cache Directory Lib Harness

/-- The MSI directory only records modified owners, and they are. -/
def msiFits (recorded state : MsiState) : Prop := recorded = .modified ∧ state = .modified

/-- The line has an owner or sharers. The backing line is only known to be
    current before anybody has a copy. -/
def msiDiscipline : Discipline (OwnerLine MsiState) MsiState where
  agree := OwnerAgree .invalid .shared msiFits
  clean line := line.owner = none ∧ ∀ b, b ∉ line.sharers
  unowned line := line.owner = none
  allowed _ _ _ := True

theorem msi_table : OwnerTable msi .shared .modified msiFits .snoopRead .snoopWrite where
  invalid_stable := rfl
  shared_stable := rfl
  shared_valid := by decide
  owner_valid := by
    rintro _ _ ⟨-, rfl⟩
    decide
  owner_gives := by
    rintro _ _ ⟨-, rfl⟩
    rfl
  shared_gives := rfl
  owner_shares := by
    rintro _ _ ⟨-, rfl⟩
    rfl
  modified_fits := ⟨rfl, rfl⟩

theorem msi_modified_alone {ag line} {sts : AgentId → MsiState}
    (hagree : msiDiscipline.agree line sts)
    (hag : sts ag = .modified) : (∀ b, b ≠ ag → sts b = .invalid) ∧ line.owner ≠ none := by
  cases hown : line.owner with
  | none =>
    have hst := hagree.sharing hown ag
    rw [hag] at hst
    split at hst <;> cases hst
  | some owner =>
    obtain ⟨owner, recd⟩ := owner
    obtain ⟨-, -, hoths⟩ := hagree.owned owner recd hown
    by_cases hne : ag = owner
    · subst hne
      exact ⟨hoths, by simp⟩
    · have hinv := hoths ag hne
      cases hag.symm.trans hinv

theorem msi_ownerHarness :
    OwnerHarness msiHarness msiDiscipline .shared .modified msiFits .snoopRead .snoopWrite where
  toOwnerTable := msi_table
  unique_eq := rfl
  upgrade_eq := rfl
  agree_eq := rfl
  clean_unowned := fun _ h => h.1
  unowned_of := fun _ h => h
  modified_stable := rfl
  modified_valid := by decide
  shared_unfit := fun _ h => absurd h.2 (by decide)
  invalid_upgrade := rfl
  shared_upgrade := rfl
  fills_shared := by
    rintro record handled waiting hst hwaiting
    cases hwaiting
    exact ⟨none, .dataShared, fun _ _ => rfl, rfl, rfl, hst ▸ rfl⟩
  fills_modified := by
    rintro record handled waiting hst (hwaiting | hwaiting) <;> cases hwaiting
    · exact ⟨none, .dataModified, fun _ _ => rfl, rfl, rfl, hst ▸ rfl⟩
    · exact ⟨none, .dataModified, fun _ _ => rfl, rfl, rfl, hst ▸ rfl⟩
  writes_eq := fun _ _ _ _ => rfl
  shares_back := fun _ _ ag _ _ _ h => absurd ((mem_insert_iff _ _ _).mpr (.inl rfl)) (h.2 ag)
  joins_clean := fun _ ag _ h => absurd ((mem_insert_iff _ _ _).mpr (.inl rfl)) (h.2 ag)

theorem msi_sound : Sound msiHarness msiDiscipline where
  invalid_stable := rfl
  invalid_upgrade := rfl
  accepts := by
    intro st read hstab
    cases st <;> cases read <;> first
      | exact ⟨_, rfl⟩
      | cases hstab
  hit := by
    intro line sts ag read after hagree _ hstab hstep haft
    -- A hit leaves the line in its state.
    have hsame : after = sts ag ∧ sts ag ≠ .invalid ∧ (read = false → sts ag = .modified) := by
      revert hstab hstep haft
      generalize sts ag = st
      cases st <;> cases read <;> intro hstab hstep haft <;> cases hstep <;> first
        | exact ⟨rfl, by decide, by decide⟩
        | cases haft
    obtain ⟨rfl, hheld, hwr⟩ := hsame
    refine ⟨hheld, hheld, by rw [Function.update_eq_self]; exact hagree, fun hread => ?_⟩
    obtain ⟨halone, hown⟩ := msi_modified_alone hagree (hwr hread)
    exact ⟨halone, fun hclean => hown hclean.1⟩
  miss := by
    intro line sts ag read waiting hagree _ hstab hstep hwaits
    cases hst : sts ag <;> rw [hst] at hstab hstep <;> cases read <;> first
      | exact absurd hstab (by decide)
      | (cases hstep; exact absurd hwaits (by decide))
      | skip
    · exact msi_ownerHarness.granted_unique hagree hst hstep
    · cases hown : line.owner with
      | none =>
        refine msi_ownerHarness.granted_readSharers hagree hst hown ?_ hstep
        show msiReadShared line ag = _
        rw [msiReadShared, hown]
      | some owner =>
        refine msi_ownerHarness.granted_readOwner hagree hst hown (fun hne => ?_) hstep
        show msiReadShared line ag = _
        rw [msiReadShared, hown]
        exact if_neg hne
    · exact msi_ownerHarness.granted_upgrade hagree hst hstep

theorem msi_withholds : Withholds msiHarness OwnerLine.Listed := by
  refine owner_withholds .shared .modified .snoopRead .snoopWrite rfl rfl (fun read => ?_)
    (fun st hwaits => ?_) rfl rfl (fun line owner recd ag hown hne => ?_) (fun line ag hown => ?_)
  · cases read <;> exact ⟨_, rfl, rfl⟩
  · cases st <;> first
      | exact ⟨rfl, rfl⟩
      | cases hwaits
  · show msiReadShared line ag = _
    rw [msiReadShared, hown]
    exact if_neg hne
  · refine ⟨⟨none, line.sharers.insert ag⟩, .shared, ?_, fun a h => ?_⟩
    · show msiReadShared line ag = _
      rw [msiReadShared, hown]
    · rw [OwnerLine.listed_sharers, mem_insert_iff] at h
      exact h.elim .inr (fun hbef => .inl (.inr hbef))

/-- The reads, writes and atomics a processor makes. -/
def isProcessorAccess : MemoryOperation → Bool
  | .readShared | .instructionFetch | .loadLocked | .write | .atomic => true
  | _ => false

theorem isProcessorAccess_answered {req : MemoryRequest}
    (h : isProcessorAccess req.operation = true) :
    req.responseRequired = true ∧ req.operation ≠ .cacheBlockZero ∧ req.operation ≠ .noAccess := by
  have hop : req.operation.requiresResponse = true ∧ req.operation ≠ .cacheBlockZero ∧
      req.operation ≠ .noAccess := by
    revert h
    cases req.operation <;> decide
  exact ⟨req.answered hop.1, hop.2⟩

/-- What holds between two calls: the harness is coherent, or its backing line
    is too short for anybody to be served. -/
def MsiInv (layout : CacheLineLayout) (line size : Nat) (initial : Nat → UInt8)
    (h : Harness (OwnerLine MsiState) MsiState MsiEvent) (seen : List MemoryRequest) : Prop :=
  (layout.bytes ≤ size ∧ Coherent msiHarness msiDiscipline layout line size
      (Holds layout line (latest initial seen)) h) ∨
  (size < layout.bytes ∧ Starved msiHarness OwnerLine.Listed layout line size h)

theorem msi_step {size h seen call line} {layout : CacheLineLayout} {init : Nat → UInt8}
    (hinv : MsiInv layout line size init h seen)
    (hop : isProcessorAccess call.request.operation = true) (hcur : BackingCurrent msi h call) :
    MsiInv layout line size init (h.next msiHarness call)
        (seen ++ (h.completedRequest msiHarness call).toList) ∧
      AnsweredFrom (latest init seen) call.request (h.reply msiHarness call) := by
  obtain ⟨hanswered, hzero, hidle⟩ := isProcessorAccess_answered hop
  rcases hinv with ⟨hlong, hcoh⟩ | ⟨hshort, hstarved⟩
  · have hfresh : (∃ c, h.caches call.agent = some c ∧ c.state = .invalid) →
        (h.directory line).owner = none → layout.bytes ≤ size →
        h.backing.data.take layout.bytes = window (latest init seen) line layout.bytes := by
      intro hreq hown _
      refine hcoh.backing_current hcur hreq hown (fun hnone => ⟨hown, hnone⟩) (fun b hb => ?_) hlong
      have hst := hcoh.agree.sharing hown b
      rw [if_pos hb] at hst
      rw [hst]
      decide
    rcases data_step msi_sound hcoh (fun _ => trivial) hfresh hzero (.inr hanswered) with
      ⟨-, -, hbreak⟩ | ⟨hcoh', hrep⟩
    · rcases hbreak with hshort | ⟨-, decision, hwrites⟩
      · omega
      · exact absurd hwrites (by show ¬ (false = true); decide)
    · exact ⟨.inl ⟨hlong, hcoh'⟩, hrep⟩
  · obtain ⟨hstarved', hquiet⟩ := starved_step msi_withholds hstarved hshort call
    have hnone := hquiet.resolve_right hidle
    refine ⟨.inr ⟨hshort, hstarved'⟩, fun record hrecord => ?_⟩
    cases hnone.symm.trans hrecord

/-- In every run of a fresh MSI harness whose calls find the backing line
    current, every completed read is answered with the bytes left by the latest
    completed store. -/
theorem msi_data_coherent (layout : CacheLineLayout) (lineAddress : Nat)
    (backing : LineBackingStore) (agents : List AgentId)
    (h : Harness (OwnerLine MsiState) MsiState MsiEvent)
    (hnew : new msiHarness layout lineAddress backing agents = .ok h) (calls : List Call)
    (call : Call) (hops : ∀ c ∈ calls ++ [call], isProcessorAccess c.request.operation = true)
    (hcurrent : Along (next msiHarness) (BackingCurrent msi) h (calls ++ [call])) :
    AnsweredFrom (latest h.initialMemory (h.history msiHarness calls)) call.request
      ((run (next msiHarness) h calls).reply msiHarness call) := by
  have hisNew := new_spec hnew
  have hstart : MsiInv layout h.line backing.layout.bytes h.initialMemory h [] := by
    by_cases hlong : layout.bytes ≤ backing.layout.bytes
    · refine .inl ⟨hlong, coherent_new hisNew rfl ?_ (fun hsize _ => ?_)⟩
      · exact ⟨fun _ _ h => absurd h (by simp [msiHarness, msiDirectory, OwnerLine.empty]),
          fun _ b => (if_neg Std.TreeSet.not_mem_emptyc).symm⟩
      · exact hisNew.backing_window hsize
    · exact .inr ⟨by omega, starved_new msi_withholds hisNew⟩
  exact along_last (next msiHarness) (completedRequest msiHarness)
    (fun h call => isProcessorAccess call.request.operation = true ∧ BackingCurrent msi h call)
    (MsiInv layout h.line backing.layout.bytes h.initialMemory)
    (fun s call seen => AnsweredFrom (latest h.initialMemory seen) call.request
      (s.reply msiHarness call))
    (fun s call seen hinv hP => msi_step hinv hP.1 hP.2) calls call h hstart
    (along_and_of_forall _ _ _ _ _ hops hcurrent)

/-- A second reader is answered by the owner, so the backing line does not
    matter. -/
theorem msi_second_reader_current :
    ∃ h, new msiHarness byteLayout 0 (byteBacking 7) [1, 2] = .ok h ∧
      (run (next msiHarness) h [byteWrite 1 9]).reply msiHarness (byteRead 2)
        = some ⟨0, .fill, ⟨2, 0⟩, .completed, some [9]⟩ ∧
      AnsweredFrom (latest h.initialMemory (h.history msiHarness [byteWrite 1 9]))
        (byteRead 2).request
        ((run (next msiHarness) h [byteWrite 1 9]).reply msiHarness (byteRead 2)) := by
  refine ⟨_, rfl, by decide, msi_data_coherent byteLayout 0 (byteBacking 7) [1, 2] _ rfl
    [byteWrite 1 9] (byteRead 2) (by decide) ⟨fun _ _ b hb => ?_, fun _ howner => ?_, trivial⟩⟩
  · exact absurd hb Std.TreeSet.not_mem_emptyc
  · cases howner

/-- The shortest run that goes wrong: an agent writes the byte, a second reads
    it, and a third is given the byte that was overwritten. -/
theorem msi_third_reader_stale :
    ∃ h record, new msiHarness byteLayout 0 (byteBacking 7) [1, 2, 3] = .ok h ∧
      (run (next msiHarness) h [byteWrite 1 9, byteRead 2]).reply msiHarness (byteRead 3)
        = some record ∧
      record.status = .completed ∧ record.data = some [7] ∧
      (byteRead 3).request.load
        (latest h.initialMemory (h.history msiHarness [byteWrite 1 9, byteRead 2])) = [9] := by
  refine ⟨_, ⟨0, .fill, ⟨3, 0⟩, .completed, some [7]⟩, rfl, ?_, rfl, rfl, ?_⟩
  · decide
  · decide

/-- A fresh MSI harness over a backing line of its size never gets stuck: in every
    run of calls that can be answered the next one is, and the directory lists the
    caches as they are. -/
theorem msi_never_stuck (layout : CacheLineLayout) (lineAddress : Nat)
    (backing : LineBackingStore) (agents : List AgentId)
    (h : Harness (OwnerLine MsiState) MsiState MsiEvent)
    (hnew : new msiHarness layout lineAddress backing agents = .ok h)
    (hsize : backing.layout.bytes = layout.bytes) (htop : h.line + layout.bytes < wordLimit)
    (calls : List Call) (call : Call)
    (hcalls : Along (next msiHarness) (fun h call => Answerable layout h call ∧
      call.request.responseRequired = true) h (calls ++ [call])) :
    let after := run (next msiHarness) h calls
    after.Succeeds msiHarness call ∧
      OwnerAgree .invalid .shared msiFits (after.directory h.line) (after.states msi) := by
  refine along_last _ (completedRequest msiHarness) _
    (fun s _ => Coherent msiHarness msiDiscipline layout h.line backing.layout.bytes AnyCopy s)
    (fun s call _ => s.Succeeds msiHarness call ∧ msiDiscipline.agree (s.directory h.line)
      (s.states msi)) (fun s call _ hcoh hP => ?_) calls call h ?_ hcalls
  · have hok := succeeds_of_answerable msi_sound (fun _ _ _ _ _ => trivial) hcoh hsize htop
      (fun _ => trivial) (fun _ _ _ _ => trivial) hP.1 hP.2
    exact ⟨coherent_next msi_sound (fun _ _ _ _ _ => trivial) hcoh (fun _ => trivial)
      (fun _ _ _ _ => trivial) ⟨fun _ _ _ _ _ => trivial, fun _ _ _ _ _ => trivial⟩ hok,
      hok, hcoh.agree⟩
  · refine coherent_new (new_spec hnew) rfl ⟨fun _ _ h => ?_, fun _ b => ?_⟩ fun _ _ => trivial
    · cases h
    · exact (if_neg Std.TreeSet.not_mem_emptyc).symm

theorem msi_never_stuck_read :
    ∃ h, new msiHarness byteLayout 0 (byteBacking 7) [1, 2] = .ok h ∧
      (run (next msiHarness) h [byteWrite 1 9]).Succeeds msiHarness (byteRead 2) :=
  ⟨_, rfl, (msi_never_stuck byteLayout 0 (byteBacking 7) [1, 2] _ rfl rfl (by decide)
    [byteWrite 1 9] (byteRead 2) ⟨⟨⟨⟨_, rfl⟩, rfl, by decide, by decide⟩, rfl⟩,
      ⟨⟨⟨_, rfl⟩, rfl, by decide, by decide⟩, rfl⟩, trivial⟩).1⟩

end Rem6.Coherence
