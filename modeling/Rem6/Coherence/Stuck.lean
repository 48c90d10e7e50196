import Rem6.Coherence.Blocked

/-!
# A Decision that was not Carried Out

A MESI harness over a backing line that is longer than its cache lines works
until a reader displaces an owner. The owner's data then cannot be written back,
and the call fails after the directory has decided: the reader is recorded and
waits for ever.

From there on the harness is not coherent. The owner keeps its copy and goes on
writing it, and further readers are given what the backing line holds. One thing
still holds, and it is what conditional stores rest on: nobody gains the right
to write any more, the directory being blocked.

`Stuck` is that as an invariant. The owner at the time of the failure may stay an
owner, with whatever is good about its copy; nothing is said about the others.

## Main definitions

* `Stuck`: The invariant.
* `Effect`: What a call can do, as far as good copies are concerned.

## Theorems

* `resolveMiss_stuck`: No miss makes an owner.
* `stuck_effect`: No call undoes it.
* `coherent_effect`: How a coherent harness gets there.
-/

namespace Rem6.Coherence

open Memory Protocol Cache Directory Lib CacheController Harness Function

/-! ## The invariant -/

/-- The controller is the one of its agent for the line, and an owner's copy is a
    good one. -/
structure StuckCopy (layout : CacheLineLayout) (line : Nat) (Good : CopyPred) (agent : AgentId)
    (c : MesiController) : Prop where
  agent_eq : c.agent = agent
  layout_eq : c.layout = layout
  line_eq : c.line = line
  held : c.state.isOwned = true →
    ∃ data, c.data = some data ∧ data.length = layout.bytes ∧ Good agent data c.lockedReservations

/-- At most one owner is left, with a good copy, and nobody can become one. -/
structure Stuck (layout : CacheLineLayout) (line : Nat) (Good : CopyPred) (h : MesiHarness) :
    Prop where
  aligned : layout.lineAddress line = line
  copies : ∀ agent c, h.caches agent = some c → StuckCopy layout line Good agent c
  single : ∀ a b c d, h.caches a = some c → c.state.isOwned = true →
    h.caches b = some d → d.state.isOwned = true → a = b
  blocked : Blocked (h.directory line) h.Waits

variable {layout : CacheLineLayout} {line size : Nat} {Good : CopyPred} {h h' : MesiHarness}
  {agent : AgentId} {call : Call}

theorem StuckCopy.lost {c Good' d} (hok : StuckCopy layout line Good agent c)
    (hag : d.agent = c.agent)
    (hlayout : d.layout = c.layout) (hline : d.line = c.line) (hlost : d.state.isOwned = false) :
    StuckCopy layout line Good' agent d := by
  refine ⟨hag.trans hok.agent_eq, hlayout.trans hok.layout_eq, hline.trans hok.line_eq,
    fun howned => ?_⟩
  cases hlost.symm.trans howned

theorem unowned_of_waits {st : MesiState} (hwaits : st.isStable = false) : st.isOwned = false := by
  revert hwaits
  cases st <;> decide

theorem Stuck.congr (hs : Stuck layout line Good h) (hcaches : h'.caches = h.caches)
    (hdir : h'.directory = h.directory) : Stuck layout line Good h' := by
  refine ⟨hs.aligned, by rw [hcaches]; exact hs.copies, by rw [hcaches]; exact hs.single, ?_⟩
  rw [hdir]
  refine hs.blocked.mono (fun b hw => ?_)
  obtain ⟨c, hc, hwaits⟩ := hw
  exact ⟨c, by rw [hcaches]; exact hc, hwaits⟩

theorem Stuck.mono {Good'} (hs : Stuck layout line Good h)
    (hgood : ∀ agent data resvs, Good agent data resvs → Good' agent data resvs) :
    Stuck layout line Good' h := by
  refine ⟨hs.aligned, fun agent c hc => ?_, hs.single, hs.blocked⟩
  have hok := hs.copies agent c hc
  refine ⟨hok.agent_eq, hok.layout_eq, hok.line_eq, fun howned => ?_⟩
  obtain ⟨data, hd, hlen, hg⟩ := hok.held howned
  exact ⟨data, hd, hlen, hgood agent data _ hg⟩

/-- Snoops keep the invariant: what they change is no owner any more. -/
theorem Stuck.lowered (hs : Stuck layout line Good h) (hl : Lowered h h') :
    Stuck layout line Good h' := by
  have hown : ∀ b d, h'.caches b = some d → d.state.isOwned = true → h.caches b = some d := by
    intro b d hd howned
    rcases hl.caches b with hsame | ⟨c, d', -, -, hd', hlost, -⟩
    · exact hsame ▸ hd
    · rw [hd, Option.some.injEq] at hd'
      simp [hd', hlost] at howned
  refine ⟨hs.aligned, fun b d hd => ?_, fun a b c d hc hcowned hd hdowned => ?_, ?_⟩
  · rcases hl.caches b with hsame | ⟨c, d', hc, -, hd', hlost, hag, hlayout, hline⟩
    · exact hs.copies b d (hsame ▸ hd)
    · rw [hd] at hd'
      cases hd'
      exact (hs.copies b c hc).lost hag hlayout hline hlost
  · exact hs.single a b c d (hown a c hc hcowned) hcowned (hown b d hd hdowned) hdowned
  · rw [hl.directory_eq]
    exact hs.blocked.mono (fun b hw => hl.waits hw)

theorem of_setCache_owned {d} (h : MesiHarness) (agent : AgentId)
    (hlost : d.state.isOwned = false) :
    ∀ b c, (h.setCache agent d).caches b = some c → c.state.isOwned = true →
      h.caches b = some c := by
  refine forall_setCache (fun howned => ?_) fun b c _ hc _ => hc
  cases hlost.symm.trans howned

theorem waits_setCache {b d} (hwait : h.Waits agent → d.state.isStable = false) (hw : h.Waits b) :
    (h.setCache agent d).Waits b := by
  by_cases hb : b = agent
  · subst hb
    exact ⟨d, h.setCache_self b d, hwait hw⟩
  · obtain ⟨c, hc, hwaits⟩ := hw
    exact ⟨c, by rw [h.setCache_of_ne _ hb]; exact hc, hwaits⟩

/-- Put a controller back that is no owner. If its agent was waiting, it has to
    wait still. -/
theorem Stuck.replace {d} (hs : Stuck layout line Good h) (hd : StuckCopy layout line Good agent d)
    (hlost : d.state.isOwned = false) (hwait : h.Waits agent → d.state.isStable = false) :
    Stuck layout line Good (h.setCache agent d) := by
  have hown := of_setCache_owned h agent hlost
  refine ⟨hs.aligned, forall_setCache hd fun b c _ => hs.copies b c,
    fun a b c c' hc hcowned hc' hcowned' => ?_, hs.blocked.mono fun b => waits_setCache hwait⟩
  exact hs.single a b c c' (hown a c hc hcowned) hcowned (hown b c' hc' hcowned') hcowned'

theorem Stuck.record (hs : Stuck layout line Good h) {record : OwnerLine MesiState}
    (hblocked : Blocked record h.Waits) :
    Stuck layout line Good { h with directory := update h.directory line record } := by
  refine ⟨hs.aligned, hs.copies, hs.single, ?_⟩
  simp only [update_self]
  exact hblocked

/-! ## A miss -/

theorem writeBack_eq_ok {wanted data} (hok : h.writeBack wanted data = .ok h') :
    ∃ backing, h' = { h with backing } := by
  unfold writeBack at hok
  split at hok
  · split at hok
    · cases hok
    · exact ⟨_, (Except.ok.inj hok).symm⟩
  · exact ⟨h.backing, (Except.ok.inj hok).symm⟩

theorem directoryResponse_lowered {handled : Handled (OwnerLine MesiState) MesiState MesiEvent}
    (hevs : ∀ snoop ∈ handled.snoops, IsSnoop snoop.event)
    (hwaiter : ∃ snoop ∈ handled.snoops, h.Waits snoop.target) (req : MemoryRequest) (adr : Nat)
    (record : OwnerLine MesiState) :
    ∃ e h', h.directoryResponse mesiHarness req (handled.decision adr req.id record)
      = (.error e, h') ∧ Lowered h h' := by
  unfold directoryResponse
  simp only [Handled.decision]
  cases h.sourceData ⟨req.id, adr, handled.state, handled.dataSource⟩ with
  | error e => exact ⟨e, h, rfl, .refl h⟩
  | ok data =>
    simp only
    generalize hwr : h.writeBack _ data = written
    cases written with
    | error e => exact ⟨e, h, rfl, .refl h⟩
    | ok h₁ =>
      obtain ⟨backing, rfl⟩ := writeBack_eq_ok hwr
      -- Writing back touches no controller, so the same agents wait.
      rcases deliverSnoops_lowered handled.snoops { h with backing } hevs with
        ⟨hlow, hfails⟩
      obtain ⟨e, he⟩ := hfails hwaiter
      have hdel : ({ h with backing } : MesiHarness).deliverSnoops mesiHarness.protocol
          handled.snoops = (.error e, (({ h with backing } : MesiHarness).deliverSnoops mesi
            handled.snoops).2) := Prod.ext he rfl
      refine ⟨e, _, ?_, ⟨hlow.directory_eq, hlow.responses_eq, hlow.caches⟩⟩
      simp [hdel]

theorem acceptFill_unowned {waiting} (hok : StuckCopy layout line Good agent waiting)
    (hwaits : waiting.state.isStable = false) (resp : MemoryResponse) :
    StuckCopy layout line Good agent (acceptFill mesi waiting resp (some .dataShared)).2 ∧
      (acceptFill mesi waiting resp (some .dataShared)).2.state.isOwned
        = false := by
  -- Of the states that waiting can lead to, only identity and ownership matter.
  have hany : ∀ d : MesiController, d.agent = waiting.agent → d.layout = waiting.layout →
      d.line = waiting.line → d.state.isOwned = false →
      StuckCopy layout line Good agent d ∧ d.state.isOwned = false := by
    intro d hag hlayout hline hlost
    exact ⟨hok.lost hag hlayout hline hlost, hlost⟩
  have hlost := unowned_of_waits hwaits
  have hshared : ∀ after, mesi.transition waiting.state .dataShared = some after →
      after.isOwned = false := by
    intro after hstep
    cases hst : waiting.state <;> rw [hst] at hstep hwaits <;> first
      | exact absurd hwaits (by decide)
      | (cases hstep; rfl)
      | cases hstep
  unfold acceptFill
  split
  · exact hany _ rfl rfl rfl hlost
  · split
    · exact hany _ rfl rfl rfl hlost
    · split
      · exact hany _ rfl rfl rfl hlost
      · simp only [Option.some_or]
        split
        · exact hany _ rfl rfl rfl hlost
        · rename_i after happly
          have haft := hshared after (LineProtocol.apply_eq_ok.mp happly)
          split
          · exact hany _ rfl rfl rfl haft
          · rename_i filled hins
            -- Installing data leaves the rest of the controller.
            have hfil : filled.agent = waiting.agent ∧ filled.layout = waiting.layout ∧
                filled.line = waiting.line ∧ filled.state = after := by
              unfold installData at hins
              split at hins
              · exact Except.ok.inj hins ▸ ⟨rfl, rfl, rfl, rfl⟩
              · split at hins
                · cases hins
                · exact Except.ok.inj hins ▸ ⟨rfl, rfl, rfl, rfl⟩
            obtain ⟨hag, hlayout, hline, hst⟩ := hfil
            have hsame := completeCpuRequest_sameLine filled (‹PendingMiss MesiEvent›).original
            have hend := hany _ (hsame.agent_eq.trans hag) (hsame.layout_eq.trans hlayout)
              (hsame.line_eq.trans hline) (by rw [hsame.state_eq, hst]; exact haft)
            split <;> rename_i heq <;> rw [heq] at hend <;> exact hend

/-- What a call that serves no owner leaves: the invariant, and at most a response
    to a request that stores nothing. -/
def Passes (layout : CacheLineLayout) (line : Nat) (Good : CopyPred) (h : MesiHarness)
    (reads : Prop) (h' : MesiHarness) : Prop :=
  Stuck layout line Good h' ∧
    (h'.cpuResponses = h.cpuResponses ∨
      (reads ∧ ∃ record, h'.cpuResponses = h.cpuResponses ++ [record]))

theorem passes_recorded {reads : Prop} (hreads : reads) (hs : Stuck layout line Good h')
    (hres : h'.cpuResponses = h.cpuResponses) (res : CacheControllerResult MesiState) :
    Passes layout line Good h reads (h'.recordCpuResponse res) := by
  unfold recordCpuResponse
  cases res.targetOutcome with
  | none => exact ⟨hs, .inl hres⟩
  | some resp =>
    refine ⟨hs.congr rfl rfl, .inr ⟨hreads, responseRecord 0 res.kind resp, ?_⟩⟩
    rw [hres]

/-- A miss: it is refused, or waits, or a reader is given the backing line. -/
theorem resolveMiss_stuck {kind downstream} (hs : Stuck layout line Good h)
    {c waiting : MesiController}
    (hc : h.caches agent = some c) (hstab : c.state.isStable = true)
    (hok : StuckCopy layout line Good agent waiting) (hwaits : waiting.state.isStable = false)
    (hdown : IsDownstream c kind downstream) :
    Passes layout line Good h (kind = .readShared)
      ((h.setCache agent waiting).resolveMiss mesiHarness agent .miss downstream).2 := by
  have hown := hs.copies agent c hc
  have hfree : ¬ h.Waits agent := by
    rintro ⟨c', hc', hwaits'⟩
    rw [hc, Option.some.injEq] at hc'
    simp [← hc', hstab] at hwaits'
  have hlost := unowned_of_waits hwaits
  have hwaiting := hs.replace hok hlost (fun _ => hwaits)
  have hacc : accept mesiHarness.directory (h.setCache agent waiting).directory downstream = _ :=
    accept_of_kind mesiDirectory h.directory hdown.operation_eq
      (hdown.line_eq.trans hown.line_eq) (hdown.asks hown.agent_eq)
  rcases hs.blocked.handles hfree kind line with
    ⟨e, he⟩ | ⟨handled, hhandle, hevs, hwaiter, haft⟩ | ⟨hkind, howner, hhandle⟩
  · -- Refused by the directory, which stays as it was.
    have hrun : ((h.setCache agent waiting).resolveMiss mesiHarness agent .miss downstream).2
        = h.setCache agent waiting := by
      rw [he] at hacc
      unfold resolveMiss
      simp only [hacc]
      rfl
    rw [hrun]
    exact ⟨hwaiting, .inl rfl⟩
  · -- Recorded, and then the snoops fail.
    rw [hhandle] at hacc
    have hrec : Stuck layout line Good { h.setCache agent waiting with
        directory := update h.directory line handled.after } :=
      hwaiting.record (haft _ ⟨waiting, h.setCache_self agent waiting, hwaits⟩)
    have hwaiter' : ∃ snoop ∈ handled.snoops, ({ h.setCache agent waiting with
        directory := update h.directory line handled.after } : MesiHarness).Waits snoop.target := by
      obtain ⟨snoop, hmem, d, hd, hdwaits⟩ := hwaiter
      have hne : snoop.target ≠ agent := fun h => hfree (h ▸ ⟨d, hd, hdwaits⟩)
      exact ⟨snoop, hmem, d, (h.setCache_of_ne _ hne).trans hd, hdwaits⟩
    rcases directoryResponse_lowered hevs hwaiter' downstream line (h.directory line) with
      ⟨e, h', he, hlow⟩
    unfold resolveMiss
    simp only [hacc]
    cases mesiHarness.fillEvent (handled.decision line downstream.id (h.directory line)) with
    | error e' => exact ⟨hrec, .inl rfl⟩
    | ok event =>
      have he' : directoryResponse mesiHarness { h.setCache agent waiting with
          directory := update h.directory line handled.after } downstream
          (handled.decision line downstream.id (h.directory line)) = (.error e, h') := he
      simp only [he']
      exact ⟨hrec.lowered hlow, .inl hlow.responses_eq⟩
  · -- A reader joins the sharers. Whoever waited among them still does.
    rw [hhandle] at hacc
    have hblocked : Blocked ⟨none, (h.directory line).sharers.insert agent⟩ h.Waits := by
      rcases hs.blocked with ⟨owner, recorded, howner', -⟩ | ⟨-, b, hmem, hw⟩
      · simp [howner] at howner'
      · exact .inr ⟨rfl, b, (mem_insert_iff _ _ _).mpr (.inr hmem), hw⟩
    have hjoined := hs.record hblocked
    have hput : ∀ d : MesiController, StuckCopy layout line Good agent d →
        d.state.isOwned = false → ∀ h' : MesiHarness, h'.caches = (h.setCache agent d).caches →
          h'.directory = update h.directory line ⟨none, (h.directory line).sharers.insert agent⟩ →
          Stuck layout line Good h' := by
      intro d hd hdlost h' hcaches hdir
      exact (hjoined.replace hd hdlost (fun hw => absurd hw hfree)).congr hcaches hdir
    have hset : ∀ d, update (update h.caches agent (some waiting)) agent
        (some d) = (h.setCache agent d).caches := fun d => update_idem ..
    -- Nobody is snooped and nothing written back: the backing line is asked at once.
    have hfill : mesiHarness.fillEvent (Handled.decision
        ⟨⟨none, (h.directory line).sharers.insert agent⟩, [], .shared, .backingMemory⟩ line
        downstream.id (h.directory line)) = .ok (some .dataShared) := rfl
    have hanswer : ∀ h₁ : MesiHarness, h₁.directoryResponse mesiHarness downstream
        (Handled.decision ⟨⟨none, (h.directory line).sharers.insert agent⟩, [], .shared,
          .backingMemory⟩ line downstream.id (h.directory line))
        = ((h₁.backing.respond downstream).1.mapError .backing,
            { h₁ with backing := (h₁.backing.respond downstream).2 }) := fun _ => rfl
    unfold resolveMiss
    simp only [hacc, hfill, hanswer]
    generalize (h.setCache agent waiting).backing.respond downstream = answer
    obtain ⟨answer, backing⟩ := answer
    cases answer with
    | error e => exact ⟨hput waiting hok hlost _ rfl rfl, .inl rfl⟩
    | ok response =>
      obtain ⟨hfok, hflost⟩ := acceptFill_unowned hok hwaits response
      have hpro : mesiHarness.protocol = mesi := rfl
      simp only [Except.mapError, setCache_self, hpro]
      generalize acceptFill mesi waiting response (some .dataShared) = filled at hfok hflost
      rcases filled with ⟨_ | fill, d⟩
      · exact ⟨hput d hfok hflost _ (hset d) rfl, .inl rfl⟩
      · exact passes_recorded hkind (hput d hfok hflost _ (hset d) rfl) rfl fill

/-! ## The step -/

/-- What a call can do, as far as good copies are concerned. Whatever was good
    still is, and nothing was stored; or the request was served on a good copy,
    answered or not. -/
inductive Effect (layout : CacheLineLayout) (Good : CopyPred) (call : Call)
    (reply : Option CpuResponseRecord) (Keeps : CopyPred → Prop) : Prop where
  | kept (hkeeps : Keeps Good)
      (hreply : ∀ record, reply = some record → record.status = .completed →
        call.request.carriesData = false)
  | served (record : CpuResponseRecord) (hreply : reply = some record)
      (hstatus : record.status = .completed) (data : List UInt8)
      (reservations : AgentId → Option Nat) (hgood : Good call.agent data reservations)
      (hreserved : call.request.operation = .storeConditional →
        reservations call.request.id.agent = some call.request.llscReservationAddress)
      (hkeeps : ∀ Good', Serves layout call.agent call.request Good Good' → Keeps Good')
  | unanswered (hreply : reply = none) (hcarry : call.request.carriesData = true)
      (hkeeps : ∀ Good', Serves layout call.agent call.request Good Good' → Keeps Good')

theorem carriesData_of_isCpuRead {req : MemoryRequest} (hread : isCpuRead req.operation = true) :
    req.carriesData = false := by
  unfold MemoryRequest.carriesData
  revert hread
  cases req.operation <;> decide

theorem effect_of_passes (reads : Prop) (hreads : reads → call.request.carriesData = false)
    (hp : Passes layout line Good h reads (h.next mesiHarness call)) :
    Effect layout Good call (h.reply mesiHarness call)
      fun G => Stuck layout line G (h.next mesiHarness call) := by
  rcases hp with ⟨hs, hsame | ⟨hread, record, hrecord⟩⟩
  · refine .kept hs (fun record hrep => ?_)
    simp [reply_of_same hsame] at hrep
  · exact .kept hs (fun _ _ _ => hreads hread)

/-- The owner is served on its copy. Nobody else is an owner, so nobody else's
    copy has to be good. -/
theorem finish_owner {c d oc} (hs : Stuck layout line Good h) (hc : h.caches call.agent = some c)
    (hcowned : c.state.isOwned = true) (hd : StuckCopy layout line Good call.agent d)
    (hdowned : d.state.isOwned = true)
    (res : SubmitResult (OwnerLine MesiState) MesiState MesiEvent)
    (hrun : h.submitCpuRequest mesiHarness call.agent call.request = oc)
    (hfin : oc = h.finish call.agent d call.request .hit res) :
    Effect layout Good call (h.reply mesiHarness call)
      fun G => Stuck layout line G (h.next mesiHarness call) := by
  have hnext : h.next mesiHarness call = oc.2 := congrArg Prod.snd hrun
  -- Put back, the owner's controller leaves everybody else as they were.
  have hput : ∀ (d' : MesiController) (Good' : CopyPred), StuckCopy layout line Good' call.agent d'
      → d'.state.isOwned = true → Stuck layout line Good' (h.setCache call.agent d') := by
    intro d' Good' hd' howned'
    have hoths : ∀ b e, b ≠ call.agent → h.caches b = some e → e.state.isOwned = false := by
      intro b e hb he
      cases howned : e.state.isOwned with
      | false => rfl
      | true => exact absurd (hs.single b call.agent e c he howned hc hcowned) hb
    have hself : ∀ b e, (h.setCache call.agent d').caches b = some e →
        e.state.isOwned = true → b = call.agent := by
      refine forall_setCache (fun _ => rfl) fun b e hb he howned => ?_
      cases (hoths b e hb he).symm.trans howned
    refine ⟨hs.aligned, forall_setCache hd' fun b e hb he => ?_,
      fun a b e e' he heowned he' heowned' => ?_, hs.blocked.mono fun b => waits_setCache ?_⟩
    · have hok := hs.copies b e he
      exact hok.lost rfl rfl rfl (hoths b e hb he)
    · rw [hself a e he heowned, hself b e' he' heowned']
    · rintro ⟨e, he, hwaits⟩
      rw [hc, Option.some.injEq] at he
      rw [← he] at hwaits
      cases (unowned_of_waits hwaits).symm.trans hcowned
  obtain ⟨data, hdata, hlen, hgood⟩ := hd.held hdowned
  have hspec : Completion d call.request data (d.completeCpuRequest call.request) :=
    completeCpuRequest_spec hdata (by rw [hd.layout_eq]; exact hlen)
  have hserved : ∀ (hfit : call.request.carriesData = true →
      call.request.lineOffset + call.request.size.bytes ≤ layout.bytes) (Good' : CopyPred),
      Serves layout call.agent call.request Good Good' →
      Stuck layout line Good' (h.setCache call.agent (d.afterServing call.request data)) := by
    intro hfit Good' hserves
    refine hput _ Good' ⟨hd.agent_eq, hd.layout_eq, hd.line_eq, fun _ => ?_⟩ hdowned
    refine ⟨call.request.lineEffect data, rfl, ?_, hserves.own data _ hlen hgood hfit⟩
    rw [call.request.lineEffect_length, hlen]
  rw [hfin] at hnext
  unfold finish at hnext
  generalize d.completeCpuRequest call.request = completion at hspec hnext
  cases hspec with
  | served hfit hreserved =>
    rw [hd.layout_eq] at hfit
    have hresp : (h.next mesiHarness call).cpuResponses = h.cpuResponses ++
        [⟨0, .hit, call.request.id, .completed, call.request.answer data⟩] := by
      rw [hnext]
      rfl
    refine .served _ (reply_of_append hresp) rfl data d.lockedReservations hgood
      (fun hop => ?_) (fun Good' hserves => ?_)
    · have hall := hreserved hop
      unfold storeConditionalAllowed at hall
      exact of_decide_eq_true hall
    · rw [hnext]
      exact (hserved (fun hcarry => hfit (.inl hcarry)) Good' hserves).congr rfl rfl
  | conditionFailed =>
    have hresp : (h.next mesiHarness call).cpuResponses = h.cpuResponses ++
        [⟨0, .hit, call.request.id, .storeConditionalFailed, none⟩] := by
      rw [hnext]
      rfl
    refine .kept ?_ (fun record hrecord hstatus => ?_)
    · rw [hnext]
      exact (hput d Good hd hdowned).congr rfl rfl
    · rw [reply_of_append hresp, Option.some.injEq] at hrecord
      simp [← hrecord] at hstatus
  | refused =>
    refine .kept ?_ (fun record hrecord => ?_)
    · rw [hnext]
      exact (hput d Good hd hdowned).congr rfl rfl
    · simp [reply_of_same (by rw [hnext]; rfl)] at hrecord
  | unanswered e hnone hcarry hfit =>
    rw [hd.layout_eq] at hfit
    refine .unanswered (reply_of_same (by rw [hnext]; rfl)) hcarry (fun Good' hserves => ?_)
    rw [hnext]
    exact (hserved (fun _ => hfit) Good' hserves).congr rfl rfl

theorem finish_sharer {c d res} (hs : Stuck layout line Good h) (hc : h.caches call.agent = some c)
    (hstab : c.state.isStable = true) (hsame : SameLine c d) (hlost : d.state.isOwned = false) :
    Passes layout line Good h True (h.finish call.agent d call.request .hit res).2 := by
  have hok := hs.copies call.agent c hc
  have hput : ∀ d' : MesiController, SameLine d d' →
      Stuck layout line Good (h.setCache call.agent d') := by
    intro d' hsame'
    have hlost' : d'.state.isOwned = false := by rw [hsame'.state_eq, hlost]
    refine hs.replace (hok.lost (hsame'.agent_eq.trans hsame.agent_eq)
      (hsame'.layout_eq.trans hsame.layout_eq) (hsame'.line_eq.trans hsame.line_eq) hlost')
      hlost' ?_
    rintro ⟨e, he, hwaits⟩
    rw [hc, Option.some.injEq] at he
    simp [← he, hstab] at hwaits
  have hsame' := completeCpuRequest_sameLine d call.request
  unfold finish
  generalize d.completeCpuRequest call.request = completion at hsame'
  rcases completion with ⟨_ | resp, d'⟩
  · exact ⟨hput d' hsame', .inl rfl⟩
  · have hres : (h.setCache call.agent d').cpuResponses = h.cpuResponses := rfl
    exact passes_recorded trivial (hput d' hsame') hres ⟨.hit, d'.state, none, some resp⟩

/-- No call makes an owner, and only the owner that is left stores. -/
theorem stuck_effect (hs : Stuck layout line Good h) :
    Effect layout Good call (h.reply mesiHarness call)
      fun G => Stuck layout line G (h.next mesiHarness call) := by
  have hent := submit_entry mesiHarness h call.agent call.request
  generalize hrun : h.submitCpuRequest mesiHarness call.agent call.request = oc at hent
  have hnext : h.next mesiHarness call = oc.2 := congrArg Prod.snd hrun
  have hquiet : h.next mesiHarness call = h → Effect layout Good call (h.reply mesiHarness call)
      fun G => Stuck layout line G (h.next mesiHarness call) := by
    intro hsame
    refine effect_of_passes False False.elim ?_
    rw [hsame]
    exact ⟨hs, .inl rfl⟩
  cases hent with
  | unknownAgent hc | wrongLine | unexpected | busy => exact hquiet hnext
  | idle c hc hop =>
    refine effect_of_passes True (fun _ => ?_) ?_
    · unfold MemoryRequest.carriesData
      rw [hop]
      rfl
    · rw [hnext]
      exact ⟨hs.congr rfl rfl, .inr ⟨trivial, _, rfl⟩⟩
  | admitted c hc hline hop hstab =>
    have hok := hs.copies call.agent c hc
    rcases mesi_sound.accepts c.state (isCpuRead call.request.operation) hstab with ⟨after, hstep⟩
    cases haft : mesi.isStable after with
    | true =>
      have hhit := submitCpuRequest_of_hit (R := mesiHarness) hc hline hop hstab hstep haft
      rw [hrun] at hhit
      -- An owner hits and stays one; a sharer hits when it reads.
      have hcases : (c.state.isOwned = true ∧ after.isOwned = true) ∨
          (isCpuRead call.request.operation = true ∧ after = c.state ∧ after.isOwned = false) := by
        revert hstep haft hstab
        generalize isCpuRead call.request.operation = read
        generalize c.state = st
        intro hstab hstep haft
        cases st <;> cases read <;> cases hstep <;> first
          | exact .inl ⟨rfl, rfl⟩
          | exact .inr ⟨rfl, rfl, rfl⟩
          | cases haft
      rcases hcases with ⟨hcowned, howned⟩ | ⟨hread, hsame, hlost⟩
      · refine finish_owner hs hc hcowned (d := { c with state := after })
          ⟨hok.agent_eq, hok.layout_eq, hok.line_eq, fun _ => hok.held hcowned⟩ howned _ hrun hhit
      · refine effect_of_passes True (fun _ => carriesData_of_isCpuRead hread) ?_
        have hkept : SameLine c { c with state := after } := ⟨hsame, rfl, rfl, rfl⟩
        rw [hnext, hhit]
        exact finish_sharer hs hc hstab hkept hlost
    | false =>
      have hmiss := submitCpuRequest_of_miss (R := mesiHarness) hc hline hop hstab hstep haft
      rw [hrun] at hmiss
      have hlost := unowned_of_waits haft
      rcases downstreamRequest_spec mesiHarness.protocol { c with state := after } call.request
        c.state (by rw [hok.layout_eq, hok.line_eq]; exact hs.aligned) with
          ⟨-, e, he⟩ | ⟨downstream, hd, hdown⟩
      · rw [he] at hmiss
        refine effect_of_passes False False.elim ?_
        rw [hnext, hmiss]
        exact ⟨hs.replace (hok.lost rfl rfl rfl hlost) hlost (fun _ => haft), .inl rfl⟩
      · rw [hd] at hmiss
        refine effect_of_passes (missKind mesi
          (isCpuRead call.request.operation) c.state = .readShared)
          (fun hkind => ?_) ?_
        · refine carriesData_of_isCpuRead ?_
          cases hread : isCpuRead call.request.operation with
          | true => rfl
          | false =>
            rw [hread, missKind] at hkind
            revert hkind
            cases mesi.upgradesFrom c.state <;> decide
        · rw [hnext, hmiss]
          exact resolveMiss_stuck hs hc hstab (hok.lost (d := { c with
              state := after
              nextSequence := c.nextSequence + 1
              pending := some ⟨call.request, downstream.id, mesi.missFillEvent after⟩ })
            rfl rfl rfl hlost) haft hdown.of_state

/-! ## How a harness gets stuck -/

/-- A decision that writes back is a read that displaces an owner. Not carried
    out, it leaves a record that its requester blocks. -/
theorem blocked_of_writesBack {record agent} {sts : AgentId → MesiState} {read : Bool}
    {waiting : MesiState} {waits : AgentId → Prop}
    {g : Granted mesiHarness mesiDiscipline record sts agent read waiting}
    (hwrites : g.writesBack = true) (hw : waits agent) : Blocked g.handled.after waits := by
  have hany := (g.writesBack_eq 0 ⟨0, 0⟩).trans hwrites
  have hsnoops : ∃ snoop ∈ g.handled.snoops, snoop.event = .snoopRead := by
    obtain ⟨snoop, hmem, hev⟩ := List.any_eq_true.mp hany
    exact ⟨snoop, hmem, of_decide_eq_true hev⟩
  have hquiet : ¬ ∀ snoop ∈ g.handled.snoops, snoop.event = .snoopWrite := by
    intro hall
    obtain ⟨snoop, hmem, hev⟩ := hsnoops
    simp [hall snoop hmem] at hev
  have hhandle := g.handle_eq 0
  cases hkind : missKind mesiHarness.protocol read (sts agent) with
  | readUnique =>
    rw [hkind] at hhandle
    refine absurd (fun snoop hmem => ?_) hquiet
    rw [← Except.ok.inj hhandle] at hmem
    exact snoopOthers_event snoop ((acceptReadUnique_snoops) ▸ hmem)
  | upgrade =>
    rw [hkind] at hhandle
    have hupgrade : OwnerLine.acceptUpgrade MesiState.modified MesiEvent.snoopWrite 0 record agent
        = .ok g.handled := hhandle
    unfold OwnerLine.acceptUpgrade at hupgrade
    refine absurd (fun snoop hmem => ?_) hquiet
    split at hupgrade
    · simp [← Except.ok.inj hupgrade] at hmem
    · split at hupgrade
      · rw [← Except.ok.inj hupgrade] at hmem
        exact snoopSharers_event snoop hmem
      · cases hupgrade
  | readShared =>
    rw [hkind] at hhandle
    have hread : mesiReadShared record agent = g.handled := Except.ok.inj hhandle
    obtain ⟨snoop, hmem, -⟩ := hsnoops
    rw [← hread] at hmem ⊢
    unfold mesiReadShared at hmem ⊢
    split at hmem
    · split at hmem
      · cases hmem
      · rename_i owner st _ hne
        simp only [if_neg hne]
        exact .inr ⟨rfl, agent, (mem_insert_iff _ _ _).mpr (.inl rfl), hw⟩
    · split at hmem <;> cases hmem

theorem Coherent.stuck_unwritten {c agent layout line}
    (hcoh : Coherent mesiHarness mesiDiscipline layout line size Good h)
    (hwaits : c.state.isStable = false) (hag : c.agent = agent) (hlayout : c.layout = layout)
    (hline : c.line = line) {read : Bool} {waiting : MesiState}
    {g : Granted mesiHarness mesiDiscipline (h.directory line) (h.states mesi) agent read waiting}
    (hwrites : g.writesBack = true) :
    Stuck layout line Good { h.setCache agent c with
      directory := update h.directory line g.handled.after } := by
  have hlost := unowned_of_waits hwaits
  have howned : ∀ {d : MesiController}, d.state.isOwned = true →
      d.state.isValid = true ∧ (d.state = .exclusive ∨ d.state = .modified) := by
    intro d
    cases d.state <;> decide
  -- An owner after the failure is one from before it.
  have hbef := of_setCache_owned h agent hlost
  refine ⟨hcoh.aligned, forall_setCache (h := h) ?_ fun b d _ hd => ?_,
    fun a b e d he heowned hd hdowned => ?_, ?_⟩
  · refine ⟨hag, hlayout, hline, fun hdowned => ?_⟩
    cases hlost.symm.trans hdowned
  · have hok := hcoh.copies b d hd
    refine ⟨hok.agent_eq, hok.layout_eq, hok.line_eq, fun hdowned => hok.held ?_⟩
    obtain ⟨hval, hst⟩ := howned hdowned
    show settled mesi d.state ≠ .invalid
    rw [mesi_settled, if_pos hval]
    rcases hst with hst | hst <;> rw [hst] <;> decide
  · have hest := mesi_states_of_cache (hbef a e he heowned) (howned heowned).1
    have hdst := mesi_states_of_cache (hbef b d hd hdowned) (howned hdowned).1
    have halone := (mesi_owned_alone hcoh.agree (by
      show h.states mesi a = .exclusive ∨ h.states mesi a = .modified
      rw [hest]
      exact (howned heowned).2)).1
    by_contra hne
    have hinv := halone b (fun h => hne h.symm)
    have hinv' : d.state = .invalid := hdst.symm.trans hinv
    rw [hinv'] at hdowned
    cases hdowned
  · simp only [update_self]
    exact blocked_of_writesBack hwrites ⟨c, h.setCache_self agent c, hwaits⟩

/-- A call on a coherent harness, unless the backing line is too short. -/
theorem coherent_effect (hcopyable : Copyable Good) (hlong : layout.bytes ≤ size)
    (hcoh : Coherent mesiHarness mesiDiscipline layout line size Good h) {call : Call} :
    Effect layout Good call (h.reply mesiHarness call) fun G =>
      Coherent mesiHarness mesiDiscipline layout line size G (h.next mesiHarness call) ∨
        Stuck layout line G (h.next mesiHarness call) := by
  have hout := submit_outcome mesi_sound hcopyable hcoh call.agent call.request (fun _ => trivial)
    (fun _ hunowned hlong => hcoh.backed hunowned hlong)
  generalize hrun : h.submitCpuRequest mesiHarness call.agent call.request = oc at hout
  have hnext : h.next mesiHarness call = oc.2 := congrArg Prod.snd hrun
  have hsilent : (h.next mesiHarness call).cpuResponses = h.cpuResponses →
      ∀ record, h.reply mesiHarness call = some record → record.status = .completed →
        call.request.carriesData = false := by
    intro hsame record hrecord
    simp [reply_of_same hsame] at hrecord
  cases hout with
  | served res h' kind data resvs hline hlen hgood hfit hreserved hcoherent hresp =>
    have hrep : h.reply mesiHarness call = _ := reply_of_append (by rw [hnext]; exact hresp)
    refine .served _ hrep rfl data resvs hgood hreserved (fun Good' hserves => .inl ?_)
    rw [hnext]
    exact hcoherent Good' hserves
  | idled res h' hop hcoherent =>
    refine .kept (.inl (by rw [hnext]; exact hcoherent)) (fun _ _ _ => ?_)
    unfold MemoryRequest.carriesData
    rw [hop]
    rfl
  | conditionFailed res h' kind hop hcoherent hresp =>
    have hrep : h.reply mesiHarness call = _ := reply_of_append (by rw [hnext]; exact hresp)
    refine .kept (.inl (by rw [hnext]; exact hcoherent)) (fun record hrecord hstatus => ?_)
    rw [hrep, Option.some.injEq] at hrecord
    simp [← hrecord] at hstatus
  | refused e h' why hcoherent hresp =>
    exact .kept (.inl (by rw [hnext]; exact hcoherent)) (hsilent (by rw [hnext]; exact hresp))
  | unanswered e h' hnone hcarry hcoherent hresp =>
    refine .unanswered (reply_of_same (by rw [hnext]; exact hresp)) hcarry
      (fun Good' hserves => .inl ?_)
    rw [hnext]
    exact hcoherent Good' hserves
  | starved => omega
  | unwritten e c waiting hsize hwaiting hst hag hlayout hline granted hwrites =>
    refine .kept (.inr ?_) (hsilent (by rw [hnext]; rfl))
    rw [hnext]
    exact hcoh.stuck_unwritten (by rw [hst]; exact hwaiting) hag hlayout hline hwrites

end Rem6.Coherence
