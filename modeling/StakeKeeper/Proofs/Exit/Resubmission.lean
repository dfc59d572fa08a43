import StakeKeeper.Proofs.Exit.Delivery
import StakeKeeper.Proofs.Exit.Evolution

/-!
Which exits are uploaded again. Main statement: `ExitTask.no_resubmission` (over the life of a task
only an exit that the service took and then denied having is uploaded twice).
-/
namespace StakeKeeper
set_option autoImplicit false

/-- What a history must be like for the exit of a validator to be uploaded after it: no listing
reported it, and every batch with it that was taken is followed by a listing without it. -/
structure Unsettled (history : List Step) (k : PubKey) : Prop where
  unreported : ∀ listing, .asked .escrowListing (.ok listing) ∈ history → ¬ Reports listing k
  denied : ∀ before exits outcome after,
    history = before ++ .asked (.uploadExits exits) (.ok outcome) :: after →
      outcome.isAccepted = true → k ∈ exits.map (·.pubkey) →
        ∃ listing rest, calls after = .asked .escrowListing (.ok listing) :: rest ∧
          ¬ Reports listing k

namespace Unsettled
variable {k : PubKey} {first second history : List Step}

theorem of_calls (h : Unsettled (calls history) k) : Unsettled history k := by
  refine ⟨fun listing hl => h.unreported listing (List.mem_filter.2 ⟨hl, rfl⟩), ?_⟩
  rintro before exits outcome after rfl accepted hk
  have hd := h.denied (calls before) exits outcome (calls after) (calls_append ..) accepted hk
  rwa [calls_calls] at hd

theorem append (h : Unsettled first k) (h' : Unsettled second k) :
    Unsettled (first ++ second) k := by
  refine ⟨fun listing hl => ?_, fun before exits outcome after split accepted hk => ?_⟩
  · exact (List.mem_append.1 hl).elim (h.unreported listing) (h'.unreported listing)
  · rcases append_eq_append_cons split with ⟨later, _, hsecond⟩ | ⟨more, hfirst, rfl⟩
    · exact h'.denied later exits outcome after hsecond accepted hk
    · obtain ⟨listing, rest, hcalls, hnot⟩ := h.denied before exits outcome more hfirst accepted hk
      refine ⟨listing, rest ++ calls second, (calls_append more second).trans ?_, hnot⟩
      rw [hcalls]
      rfl

theorem of_escrow_free (h : callsOf Request.isEscrow history = []) : Unsettled history k := by
  obtain ⟨hlisting, hupload⟩ := escrow_free h
  refine ⟨fun listing hl => ?_, ?_⟩
  · have hstep := callsOf_eq_nil_iff.1 hlisting _ hl
    cases hstep
  · rintro before exits outcome after rfl
    cases not_asks_of_split hupload

theorem listed {answer : Except CallError (List EscrowEntry)}
    (h : ∀ listing, answer = .ok listing → ¬ Reports listing k) :
    Unsettled [.asked .escrowListing answer] k := by
  refine ⟨fun listing hl => ?_, fun before exits outcome after split => ?_⟩
  · cases List.mem_singleton.1 hl
    exact h listing rfl
  · have hnone : callsOf Request.isUpload [.asked .escrowListing answer] = [] := rfl
    rw [split] at hnone
    cases not_asks_of_split hnone

theorem uploaded {exits : List ExitUpload} {answer : Except CallError UploadOutcome}
    (hnone : callsOf Request.isUpload second = []) (h : Unsettled second k)
    (hdenied : ∀ outcome, answer = .ok outcome → outcome.isAccepted = true →
      k ∈ exits.map (·.pubkey) → ∃ listing rest,
        calls second = .asked .escrowListing (.ok listing) :: rest ∧ ¬ Reports listing k) :
    Unsettled (.asked (.uploadExits exits) answer :: second) k := by
  refine ⟨fun listing hl => ?_, fun before exits' outcome after split accepted hk => ?_⟩
  · rcases List.mem_cons.1 hl with hfirst | hrest
    · cases hfirst
    · exact h.unreported listing hrest
  · obtain ⟨rfl, hs, rfl⟩ := split_unique rfl callsOf_nil hnone split.symm
    cases hs
    exact hdenied outcome rfl accepted hk

end Unsettled

/-! ## The exits of a batch -/

theorem not_mem_of_exitCandidates {cache : ExitCache} {records : List MinipoolRecord}
    {r : MinipoolRecord} (h : r ∈ exitCandidates cache records) : r.pubkey ∉ cache.sent := by
  have hr := (List.mem_filter.1 h).2
  rw [Bool.and_eq_true, Bool.not_eq_true'] at hr
  exact fun hk => Bool.eq_false_iff.1 hr.2 (ExitCache.contains_iff.2 hk)

theorem mem_withBeaconStatus {slot : UInt64} {statuses : PubKey → Option BeaconStatus}
    {records : List MinipoolRecord} {found : MinipoolRecord × UInt64}
    (h : found ∈ (withBeaconStatus slot statuses records).1) :
    ∃ r ∈ records, found.1.pubkey = r.pubkey := by
  induction records generalizing statuses with
  | nil => cases h
  | cons r rest ih =>
    have later (h : found ∈ (withBeaconStatus slot
        (fun k => if k = r.pubkey then none else statuses k) rest).1) :
        ∃ s ∈ r :: rest, found.1.pubkey = s.pubkey := by
      obtain ⟨s, hs, heq⟩ := ih h
      exact ⟨s, List.mem_cons_of_mem r hs, heq⟩
    unfold withBeaconStatus at h
    dsimp only at h
    split at h
    · exact later h
    · split at h
      · exact later h
      · rcases List.mem_cons.1 h with rfl | hrest
        · exact ⟨r, List.mem_cons_self, rfl⟩
        · exact later hrest

namespace ExitTask

theorem mem_exits {batch : ExitBatch} {config : BeaconConfig} {header : BlockHeader}
    {candidates : List MinipoolRecord} (gathered : batch.GatheredFor config header candidates)
    {k : PubKey} (hk : k ∈ batch.exits.map (·.pubkey)) : ∃ r ∈ candidates, r.pubkey = k := by
  obtain ⟨upload, hupload, rfl⟩ := List.mem_map.1 hk
  obtain ⟨answer, hanswer, hexit⟩ := List.mem_filterMap.1 hupload
  have hmem : (answer.record, answer.index) ∈
      (withBeaconStatus (config.slotAt batch.now) batch.statuses candidates).1 := by
    rw [gathered.eligible]
    exact List.mem_map_of_mem hanswer
  obtain ⟨r, hr, hpubkey⟩ := mem_withBeaconStatus hmem
  refine ⟨r, hr, ?_⟩
  rw [← hpubkey]
  unfold KeyAnswer.exit? at hexit
  split at hexit
  · cases hexit
    rfl
  · cases hexit

/-! ## One run -/

theorem Uploading.first {cache after : ExitCache} {exits : List ExitUpload} {steps : List Step}
    {result : Except TaskError Unit} (uploading : Uploading cache exits steps result after) :
    ∃ (answer : Except CallError UploadOutcome) (rest : List Step),
      steps = .asked (.uploadExits exits) answer :: rest ∧ callsOf Request.isUpload rest = [] := by
  cases uploading <;> exact ⟨_, _, rfl, rfl⟩

theorem Uploading.unsettled {cache after : ExitCache} {exits : List ExitUpload} {steps : List Step}
    {result : Except TaskError Unit} (uploading : Uploading cache exits steps result after)
    {k : PubKey} (hk : k ∉ after.sent) : k ∉ cache.sent ∧ Unsettled steps k := by
  cases uploading with
  | failed e => exact ⟨hk, .uploaded rfl (.of_escrow_free rfl) (by rintro _ ⟨⟩)⟩
  | rejected reason hrejected =>
    refine ⟨hk, .uploaded rfl (.of_escrow_free rfl) ?_⟩
    rintro _ ⟨⟩ accepted
    rw [hrejected] at accepted
    cases accepted
  | unconfirmed e accepted =>
    rw [ExitCache.mem_markAll, not_or] at hk
    refine ⟨hk.2, .uploaded rfl (.listed (by rintro _ ⟨⟩)) fun _ _ _ h => (hk.1 h).elim⟩
  | confirmed listing accepted =>
    rw [ExitCache.mem_markAll, not_or, mem_uploadedIn] at hk
    refine ⟨hk.2, .uploaded rfl (.listed ?_) fun _ _ _ _ => ⟨listing, [], rfl, hk.1⟩⟩
    rintro _ ⟨⟩
    exact hk.1

theorem Loaded.unsettled {cache after : ExitCache} {loading : List Step}
    (loaded : Loaded cache loading after) {k : PubKey} (hk : k ∉ after.sent) :
    k ∉ cache.sent ∧ Unsettled loading k := by
  cases loaded with
  | kept h => exact ⟨hk, .of_escrow_free rfl⟩
  | listed listing h =>
    have hmark : k ∉ (cache.markAll (uploadedIn listing)).sent := hk
    rw [ExitCache.mem_markAll, not_or, mem_uploadedIn] at hmark
    refine ⟨hmark.2, .listed ?_⟩
    rintro _ ⟨⟩
    exact hmark.1

/-- A key that a run leaves out of the cache was not in it, and the run did not settle it. -/
theorem Course.unsettled {task next : ExitTask} {snapshot : NetworkSnapshot} {steps : List Step}
    {result : Except TaskError Unit} (course : Course task snapshot steps (.done (result, next)))
    {k : PubKey} (hk : k ∉ next.sent.sent) : k ∉ task.sent.sent ∧ Unsettled steps k := by
  cases course with
  | unconfigured e => exact ⟨hk, .of_escrow_free rfl⟩
  | unlisted e known hnot =>
    exact ⟨hk, (Unsettled.of_escrow_free known.escrow).append (.listed (by rintro _ ⟨⟩))⟩
  | @going config asking loading steps cache _ known loaded exiting =>
    have hexiting : k ∉ cache.sent ∧ Unsettled steps k := by
      cases exiting with
      | ended h => exact ⟨hk, .of_escrow_free h⟩
      | @uploaded batch last result after gathered uploading =>
        obtain ⟨hcache, hlast⟩ := uploading.unsettled hk
        exact ⟨hcache, (Unsettled.of_escrow_free (batch.steps_escrow _ _)).append hlast⟩
    obtain ⟨htask, hloading⟩ := loaded.unsettled hexiting.1
    exact ⟨htask, (Unsettled.of_escrow_free known.escrow).append (hloading.append hexiting.2)⟩

theorem Exiting.uploads_unsettled {config : BeaconConfig} {cache : ExitCache}
    {header : BlockHeader} {records : List MinipoolRecord} {steps before after : List Step}
    {ending : Ending (Except TaskError Unit × ExitTask)} {exits : List ExitUpload}
    {answer : Except CallError UploadOutcome}
    (exiting : Exiting config cache header (exitCandidates cache records) steps ending)
    (split : steps = before ++ .asked (.uploadExits exits) answer :: after) {k : PubKey}
    (hk : k ∈ exits.map (·.pubkey)) : k ∉ cache.sent ∧ Unsettled before k := by
  cases exiting with
  | crashed c =>
    rcases before with _ | ⟨_, _⟩ <;> cases split
  | ended h =>
    subst split
    cases not_asks_of_split h
  | @uploaded batch last result after gathered uploading =>
    have hnone := batch.steps_escrow (config.slotAt batch.now) (exitCandidates cache records)
    obtain ⟨first, rfl, hfirst⟩ := split_append (escrow_free hnone).2 rfl split
    obtain ⟨_, rest, hlast, hrest⟩ := uploading.first
    obtain ⟨rfl, hs, _⟩ := split_unique rfl callsOf_nil hrest (hfirst.symm.trans hlast)
    cases hs
    obtain ⟨r, hr, rfl⟩ := mem_exits gathered hk
    rw [List.append_nil]
    exact ⟨not_mem_of_exitCandidates hr, .of_escrow_free hnone⟩

theorem Course.uploads_unsettled {task : ExitTask} {snapshot : NetworkSnapshot}
    {before after : List Step} {ending : Ending (Except TaskError Unit × ExitTask)}
    {exits : List ExitUpload} {answer : Except CallError UploadOutcome}
    (course : Course task snapshot (before ++ .asked (.uploadExits exits) answer :: after) ending)
    {k : PubKey} (hk : k ∈ exits.map (·.pubkey)) : k ∉ task.sent.sent ∧ Unsettled before k := by
  generalize hsteps : before ++ .asked (.uploadExits exits) answer :: after = steps at course
  have free {first : List Step} (h : callsOf Request.isUpload first = [])
      (same : first = before ++ .asked (.uploadExits exits) answer :: after) : False := by
    rw [same] at h
    cases not_asks_of_split h
  cases course with
  | unconfigured e => exact (free rfl hsteps.symm).elim
  | unlisted e known hnot =>
    refine (free ?_ hsteps.symm).elim
    rw [callsOf_append, (escrow_free known.escrow).2]
    rfl
  | @going config asking loading steps cache _ known loaded exiting =>
    obtain ⟨later, rfl, hlater⟩ := split_append (escrow_free known.escrow).2 rfl hsteps.symm
    obtain ⟨last, rfl, hsplit⟩ := split_append loaded.uploads rfl hlater
    obtain ⟨hcache, hlast⟩ := exiting.uploads_unsettled hsplit hk
    obtain ⟨htask, hloading⟩ := loaded.unsettled hcache
    exact ⟨htask, (Unsettled.of_escrow_free known.escrow).append (hloading.append hlast)⟩

theorem run_unsettled {task next : ExitTask} {snapshot : NetworkSnapshot} {history : List Step}
    {result : Except TaskError Unit} (ran : (run snapshot).Runs task history (.done (result, next)))
    {k : PubKey} (hk : k ∉ next.sent.sent) : k ∉ task.sent.sent ∧ Unsettled history k := by
  obtain ⟨htask, hcalls⟩ := (runs_course ran).unsettled hk
  exact ⟨htask, hcalls.of_calls⟩

theorem run_uploads_unsettled {task : ExitTask} {snapshot : NetworkSnapshot}
    {before after : List Step} {ending : Ending (Except TaskError Unit × ExitTask)}
    {exits : List ExitUpload} {answer : Except CallError UploadOutcome}
    (ran : (run snapshot).Runs task (before ++ .asked (.uploadExits exits) answer :: after) ending)
    {k : PubKey} (hk : k ∈ exits.map (·.pubkey)) : k ∉ task.sent.sent ∧ Unsettled before k := by
  have course := runs_course ran
  rw [calls_append] at course
  obtain ⟨htask, hcalls⟩ := course.uploads_unsettled hk
  exact ⟨htask, hcalls.of_calls⟩

/-! ## The life of a task -/

/-- A key that is not in the cache at the end of a history was not settled in it. -/
theorem lives_unsettled {first task : ExitTask} {history : List Step}
    (lives : StatefulRoutine.Lives run first history (.done task)) {k : PubKey}
    (hk : k ∉ task.sent.sent) : Unsettled history k := by
  generalize hending : Ending.done task = ending at lives
  induction lives generalizing task with
  | start => exact .of_escrow_free rfl
  | ran _ ran ih =>
    cases hending
    obtain ⟨hs, hmore⟩ := run_unsettled ran hk
    exact (ih hs rfl).append hmore
  | crashed => cases hending

/-- The invariant up to an upload: nothing before it settled what it uploads. -/
theorem lives_uploads_unsettled {first : ExitTask} {before after : List Step}
    {ending : Ending ExitTask} {exits : List ExitUpload} {answer : Except CallError UploadOutcome}
    (lives : StatefulRoutine.Lives run first
      (before ++ .asked (.uploadExits exits) answer :: after) ending)
    {k : PubKey} (hk : k ∈ exits.map (·.pubkey)) : Unsettled before k := by
  generalize hhistory : before ++ .asked (.uploadExits exits) answer :: after = history at lives
  have last {history later rest : List Step} {task : ExitTask} {snapshot : NetworkSnapshot}
      {ending : Ending (Except TaskError Unit × ExitTask)}
      (lives : StatefulRoutine.Lives run first history (.done task))
      (ran :
        (run snapshot).Runs task (later ++ .asked (.uploadExits exits) answer :: rest) ending) :
      Unsettled (history ++ later) k := by
    obtain ⟨htask, hlater⟩ := run_uploads_unsettled ran hk
    exact (lives_unsettled lives htask).append hlater
  induction lives generalizing after with
  | start => rcases before with _ | ⟨_, _⟩ <;> cases hhistory
  | ran lives ran ih | crashed lives ran ih =>
    rcases append_eq_append_cons hhistory.symm with ⟨later, rfl, rfl⟩ | ⟨more, rfl, _⟩
    · exact last lives ran
    · exact ih rfl

/-- What the uploads of a history keep to. -/
structure NoResubmission (history : List Step) : Prop where
  reported : ∀ before exits answer after,
    history = before ++ .asked (.uploadExits exits) answer :: after →
      ∀ listing, .asked .escrowListing (.ok listing) ∈ before →
        ∀ k ∈ exits.map (·.pubkey), ¬ Reports listing k
  unconfirmed : ∀ before exits outcome between e rest exits' answer after,
    history = before ++ .asked (.uploadExits exits) (.ok outcome) ::
      (between ++ .asked (.uploadExits exits') answer :: after) → outcome.isAccepted = true →
        calls between = .asked .escrowListing (.error e) :: rest →
          ∀ k ∈ exits.map (·.pubkey), k ∉ exits'.map (·.pubkey)
  repeated : ∀ before exits outcome between exits' answer after,
    history = before ++ .asked (.uploadExits exits) (.ok outcome) ::
      (between ++ .asked (.uploadExits exits') answer :: after) → outcome.isAccepted = true →
        ∀ k ∈ exits.map (·.pubkey), k ∈ exits'.map (·.pubkey) →
          ∃ listing rest, calls between = .asked .escrowListing (.ok listing) :: rest ∧
            ¬ Reports listing k

/-- In any number of runs of one task, no exit is uploaded that a listing has reported. One that was
uploaded and accepted is uploaded again only if the listing right after the upload was answered and
does not report it. -/
theorem no_resubmission {first : ExitTask} {history : List Step} {ending : Ending ExitTask}
    (lives : StatefulRoutine.Lives run first history ending) : NoResubmission history := by
  have denied {before between after : List Step} {exits exits' : List ExitUpload}
      {outcome : UploadOutcome} {answer : Except CallError UploadOutcome}
      (split : history = before ++ .asked (.uploadExits exits) (.ok outcome) ::
        (between ++ .asked (.uploadExits exits') answer :: after))
      (accepted : outcome.isAccepted = true) {k : PubKey} (hk : k ∈ exits.map (·.pubkey))
      (hk' : k ∈ exits'.map (·.pubkey)) :
      ∃ listing rest, calls between = .asked .escrowListing (.ok listing) :: rest ∧
        ¬ Reports listing k := by
    rw [← List.cons_append, ← List.append_assoc] at split
    subst split
    exact (lives_uploads_unsettled lives hk').denied before exits outcome between rfl accepted hk
  refine ⟨?_, ?_, ?_⟩
  · rintro before exits answer after rfl listing hl k hk
    exact (lives_uploads_unsettled lives hk).unreported listing hl
  · intro before exits outcome between e rest exits' answer after split accepted hfailed k hk hk'
    obtain ⟨listing, rest', hlisted, _⟩ := denied split accepted hk hk'
    rw [hfailed] at hlisted
    cases hlisted
  · intro before exits outcome between exits' answer after split accepted k hk hk'
    exact denied split accepted hk hk'

section

-- The range of instants is never computed with below.
seal Instant.ofNanos?

theorem no_resubmission_unconfirmed : ∃ history ending exits,
    StatefulRoutine.Lives run fresh history ending ∧ exits ≠ [] ∧
      callsOf Request.isUpload history = [.asked (.uploadExits exits) (.ok ⟨false, false⟩),
        .asked (.uploadExits exits) (.ok ⟨false, false⟩)] ∧ NoResubmission history := by
  let config : BeaconConfig := ⟨0, 12, 32, Bytes.zero 4⟩
  let k : PubKey := Vector.replicate 48 1
  let key : ValidatorKey := ⟨1, by decide, by decide⟩
  let listed : ExitTask := ⟨some config, { ExitCache.empty with initialized := true }⟩
  have hk : k ≠ Bytes.zero 48 := by decide
  -- The service takes each upload, and then lists nothing.
  obtain ⟨first, ran, huploads⟩ : ∃ history, (run (openSnapshot k)).Runs fresh history
      (.done (.ok (), listed)) ∧ callsOf Request.isUpload history = _ :=
    open_uploaded fresh (.asked config rfl) (.listed [] rfl) hk List.not_mem_nil key (.ok [])
  obtain ⟨second, ran', huploads'⟩ :=
    open_uploaded listed (.kept rfl) (.kept rfl) hk List.not_mem_nil key (.ok [])
  have lives : StatefulRoutine.Lives run fresh ([] ++ first ++ second) _ :=
    .ran (.ran .start ran) ran'
  refine ⟨_, _, (openBatch k key).exits, lives, openBatch_exits k key, ?_, no_resubmission lives⟩
  rw [callsOf_append, callsOf_append, huploads, huploads']
  rfl

end

end ExitTask

end StakeKeeper
