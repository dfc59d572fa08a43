import StakeKeeper.Proofs.Exit.Course

/-!
Runs of the exit task in which an upload is accepted. Main statement: `ExitTask.run_uploads` (what
is gathered is uploaded, and the cache takes in what the service says then).
-/
namespace StakeKeeper
set_option autoImplicit false

namespace ExitTask
variable (task : ExitTask)

theorem config_runs {asking : List Step} {known : BeaconConfig}
    (h : ConfigKnown task asking known) :
    config.Runs task asking (.done (.ok known, ⟨some known, task.sent⟩)) := by
  refine StatefulRoutine.runs_get_bind_iff.2 ?_
  obtain ⟨knownConfig, sent⟩ := task
  cases h with
  | kept hk =>
    cases hk
    exact ⟨rfl, rfl⟩
  | asked known hk =>
    cases hk
    exact StatefulRoutine.runs_call_bind_iff.2 (.inr ⟨known, [], rfl, rfl, rfl⟩)

theorem load_runs {loading : List Step} {cache : ExitCache} (h : Loaded task.sent loading cache) :
    ∃ history, load.Runs task history (.done (.ok (), { task with sent := cache })) ∧
      calls history = loading := by
  cases h with
  | kept hk =>
    refine ⟨[], StatefulRoutine.runs_get_bind_iff.2 ?_, rfl⟩
    rw [if_pos hk]
    exact ⟨rfl, rfl⟩
  | listed listing hk =>
    let loaded : Event := .uploadedExitsLoaded (task.sent.markAll (uploadedIn listing)).size
    refine ⟨[.asked .escrowListing (.ok listing), .noted loaded], ?_, rfl⟩
    refine StatefulRoutine.runs_get_bind_iff.2 ?_
    rw [if_neg (Bool.eq_false_iff.1 hk)]
    refine StatefulRoutine.runs_call_bind_iff.2 (.inr ⟨listing, _, rfl, ?_⟩)
    refine StatefulRoutine.runs_modify_bind_iff.2 (StatefulRoutine.runs_get_bind_iff.2 ?_)
    exact StatefulRoutine.runs_note_iff.2 ⟨rfl, rfl⟩

theorem signExits_runs (epoch : UInt64) (domain : Root) (answers : List KeyAnswer) :
    ∃ history, (signExits epoch domain (answers.map fun k => (k.record, k.index))).Runs history
        (.done (answers.filterMap (·.exit? epoch domain))) ∧
      calls history = answers.map (·.step) := by
  induction answers with
  | nil => exact ⟨[], ⟨rfl, rfl⟩, rfl⟩
  | cons k rest ih =>
    obtain ⟨history, signing, hcalls⟩ := ih
    obtain ⟨record, index, answer⟩ := k
    rcases answer with e | _ | key
    · exact ⟨_, ⟨.error e, _, rfl, _, rfl, signing⟩, congrArg _ hcalls⟩
    · exact ⟨_, ⟨.ok none, _, rfl, _, rfl, signing⟩, congrArg _ hcalls⟩
    · have signed : Routine.Runs (do
          let exits ← signExits epoch domain (rest.map fun k => (k.record, k.index))
          pure (⟨record.pubkey, signExit key ⟨epoch, index⟩ domain⟩ :: exits)) history _ :=
        Routine.Runs.bind_iff.2 (.inr ⟨_, history, [], (List.append_nil _).symm, signing, rfl, rfl⟩)
      exact ⟨_, ⟨.ok (some key), history, rfl, signed⟩, congrArg _ hcalls⟩

/-- What a cache becomes with the answer to the listing after an accepted upload. -/
def requeried (cache : ExitCache) (exits : List ExitUpload) :
    Except CallError (List EscrowEntry) → ExitCache
  | .error _ => cache.markAll (exits.map (·.pubkey))
  | .ok listing => cache.markAll (uploadedIn listing)

theorem reconcile_runs (exits : List ExitUpload) (answer : Except CallError (List EscrowEntry)) :
    ∃ history, (reconcile (exits.map (·.pubkey))).Runs task history
        (.done (.ok (), { task with sent := requeried task.sent exits answer })) ∧
      calls history = [.asked .escrowListing answer] := by
  rcases answer with e | listing
  · let failed : Event := .confirmationFailed e (exits.map (·.pubkey)).length
    refine ⟨[.asked .escrowListing (.error e), .noted failed], ?_, rfl⟩
    exact ⟨.error e, _, rfl, _, rfl, rfl, rfl⟩
  · let confirmed := uploadedIn listing
    let submitted := exits.map (·.pubkey)
    let elsewhere := confirmed.filter fun k => !task.sent.contains k && !submitted.contains k
    let unconfirmed := submitted.filter fun k => !confirmed.contains k
    refine ⟨.asked .escrowListing (.ok listing) ::
      (((elsewhere.mergeSort Bytes.le).map Event.uploadedElsewhere).map .noted ++
        (unconfirmed.map Event.uploadUnconfirmed).map .noted), ?_, ?_⟩
    · refine StatefulRoutine.runs_attempt_bind_iff.2 ⟨.ok listing, _, rfl, ?_⟩
      refine StatefulRoutine.runs_get_bind_iff.2 (StatefulRoutine.runs_modify_bind_iff.2 ?_)
      refine StatefulRoutine.runs_noteAll_bind_iff.2 ⟨_, rfl, ?_⟩
      exact StatefulRoutine.runs_noteAll_iff.2 ⟨rfl, rfl⟩
    · rw [calls_asked, calls_append, calls_events, calls_events]
      rfl

theorem upload_runs (epoch : UInt64) (exits : List ExitUpload)
    (answer : Except CallError (List EscrowEntry)) :
    ∃ history, (upload epoch exits).Runs task history
        (.done (.ok (), { task with sent := requeried task.sent exits answer })) ∧
      calls history = [.asked (.uploadExits exits) (.ok ⟨false, false⟩),
        .asked .escrowListing answer] := by
  obtain ⟨history, reconciling, hcalls⟩ := reconcile_runs task exits answer
  refine ⟨.asked (.uploadExits exits) (.ok ⟨false, false⟩) ::
    .noted (.exitsUploaded exits.length epoch) :: history, ?_, congrArg _ hcalls⟩
  refine StatefulRoutine.runs_call_bind_iff.2 (.inr ⟨⟨false, false⟩, _, rfl, ?_⟩)
  exact StatefulRoutine.runs_note_bind_iff.2 ⟨history, rfl, reconciling⟩

section

-- The range of instants is never computed with below.
seal Instant.ofNanos?

theorem exitFrom_runs {config : BeaconConfig} {snapshot : NetworkSnapshot}
    {candidates : List MinipoolRecord} {batch : ExitBatch}
    (gathered : batch.GatheredFor config snapshot.header candidates)
    (answer : Except CallError (List EscrowEntry)) :
    ∃ history, (exitFrom config snapshot candidates).Runs task history
        (.done (.ok (), { task with sent := requeried task.sent batch.exits answer })) ∧
      calls history = batch.steps (config.slotAt batch.now) candidates ++
        [.asked (.uploadExits batch.exits) (.ok ⟨false, false⟩), .asked .escrowListing answer] := by
  obtain ⟨signing, hsigning, hkeys⟩ : ∃ signing, (signExits batch.head.finalizedEpoch batch.domain
      (batch.answers.map fun k => (k.record, k.index))).Runs signing (.done batch.exits) ∧
        calls signing = batch.answers.map (·.step) := signExits_runs ..
  obtain ⟨uploading, huploading, hcalls⟩ :=
    upload_runs task batch.head.finalizedEpoch batch.exits answer
  let slot := config.slotAt batch.now
  let events := (withBeaconStatus slot batch.statuses candidates).2
  have hselected : withBeaconStatus slot batch.statuses candidates =
      (batch.answers.map (fun k => (k.record, k.index)), events) :=
    Prod.ext gathered.eligible rfl
  have hsome : (batch.answers.map fun k => (k.record, k.index)).isEmpty = false := by
    cases h : batch.answers with
    | nil => exact (gathered.signed (by rw [ExitBatch.exits, h]; rfl)).elim
    | cons k rest => rfl
  refine ⟨.asked (.validatorStatuses (candidates.map (·.pubkey)) (some slot))
      (.ok batch.statuses) ::
    (events.map .noted ++ .asked .chainHead (.ok batch.head) ::
      .asked (.signingDomain .voluntaryExit batch.head.finalizedEpoch) (.ok batch.domain) ::
        (signing ++ uploading)), ?_, ?_⟩
  · refine StatefulRoutine.runs_orCrash_bind_iff.2 (.inl ⟨batch.now, gathered.time, ?_⟩)
    refine StatefulRoutine.runs_call_bind_iff.2 (.inr ⟨batch.statuses, _, rfl, ?_⟩)
    rw [hselected]
    refine StatefulRoutine.runs_noteAll_bind_iff.2 ⟨_, rfl, ?_⟩
    rw [hsome]
    refine StatefulRoutine.runs_call_bind_iff.2 (.inr ⟨batch.head, _, rfl, ?_⟩)
    refine StatefulRoutine.runs_call_bind_iff.2 (.inr ⟨batch.domain, _, rfl, ?_⟩)
    refine StatefulRoutine.runs_ofRoutine_bind_iff.2
      (.inr ⟨_, signing, uploading, rfl, hsigning, ?_⟩)
    rw [if_neg fun h => gathered.signed (List.isEmpty_iff.1 h)]
    exact huploading
  · rw [calls_asked, calls_append, calls_events, List.nil_append, calls_asked, calls_asked,
      calls_append, hkeys, hcalls]
    rfl

/-- When a batch is gathered and accepted, a run uploads it and asks for the listing again. The
cache that it leaves depends on that answer. -/
theorem run_uploads {snapshot : NetworkSnapshot} {config : BeaconConfig}
    {asking loading : List Step} {cache : ExitCache} {batch : ExitBatch}
    (known : ConfigKnown task asking config) (loaded : Loaded task.sent loading cache)
    (gathered : batch.GatheredFor config snapshot.header (exitCandidates cache snapshot.validators))
    (answer : Except CallError (List EscrowEntry)) :
    ∃ history, (run snapshot).Runs task history
        (.done (.ok (), ⟨some config, requeried cache batch.exits answer⟩)) ∧
      calls history = asking ++ (loading ++
        (batch.steps (config.slotAt batch.now) (exitCandidates cache snapshot.validators) ++
          [.asked (.uploadExits batch.exits) (.ok ⟨false, false⟩),
            .asked .escrowListing answer])) := by
  obtain ⟨loads, hloads, hloading⟩ := load_runs ⟨some config, task.sent⟩ loaded
  obtain ⟨exiting, hexiting, hcalls⟩ := exitFrom_runs ⟨some config, cache⟩ gathered answer
  refine ⟨asking ++ (loads ++ exiting), ?_, ?_⟩
  · refine (config_runs task known).bind (hloads.bind (StatefulRoutine.runs_get_bind_iff.2 ?_))
    split
    · next hnone =>
      have hempty := gathered.eligible
      rw [hnone] at hempty
      have hanswers : batch.answers = [] := List.map_eq_nil_iff.1 hempty.symm
      exact (gathered.signed (by rw [ExitBatch.exits, hanswers]; rfl)).elim
    · exact hexiting
  · have hasking : calls asking = asking := by cases known <;> rfl
    rw [calls_append, hasking, calls_append, hloading, hcalls]

/-! ## A minipool that is open -/

def openRecord (k : PubKey) : MinipoolRecord where
  node := Bytes.zero 20
  address := Bytes.zero 20
  known := true
  status := .staking
  statusTime := .epoch
  pubkey := k
  credentials := Bytes.zero 32
  beacon := none

def openSnapshot (k : PubKey) : NetworkSnapshot :=
  ⟨⟨7, Bytes.zero 32, 2⟩, ⟨.ofSecs 1, .ofSecs 10, .zero⟩, Bytes.zero 20, 1, [openRecord k]⟩

def activeStatus : BeaconStatus := ⟨some 5, 32000000000, .activeOngoing⟩

def openBatch (k : PubKey) (key : ValidatorKey) : ExitBatch where
  now := ⟨2000000000, by decide, by decide⟩
  statuses := fun _ => some activeStatus
  head := ⟨320, 8⟩
  domain := Bytes.zero 32
  answers := [⟨{ openRecord k with beacon := some activeStatus }, 5, .ok (some key)⟩]

theorem openBatch_exits (k : PubKey) (key : ValidatorKey) : (openBatch k key).exits ≠ [] :=
  List.cons_ne_nil _ _

theorem openBatch_gathered {k : PubKey} {cache : ExitCache} (hk : k ≠ Bytes.zero 48)
    (hcache : k ∉ cache.sent) (key : ValidatorKey) (config : BeaconConfig) :
    (openBatch k key).GatheredFor config (openSnapshot k).header
      (exitCandidates cache (openSnapshot k).validators) := by
  have hcontains : cache.contains k = false :=
    Bool.eq_false_iff.2 fun h => hcache (ExitCache.contains_iff.1 h)
  have hcandidates : exitCandidates cache [openRecord k] = [openRecord k] := by
    refine List.filter_cons_of_pos ?_
    show (true && true && k != Bytes.zero 48 && !cache.contains k) = true
    rw [hcontains, bne_iff_ne.2 hk]
    rfl
  have htime : Instant.ofSecs? 2 = some ⟨2000000000, by decide, by decide⟩ :=
    Instant.ofNanos?_eq_some_iff.2 (by decide)
  refine ⟨htime, ?_, openBatch_exits k key⟩
  show (withBeaconStatus _ _ (exitCandidates cache [openRecord k])).1 = _
  rw [hcandidates]
  rfl

theorem open_uploaded {k : PubKey} {config : BeaconConfig} {asking loading : List Step}
    {cache : ExitCache} (known : ConfigKnown task asking config)
    (loaded : Loaded task.sent loading cache) (hk : k ≠ Bytes.zero 48) (hcache : k ∉ cache.sent)
    (key : ValidatorKey) (answer : Except CallError (List EscrowEntry)) :
    ∃ history, (run (openSnapshot k)).Runs task history
        (.done (.ok (), ⟨some config, requeried cache (openBatch k key).exits answer⟩)) ∧
      callsOf Request.isUpload history =
        [.asked (.uploadExits (openBatch k key).exits) (.ok ⟨false, false⟩)] := by
  obtain ⟨history, ran, hcalls⟩ :=
    run_uploads task known loaded (openBatch_gathered hk hcache key config) answer
  refine ⟨history, ran, ?_⟩
  have hasking := (escrow_free known.escrow).2
  rw [← callsOf_calls, hcalls, callsOf_append, hasking, callsOf_append, loaded.uploads]
  rfl

end

end ExitTask

end StakeKeeper
