import StakeKeeper.Exit.Task
import StakeKeeper.Proofs.Questions

/-!
The courses that a run of the exit task can take. Main statement: `ExitTask.runs_course` (every run
takes one of them, whatever the collaborators answer).
-/
namespace StakeKeeper
set_option autoImplicit false

/-! ## Kinds of calls -/

namespace Request

def isListing : Request → Bool
  | escrowListing => true
  | _ => false

def isUpload : Request → Bool
  | uploadExits _ => true
  | _ => false

def isEscrow (q : Request) : Bool := q.isListing || q.isUpload

end Request

theorem escrow_free {steps : List Step} (h : callsOf Request.isEscrow steps = []) :
    callsOf Request.isListing steps = [] ∧ callsOf Request.isUpload steps = [] :=
  callsOf_or_eq_nil h

/-! ## Signing -/

/-- A record with its validator's index, and the key store's answer for it. -/
structure KeyAnswer where
  record : MinipoolRecord
  index : UInt64
  answer : Except CallError (Option ValidatorKey)

namespace KeyAnswer

def step (k : KeyAnswer) : Step := .asked (.loadKey k.record.pubkey) k.answer

def exit? (epoch : UInt64) (domain : Root) (k : KeyAnswer) : Option ExitUpload :=
  match k.answer with
  | .ok (some key) => some ⟨k.record.pubkey, signExit key ⟨epoch, k.index⟩ domain⟩
  | _ => none

end KeyAnswer

namespace ExitTask

theorem runs_signExits {epoch : UInt64} {domain : Root} {eligible : List (MinipoolRecord × UInt64)}
    {history : List Step} {ending : Ending (List ExitUpload)}
    (ran : (signExits epoch domain eligible).Runs history ending) :
    ∃ answers : List KeyAnswer, eligible = answers.map (fun k => (k.record, k.index)) ∧
      calls history = answers.map (·.step) ∧
        ending = .done (answers.filterMap (·.exit? epoch domain)) := by
  induction eligible generalizing history ending with
  | nil =>
    obtain ⟨rfl, rfl⟩ := ran
    exact ⟨[], rfl, rfl, rfl⟩
  | cons first rest ih =>
    obtain ⟨record, index⟩ := first
    obtain ⟨answer, more, rfl, going⟩ := ran
    rcases answer with e | _ | key
    · obtain ⟨later, rfl, signing⟩ := going
      obtain ⟨answers, rfl, hcalls, rfl⟩ := ih signing
      exact ⟨⟨record, index, .error e⟩ :: answers, rfl, congrArg _ hcalls, rfl⟩
    · obtain ⟨later, rfl, signing⟩ := going
      obtain ⟨answers, rfl, hcalls, rfl⟩ := ih signing
      exact ⟨⟨record, index, .ok none⟩ :: answers, rfl, congrArg _ hcalls, rfl⟩
    · have signed : Routine.Runs (do
          let exits ← signExits epoch domain rest
          pure (⟨record.pubkey, signExit key ⟨epoch, index⟩ domain⟩ :: exits)) more ending := going
      rcases Routine.Runs.bind_iff.1 signed with
        ⟨c, _, signing⟩ | ⟨exits, first, last, rfl, signing, rfl, rfl⟩
      · obtain ⟨_, _, _, hc⟩ := ih signing
        cases hc
      · obtain ⟨answers, rfl, hcalls, he⟩ := ih signing
        cases he
        rw [List.append_nil]
        exact ⟨⟨record, index, .ok (some key)⟩ :: answers, rfl, congrArg _ hcalls, rfl⟩

/-! ## Uploading -/

/-- The calls from the upload on, what they come to and the cache that they leave. -/
inductive Uploading (cache : ExitCache) (exits : List ExitUpload) :
    List Step → Except TaskError Unit → ExitCache → Prop
  | failed (e : CallError) :
      Uploading cache exits [.asked (.uploadExits exits) (.error e)] (.error (.call e)) cache
  | rejected {outcome : UploadOutcome} (reason : String) :
      outcome.isAccepted = false →
        Uploading cache exits [.asked (.uploadExits exits) (.ok outcome)]
          (.error (.rejected reason)) cache
  | unconfirmed {outcome : UploadOutcome} (e : CallError) :
      outcome.isAccepted = true →
        Uploading cache exits
          [.asked (.uploadExits exits) (.ok outcome), .asked .escrowListing (.error e)] (.ok ())
          (cache.markAll (exits.map (·.pubkey)))
  | confirmed {outcome : UploadOutcome} (listing : List EscrowEntry) :
      outcome.isAccepted = true →
        Uploading cache exits
          [.asked (.uploadExits exits) (.ok outcome), .asked .escrowListing (.ok listing)] (.ok ())
          (cache.markAll (uploadedIn listing))

variable {task : ExitTask} {history : List Step}

theorem runs_reconcile {submitted : List PubKey}
    {ending : Ending (Except TaskError Unit × ExitTask)}
    (ran : (reconcile submitted).Runs task history ending) :
    (∃ e, calls history = [.asked .escrowListing (.error e)] ∧
        ending = .done (.ok (), { task with sent := task.sent.markAll submitted })) ∨
      ∃ listing, calls history = [.asked .escrowListing (.ok listing)] ∧
        ending = .done (.ok (), { task with sent := task.sent.markAll (uploadedIn listing) }) := by
  obtain ⟨answer, rest, rfl, going⟩ := StatefulRoutine.runs_attempt_bind_iff.1 ran
  rcases answer with e | (listing : List EscrowEntry)
  · obtain ⟨later, rfl, marking⟩ := StatefulRoutine.runs_note_bind_iff.1 going
    obtain ⟨rfl, rfl⟩ := StatefulRoutine.runs_modify_iff.1 marking
    exact .inl ⟨e, rfl, rfl⟩
  · have marked :=
      StatefulRoutine.runs_modify_bind_iff.1 (StatefulRoutine.runs_get_bind_iff.1 going)
    obtain ⟨later, rfl, noting⟩ := StatefulRoutine.runs_noteAll_bind_iff.1 marked
    obtain ⟨rfl, rfl⟩ := StatefulRoutine.runs_noteAll_iff.1 noting
    refine .inr ⟨listing, ?_, rfl⟩
    rw [calls_asked, calls_append, calls_events, calls_events]
    rfl

theorem runs_upload {epoch : UInt64} {exits : List ExitUpload}
    {ending : Ending (Except TaskError Unit × ExitTask)}
    (ran : (upload epoch exits).Runs task history ending) :
    ∃ result cache, ending = .done (result, { task with sent := cache }) ∧
      Uploading task.sent exits (calls history) result cache := by
  rcases StatefulRoutine.runs_call_bind_iff.1 ran with
    ⟨e, rfl, rfl⟩ | ⟨(outcome : UploadOutcome), rest, rfl, deciding⟩
  · exact ⟨_, _, rfl, .failed e⟩
  split at deciding
  · next hr =>
    obtain ⟨rfl, rfl⟩ := StatefulRoutine.runs_throw_iff.1 deciding
    exact ⟨_, _, rfl, .rejected _ (by simp [UploadOutcome.isAccepted, hr])⟩
  split at deciding
  · next hr ha =>
    obtain ⟨rfl, rfl⟩ := StatefulRoutine.runs_throw_iff.1 deciding
    exact ⟨_, _, rfl, .rejected _ (by simp [UploadOutcome.isAccepted, ha])⟩
  · next hr ha =>
    have accepted : outcome.isAccepted = true := by simp [UploadOutcome.isAccepted, hr, ha]
    obtain ⟨later, rfl, reconciling⟩ := StatefulRoutine.runs_note_bind_iff.1 deciding
    rw [calls_asked, calls_noted]
    rcases runs_reconcile reconciling with ⟨e, hcalls, rfl⟩ | ⟨listing, hcalls, rfl⟩
    · exact ⟨_, _, rfl, hcalls ▸ .unconfirmed e accepted⟩
    · exact ⟨_, _, rfl, hcalls ▸ .confirmed listing accepted⟩

end ExitTask

/-! ## Batches -/

/-- What a run has gathered by the time it uploads a batch. -/
structure ExitBatch where
  now : Instant
  statuses : PubKey → Option BeaconStatus
  head : ChainHead
  domain : Root
  answers : List KeyAnswer

namespace ExitBatch

def exits (batch : ExitBatch) : List ExitUpload :=
  batch.answers.filterMap (·.exit? batch.head.finalizedEpoch batch.domain)

def steps (batch : ExitBatch) (slot : UInt64) (candidates : List MinipoolRecord) : List Step :=
  .asked (.validatorStatuses (candidates.map (·.pubkey)) (some slot)) (.ok batch.statuses) ::
    .asked .chainHead (.ok batch.head) ::
      .asked (.signingDomain .voluntaryExit batch.head.finalizedEpoch) (.ok batch.domain) ::
        batch.answers.map (·.step)

theorem steps_escrow (batch : ExitBatch) (slot : UInt64) (candidates : List MinipoolRecord) :
    callsOf Request.isEscrow (batch.steps slot candidates) = [] :=
  callsOf_map_of_neg (fun _ => rfl) batch.answers

/-- Whether a batch was gathered for candidates: one key was asked for each that can exit. -/
structure GatheredFor (batch : ExitBatch) (config : BeaconConfig) (header : BlockHeader)
    (candidates : List MinipoolRecord) : Prop where
  time : header.time? = some batch.now
  eligible : (withBeaconStatus (config.slotAt batch.now) batch.statuses candidates).1 =
    batch.answers.map fun k => (k.record, k.index)
  signed : batch.exits ≠ []

end ExitBatch

namespace ExitTask

/-- The calls of a run once its constants and cache are known, and how the run ends. -/
inductive Exiting (config : BeaconConfig) (cache : ExitCache) (header : BlockHeader)
    (candidates : List MinipoolRecord) :
    List Step → Ending (Except TaskError Unit × ExitTask) → Prop
  | crashed (c : Crash) : Exiting config cache header candidates [] (.crashed c)
  | ended {steps : List Step} {result : Except TaskError Unit} :
      callsOf Request.isEscrow steps = [] →
        Exiting config cache header candidates steps (.done (result, ⟨some config, cache⟩))
  | uploaded {batch : ExitBatch} {steps : List Step} {result : Except TaskError Unit}
      {after : ExitCache} :
      batch.GatheredFor config header candidates →
        Uploading cache batch.exits steps result after →
          Exiting config cache header candidates
            (batch.steps (config.slotAt batch.now) candidates ++ steps)
            (.done (result, ⟨some config, after⟩))

section

-- The range of instants is never computed with below.
seal Instant.ofNanos?

theorem runs_exitFrom {config : BeaconConfig} {cache : ExitCache} {snapshot : NetworkSnapshot}
    {candidates : List MinipoolRecord} {history : List Step}
    {ending : Ending (Except TaskError Unit × ExitTask)}
    (ran : (exitFrom config snapshot candidates).Runs ⟨some config, cache⟩ history ending) :
    Exiting config cache snapshot.header candidates (calls history) ending := by
  rcases StatefulRoutine.runs_orCrash_bind_iff.1 ran with ⟨now, hnow, going⟩ | ⟨_, rfl, rfl⟩
  · rcases StatefulRoutine.runs_call_bind_iff.1 going with
      ⟨e, rfl, rfl⟩ | ⟨(statuses : PubKey → Option BeaconStatus), rest, rfl, selecting⟩
    · exact .ended rfl
    generalize hselected :
      withBeaconStatus (config.slotAt now) statuses candidates = selected at selecting
    obtain ⟨eligible, events⟩ := selected
    obtain ⟨later, rfl, noted⟩ := StatefulRoutine.runs_noteAll_bind_iff.1 selecting
    rw [calls_asked, calls_append, calls_events, List.nil_append]
    split at noted
    · obtain ⟨rfl, rfl⟩ := StatefulRoutine.runs_pure_iff.1 noted
      exact .ended rfl
    rcases StatefulRoutine.runs_call_bind_iff.1 noted with
      ⟨e, rfl, rfl⟩ | ⟨(head : ChainHead), later, rfl, finding⟩
    · exact .ended rfl
    rcases StatefulRoutine.runs_call_bind_iff.1 finding with
      ⟨e, rfl, rfl⟩ | ⟨(domain : Root), later, rfl, signing⟩
    · exact .ended rfl
    rw [calls_asked, calls_asked]
    rcases StatefulRoutine.runs_ofRoutine_bind_iff.1 signing with
      ⟨c, rfl, loading⟩ | ⟨exits, first, last, rfl, loading, uploading⟩
    · obtain ⟨_, _, _, hc⟩ := runs_signExits loading
      cases hc
    obtain ⟨answers, rfl, hloads, he⟩ := runs_signExits loading
    cases he
    let batch : ExitBatch := ⟨now, statuses, head, domain, answers⟩
    rw [calls_append, hloads]
    split at uploading
    · obtain ⟨rfl, rfl⟩ := StatefulRoutine.runs_pure_iff.1 uploading
      rw [calls_nil, List.append_nil]
      exact .ended (batch.steps_escrow _ candidates)
    next hsome =>
    obtain ⟨result, after, rfl, uploaded⟩ := runs_upload uploading
    have gathered : batch.GatheredFor config snapshot.header candidates := by
      refine ⟨hnow, ?_, fun h => hsome (List.isEmpty_iff.2 h)⟩
      show (withBeaconStatus (config.slotAt now) statuses candidates).1 = _
      rw [hselected]
    exact .uploaded gathered uploaded
  · exact .crashed _

/-! ## One run -/

/-- The calls by which the task has the constants of the beacon chain. -/
inductive ConfigKnown (task : ExitTask) : List Step → BeaconConfig → Prop
  | kept {config : BeaconConfig} : task.knownConfig = some config → ConfigKnown task [] config
  | asked (config : BeaconConfig) : task.knownConfig = none →
      ConfigKnown task [.asked .beaconConfig (.ok config)] config

/-- The calls by which a cache has the service's listing, and the cache with it. -/
inductive Loaded (cache : ExitCache) : List Step → ExitCache → Prop
  | kept : cache.initialized = true → Loaded cache [] cache
  | listed (listing : List EscrowEntry) : cache.initialized = false →
      Loaded cache [.asked .escrowListing (.ok listing)]
        { cache.markAll (uploadedIn listing) with initialized := true }

theorem ConfigKnown.escrow {task : ExitTask} {asking : List Step} {config : BeaconConfig}
    (known : ConfigKnown task asking config) : callsOf Request.isEscrow asking = [] := by
  cases known <;> rfl

theorem Loaded.uploads {cache after : ExitCache} {loading : List Step}
    (loaded : Loaded cache loading after) : callsOf Request.isUpload loading = [] := by
  cases loaded <;> rfl

/-- The calls of a run, and how it ends. -/
inductive Course (task : ExitTask) (snapshot : NetworkSnapshot) :
    List Step → Ending (Except TaskError Unit × ExitTask) → Prop
  | unconfigured (e : CallError) :
      Course task snapshot [.asked .beaconConfig (.error e)] (.done (.error (.call e), task))
  | unlisted {config : BeaconConfig} {asking : List Step} (e : CallError) :
      ConfigKnown task asking config → task.sent.initialized = false →
        Course task snapshot (asking ++ [.asked .escrowListing (.error e)])
          (.done (.error (.call e), ⟨some config, task.sent⟩))
  | going {config : BeaconConfig} {asking loading steps : List Step} {cache : ExitCache}
      {ending : Ending (Except TaskError Unit × ExitTask)} :
      ConfigKnown task asking config → Loaded task.sent loading cache →
        Exiting config cache snapshot.header (exitCandidates cache snapshot.validators) steps
            ending →
          Course task snapshot (asking ++ (loading ++ steps)) ending

theorem runs_config {task : ExitTask} {history : List Step}
    {ending : Ending (Except TaskError BeaconConfig × ExitTask)}
    (ran : config.Runs task history ending) :
    (∃ e, history = [.asked .beaconConfig (.error e)] ∧
        ending = .done (.error (.call e), task)) ∨
      ∃ known, ConfigKnown task history known ∧
        ending = .done (.ok known, ⟨some known, task.sent⟩) := by
  have opened := StatefulRoutine.runs_get_bind_iff.1 ran
  obtain ⟨_ | known, sent⟩ := task
  · rcases StatefulRoutine.runs_call_bind_iff.1 opened with
      ⟨e, rfl, rfl⟩ | ⟨(known : BeaconConfig), rest, rfl, rfl, rfl⟩
    · exact .inl ⟨e, rfl, rfl⟩
    · exact .inr ⟨known, .asked known rfl, rfl⟩
  · obtain ⟨rfl, rfl⟩ := opened
    exact .inr ⟨known, .kept rfl, rfl⟩

theorem runs_load {task : ExitTask} {history : List Step}
    {ending : Ending (Except TaskError Unit × ExitTask)} (ran : load.Runs task history ending) :
    (∃ e, task.sent.initialized = false ∧ calls history = [.asked .escrowListing (.error e)] ∧
        ending = .done (.error (.call e), task)) ∨
      ∃ cache, Loaded task.sent (calls history) cache ∧
        ending = .done (.ok (), { task with sent := cache }) := by
  have opened := StatefulRoutine.runs_get_bind_iff.1 ran
  split at opened
  · next hloaded =>
    obtain ⟨rfl, rfl⟩ := opened
    exact .inr ⟨task.sent, .kept hloaded, rfl⟩
  · next hnot =>
    have hfalse : task.sent.initialized = false := Bool.eq_false_iff.2 hnot
    rcases StatefulRoutine.runs_call_bind_iff.1 opened with
      ⟨e, rfl, rfl⟩ | ⟨(listing : List EscrowEntry), rest, rfl, marking⟩
    · exact .inl ⟨e, hfalse, rfl, rfl⟩
    · have marked := StatefulRoutine.runs_get_bind_iff.1
        (StatefulRoutine.runs_modify_bind_iff.1 marking)
      obtain ⟨rfl, rfl⟩ := StatefulRoutine.runs_note_iff.1 marked
      exact .inr ⟨_, .listed listing hfalse, rfl⟩

/-- Every run takes one of the courses, whatever it is answered. -/
theorem runs_course {task : ExitTask} {snapshot : NetworkSnapshot} {history : List Step}
    {ending : Ending (Except TaskError Unit × ExitTask)}
    (ran : (run snapshot).Runs task history ending) :
    Course task snapshot (calls history) ending := by
  rcases StatefulRoutine.runs_bind_iff.1 ran with
    ⟨c, rfl, asking⟩ | ⟨e, t, rfl, asking⟩ | ⟨config, t, asked, rest, rfl, asking, going⟩
  · obtain ⟨_, _, hc⟩ | ⟨_, _, hc⟩ := runs_config asking <;> cases hc
  · obtain ⟨e, rfl, hr⟩ | ⟨_, _, hr⟩ := runs_config asking <;> cases hr
    exact .unconfigured e
  obtain ⟨_, _, hr⟩ | ⟨_, known, hr⟩ := runs_config asking <;> cases hr
  have hasked : calls asked = asked := by cases known <;> rfl
  rw [calls_append, hasked]
  rcases StatefulRoutine.runs_bind_iff.1 going with
    ⟨c, rfl, loading⟩ | ⟨e, t, rfl, loading⟩ | ⟨_, t, loads, rest, rfl, loading, selecting⟩
  · obtain ⟨_, _, _, hc⟩ | ⟨_, _, hc⟩ := runs_load loading <;> cases hc
  · obtain ⟨e, hnot, hcalls, hr⟩ | ⟨_, _, hr⟩ := runs_load loading <;> cases hr
    rw [hcalls]
    exact .unlisted e known hnot
  obtain ⟨_, _, _, hr⟩ | ⟨cache, loaded, hr⟩ := runs_load loading <;> cases hr
  rw [calls_append]
  refine .going known loaded ?_
  have opened := StatefulRoutine.runs_get_bind_iff.1 selecting
  split at opened
  · obtain ⟨rfl, rfl⟩ := StatefulRoutine.runs_note_iff.1 opened
    exact .ended rfl
  · exact runs_exitFrom opened

end

end ExitTask

end StakeKeeper
