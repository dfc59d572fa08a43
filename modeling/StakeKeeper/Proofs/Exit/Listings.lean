import StakeKeeper.Proofs.Exit.Evolution
import StakeKeeper.Proofs.Mirroring

/-!
What the exit task does with listings that say the same in another order. Sets have no order: the
validators that the service confirms may come up in any, and so may the entries of a listing. Main
statements: `ExitTask.runIn_mirrors` (a run does the same in every order) and
`ExitTask.listing_order_irrelevant` (so do all runs of the task, one after another).
-/
namespace StakeKeeper
set_option autoImplicit false

/-- The exits that a step uploads. -/
def Step.batch? : Step → Option (List ExitUpload)
  | asked (.uploadExits exits) _ => some exits
  | _ => none

/-- The validator whose exit a step warns of as unconfirmed. -/
def Step.unconfirmed? : Step → Option PubKey
  | noted (.uploadUnconfirmed k) => some k
  | _ => none

/-! ## Caches with the same members -/

structure ExitCache.Same (c c' : ExitCache) : Prop where
  members : ∀ k, k ∈ c.sent ↔ k ∈ c'.sent
  initialized : c.initialized = c'.initialized

namespace ExitCache.Same
variable {c c' : ExitCache}

theorem contains_eq (h : c.Same c') (k : PubKey) : c.contains k = c'.contains k := by
  rw [Bool.eq_iff_iff, contains_iff, contains_iff]
  exact h.members k

theorem size_eq (h : c.Same c') : c.size = c'.size :=
  ((List.perm_ext_iff_of_nodup c.distinct c'.distinct).2 h.members).length_eq

theorem markAll (h : c.Same c') {keys keys' : List PubKey} (hkeys : ∀ k, k ∈ keys ↔ k ∈ keys') :
    (c.markAll keys).Same (c'.markAll keys') where
  members k := by rw [mem_markAll, mem_markAll, hkeys, h.members]
  initialized := by rw [markAll_initialized, markAll_initialized, h.initialized]

theorem candidates_eq (h : c.Same c') (records : List MinipoolRecord) :
    exitCandidates c records = exitCandidates c' records :=
  List.filter_congr fun r _ => by rw [h.contains_eq]

end ExitCache.Same

namespace ExitTask

structure Same (task task' : ExitTask) : Prop where
  config : task.knownConfig = task'.knownConfig
  sent : task.sent.Same task'.sent

/-- Listings mean the same that report the same validators. What was uploaded out of band is noted
in the order in which a set comes up, and is not compared. -/
def listings : Likeness where
  values
    | .escrowListing => fun listing listing' => ∀ k, Reports listing k ↔ Reports listing' k
    | _ => fun a a' => a = a'
  quiet
    | .uploadedElsewhere _ => true
    | _ => false

theorem plain_of_ne {q : Request} (h : q ≠ .escrowListing) : listings.Plain q := by
  cases q with
  | escrowListing => exact (h rfl).elim
  | _ => exact fun _ _ same => same

/-! ## Orders -/

/-- Marks validators one after another, and notes each that is new and was not submitted. -/
def markEach (submitted : List PubKey) : List PubKey → ExitRoutine Unit
  | [] => pure ()
  | k :: rest => do
    let marked := (← get).sent.mark k
    modify fun task => { task with sent := marked.1 }
    if marked.2 && !submitted.contains k then StatefulRoutine.note (.uploadedElsewhere k)
    markEach submitted rest

/-- An order in which the validators that the service confirms come up. -/
inductive Order where
  /-- They are marked as they are listed, then those that are new are noted by their bytes. -/
  | listed
  /-- One after another is marked and noted. -/
  | arranged (arrange : List PubKey → List PubKey) (perm : ∀ keys, (arrange keys).Perm keys)

/-- Marks confirmed validators in an order, and notes those that are new and were not submitted. -/
def confirmIn (submitted confirmed : List PubKey) : Order → ExitRoutine Unit
  | .listed => do
    let before := (← get).sent
    modify fun task => { task with sent := task.sent.markAll confirmed }
    let elsewhere := confirmed.filter fun k => !before.contains k && !submitted.contains k
    StatefulRoutine.ofRoutine (.noteAll ((elsewhere.mergeSort Bytes.le).map .uploadedElsewhere))
  | .arranged arrange _ => markEach submitted (arrange confirmed)

/-- `reconcile` in an order. -/
def reconcileIn (order : Order) (submitted : List PubKey) : ExitRoutine Unit := do
  match ← StatefulRoutine.ofRoutine (.attempt .escrowListing) with
  | .error (e : CallError) =>
    StatefulRoutine.note (.confirmationFailed e submitted.length)
    modify fun task => { task with sent := task.sent.markAll submitted }
  | .ok (listing : List EscrowEntry) =>
    let confirmed := uploadedIn listing
    confirmIn submitted confirmed order
    let unconfirmed := submitted.filter fun k => !confirmed.contains k
    StatefulRoutine.ofRoutine (.noteAll (unconfirmed.map .uploadUnconfirmed))

def uploadIn (order : Order) (epoch : UInt64) (exits : List ExitUpload) : ExitRoutine Unit := do
  let outcome : UploadOutcome ← StatefulRoutine.call (.uploadExits exits)
  if outcome.notRegistered then throw (.rejected "node is not registered")
  else if outcome.notAuthorized then throw (.rejected "node is not authorized")
  else
    StatefulRoutine.note (.exitsUploaded exits.length epoch)
    reconcileIn order (exits.map (·.pubkey))

def exitFromIn (order : Order) (config : BeaconConfig) (snapshot : NetworkSnapshot)
    (candidates : List MinipoolRecord) : ExitRoutine Unit := do
  let now ← StatefulRoutine.ofRoutine (.orCrash .timeRange snapshot.header.time?)
  let slot := config.slotAt now
  let statuses : PubKey → Option BeaconStatus ←
    StatefulRoutine.call (.validatorStatuses (candidates.map (·.pubkey)) (some slot))
  let (eligible, events) := withBeaconStatus slot statuses candidates
  StatefulRoutine.ofRoutine (.noteAll events)
  if eligible.isEmpty then pure ()
  else
    let head : ChainHead ← StatefulRoutine.call .chainHead
    let domain : Root ← StatefulRoutine.call (.signingDomain .voluntaryExit head.finalizedEpoch)
    let exits ← StatefulRoutine.ofRoutine (signExits head.finalizedEpoch domain eligible)
    if exits.isEmpty then pure () else uploadIn order head.finalizedEpoch exits

/-- A run in an order. -/
def runIn (order : Order) (snapshot : NetworkSnapshot) : ExitRoutine Unit := do
  let config ← config
  load
  match exitCandidates (← get).sent snapshot.validators with
  | [] => StatefulRoutine.note (.noExitNeeded snapshot.node)
  | candidates => exitFromIn order config snapshot candidates

theorem reconcileIn_listed : reconcileIn .listed = reconcile := by
  funext submitted
  refine congrArg (bind _) (funext fun answer => ?_)
  cases answer <;> rfl

theorem runIn_listed : runIn .listed = run := by
  unfold runIn exitFromIn uploadIn
  rw [reconcileIn_listed]
  rfl

/-! ## The same in every order -/

section

-- The range of instants is never computed with below.
seal Instant.ofNanos?

variable {task task' : ExitTask} (same : task.Same task')
include same

theorem config_mirrors : StatefulRoutine.Mirrors listings Same config config task task' := by
  refine StatefulRoutine.mirrors_get_bind ?_
  rw [same.config]
  split
  · exact StatefulRoutine.mirrors_pure _ same
  · refine StatefulRoutine.mirrors_call_bind same fun known known' h => ?_
    obtain rfl : known = known' := h
    refine (StatefulRoutine.mirrors_modify ⟨rfl, same.sent⟩).bind fun _ _ _ again => ?_
    exact StatefulRoutine.mirrors_pure _ again

theorem load_mirrors : StatefulRoutine.Mirrors listings Same load load task task' := by
  refine StatefulRoutine.mirrors_get_bind ?_
  rw [same.sent.initialized]
  split
  · exact StatefulRoutine.mirrors_pure _ same
  · refine StatefulRoutine.mirrors_call_bind same fun listing listing' h => ?_
    have hkeys : ∀ k, k ∈ uploadedIn listing ↔ k ∈ uploadedIn listing' := fun k =>
      mem_uploadedIn.trans ((h k).trans mem_uploadedIn.symm)
    have marked := same.sent.markAll hkeys
    refine (StatefulRoutine.mirrors_modify ⟨same.config, marked.members, rfl⟩).bind
      fun _ _ _ again => StatefulRoutine.mirrors_get_bind ?_
    rw [again.sent.size_eq]
    exact StatefulRoutine.mirrors_note _ again

end

theorem signExits_plain (epoch : UInt64) (domain : Root)
    (eligible : List (MinipoolRecord × UInt64)) :
    (signExits epoch domain eligible).Meets listings.Plain fun _ => True := by
  induction eligible with
  | nil => trivial
  | cons first rest ih =>
    refine ⟨plain_of_ne nofun, fun answer => ?_⟩
    rcases answer with e | _ | key
    · exact ih
    · exact ih
    · show Routine.Meets _ _ (signExits epoch domain rest >>= _)
      exact ih.bind fun _ _ => trivial

theorem noteAll_plain (events : List Event) :
    (Routine.noteAll events).Meets listings.Plain fun _ => True := by
  induction events with
  | nil => trivial
  | cons e rest ih => exact ih

theorem markEach_hushed (submitted keys : List PubKey) (task : ExitTask) :
    StatefulRoutine.Hushed listings (markEach submitted keys) task
      { task with sent := task.sent.markAll keys } := by
  induction keys generalizing task with
  | nil => exact .done
  | cons k rest ih =>
    let marked : ExitTask := { task with sent := (task.sent.mark k).1 }
    have going : StatefulRoutine.Hushed listings (markEach submitted rest) marked
        { task with sent := task.sent.markAll (k :: rest) } := ih marked
    have noting : StatefulRoutine.Hushed listings (do
        if (task.sent.mark k).2 && !submitted.contains k then
          StatefulRoutine.note (.uploadedElsewhere k)
        markEach submitted rest : ExitRoutine Unit) marked
        { task with sent := task.sent.markAll (k :: rest) } := by
      split
      · exact .note rfl going
      · exact going
    exact noting

/-- Whatever the order, the confirmed validators are marked, and no more than quiet events noted. -/
theorem confirmIn_hushed (submitted confirmed : List PubKey) (order : Order) (task : ExitTask) :
    ∃ keys, (∀ k, k ∈ keys ↔ k ∈ confirmed) ∧
      StatefulRoutine.Hushed listings (confirmIn submitted confirmed order) task
        { task with sent := task.sent.markAll keys } := by
  cases order with
  | arranged arrange perm =>
    exact ⟨arrange confirmed, fun k => (perm confirmed).mem_iff, markEach_hushed submitted _ task⟩
  | listed =>
    refine ⟨confirmed, fun _ => Iff.rfl, ?_⟩
    refine StatefulRoutine.hushed_noteAll (fun e he => ?_) { task with sent := _ }
    obtain ⟨k, _, rfl⟩ := List.mem_map.1 he
    rfl

section

-- The range of instants is never computed with below.
seal Instant.ofNanos?

variable {task task' : ExitTask} (same : task.Same task') (order order' : Order)
include same

theorem reconcileIn_mirrors (submitted : List PubKey) :
    StatefulRoutine.Mirrors listings Same (reconcileIn order submitted)
      (reconcileIn order' submitted) task task' := by
  refine StatefulRoutine.mirrors_attempt_bind fun answer answer' alike => ?_
  cases alike with
  | error e =>
    refine (StatefulRoutine.mirrors_note _ same).bind fun _ _ _ again => ?_
    exact StatefulRoutine.mirrors_modify ⟨again.config, again.sent.markAll fun _ => Iff.rfl⟩
  | @ok listing listing' alike =>
    have hconfirmed (k : PubKey) : k ∈ uploadedIn listing ↔ k ∈ uploadedIn listing' :=
      mem_uploadedIn.trans ((alike k).trans mem_uploadedIn.symm)
    have hunconfirmed : submitted.filter (fun k => !(uploadedIn listing).contains k) =
        submitted.filter fun k => !(uploadedIn listing').contains k :=
      List.filter_congr fun k _ => by
        rw [Bool.not_inj_iff, Bool.eq_iff_iff, List.contains_iff_mem, List.contains_iff_mem,
          hconfirmed]
    obtain ⟨keys, hkeys, hushed⟩ := confirmIn_hushed submitted (uploadedIn listing) order task
    obtain ⟨keys', hkeys', hushed'⟩ := confirmIn_hushed submitted (uploadedIn listing') order' task'
    have marked : (task.sent.markAll keys).Same (task'.sent.markAll keys') :=
      same.sent.markAll fun k => (hkeys k).trans ((hconfirmed k).trans (hkeys' k).symm)
    refine StatefulRoutine.Mirrors.bind (hushed.mirrors hushed' ⟨same.config, marked⟩)
      fun _ _ _ again => ?_
    rw [hunconfirmed]
    exact StatefulRoutine.mirrors_ofRoutine (noteAll_plain _) again

theorem uploadIn_mirrors (epoch : UInt64) (exits : List ExitUpload) :
    StatefulRoutine.Mirrors listings Same (uploadIn order epoch exits) (uploadIn order' epoch exits)
      task task' := by
  refine StatefulRoutine.mirrors_call_bind same fun outcome outcome' h => ?_
  obtain rfl : outcome = outcome' := h
  split
  · exact StatefulRoutine.mirrors_throw _ same
  split
  · exact StatefulRoutine.mirrors_throw _ same
  · exact (StatefulRoutine.mirrors_note _ same).bind fun _ _ _ again =>
      reconcileIn_mirrors again order order' _

theorem exitFromIn_mirrors (config : BeaconConfig) (snapshot : NetworkSnapshot)
    (candidates : List MinipoolRecord) :
    StatefulRoutine.Mirrors listings Same (exitFromIn order config snapshot candidates)
      (exitFromIn order' config snapshot candidates) task task' := by
  have timed : (Routine.orCrash .timeRange snapshot.header.time?).Meets listings.Plain
      fun _ => True := by
    cases snapshot.header.time? <;> trivial
  refine (StatefulRoutine.mirrors_ofRoutine timed same).bind fun now _ _ same => ?_
  refine StatefulRoutine.mirrors_call_bind same fun statuses statuses' h => ?_
  obtain rfl : statuses = statuses' := h
  refine (StatefulRoutine.mirrors_ofRoutine (noteAll_plain _) same).bind fun _ _ _ same => ?_
  split
  · exact StatefulRoutine.mirrors_pure _ same
  refine StatefulRoutine.mirrors_call_bind same fun head head' h => ?_
  obtain rfl : head = head' := h
  refine StatefulRoutine.mirrors_call_bind same fun domain domain' h => ?_
  obtain rfl : domain = domain' := h
  refine (StatefulRoutine.mirrors_ofRoutine (signExits_plain _ _ _) same).bind
    fun exits _ _ same => ?_
  split
  · exact StatefulRoutine.mirrors_pure _ same
  · exact uploadIn_mirrors same order order' _ _

theorem runIn_mirrors (snapshot : NetworkSnapshot) :
    StatefulRoutine.Mirrors listings Same (runIn order snapshot) (runIn order' snapshot) task
      task' := by
  refine (config_mirrors same).bind fun config _ _ same => ?_
  refine (load_mirrors same).bind fun _ task task' same => ?_
  refine StatefulRoutine.mirrors_get_bind ?_
  rw [same.sent.candidates_eq]
  split
  · exact StatefulRoutine.mirrors_note _ same
  · exact exitFromIn_mirrors same order order' config snapshot _

end

/-! ## One run after another -/

/-- A run: what it did, and how it ended. -/
structure ExitRun where
  history : List Step
  ending : Ending (Except TaskError Unit × ExitTask)

/-- Whether runs are those of a task over snapshots, each in some order. None follows a crash. -/
def Executes : ExitTask → List NetworkSnapshot → List ExitRun → Prop
  | _, [], runs => runs = []
  | task, snapshot :: rest, runs => ∃ order r more, runs = r :: more ∧
      (runIn order snapshot).Runs task r.history r.ending ∧
        match r.ending with
        | .done (_, next) => Executes next rest more
        | _ => more = []

/-- Whether two runs do the same: they make the same calls and note the same events in the same
order, so that they upload the same batches and warn of the same validators, and they end with the
same result and with caches that are the same set. -/
structure ExitRun.Agree (r r' : ExitRun) : Prop where
  steps : List.Forall₂ listings.Steps (listings.loud r.history) (listings.loud r'.history)
  uploads : r.history.filterMap Step.batch? = r'.history.filterMap Step.batch?
  warnings : r.history.filterMap Step.unconfirmed? = r'.history.filterMap Step.unconfirmed?
  ending : r.ending.Agree (fun p p' => p.1 = p'.1 ∧ p.2.Same p'.2) r'.ending

theorem batch?_eq {step step' : Step} (h : listings.Steps step step') :
    step.batch? = step'.batch? := by
  cases h with
  | asked q h => cases q <;> rfl
  | noted e => rfl

theorem unconfirmed?_eq {step step' : Step} (h : listings.Steps step step') :
    step.unconfirmed? = step'.unconfirmed? := by
  cases h <;> rfl

theorem unconfirmed?_of_quiet {e : Event} (h : listings.quiet e = true) :
    Step.unconfirmed? (.noted e) = none := by
  cases e with
  | uploadUnconfirmed k => cases h
  | _ => rfl

theorem runs_agree {task task' : ExitTask} (same : task.Same task') {order order' : Order}
    {snapshot : NetworkSnapshot} {r r' : ExitRun}
    (ran : (runIn order snapshot).Runs task r.history r.ending)
    (ran' : (runIn order' snapshot).Runs task' r'.history r'.ending)
    (alike : listings.AnsweredAlike r.history r'.history) : r.Agree r' := by
  obtain ⟨steps, ends⟩ := (runIn_mirrors same order order' snapshot).runs ran ran' alike
  exact ⟨steps, Likeness.filterMap_eq (fun _ _ => batch?_eq) (fun _ _ => rfl) steps,
    Likeness.filterMap_eq (fun _ _ => unconfirmed?_eq) (fun _ => unconfirmed?_of_quiet) steps, ends⟩

theorem executes_agree {task task' : ExitTask} (same : task.Same task')
    {snapshots : List NetworkSnapshot} {runs runs' : List ExitRun}
    (h : Executes task snapshots runs) (h' : Executes task' snapshots runs')
    (alike : ∀ r r', (r, r') ∈ runs.zip runs' → listings.AnsweredAlike r.history r'.history) :
    List.Forall₂ ExitRun.Agree runs runs' := by
  induction snapshots generalizing task task' runs runs' with
  | nil =>
    obtain rfl := h
    obtain rfl := h'
    exact .nil
  | cons snapshot rest ih =>
    obtain ⟨order, ⟨history, ending⟩, more, rfl, ran, later⟩ := h
    obtain ⟨order', ⟨history', ending'⟩, more', rfl, ran', later'⟩ := h'
    have agree : ExitRun.Agree ⟨history, ending⟩ ⟨history', ending'⟩ :=
      runs_agree same ran ran' (alike _ _ List.mem_cons_self)
    refine .cons agree ?_
    -- Either both go on, from tasks that know the same, or both have crashed.
    cases agree.ending with
    | done ends =>
      exact ih ends.2 later later' fun r r' hr => alike r r' (List.mem_cons_of_mem _ hr)
    | crashed c =>
      obtain rfl : more = [] := later
      obtain rfl : more' = [] := later'
      exact .nil

/-- Two executions of a task over the same snapshots, in whatever orders, do the same if they are
answered alike but for listings that report the same validators. -/
theorem listing_order_irrelevant {task : ExitTask} {snapshots : List NetworkSnapshot}
    {runs runs' : List ExitRun} (h : Executes task snapshots runs)
    (h' : Executes task snapshots runs')
    (alike : ∀ r r', (r, r') ∈ runs.zip runs' → listings.AnsweredAlike r.history r'.history) :
    List.Forall₂ ExitRun.Agree runs runs' :=
  executes_agree ⟨rfl, fun _ => Iff.rfl, rfl⟩ h h' alike

section

-- The range of instants is never computed with below.
seal Instant.ofNanos?

theorem Executes.of_run {task next : ExitTask} {snapshot : NetworkSnapshot} {history : List Step}
    {result : Except TaskError Unit} {snapshots : List NetworkSnapshot} {runs : List ExitRun}
    (ran : (run snapshot).Runs task history (.done (result, next)))
    (later : Executes next snapshots runs) :
    Executes task (snapshot :: snapshots) (⟨history, .done (result, next)⟩ :: runs) :=
  ⟨.listed, _, _, rfl, runIn_listed ▸ ran, later⟩

theorem steps_refl (step : Step) : listings.Steps step step := by
  refine .refl (fun q a => ?_) step
  cases q <;> first
    | rfl
    | exact fun _ => Iff.rfl

/-- Two runs that upload the same exits are answered alike if they are given listings alike. -/
theorem alike_of_uploads {first second asking loading loading' gathering : List Step}
    {upload : Step} {answer answer' : Except CallError (List EscrowEntry)}
    (h : calls first = asking ++ (loading ++
      (gathering ++ [upload, .asked .escrowListing answer])))
    (h' : calls second = asking ++ (loading' ++
      (gathering ++ [upload, .asked .escrowListing answer'])))
    (loads : List.Forall₂ listings.Steps loading loading')
    (again : listings.Answers (q := .escrowListing) answer answer') :
    listings.AnsweredAlike first second := by
  have unchanged (steps : List Step) : List.Forall₂ listings.Steps steps steps :=
    List.forall₂_same.2 fun step _ => steps_refl step
  refine Likeness.answeredAlike_of_calls ?_
  rw [h, h']
  refine List.rel_append (unchanged _) (List.rel_append loads (List.rel_append (unchanged _) ?_))
  exact .cons (steps_refl _) (.cons (.asked _ again) .nil)

theorem reports_reordered (k j p : PubKey) : Reports [⟨k, true⟩, ⟨j, true⟩] p ↔
    Reports [⟨j, true⟩, ⟨k, false⟩, ⟨k, true⟩, ⟨j, true⟩] p := by
  simp only [reports_cons_iff]
  tauto

/-- Two tasks, each with two runs. The listings that the first is given do not say that the exit of
a validator is uploaded, and then they do, with another's; those that the second is given say so out
of order and twice, and have entries that are not uploaded. -/
theorem listing_order_irrelevant_repeated :
    let k : PubKey := Vector.replicate 48 1
    let j : PubKey := Vector.replicate 48 2
    ∃ runs runs', Executes fresh [openSnapshot k, openSnapshot k] runs ∧
      Executes fresh [openSnapshot k, openSnapshot k] runs' ∧
      runs.map (fun r => r.history.filterMap Step.listing?) =
        [[.ok [], .ok []], [.ok [⟨k, true⟩, ⟨j, true⟩]]] ∧
      runs'.map (fun r => r.history.filterMap Step.listing?) =
        [[.ok [⟨k, false⟩], .ok [⟨k, false⟩, ⟨j, false⟩]],
          [.ok [⟨j, true⟩, ⟨k, false⟩, ⟨k, true⟩, ⟨j, true⟩]]] ∧
      runs.map (fun r => (r.history.filterMap Step.batch?).length) = [1, 1] ∧
      List.Forall₂ ExitRun.Agree runs runs' := by
  intro k j
  let config : BeaconConfig := ⟨0, 12, 32, Bytes.zero 4⟩
  let key : ValidatorKey := ⟨1, by decide, by decide⟩
  let listed : ExitTask := ⟨some config, { ExitCache.empty with initialized := true }⟩
  have hk : k ≠ Bytes.zero 48 := by decide
  have hlisted : k ∉ listed.sent.sent := List.not_mem_nil
  have gathered := openBatch_gathered hk hlisted key config
  have known : ConfigKnown fresh _ config := .asked config rfl
  obtain ⟨first, ran, calls₁⟩ := run_uploads fresh known (.listed [] rfl) gathered (.ok [])
  obtain ⟨second, later, calls₂⟩ :=
    run_uploads listed (.kept rfl) (.kept rfl) gathered (.ok [⟨k, true⟩, ⟨j, true⟩])
  obtain ⟨first', ran', calls₁'⟩ :=
    run_uploads fresh known (.listed [⟨k, false⟩] rfl) gathered (.ok [⟨k, false⟩, ⟨j, false⟩])
  obtain ⟨second', later', calls₂'⟩ := run_uploads listed (.kept rfl) (.kept rfl) gathered
    (.ok [⟨j, true⟩, ⟨k, false⟩, ⟨k, true⟩, ⟨j, true⟩])
  have executes : Executes fresh [openSnapshot k, openSnapshot k]
      [⟨first, _⟩, ⟨second, _⟩] := .of_run ran (.of_run later rfl)
  have executes' : Executes fresh [openSnapshot k, openSnapshot k]
      [⟨first', _⟩, ⟨second', _⟩] := .of_run ran' (.of_run later' rfl)
  -- The calls are the same in both, or listings that report the same.
  have alike : listings.AnsweredAlike first first' := by
    have loads : listings.Steps (.asked .escrowListing (.ok [])) (.asked .escrowListing
        (.ok [⟨k, false⟩])) := .asked _ (.ok (by simp [listings, Reports]))
    exact alike_of_uploads calls₁ calls₁' (.cons loads .nil) (.ok (by simp [listings, Reports]))
  have alike' : listings.AnsweredAlike second second' :=
    alike_of_uploads calls₂ calls₂' .nil (.ok (reports_reordered k j))
  have listing {history steps : List Step} (h : calls history = steps) :
      history.filterMap Step.listing? = steps.filterMap Step.listing? :=
    h ▸ (filterMap_calls (fun _ => rfl) history).symm
  have batch {history steps : List Step} (h : calls history = steps) :
      history.filterMap Step.batch? = steps.filterMap Step.batch? :=
    h ▸ (filterMap_calls (fun _ => rfl) history).symm
  refine ⟨_, _, executes, executes', ?_, ?_, ?_, listing_order_irrelevant executes executes' ?_⟩
  · show [first.filterMap _, second.filterMap _] = _
    rw [listing calls₁, listing calls₂]
    rfl
  · show [first'.filterMap _, second'.filterMap _] = _
    rw [listing calls₁', listing calls₂']
    rfl
  · show [(first.filterMap _).length, (second.filterMap _).length] = _
    rw [batch calls₁, batch calls₂]
    rfl
  · rintro r r' hr
    rcases List.mem_cons.1 hr with h | hr
    · cases h
      exact alike
    · cases List.mem_singleton.1 hr
      exact alike'

end

end ExitTask

end StakeKeeper
