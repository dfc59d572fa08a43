import StakeKeeper.Proofs.Devnet.Playing
import StakeKeeper.Proofs.Exit.Batch
import StakeKeeper.Proofs.KeyStore

/-!
A run of the exit task against the collaborators in memory. Main statement: `exit_plays` (how a run
ends and what it leaves).
-/
namespace StakeKeeper.Devnet
set_option autoImplicit false

-- The range of instants is never computed with below.
seal Instant.ofNanos?

/-! ## The cache -/

/-- A cache that has taken in the service's listing. -/
def Service.loadedInto (s : Service) (cache : ExitCache) : ExitCache :=
  { cache.markAll (uploadedIn s.entries) with initialized := true }

/-- A cache after exits that the service took: with the service's listing, or with the exits where
it does not answer. -/
def Service.confirmedInto (s : Service) (cache : ExitCache) (exits : List ExitUpload) : ExitCache :=
  cache.markAll (if s.answersListing then uploadedIn s.entries else exits.map (·.pubkey))

section
variable {n : Net} {task : ExitTask}

theorem answer_listing (answers : n.service.answersListing = true) :
    n.answer .escrowListing =
      (.answered (.ok n.service.entries), { n with service := n.service.list.2 }) := by
  show (Reaction.answered n.service.list.1, _) = _
  rw [Service.list, if_pos answers]
  rfl

theorem answer_listing_failed (fails : n.service.answersListing = false) :
    n.answer .escrowListing = (.answered (.error (.network "coordination service timed out")),
      { n with service := n.service.list.2 }) := by
  show (Reaction.answered n.service.list.1, _) = _
  rw [Service.list, if_neg (by rw [fails]; decide)]
  rfl

def Net.configOf (n : Net) (task : ExitTask) : BeaconConfig := task.knownConfig.getD n.beacon.config

theorem config_plays (n : Net) (task : ExitTask) :
    ExitTask.config.Plays task n
      (.done (.ok (n.configOf task), ⟨some (n.configOf task), task.sent⟩)) n := by
  obtain ⟨known, sent⟩ := task
  cases known with
  | some known => exact ⟨rfl, rfl⟩
  | none => exact ⟨rfl, rfl⟩

theorem load_kept (task : ExitTask) (h : task.sent.initialized = true) :
    ExitTask.load.Plays task n (.done (.ok (), task)) n := by
  refine StatefulRoutine.plays_get_bind ?_
  rw [if_pos h]
  exact StatefulRoutine.plays_pure () task n

theorem load_listed (task : ExitTask) (h : task.sent.initialized = false)
    (answers : n.service.answersListing = true) :
    ExitTask.load.Plays task n
      (.done (.ok (), { task with sent := n.service.loadedInto task.sent }))
      { n with service := n.service.list.2 } := by
  refine StatefulRoutine.plays_get_bind ?_
  rw [if_neg (by rw [h]; decide)]
  refine StatefulRoutine.plays_call_bind (answer_listing answers) ?_
  refine (StatefulRoutine.plays_modify _ _ _).bind (StatefulRoutine.plays_get_bind ?_)
  exact StatefulRoutine.plays_note _ _ _

theorem load_failed (task : ExitTask) (h : task.sent.initialized = false)
    (fails : n.service.answersListing = false) :
    ExitTask.load.Plays task n
      (.done (.error (.call (.network "coordination service timed out")), task))
      { n with service := n.service.list.2 } := by
  refine StatefulRoutine.plays_get_bind ?_
  rw [if_neg (by rw [h]; decide)]
  have hcall : (FailingRoutine.call .escrowListing : FailingRoutine TaskError _).Plays n
      (.done (.error (.call (.network "coordination service timed out"))))
      { n with service := n.service.list.2 } :=
    Routine.plays_ask (answer_listing_failed fails) (Routine.plays_done _ _)
  exact (StatefulRoutine.plays_ofFailing hcall task).bind_error _

/-! ## The exits -/

def Net.key? (n : Net) (k : PubKey) : Option ValidatorKey :=
  match n.keys.load k with
  | .ok key => key
  | .error _ => none

def Net.exits (n : Net) (candidates : List MinipoolRecord) : List ExitUpload :=
  exitsOf (n.beacon.statusesOf (candidates.map (·.pubkey))) n.key? n.beacon.head.finalizedEpoch
    (n.beacon.domain .voluntaryExit) (firstOfEach candidates)

theorem signExits_plays (epoch : UInt64) (domain : Root)
    (eligible : List (MinipoolRecord × UInt64)) :
    (ExitTask.signExits epoch domain eligible).Plays n
      (.done (eligible.filterMap fun found => (n.key? found.1.pubkey).map fun key =>
        ⟨found.1.pubkey, signExit key ⟨epoch, found.2⟩ domain⟩)) n := by
  induction eligible with
  | nil => exact Routine.plays_done [] n
  | cons found rest ih =>
    obtain ⟨r, index⟩ := found
    have hanswer : (n.answer (.loadKey r.pubkey)).1 = .answered (n.keys.load r.pubkey) := rfl
    rw [List.filterMap_cons]
    refine Routine.plays_look rfl hanswer ?_
    unfold Net.key? at ih ⊢
    dsimp only
    rcases n.keys.load r.pubkey with e | _ | key
    · exact ih
    · exact ih
    · exact ih.bind (Routine.plays_done _ n)

/-- What an upload comes to, and the cache and the service that it leaves. -/
def Service.taken (s : Service) (cache : ExitCache) (exits : List ExitUpload) :
    (Except TaskError Unit × ExitCache) × Service :=
  let after := (s.upload exits).2
  if s.outcome.notRegistered then ((.error (.rejected "node is not registered"), cache), after)
  else if s.outcome.notAuthorized then
    ((.error (.rejected "node is not authorized"), cache), after)
  else ((.ok (), after.confirmedInto cache exits), after.list.2)

theorem Service.taken_uploads (s : Service) (cache : ExitCache) (exits : List ExitUpload) :
    (s.taken cache exits).2.uploads = s.uploads ++ [exits] := by
  unfold taken
  dsimp only
  split
  · rfl
  split <;> rfl

theorem reconcile_plays (exits : List ExitUpload) :
    (ExitTask.reconcile (exits.map (·.pubkey))).Plays task n
      (.done (.ok (), { task with sent := n.service.confirmedInto task.sent exits }))
      { n with service := n.service.list.2 } := by
  unfold ExitTask.reconcile Service.confirmedInto
  cases answers : n.service.answersListing with
  | true =>
    refine StatefulRoutine.plays_attempt_bind (answer_listing answers) ?_
    refine StatefulRoutine.plays_get_bind ((StatefulRoutine.plays_modify _ _ _).bind ?_)
    exact (StatefulRoutine.plays_noteAll _ _ _).bind (StatefulRoutine.plays_noteAll _ _ _)
  | false =>
    refine StatefulRoutine.plays_attempt_bind (answer_listing_failed answers) ?_
    exact (StatefulRoutine.plays_note _ _ _).bind (StatefulRoutine.plays_modify _ _ _)

theorem upload_plays (epoch : UInt64) (exits : List ExitUpload) :
    (ExitTask.upload epoch exits).Plays task n
      (.done ((n.service.taken task.sent exits).1.1,
        { task with sent := (n.service.taken task.sent exits).1.2 }))
      { n with service := (n.service.taken task.sent exits).2 } := by
  have hanswer : n.answer (.uploadExits exits) = (.answered (.ok n.service.outcome),
      { n with service := (n.service.upload exits).2 }) := rfl
  refine StatefulRoutine.plays_call_bind hanswer ?_
  unfold Service.taken
  by_cases hregistered : n.service.outcome.notRegistered = true
  · rw [if_pos hregistered, if_pos hregistered]
    exact ⟨rfl, rfl⟩
  rw [if_neg hregistered, if_neg hregistered]
  by_cases hauthorized : n.service.outcome.notAuthorized = true
  · rw [if_pos hauthorized, if_pos hauthorized]
    exact ⟨rfl, rfl⟩
  rw [if_neg hauthorized, if_neg hauthorized]
  exact (StatefulRoutine.plays_note _ _ _).bind (reconcile_plays exits)

/-- How a run goes on with candidates at a time, and the service that it leaves. -/
def Net.exitOf (n : Net) (task : ExitTask) (time : Option Instant)
    (candidates : List MinipoolRecord) : Ending (Except TaskError Unit × ExitTask) × Service :=
  if candidates.isEmpty then (.done (.ok (), task), n.service)
  else if time.isNone then (.crashed .timeRange, n.service)
  else if (n.exits candidates).isEmpty then (.done (.ok (), task), n.service)
  else
    let taken := n.service.taken task.sent (n.exits candidates)
    (.done (taken.1.1, { task with sent := taken.1.2 }), taken.2)

theorem exitFrom_plays (config : BeaconConfig) (snapshot : NetworkSnapshot)
    {candidates : List MinipoolRecord} (hsome : candidates.isEmpty = false) :
    (ExitTask.exitFrom config snapshot candidates).Plays task n
      (n.exitOf task snapshot.header.time? candidates).1
      { n with service := (n.exitOf task snapshot.header.time? candidates).2 } := by
  have hpending : ¬candidates.isEmpty = true := by
    rw [hsome]
    decide
  unfold ExitTask.exitFrom Net.exitOf
  rw [if_neg hpending]
  generalize snapshot.header.time? = time
  cases time with
  | none => exact ⟨rfl, rfl⟩
  | some now =>
    rw [if_neg (show ¬(some now).isNone = true from Bool.false_ne_true)]
    have hnow : (StatefulRoutine.ofRoutine (.orCrash .timeRange (some now)) :
        ExitRoutine Instant).Plays task n (.done (.ok now, task)) n := ⟨rfl, rfl⟩
    refine hnow.bind (StatefulRoutine.plays_look_bind rfl rfl ?_)
    have hselected := withBeaconStatus_eq (config.slotAt now)
      (n.beacon.statusesOf (candidates.map (·.pubkey))) candidates
    have hexits : n.exits candidates = _ := exitsOf_eq
    rw [← hselected] at hexits
    rw [hexits]
    generalize withBeaconStatus (config.slotAt now)
      (n.beacon.statusesOf (candidates.map (·.pubkey))) candidates = selected
    obtain ⟨eligible, events⟩ := selected
    refine (StatefulRoutine.plays_noteAll events task n).bind ?_
    have hsigned := signExits_plays (n := n) n.beacon.head.finalizedEpoch
      (n.beacon.domain .voluntaryExit) eligible
    by_cases hnone : eligible.isEmpty = true
    · obtain rfl := List.isEmpty_iff.1 hnone
      exact StatefulRoutine.plays_pure () task n
    · rw [if_neg hnone]
      refine StatefulRoutine.plays_look_bind rfl rfl (StatefulRoutine.plays_look_bind rfl rfl ?_)
      refine (StatefulRoutine.plays_ofRoutine hsigned task).bind ?_
      generalize eligible.filterMap _ = exits
      by_cases hnone : exits.isEmpty = true
      · rw [if_pos hnone, if_pos hnone]
        exact StatefulRoutine.plays_pure () task n
      · rw [if_neg hnone, if_neg hnone]
        exact upload_plays _ exits

/-- How a run ends that finds these minipools, and the service that it leaves. -/
def Net.exited (n : Net) (task : ExitTask) (time : Option Instant)
    (validators : List MinipoolRecord) : Ending (Except TaskError Unit × ExitTask) × Service :=
  let config := n.configOf task
  if task.sent.initialized then
    n.exitOf ⟨some config, task.sent⟩ time (exitCandidates task.sent validators)
  else if n.service.answersListing then
    let cache := n.service.loadedInto task.sent
    { n with service := n.service.list.2 }.exitOf ⟨some config, cache⟩ time
      (exitCandidates cache validators)
  else
    (.done (.error (.call (.network "coordination service timed out")), ⟨some config, task.sent⟩),
      n.service.list.2)

theorem Net.exitOf_cases (n : Net) (task : ExitTask) (time : Option Instant)
    (candidates : List MinipoolRecord) :
    (∃ result next service, n.exitOf task time candidates = (.done (result, next), service)) ∨
      time = none ∧ ∃ c service, n.exitOf task time candidates = (.crashed c, service) := by
  unfold exitOf
  split
  · exact .inl ⟨_, _, _, rfl⟩
  split
  case isTrue hnone => exact .inr ⟨Option.isNone_iff_eq_none.1 hnone, _, _, rfl⟩
  split
  · exact .inl ⟨_, _, _, rfl⟩
  · exact .inl ⟨_, _, _, rfl⟩

/-- A run ends unless the block's time is out of range. -/
theorem Net.exited_cases (n : Net) (task : ExitTask) (time : Option Instant)
    (validators : List MinipoolRecord) :
    (∃ result next service, n.exited task time validators = (.done (result, next), service)) ∨
      time = none ∧ ∃ c service, n.exited task time validators = (.crashed c, service) := by
  unfold exited
  dsimp only
  split
  · exact exitOf_cases _ _ time _
  split
  · exact exitOf_cases _ _ time _
  · exact .inl ⟨_, _, _, rfl⟩

theorem exitKnown_plays (n : Net) (task : ExitTask) (snapshot : NetworkSnapshot)
    (config : BeaconConfig) :
    StatefulRoutine.Plays (do
      match exitCandidates (← get).sent snapshot.validators with
      | [] => StatefulRoutine.note (.noExitNeeded snapshot.node)
      | candidates => ExitTask.exitFrom config snapshot candidates) task n
      (n.exitOf task snapshot.header.time? (exitCandidates task.sent snapshot.validators)).1
      { n with service :=
        (n.exitOf task snapshot.header.time?
          (exitCandidates task.sent snapshot.validators)).2 } := by
  refine StatefulRoutine.plays_get_bind ?_
  cases exitCandidates task.sent snapshot.validators with
  | nil => exact StatefulRoutine.plays_note _ task n
  | cons r rest => exact exitFrom_plays config snapshot rfl

/-- A run of the exit task ends as told from the beacon chain, the keys and the service, and changes
the service alone. -/
theorem exit_plays (n : Net) (task : ExitTask) (snapshot : NetworkSnapshot) :
    (ExitTask.run snapshot).Plays task n
      (n.exited task snapshot.header.time? snapshot.validators).1
      { n with service := (n.exited task snapshot.header.time? snapshot.validators).2 } := by
  refine (config_plays n task).bind ?_
  unfold Net.exited
  dsimp only
  cases loaded : task.sent.initialized with
  | true =>
    rw [if_pos rfl]
    exact (load_kept ⟨some (n.configOf task), task.sent⟩ loaded).bind
      (exitKnown_plays n _ snapshot (n.configOf task))
  | false =>
    rw [if_neg Bool.false_ne_true]
    cases answers : n.service.answersListing with
    | true =>
      rw [if_pos rfl]
      exact (load_listed ⟨some (n.configOf task), task.sent⟩ loaded answers).bind
        (exitKnown_plays _ _ snapshot (n.configOf task))
    | false =>
      rw [if_neg Bool.false_ne_true]
      exact (load_failed ⟨some (n.configOf task), task.sent⟩ loaded answers).bind_error _

end

/-! ## What a run depends on -/

section
variable {n n' : Net} {candidates others : List MinipoolRecord}

theorem firstOfEach_subset {records : List MinipoolRecord} {r : MinipoolRecord}
    (h : r ∈ firstOfEach records) : r ∈ records := by
  induction records with
  | nil => cases h
  | cons first rest ih =>
    rcases List.mem_cons.1 h with rfl | hrest
    · exact List.mem_cons_self
    · exact List.mem_cons_of_mem first (ih (List.mem_filter.1 hrest).1)

theorem firstOfEach_pubkeys (same : candidates.map (·.pubkey) = others.map (·.pubkey)) :
    (firstOfEach candidates).map (·.pubkey) = (firstOfEach others).map (·.pubkey) := by
  have hfilter (records : List MinipoolRecord) (k : PubKey) :
      (records.filter (·.pubkey ≠ k)).map (·.pubkey) = (records.map (·.pubkey)).filter (· ≠ k) := by
    rw [List.filter_map]
    rfl
  induction candidates generalizing others with
  | nil =>
    obtain rfl := List.map_eq_nil_iff.1 same.symm
    rfl
  | cons r rest ih =>
    obtain ⟨s, rest', rfl, hs, hrest⟩ := List.map_eq_cons_iff.1 same.symm
    rw [firstOfEach, firstOfEach, List.map_cons, List.map_cons, hfilter, hfilter, ih hrest.symm, hs]

/-- The exit of a validator that has an index and a key. -/
def exitFor? (statuses : PubKey → Option BeaconStatus) (key? : PubKey → Option ValidatorKey)
    (epoch : UInt64) (domain : Root) (k : PubKey) : Option ExitUpload := do
  let status ← statuses k
  let index ← status.index
  let key ← key? k
  pure ⟨k, signExit key ⟨epoch, index⟩ domain⟩

theorem exitsOf_eq_filterMap (statuses : PubKey → Option BeaconStatus)
    (key? : PubKey → Option ValidatorKey) (epoch : UInt64) (domain : Root)
    (records : List MinipoolRecord) :
    exitsOf statuses key? epoch domain records =
      (records.map (·.pubkey)).filterMap (exitFor? statuses key? epoch domain) := by
  rw [List.filterMap_map]
  rfl

/-- The exits of candidates depend on their validators alone. -/
theorem Net.exits_congr (hbeacon : n.beacon.still = n'.beacon.still) (hkeys : n.keys = n'.keys)
    (same : candidates.map (·.pubkey) = others.map (·.pubkey)) :
    n.exits candidates = n'.exits others := by
  have hstatuses : n.beacon.statuses = n'.beacon.statuses := by
    have hsame := congrArg Beacon.statuses hbeacon
    exact hsame
  have hhead : n.beacon.head = n'.beacon.head := by
    have hsame := congrArg Beacon.head hbeacon
    exact hsame
  have hconfig : n.beacon.config = n'.beacon.config := by
    have hsame := congrArg Beacon.config hbeacon
    exact hsame
  unfold exits key? Beacon.statusesOf Beacon.domain
  rw [exitsOf_eq_filterMap, exitsOf_eq_filterMap, firstOfEach_pubkeys same, same, hstatuses, hhead,
    hconfig, hkeys]

/-- Who gets an exit: the candidates' validators that have an index and a key. -/
theorem Net.mem_exits {k : PubKey} :
    k ∈ (n.exits candidates).map (·.pubkey) ↔ k ∈ candidates.map (·.pubkey) ∧
      (∃ status index, n.beacon.statuses.get? k = some status ∧ status.index = some index) ∧
        ∃ key, n.key? k = some key := by
  have hfirst : (∃ r ∈ firstOfEach candidates, r.pubkey = k) ↔ k ∈ candidates.map (·.pubkey) := by
    rw [List.mem_map]
    constructor
    · rintro ⟨r, hr, hk⟩
      exact ⟨r, firstOfEach_subset hr, hk⟩
    · rintro ⟨r, hr, rfl⟩
      exact exists_mem_firstOfEach hr
  unfold exits
  rw [mem_exitsOf, hfirst]
  refine and_congr_right fun hk => ?_
  unfold Beacon.statusesOf
  rw [if_pos (List.contains_iff_mem.2 hk)]

theorem Net.key?_eq_some {k : PubKey} {key : ValidatorKey}
    (h : n.keys.keys.get? k = some key.toBytes) : n.key? k = some key := by
  rw [key?, KeyStore.load_of_get?_toBytes h]

/-- A run with an exit to upload uploads all that there are. -/
theorem Net.exitOf_uploads (task : ExitTask) {time : Option Instant} (timely : time.isNone = false)
    {k : PubKey} (hk : k ∈ (n.exits candidates).map (·.pubkey)) :
    (n.exitOf task time candidates).2.uploads = n.service.uploads ++ [n.exits candidates] := by
  have hexits : ¬(n.exits candidates).isEmpty = true := fun hnone => by
    rw [List.isEmpty_iff.1 hnone] at hk
    cases hk
  have hsome : ¬candidates.isEmpty = true := fun hnone => by
    rw [List.isEmpty_iff.1 hnone] at hexits
    exact hexits rfl
  unfold exitOf
  rw [if_neg hsome, timely, if_neg Bool.false_ne_true, if_neg hexits]
  exact Service.taken_uploads _ _ _

theorem Net.exitOf_congr (hbeacon : n.beacon.still = n'.beacon.still) (hkeys : n.keys = n'.keys)
    (hservice : n.service = n'.service)
    (same : candidates.map (·.pubkey) = others.map (·.pubkey)) (task : ExitTask)
    (time : Option Instant) : n.exitOf task time candidates = n'.exitOf task time others := by
  have hempty : candidates.isEmpty = others.isEmpty := by
    rw [← List.isEmpty_map (f := (·.pubkey)), same, List.isEmpty_map]
  unfold exitOf
  rw [hempty, hservice, exits_congr hbeacon hkeys same]

end

end StakeKeeper.Devnet
