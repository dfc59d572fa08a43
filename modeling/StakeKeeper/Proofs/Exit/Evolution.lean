import StakeKeeper.Proofs.Exit.Delivery

/-!
How a run changes the cache of exits. Main statement: `ExitTask.run_cache` (a run adds the exits of
its initial listing and those that an accepted upload settles, and nothing else).
-/
namespace StakeKeeper
set_option autoImplicit false

/-! ## Listings -/

/-- Whether a listing says that the exit of a validator is uploaded. -/
def Reports (listing : List EscrowEntry) (k : PubKey) : Prop :=
  ∃ entry ∈ listing, entry.pubkey = k ∧ entry.exitUploaded = true

theorem reports_cons_iff {entry : EscrowEntry} {listing : List EscrowEntry} {k : PubKey} :
    Reports (entry :: listing) k ↔
      entry.pubkey = k ∧ entry.exitUploaded = true ∨ Reports listing k := by
  simp [Reports]

theorem mem_uploadedIn {listing : List EscrowEntry} {k : PubKey} :
    k ∈ uploadedIn listing ↔ Reports listing k := by
  rw [uploadedIn, List.mem_eraseDups, List.mem_map]
  constructor
  · rintro ⟨entry, h, rfl⟩
    obtain ⟨hentry, huploaded⟩ := List.mem_filter.1 h
    exact ⟨entry, hentry, rfl, huploaded⟩
  · rintro ⟨entry, hentry, rfl, huploaded⟩
    exact ⟨entry, List.mem_filter.2 ⟨hentry, huploaded⟩, rfl⟩

theorem ExitCache.markAll_initialized (c : ExitCache) (keys : List PubKey) :
    (c.markAll keys).initialized = c.initialized := by
  induction keys generalizing c with
  | nil => rfl
  | cons k rest ih => exact (ih (c.mark k).1).trans (c.mark_initialized k)

/-- The service's answer that a step shows, if it lists. -/
def Step.listing? : Step → Option (Except CallError (List EscrowEntry))
  | asked .escrowListing answer => some answer
  | _ => none

/-- The first answer of the service to a listing in a history. -/
def firstListing (history : List Step) : Option (Except CallError (List EscrowEntry)) :=
  history.findSome? Step.listing?

theorem firstListing_append (first second : List Step) :
    firstListing (first ++ second) = (firstListing first).or (firstListing second) :=
  List.findSome?_append

theorem firstListing_calls (history : List Step) :
    firstListing (calls history) = firstListing history := by
  refine findSome?_filter_of_imp (fun step h => ?_) history
  cases step with
  | noted e => rfl
  | asked q answer => cases h

theorem firstListing_eq_none {history : List Step} (h : callsOf Request.isListing history = []) :
    firstListing history = none := by
  refine List.findSome?_eq_none_iff.2 fun step hs => ?_
  have hstep := callsOf_eq_nil_iff.1 h step hs
  cases step with
  | noted e => rfl
  | asked q answer => cases q <;> first
    | rfl
    | cases hstep

/-! ## What a run adds -/

namespace ExitTask

/-- The exits that the initial listing reports. -/
def LoadedIn (task : ExitTask) (history : List Step) (k : PubKey) : Prop :=
  task.sent.initialized = false ∧
    ∃ listing, firstListing history = some (.ok listing) ∧ Reports listing k

/-- The exits that an accepted upload settles: those that the listing after it reports, or those of
the batch if that listing failed. -/
def SettledIn (history : List Step) (k : PubKey) : Prop :=
  ∃ before exits outcome after,
    history = before ++ .asked (.uploadExits exits) (.ok outcome) :: after ∧
      outcome.isAccepted = true ∧
        ((∃ listing, firstListing after = some (.ok listing) ∧ Reports listing k) ∨
          (∃ e, firstListing after = some (.error e)) ∧ k ∈ exits.map (·.pubkey))

/-- How a run changes the cache. -/
structure CacheEvolves (task : ExitTask) (history : List Step) (result : Except TaskError Unit)
    (next : ExitTask) : Prop where
  members : ∀ k, k ∈ next.sent.sent ↔
    k ∈ task.sent.sent ∨ LoadedIn task history k ∨ SettledIn history k
  initialized : next.sent.initialized = true ↔
    task.sent.initialized = true ∨ ∃ listing, firstListing history = some (.ok listing)
  one_upload : (callsOf Request.isUpload history).length ≤ 1
  requeried : ∀ before exits outcome after,
    history = before ++ .asked (.uploadExits exits) (.ok outcome) :: after →
      outcome.isAccepted = true → ∃ answer, firstListing after = some answer
  only_completed : ∀ k, SettledIn history k → result = .ok ()

theorem settledIn_calls {history : List Step} {k : PubKey} :
    SettledIn (calls history) k ↔ SettledIn history k := by
  constructor
  · rintro ⟨_, exits, outcome, _, split, accepted, h⟩
    obtain ⟨before, after, rfl, rfl, rfl⟩ := calls_eq_append_cons split
    rw [firstListing_calls] at h
    exact ⟨before, exits, outcome, after, rfl, accepted, h⟩
  · rintro ⟨before, exits, outcome, after, rfl, accepted, h⟩
    rw [← firstListing_calls] at h
    exact ⟨calls before, exits, outcome, calls after, calls_append .., accepted, h⟩

/-- Calls before the first upload settle nothing. -/
theorem settledIn_append {first second : List Step} {k : PubKey}
    (h : callsOf Request.isUpload first = []) :
    SettledIn (first ++ second) k ↔ SettledIn second k := by
  constructor
  · rintro ⟨before, exits, outcome, after, split, hrest⟩
    obtain ⟨later, rfl, rfl⟩ := split_append h rfl split
    exact ⟨later, exits, outcome, after, rfl, hrest⟩
  · rintro ⟨before, exits, outcome, after, rfl, hrest⟩
    exact ⟨first ++ before, exits, outcome, after, (List.append_assoc ..).symm, hrest⟩

theorem settledIn_upload (exits : List ExitUpload) (answer : Except CallError UploadOutcome)
    {after : List Step} (h : callsOf Request.isUpload after = []) (k : PubKey) :
    SettledIn (.asked (.uploadExits exits) answer :: after) k ↔
      ∃ outcome, answer = .ok outcome ∧ outcome.isAccepted = true ∧
        ((∃ listing, firstListing after = some (.ok listing) ∧ Reports listing k) ∨
          (∃ e, firstListing after = some (.error e)) ∧ k ∈ exits.map (·.pubkey)) := by
  constructor
  · rintro ⟨before, exits', outcome, after', split, accepted, hrest⟩
    obtain ⟨rfl, hs, rfl⟩ := split_unique rfl callsOf_nil h split.symm
    cases hs
    exact ⟨outcome, rfl, accepted, hrest⟩
  · rintro ⟨outcome, rfl, accepted, hrest⟩
    exact ⟨[], exits, outcome, after, rfl, accepted, hrest⟩

theorem not_settledIn {history : List Step} {k : PubKey}
    (h : callsOf Request.isUpload history = []) : ¬ SettledIn history k := by
  rintro ⟨before, exits, outcome, after, rfl, _⟩
  cases not_asks_of_split h

theorem Uploading.evolves {cache after : ExitCache} {exits : List ExitUpload} {steps : List Step}
    {result : Except TaskError Unit} (uploading : Uploading cache exits steps result after) :
    (∀ k, k ∈ after.sent ↔ k ∈ cache.sent ∨ SettledIn steps k) ∧
      after.initialized = cache.initialized ∧ ∀ k, SettledIn steps k → result = .ok () := by
  cases uploading with
  | failed e =>
    have hnone (k : PubKey) : ¬ SettledIn [.asked (.uploadExits exits) (.error e)] k := by
      intro h
      obtain ⟨_, hc, _⟩ := (settledIn_upload exits (.error e) callsOf_nil k).1 h
      cases hc
    exact ⟨fun k => (or_iff_left (hnone k)).symm, rfl, fun k h => (hnone k h).elim⟩
  | @rejected outcome reason hrejected =>
    have hnone (k : PubKey) : ¬ SettledIn [.asked (.uploadExits exits) (.ok outcome)] k := by
      intro h
      obtain ⟨_, hc, accepted, _⟩ := (settledIn_upload exits (.ok outcome) callsOf_nil k).1 h
      cases hc
      rw [hrejected] at accepted
      cases accepted
    exact ⟨fun k => (or_iff_left (hnone k)).symm, rfl, fun k h => (hnone k h).elim⟩
  | @unconfirmed outcome e accepted =>
    refine ⟨fun k => ?_, ExitCache.markAll_initialized .., fun _ _ => rfl⟩
    rw [ExitCache.mem_markAll, or_comm]
    have requery : callsOf Request.isUpload [.asked .escrowListing (.error e)] = [] := rfl
    refine or_congr_right (Iff.trans ?_ (settledIn_upload exits (.ok outcome) requery k).symm)
    refine ⟨fun h => ⟨outcome, rfl, accepted, .inr ⟨⟨e, rfl⟩, h⟩⟩, ?_⟩
    rintro ⟨_, _, _, ⟨listing, hc, _⟩ | ⟨_, h⟩⟩
    · cases hc
    · exact h
  | @confirmed outcome listing accepted =>
    refine ⟨fun k => ?_, ExitCache.markAll_initialized .., fun _ _ => rfl⟩
    rw [ExitCache.mem_markAll, mem_uploadedIn, or_comm]
    have requery : callsOf Request.isUpload [.asked .escrowListing (.ok listing)] = [] := rfl
    refine or_congr_right (Iff.trans ?_ (settledIn_upload exits (.ok outcome) requery k).symm)
    refine ⟨fun h => ⟨outcome, rfl, accepted, .inl ⟨listing, rfl, h⟩⟩, ?_⟩
    rintro ⟨_, _, _, ⟨_, hl, h⟩ | ⟨⟨_, hc⟩, _⟩⟩
    · cases hl
      exact h
    · cases hc

/-- At most one upload, and a listing after an accepted one. -/
structure UploadsOnce (steps : List Step) : Prop where
  one_upload : (callsOf Request.isUpload steps).length ≤ 1
  requeried : ∀ before exits outcome after,
    steps = before ++ .asked (.uploadExits exits) (.ok outcome) :: after →
      outcome.isAccepted = true → ∃ answer, firstListing after = some answer

theorem UploadsOnce.none {steps : List Step} (h : callsOf Request.isUpload steps = []) :
    UploadsOnce steps := by
  refine ⟨h ▸ Nat.zero_le 1, ?_⟩
  rintro before exits outcome after rfl
  cases not_asks_of_split h

theorem UploadsOnce.append {first second : List Step} (h : callsOf Request.isUpload first = [])
    (once : UploadsOnce second) : UploadsOnce (first ++ second) := by
  refine ⟨?_, fun before exits outcome after split accepted => ?_⟩
  · rw [callsOf_append, h]
    exact once.one_upload
  · obtain ⟨later, _, rfl⟩ := split_append h rfl split
    exact once.requeried later exits outcome after rfl accepted

theorem Uploading.once {cache after : ExitCache} {exits : List ExitUpload} {steps : List Step}
    {result : Except TaskError Unit} (uploading : Uploading cache exits steps result after) :
    UploadsOnce steps := by
  have build {answer : Except CallError UploadOutcome} {rest : List Step}
      (h : callsOf Request.isUpload rest = [])
      (hrest : ∀ outcome, answer = .ok outcome → outcome.isAccepted = true →
        ∃ listed, firstListing rest = some listed) :
      UploadsOnce (.asked (.uploadExits exits) answer :: rest) := by
    refine ⟨?_, fun before exits' outcome after split accepted => ?_⟩
    · rw [callsOf_cons, h]
      exact Nat.le_refl 1
    · obtain ⟨rfl, hs, rfl⟩ := split_unique rfl callsOf_nil h split.symm
      cases hs
      exact hrest outcome rfl accepted
  cases uploading with
  | failed e => exact build rfl (by rintro _ ⟨⟩)
  | rejected reason hrejected =>
    refine build rfl ?_
    rintro _ ⟨⟩ accepted
    rw [hrejected] at accepted
    cases accepted
  | unconfirmed e accepted => exact build rfl fun _ _ _ => ⟨_, rfl⟩
  | confirmed listing accepted => exact build rfl fun _ _ _ => ⟨_, rfl⟩

theorem Exiting.evolves {config : BeaconConfig} {cache : ExitCache} {header : BlockHeader}
    {candidates : List MinipoolRecord} {steps : List Step} {result : Except TaskError Unit}
    {next : ExitTask}
    (exiting : Exiting config cache header candidates steps (.done (result, next))) :
    (∀ k, k ∈ next.sent.sent ↔ k ∈ cache.sent ∨ SettledIn steps k) ∧
      next.sent.initialized = cache.initialized ∧ (∀ k, SettledIn steps k → result = .ok ()) ∧
        UploadsOnce steps := by
  cases exiting with
  | ended h =>
    have hnone := (escrow_free h).2
    exact ⟨fun k => (or_iff_left (not_settledIn hnone)).symm, rfl,
      fun k hk => (not_settledIn hnone hk).elim, .none hnone⟩
  | @uploaded batch steps result after gathered uploading =>
    have hnone := (escrow_free (batch.steps_escrow (config.slotAt batch.now) candidates)).2
    obtain ⟨members, initialized, completed⟩ := uploading.evolves
    refine ⟨fun k => ?_, initialized, fun k hk => ?_, uploading.once.append hnone⟩
    · rw [settledIn_append hnone]
      exact members k
    · exact completed k ((settledIn_append hnone).1 hk)

theorem Loaded.members {cache after : ExitCache} {loading : List Step}
    (loaded : Loaded cache loading after) (rest : List Step) (k : PubKey) :
    k ∈ after.sent ↔ k ∈ cache.sent ∨ cache.initialized = false ∧
      ∃ listing, firstListing (loading ++ rest) = some (.ok listing) ∧ Reports listing k := by
  cases loaded with
  | kept h =>
    refine (or_iff_left ?_).symm
    rintro ⟨hnot, _⟩
    rw [h] at hnot
    cases hnot
  | listed listing h =>
    show k ∈ (cache.markAll (uploadedIn listing)).sent ↔ _
    rw [ExitCache.mem_markAll, mem_uploadedIn, or_comm]
    refine or_congr_right ⟨fun hk => ⟨h, listing, rfl, hk⟩, ?_⟩
    rintro ⟨_, _, hl, hk⟩
    cases hl
    exact hk

theorem Loaded.initialized {cache after : ExitCache} {loading : List Step}
    (loaded : Loaded cache loading after) (rest : List Step) :
    after.initialized = true ∧ (cache.initialized = true ∨
      ∃ listing, firstListing (loading ++ rest) = some (.ok listing)) := by
  cases loaded with
  | kept h => exact ⟨h, .inl h⟩
  | listed listing h => exact ⟨rfl, .inr ⟨listing, rfl⟩⟩

theorem Course.evolves {task next : ExitTask} {snapshot : NetworkSnapshot} {steps : List Step}
    {result : Except TaskError Unit} (course : Course task snapshot steps (.done (result, next))) :
    CacheEvolves task steps result next := by
  have unchanged (hupload : callsOf Request.isUpload steps = []) (hsent : next.sent = task.sent)
      (hnone : ∀ listing, firstListing steps ≠ some (.ok listing)) :
      CacheEvolves task steps result next := by
    have once := UploadsOnce.none hupload
    refine ⟨fun k => ?_, ?_, once.one_upload, once.requeried,
      fun k hk => (not_settledIn hupload hk).elim⟩
    · rw [hsent]
      refine (or_iff_left ?_).symm
      rintro (⟨_, listing, hl, _⟩ | hk)
      · exact hnone listing hl
      · exact not_settledIn hupload hk
    · rw [hsent]
      refine (or_iff_left ?_).symm
      rintro ⟨listing, hl⟩
      exact hnone listing hl
  cases course with
  | unconfigured e => exact unchanged rfl rfl (by rintro _ ⟨⟩)
  | @unlisted config asking e known hnot =>
    obtain ⟨hlisting, hupload⟩ := escrow_free known.escrow
    refine unchanged ?_ rfl ?_
    · rw [callsOf_append, hupload]
      rfl
    · intro listing
      rw [firstListing_append, firstListing_eq_none hlisting]
      rintro ⟨⟩
  | @going config asking loading steps cache _ known loaded exiting =>
    obtain ⟨hlisting, hupload⟩ := escrow_free known.escrow
    have hloading := loaded.uploads
    obtain ⟨members, initialized, completed, once⟩ := exiting.evolves
    have settled (k : PubKey) : SettledIn (asking ++ (loading ++ steps)) k ↔ SettledIn steps k := by
      rw [settledIn_append hupload, settledIn_append hloading]
    have listed :
        firstListing (asking ++ (loading ++ steps)) = firstListing (loading ++ steps) := by
      rw [firstListing_append, firstListing_eq_none hlisting]
      rfl
    have once' := (once.append hloading).append hupload
    refine ⟨fun k => ?_, ?_, once'.one_upload, once'.requeried,
      fun k hk => completed k ((settled k).1 hk)⟩
    · rw [members, settled, LoadedIn, listed, loaded.members steps, or_assoc]
    · rw [initialized, listed]
      obtain ⟨hafter, hload⟩ := loaded.initialized steps
      exact iff_of_true hafter hload

/-- After a run the cache holds what it held before, what the first listing reports, and what an
accepted upload settles, and nothing else. A run uploads at most once, asks for the listing again if
the upload is accepted, and ends without an error if that settles anything. -/
theorem run_cache {task next : ExitTask} {snapshot : NetworkSnapshot} {history : List Step}
    {result : Except TaskError Unit}
    (ran : (run snapshot).Runs task history (.done (result, next))) :
    CacheEvolves task history result next := by
  have evolves := (runs_course ran).evolves
  refine ⟨fun k => ?_, ?_, ?_, ?_, fun k hk => evolves.only_completed k (settledIn_calls.2 hk)⟩
  · have h := evolves.members k
    rwa [settledIn_calls, LoadedIn, firstListing_calls] at h
  · have h := evolves.initialized
    rwa [firstListing_calls] at h
  · have h := evolves.one_upload
    rwa [callsOf_calls] at h
  · rintro before exits outcome after rfl accepted
    have h :=
      evolves.requeried (calls before) exits outcome (calls after) (calls_append ..) accepted
    rwa [firstListing_calls] at h

/-- The first run of a task, whose upload is taken and cannot be confirmed. -/
theorem run_cache_unconfirmed : ∃ k history next,
    (run (openSnapshot k)).Runs fresh history (.done (.ok (), next)) ∧
      callsOf Request.isUpload history ≠ [] ∧ CacheEvolves fresh history (.ok ()) next := by
  let config : BeaconConfig := ⟨0, 12, 32, Bytes.zero 4⟩
  have known : ConfigKnown fresh [.asked .beaconConfig (.ok config)] config := .asked config rfl
  obtain ⟨history, ran, huploads⟩ := open_uploaded fresh known (.listed [] rfl)
    (show Vector.replicate 48 1 ≠ Bytes.zero 48 by decide) List.not_mem_nil
    ⟨1, by decide, by decide⟩ (.error (.network "timeout"))
  refine ⟨_, history, _, ran, fun h => ?_, run_cache ran⟩
  rw [huploads] at h
  cases h

end ExitTask

end StakeKeeper
