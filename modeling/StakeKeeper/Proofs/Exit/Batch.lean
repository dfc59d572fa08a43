import Mathlib.Data.List.Basic
import StakeKeeper.Proofs.Exit.Resubmission

/-!
What an uploaded batch of exits is. Main statement: `ExitTask.uploaded_exactly` (a run uploads once,
and the batch is the exits of the first records of the validators that need one, without those that
the beacon chain gives no index or the key store no key).
-/
namespace StakeKeeper
set_option autoImplicit false

/-! ## Selection -/

/-- The records of a snapshot whose validators a cache leaves without an exit, in order. -/
def needing (cache : ExitCache) (records : List MinipoolRecord) : List MinipoolRecord :=
  records.filter fun r =>
    r.known && r.status != .dissolved && r.status != .finalized && r.pubkey != Bytes.zero 48 &&
      !cache.sent.contains r.pubkey

theorem exitCandidates_eq (cache : ExitCache) (records : List MinipoolRecord) :
    exitCandidates cache records = needing cache records := by
  refine List.filter_congr fun r _ => ?_
  have hclosed : (!r.status.isClosed) = (r.status != .dissolved && r.status != .finalized) := by
    cases r.status <;> rfl
  simp only [hclosed, ExitCache.contains, Bool.and_assoc]

/-- The first record of each validator, in order. -/
def firstOfEach : List MinipoolRecord → List MinipoolRecord
  | [] => []
  | r :: rest => r :: (firstOfEach rest).filter (·.pubkey ≠ r.pubkey)

theorem firstOfEach_pairwise (records : List MinipoolRecord) :
    (firstOfEach records).Pairwise fun r s => r.pubkey ≠ s.pubkey := by
  induction records with
  | nil => exact .nil
  | cons r rest ih =>
    refine .cons (fun s hs => ?_) (ih.filter _)
    exact (of_decide_eq_true (List.mem_filter.1 hs).2).symm

theorem exists_mem_firstOfEach {records : List MinipoolRecord} {r : MinipoolRecord}
    (h : r ∈ records) : ∃ s ∈ firstOfEach records, s.pubkey = r.pubkey := by
  induction records with
  | nil => cases h
  | cons first rest ih =>
    by_cases hfirst : first.pubkey = r.pubkey
    · exact ⟨first, List.mem_cons_self, hfirst⟩
    rcases List.mem_cons.1 h with rfl | hrest
    · exact (hfirst rfl).elim
    obtain ⟨s, hs, hpubkey⟩ := ih hrest
    refine ⟨s, List.mem_cons_of_mem first (List.mem_filter.2 ⟨hs, decide_eq_true ?_⟩), hpubkey⟩
    rw [hpubkey]
    exact Ne.symm hfirst

/-- A record with what the beacon chain says of its validator, if that includes an index. -/
def seen (statuses : PubKey → Option BeaconStatus) (r : MinipoolRecord) :
    Option (MinipoolRecord × UInt64) :=
  (statuses r.pubkey).bind fun status =>
    status.index.map fun index => ({ r with beacon := some status }, index)

theorem seen_pubkey {statuses : PubKey → Option BeaconStatus} {r : MinipoolRecord}
    {found : MinipoolRecord × UInt64} (h : seen statuses r = some found) :
    found.1.pubkey = r.pubkey := by
  obtain ⟨status, _, hfound⟩ := Option.bind_eq_some_iff.1 h
  obtain ⟨index, _, rfl⟩ := Option.map_eq_some_iff.1 hfound
  rfl

/-- A status that was used is gone for the records after it. -/
def unused (statuses : PubKey → Option BeaconStatus) (k : PubKey) : PubKey → Option BeaconStatus :=
  fun j => if j = k then none else statuses j

theorem withBeaconStatus_cons (slot : UInt64) (statuses : PubKey → Option BeaconStatus)
    (r : MinipoolRecord) (rest : List MinipoolRecord) :
    (withBeaconStatus slot statuses (r :: rest)).1 =
      (seen statuses r).toList ++ (withBeaconStatus slot (unused statuses r.pubkey) rest).1 := by
  rw [withBeaconStatus, seen]
  unfold unused
  cases statuses r.pubkey with
  | none => rfl
  | some status =>
    rw [Option.bind_some]
    dsimp only
    cases status.index <;> rfl

theorem filterMap_seen_unused (statuses : PubKey → Option BeaconStatus) (k : PubKey)
    (records : List MinipoolRecord) :
    records.filterMap (seen (unused statuses k)) =
      (records.filter (·.pubkey ≠ k)).filterMap (seen statuses) := by
  rw [List.filterMap_filter]
  refine List.filterMap_congr fun r _ => ?_
  by_cases h : r.pubkey = k
  · simp [seen, unused, h]
  · simp [seen, unused, h]

theorem withBeaconStatus_eq (slot : UInt64) (statuses : PubKey → Option BeaconStatus)
    (records : List MinipoolRecord) :
    (withBeaconStatus slot statuses records).1 =
      (firstOfEach records).filterMap (seen statuses) := by
  induction records generalizing statuses with
  | nil => rfl
  | cons r rest ih =>
    rw [withBeaconStatus_cons, ih, filterMap_seen_unused, firstOfEach, List.filterMap_cons]
    cases seen statuses r <;> rfl

/-! ## Keys -/

/-- The key store's answer about a validator that a step shows. -/
def Step.keyAnswer? (k : PubKey) : Step → Option (Except CallError (Option ValidatorKey))
  | asked (.loadKey j) answer => if j = k then some answer else none
  | _ => none

/-- The key that the key store returned for a validator. -/
def loadedKey? (history : List Step) (k : PubKey) : Option ValidatorKey :=
  match history.findSome? (Step.keyAnswer? k) with
  | some (.ok key) => key
  | _ => none

theorem loadedKey?_calls (history : List Step) (k : PubKey) :
    loadedKey? (calls history) k = loadedKey? history k := by
  have hcalls : (calls history).findSome? (Step.keyAnswer? k) =
      history.findSome? (Step.keyAnswer? k) := by
    refine findSome?_filter_of_imp (fun step h => ?_) history
    cases step with
    | noted e => rfl
    | asked q answer => cases h
  rw [loadedKey?, hcalls, loadedKey?]

theorem loadedKey?_append {first : List Step} {k : PubKey}
    (h : first.findSome? (Step.keyAnswer? k) = none) (second : List Step) :
    loadedKey? (first ++ second) k = loadedKey? second k := by
  rw [loadedKey?, List.findSome?_append, h, Option.none_or, loadedKey?]

namespace KeyAnswer

def key? (a : KeyAnswer) : Option ValidatorKey :=
  match a.answer with
  | .ok key => key
  | .error _ => none

theorem exit?_eq (epoch : UInt64) (domain : Root) (a : KeyAnswer) :
    a.exit? epoch domain =
      a.key?.map fun key => ⟨a.record.pubkey, signExit key ⟨epoch, a.index⟩ domain⟩ := by
  obtain ⟨record, index, answer⟩ := a
  rcases answer with e | _ | key <;> rfl

/-- Where each validator is asked about once, the answer about one of them is what was loaded. -/
theorem loadedKey?_eq {answers : List KeyAnswer}
    (distinct : answers.Pairwise fun a b => a.record.pubkey ≠ b.record.pubkey) {a : KeyAnswer}
    (h : a ∈ answers) : loadedKey? (answers.map (·.step)) a.record.pubkey = a.key? := by
  induction distinct with
  | nil => cases h
  | @cons first rest hfirst distinct ih =>
    rcases List.mem_cons.1 h with rfl | hrest
    · have hstep : a.step.keyAnswer? a.record.pubkey = some a.answer := if_pos rfl
      rw [List.map_cons, loadedKey?, List.findSome?_cons, hstep]
      obtain ⟨record, index, answer⟩ := a
      cases answer <;> rfl
    · have hstep : first.step.keyAnswer? a.record.pubkey = none := if_neg (hfirst a hrest)
      have hnone : [first.step].findSome? (Step.keyAnswer? a.record.pubkey) = none := by
        rw [List.findSome?_cons, hstep]
        rfl
      exact (loadedKey?_append hnone _).trans (ih hrest)

end KeyAnswer

/-! ## Batches -/

/-- The exits of records, in order: those whose validator has an index and a key. -/
def exitsOf (statuses : PubKey → Option BeaconStatus) (key? : PubKey → Option ValidatorKey)
    (epoch : UInt64) (domain : Root) (records : List MinipoolRecord) : List ExitUpload :=
  records.filterMap fun r => do
    let status ← statuses r.pubkey
    let index ← status.index
    let key ← key? r.pubkey
    let message : VoluntaryExit := ⟨epoch, index⟩
    pure ⟨r.pubkey, ⟨message, signRoot key (message.signingRoot domain)⟩⟩

section
variable {statuses : PubKey → Option BeaconStatus} {key? : PubKey → Option ValidatorKey}
  {epoch : UInt64} {domain : Root} {records : List MinipoolRecord}

theorem exitsOf_eq :
    exitsOf statuses key? epoch domain records =
      (records.filterMap (seen statuses)).filterMap fun found =>
        (key? found.1.pubkey).map fun key =>
          ⟨found.1.pubkey, signExit key ⟨epoch, found.2⟩ domain⟩ := by
  rw [List.filterMap_filterMap]
  refine List.filterMap_congr fun r _ => ?_
  cases hstatus : statuses r.pubkey with
  | none => simp [seen, hstatus]
  | some status =>
    cases hindex : status.index with
    | none => simp [seen, hstatus, hindex]
    | some index =>
      cases hkey : key? r.pubkey with
      | none => simp [seen, hstatus, hindex, hkey]
      | some key => simp [seen, hstatus, hindex, hkey, signExit]

theorem mem_exitsOf {k : PubKey} :
    k ∈ (exitsOf statuses key? epoch domain records).map (·.pubkey) ↔
      (∃ r ∈ records, r.pubkey = k) ∧ (∃ status index, statuses k = some status ∧
        status.index = some index) ∧ ∃ key, key? k = some key := by
  constructor
  · intro h
    obtain ⟨upload, hupload, rfl⟩ := List.mem_map.1 h
    obtain ⟨r, hr, hentry⟩ := List.mem_filterMap.1 hupload
    obtain ⟨status, hstatus, hentry⟩ := Option.bind_eq_some_iff.1 hentry
    obtain ⟨index, hindex, hentry⟩ := Option.bind_eq_some_iff.1 hentry
    obtain ⟨key, hkey, hentry⟩ := Option.bind_eq_some_iff.1 hentry
    cases hentry
    exact ⟨⟨r, hr, rfl⟩, ⟨status, index, hstatus, hindex⟩, key, hkey⟩
  · rintro ⟨⟨r, hr, rfl⟩, ⟨status, index, hstatus, hindex⟩, key, hkey⟩
    refine List.mem_map.2 ⟨⟨r.pubkey, signExit key ⟨epoch, index⟩ domain⟩, ?_, rfl⟩
    refine List.mem_filterMap.2 ⟨r, hr, ?_⟩
    rw [hstatus, Option.bind_eq_bind, Option.bind_some, hindex, Option.bind_eq_bind,
      Option.bind_some, hkey]
    rfl

theorem exitsOf_nodup (distinct : records.Pairwise fun r s => r.pubkey ≠ s.pubkey) :
    ((exitsOf statuses key? epoch domain records).map (·.pubkey)).Nodup := by
  have pubkey_eq {r : MinipoolRecord} {upload : ExitUpload}
      (h : upload ∈ exitsOf statuses key? epoch domain [r]) : upload.pubkey = r.pubkey := by
    obtain ⟨⟨_, hr, hpubkey⟩, _⟩ := mem_exitsOf.1 (List.mem_map_of_mem h)
    rw [← hpubkey, List.mem_singleton.1 hr]
  refine List.pairwise_map.2 (distinct.filterMap _ fun r s hne first hfirst second hsecond => ?_)
  rw [pubkey_eq (List.mem_filterMap.2 ⟨r, List.mem_singleton_self r, hfirst⟩),
    pubkey_eq (List.mem_filterMap.2 ⟨s, List.mem_singleton_self s, hsecond⟩)]
  exact hne

end

namespace ExitBatch
variable {batch : ExitBatch} {config : BeaconConfig} {header : BlockHeader}
  {candidates : List MinipoolRecord}

theorem GatheredFor.answers_eq (gathered : batch.GatheredFor config header candidates) :
    batch.answers.map (fun a => (a.record, a.index)) =
      (firstOfEach candidates).filterMap (seen batch.statuses) := by
  rw [← gathered.eligible, withBeaconStatus_eq]

theorem GatheredFor.answers_distinct (gathered : batch.GatheredFor config header candidates) :
    batch.answers.Pairwise fun a b => a.record.pubkey ≠ b.record.pubkey := by
  have hseen : ((firstOfEach candidates).filterMap (seen batch.statuses)).Pairwise
      fun found other => found.1.pubkey ≠ other.1.pubkey := by
    refine (firstOfEach_pairwise candidates).filterMap _ fun r s hne found hr other hs => ?_
    rw [seen_pubkey hr, seen_pubkey hs]
    exact hne
  rw [← gathered.answers_eq] at hseen
  have distinct := List.pairwise_map.1 hseen
  exact distinct

theorem GatheredFor.exits_eq (gathered : batch.GatheredFor config header candidates) :
    batch.exits = exitsOf batch.statuses
      (loadedKey? (batch.steps (config.slotAt batch.now) candidates)) batch.head.finalizedEpoch
      batch.domain (firstOfEach candidates) := by
  rw [exitsOf_eq, ← gathered.answers_eq, List.filterMap_map]
  refine List.filterMap_congr fun a ha => ?_
  rw [KeyAnswer.exit?_eq, ← KeyAnswer.loadedKey?_eq gathered.answers_distinct ha]
  rfl

end ExitBatch

/-! ## One run -/

namespace ExitTask

/-- What a run has gathered when it uploads, and that the batch is exactly what follows from it. -/
structure UploadsExactly (task : ExitTask) (snapshot : NetworkSnapshot) (before : List Step)
    (exits : List ExitUpload) (after : List Step) (config : BeaconConfig) (cache : ExitCache)
    (batch : ExitBatch) : Prop where
  asked : ∃ asking loading, ConfigKnown task asking config ∧ Loaded task.sent loading cache ∧
    calls before = asking ++ (loading ++
      batch.steps (config.slotAt batch.now) (needing cache snapshot.validators))
  time : snapshot.header.time? = some batch.now
  keys : batch.answers.map (fun a => (a.record, a.index)) =
    (firstOfEach (needing cache snapshot.validators)).filterMap (seen batch.statuses)
  exact : exits = exitsOf batch.statuses (loadedKey? before) batch.head.finalizedEpoch batch.domain
    (firstOfEach (needing cache snapshot.validators))
  covered : ∀ r ∈ needing cache snapshot.validators, r.pubkey ∈ exits.map (·.pubkey) ↔
    (∃ status index, batch.statuses r.pubkey = some status ∧ status.index = some index) ∧
      ∃ key, loadedKey? before r.pubkey = some key
  distinct : (exits.map (·.pubkey)).Nodup
  nonempty : exits ≠ []
  only : callsOf Request.isUpload before = [] ∧ callsOf Request.isUpload after = []

theorem UploadsExactly.of_gathered {task : ExitTask} {snapshot : NetworkSnapshot}
    {before after asking loading : List Step} {config : BeaconConfig} {cache : ExitCache}
    {batch : ExitBatch} (known : ConfigKnown task asking config)
    (loaded : Loaded task.sent loading cache)
    (gathered : batch.GatheredFor config snapshot.header (needing cache snapshot.validators))
    (hbefore : calls before = asking ++ (loading ++
      batch.steps (config.slotAt batch.now) (needing cache snapshot.validators)))
    (only : callsOf Request.isUpload before = [] ∧ callsOf Request.isUpload after = []) :
    UploadsExactly task snapshot before batch.exits after config cache batch := by
  -- No key is asked for before the batch is gathered.
  have hkeys : loadedKey? before = loadedKey?
      (batch.steps (config.slotAt batch.now) (needing cache snapshot.validators)) := by
    funext k
    have hasking : asking.findSome? (Step.keyAnswer? k) = none := by cases known <;> rfl
    have hloading : loading.findSome? (Step.keyAnswer? k) = none := by cases loaded <;> rfl
    rw [← loadedKey?_calls, hbefore, loadedKey?_append hasking, loadedKey?_append hloading]
  have hexact := gathered.exits_eq
  rw [← hkeys] at hexact
  refine ⟨⟨asking, loading, known, loaded, hbefore⟩, gathered.time, gathered.answers_eq, hexact,
    fun r hr => ?_, ?_, gathered.signed, only⟩
  · rw [hexact, mem_exitsOf]
    exact and_iff_right (exists_mem_firstOfEach hr)
  · rw [hexact]
    exact exitsOf_nodup (firstOfEach_pairwise _)

theorem Course.at_upload {task : ExitTask} {snapshot : NetworkSnapshot} {first rest : List Step}
    {exits : List ExitUpload} {answer : Except CallError UploadOutcome}
    {ending : Ending (Except TaskError Unit × ExitTask)}
    (course : Course task snapshot (first ++ .asked (.uploadExits exits) answer :: rest) ending) :
    ∃ config asking loading cache batch, ConfigKnown task asking config ∧
      Loaded task.sent loading cache ∧
      ExitBatch.GatheredFor batch config snapshot.header (needing cache snapshot.validators) ∧
      exits = batch.exits ∧
      first = asking ++ (loading ++
        batch.steps (config.slotAt batch.now) (needing cache snapshot.validators)) ∧
      callsOf Request.isUpload first = [] ∧ callsOf Request.isUpload rest = [] := by
  generalize hsteps : first ++ .asked (.uploadExits exits) answer :: rest = steps at course
  have free (h : callsOf Request.isUpload steps = []) : False := by
    rw [← hsteps] at h
    cases not_asks_of_split h
  cases course with
  | unconfigured e => exact (free rfl).elim
  | unlisted e known hnot =>
    refine (free ?_).elim
    rw [callsOf_append, (escrow_free known.escrow).2]
    rfl
  | @going config asking loading later cache _ known loaded exiting =>
    have opening : callsOf Request.isUpload (asking ++ (loading ++ later)) =
        callsOf Request.isUpload later := by
      rw [callsOf_append, (escrow_free known.escrow).2, callsOf_append, loaded.uploads]
      rfl
    rw [exitCandidates_eq] at exiting
    cases exiting with
    | crashed c => exact (free opening).elim
    | ended h => exact (free (opening.trans (escrow_free h).2)).elim
    | @uploaded batch last result after gathered uploading =>
      let gathering := batch.steps (config.slotAt batch.now) (needing cache snapshot.validators)
      have hnone : callsOf Request.isUpload (asking ++ (loading ++ gathering)) = [] := by
        rw [callsOf_append, (escrow_free known.escrow).2, callsOf_append, loaded.uploads,
          (escrow_free (batch.steps_escrow _ _)).2]
        rfl
      obtain ⟨_, others, rfl, hothers⟩ := uploading.first
      rw [← List.append_assoc loading, ← List.append_assoc asking] at hsteps
      obtain ⟨rfl, hs, rfl⟩ := split_unique rfl hnone hothers hsteps
      cases hs
      exact ⟨config, asking, loading, cache, batch, known, loaded, gathered, rfl, rfl, hnone,
        hothers⟩

/-- What a run uploads is known from its answers: the exits of the open validators that the cache
does not hold, that the beacon chain knows by an index and whose key is loaded, each once, in the
order of the snapshot. -/
theorem uploaded_exactly {task : ExitTask} {snapshot : NetworkSnapshot} {before after : List Step}
    {exits : List ExitUpload} {answer : Except CallError UploadOutcome}
    {ending : Ending (Except TaskError Unit × ExitTask)}
    (ran :
      (run snapshot).Runs task (before ++ .asked (.uploadExits exits) answer :: after) ending) :
    ∃ config cache batch,
      UploadsExactly task snapshot before exits after config cache batch := by
  have course : Course task snapshot
      (calls before ++ .asked (.uploadExits exits) answer :: calls after) ending := by
    have h := runs_course ran
    rw [calls_append] at h
    exact h
  obtain ⟨config, asking, loading, cache, batch, known, loaded, gathered, rfl, hbefore, hfirst,
    hrest⟩ := course.at_upload
  rw [callsOf_calls] at hfirst hrest
  exact ⟨config, cache, batch, .of_gathered known loaded gathered hbefore ⟨hfirst, hrest⟩⟩

/-- The first run of a task on one open minipool. -/
theorem uploaded_exactly_open : ∃ k before exits answer after ending,
    (run (openSnapshot k)).Runs fresh (before ++ .asked (.uploadExits exits) answer :: after)
        ending ∧
      ∃ config cache batch,
        UploadsExactly fresh (openSnapshot k) before exits after config cache batch := by
  let config : BeaconConfig := ⟨0, 12, 32, Bytes.zero 4⟩
  let k : PubKey := Vector.replicate 48 1
  have hk : k ≠ Bytes.zero 48 := by decide
  obtain ⟨history, ran, hcalls⟩ := run_uploads fresh (.asked config rfl) (.listed [] rfl)
    (openBatch_gathered hk List.not_mem_nil ⟨1, by decide, by decide⟩ config) (.ok [])
  rw [← List.append_assoc, ← List.append_assoc] at hcalls
  obtain ⟨before, after, rfl, _, _⟩ := calls_eq_append_cons hcalls
  exact ⟨k, before, _, _, after, _, ran, uploaded_exactly ran⟩

end ExitTask

end StakeKeeper
