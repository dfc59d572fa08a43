import StakeKeeper.Proofs.Exit.Batch
import StakeKeeper.Proofs.Stake.Broadcast
import StakeKeeper.Proofs.Stake.Delivery

/-!
Whose keys uploaded exits are signed with. Main statements: `ExitTask.signed_by_owner` (every exit of
a batch is signed by the validator that it names if the key store returns that validator's own
key) and `ExitTask.signed_by_another` (no key is checked: one that belongs to another validator is
used all the same).
-/
namespace StakeKeeper
set_option autoImplicit false

/-! ## Signatures of a batch -/

/-- Whether an exit was signed in a run by the validator that it names: some key that the key store
returned has the named public key, and the signature is its signature of the message under the
domain of exits. -/
def SignedByOwner (history : List Step) (upload : ExitUpload) : Prop :=
  ∃ key domain, key.pubkey = upload.pubkey ∧
    upload.exit.signature = signRoot key (upload.exit.message.signingRoot domain) ∧
      (∃ k, .asked (.loadKey k) (.ok (some key)) ∈ history) ∧
        .asked (.signingDomain .voluntaryExit upload.exit.message.epoch) (.ok domain) ∈ history

theorem KeyAnswer.exit?_eq_some {epoch : UInt64} {domain : Root} {a : KeyAnswer}
    {upload : ExitUpload} (h : a.exit? epoch domain = some upload) :
    ∃ key, a.answer = .ok (some key) ∧
      upload = ⟨a.record.pubkey, signExit key ⟨epoch, a.index⟩ domain⟩ := by
  obtain ⟨record, index, answer⟩ := a
  rcases answer with e | _ | key
  · cases h
  · cases h
  · cases h
    exact ⟨key, rfl, rfl⟩

theorem ExitBatch.mem_exits {batch : ExitBatch} {slot : UInt64} {candidates : List MinipoolRecord}
    {upload : ExitUpload} (h : upload ∈ batch.exits) :
    ∃ key, .asked (.loadKey upload.pubkey) (.ok (some key)) ∈ batch.steps slot candidates ∧
      .asked (.signingDomain .voluntaryExit upload.exit.message.epoch) (.ok batch.domain) ∈
        batch.steps slot candidates ∧
      upload.exit.signature = signRoot key (upload.exit.message.signingRoot batch.domain) := by
  obtain ⟨a, ha, hexit⟩ := List.mem_filterMap.1 h
  obtain ⟨key, hanswer, rfl⟩ := KeyAnswer.exit?_eq_some hexit
  have hload : a.step ∈ batch.steps slot candidates := by
    refine List.mem_cons_of_mem _ (List.mem_cons_of_mem _ (List.mem_cons_of_mem _ ?_))
    exact List.mem_map_of_mem ha
  rw [KeyAnswer.step, hanswer] at hload
  exact ⟨key, hload, List.mem_cons_of_mem _ (List.mem_cons_of_mem _ List.mem_cons_self), rfl⟩

theorem ExitBatch.loads_steps (batch : ExitBatch) (slot : UInt64)
    (candidates : List MinipoolRecord) :
    callsOf Request.isLoad (batch.steps slot candidates) = batch.answers.map (·.step) :=
  callsOf_map_of_pos (fun _ => rfl) batch.answers

namespace ExitTask

/-- An uploaded exit is signed by the validator that it names if the key that the store returned for
it is that validator's. The run itself does not compare the two. -/
theorem signed_by_owner {task : ExitTask} {snapshot : NetworkSnapshot} {before after : List Step}
    {exits : List ExitUpload} {answer : Except CallError UploadOutcome}
    {ending : Ending (Except TaskError Unit × ExitTask)}
    (ran :
      (run snapshot).Runs task (before ++ .asked (.uploadExits exits) answer :: after) ending)
    {upload : ExitUpload} (hupload : upload ∈ exits)
    (own : ∀ key, .asked (.loadKey upload.pubkey) (.ok (some key)) ∈ before →
      key.pubkey = upload.pubkey) : SignedByOwner before upload := by
  have course : Course task snapshot
      (calls before ++ .asked (.uploadExits exits) answer :: calls after) ending := by
    have h := runs_course ran
    rw [calls_append] at h
    exact h
  obtain ⟨config, asking, loading, cache, batch, _, _, _, rfl, hbefore, _, _⟩ := course.at_upload
  have gathered {step : Step} (h : step ∈ batch.steps (config.slotAt batch.now)
      (needing cache snapshot.validators)) : step ∈ before := by
    refine mem_of_mem_calls ?_
    rw [hbefore]
    exact List.mem_append_right _ (List.mem_append_right _ h)
  obtain ⟨key, hload, hdomain, hsignature⟩ := ExitBatch.mem_exits hupload
  exact ⟨key, batch.domain, own key (gathered hload), hsignature, ⟨_, gathered hload⟩,
    gathered hdomain⟩

/-! ## One open minipool -/

/-- A first run on one open minipool, for which the key store returns a key. -/
theorem open_signed {k : PubKey} (hk : k ≠ Bytes.zero 48) (key : ValidatorKey) :
    ∃ before after answer ending, (run (openSnapshot k)).Runs fresh
        (before ++ .asked (.uploadExits [⟨k, signExit key ⟨8, 5⟩ (Bytes.zero 32)⟩]) answer :: after)
        ending ∧
      ∀ j loaded, .asked (.loadKey j) (.ok (some loaded)) ∈ before → j = k ∧ loaded = key := by
  let config : BeaconConfig := ⟨0, 12, 32, Bytes.zero 4⟩
  obtain ⟨history, ran, hcalls⟩ := run_uploads fresh (.asked config rfl) (.listed [] rfl)
    (openBatch_gathered hk List.not_mem_nil key config) (.ok [])
  rw [← List.append_assoc, ← List.append_assoc] at hcalls
  obtain ⟨before, after, rfl, hbefore, _⟩ := calls_eq_append_cons hcalls
  have hloads : callsOf Request.isLoad before = [.asked (.loadKey k) (.ok (some key))] := by
    rw [← callsOf_calls, hbefore, callsOf_append, ExitBatch.loads_steps]
    rfl
  refine ⟨before, after, _, _, ran, fun j loaded hload => ?_⟩
  have hone : .asked (.loadKey j) (.ok (some loaded)) ∈ callsOf Request.isLoad before :=
    List.mem_filter.2 ⟨hload, rfl⟩
  rw [hloads] at hone
  cases List.mem_singleton.1 hone
  exact ⟨rfl, rfl⟩

/-! ## Two keys -/

def secondKey : ValidatorKey := ⟨2, by decide, by decide⟩

theorem secondKey_pubkey_ne :
    secondKey.pubkey ≠ Bytes.zero 48 ∧ StakeTask.firstKey.pubkey ≠ secondKey.pubkey := by
  decide +kernel

theorem signed_by_owner_firstKey : ∃ before after exits answer ending,
    (run (openSnapshot StakeTask.firstKey.pubkey)).Runs fresh
        (before ++ .asked (.uploadExits exits) answer :: after) ending ∧
      ∃ upload ∈ exits, (∀ key, .asked (.loadKey upload.pubkey) (.ok (some key)) ∈ before →
        key.pubkey = upload.pubkey) ∧ SignedByOwner before upload := by
  obtain ⟨before, after, answer, ending, ran, loads⟩ :=
    open_signed StakeTask.firstKey_pubkey_ne StakeTask.firstKey
  have own (key : ValidatorKey)
      (h : .asked (.loadKey StakeTask.firstKey.pubkey) (.ok (some key)) ∈ before) :
      key.pubkey = StakeTask.firstKey.pubkey := by
    obtain ⟨_, rfl⟩ := loads _ key h
    rfl
  exact ⟨before, after, _, answer, ending, ran, _, List.mem_singleton_self _, own,
    signed_by_owner ran (List.mem_singleton_self _) own⟩

/-- The key store returns the first key for the validator of the second: the exit is uploaded, and
no key that the run had is the validator's own. -/
theorem signed_by_another : ∃ before after exits answer ending,
    (run (openSnapshot secondKey.pubkey)).Runs fresh
        (before ++ .asked (.uploadExits exits) answer :: after) ending ∧
      ∃ upload ∈ exits, ¬ SignedByOwner before upload := by
  obtain ⟨before, after, answer, ending, ran, loads⟩ :=
    open_signed secondKey_pubkey_ne.1 StakeTask.firstKey
  refine ⟨before, after, _, answer, ending, ran, _, List.mem_singleton_self _, ?_⟩
  rintro ⟨key, domain, howner, _, ⟨k, hload⟩, _⟩
  obtain ⟨rfl, rfl⟩ := loads k key hload
  exact secondKey_pubkey_ne.2 howner

end ExitTask

end StakeKeeper
