import StakeKeeper.Proofs.Query.Reads

/-!
How a batch of stakes is prepared: a key is loaded and checked for each record, and then each
transaction is simulated. Main statements: `runs_buildEntries` and `runs_simulateEntries` (both go
through their list in order, and the first item that fails ends the run).
-/
namespace StakeKeeper
set_option autoImplicit false

/-! ## Signed and prepared stakes -/

structure SignedStake where
  record : MinipoolRecord
  key : ValidatorKey

namespace SignedStake

def deposit (s : SignedStake) (domain : Root) : DepositData :=
  signDeposit s.key s.record.credentials stakeAmountGwei domain

/-- Whether the key is the record's own and its signature is accepted. -/
structure Checked (s : SignedStake) (domain : Root) : Prop where
  own_key : s.key.pubkey = s.record.pubkey
  accepted : verifySignature s.record.pubkey ((s.deposit domain).message.signingRoot domain)
    (s.deposit domain).signature = true

def transaction (s : SignedStake) (domain : Root) (gasLimit : Option UInt64) :
    TransactionRequest where
  recipient := s.record.address
  call := .stake (s.deposit domain).signature (s.deposit domain).tree.root
  gasLimit := gasLimit

def entry (s : SignedStake) (domain : Root) (now : Instant) (gasLimit : Option UInt64) :
    StakeEntry where
  minipool := s.record.address
  waited := s.record.timeInStatus now
  tx := s.transaction domain gasLimit

def loading (s : SignedStake) : Step := .asked (.loadKey s.record.pubkey) (.ok (some s.key))

end SignedStake

structure PreparedStake extends SignedStake where
  gas : GasEstimate

namespace PreparedStake

/-- The call that simulated the transaction, without a gas limit. -/
def simulation (s : PreparedStake) (sender : Transactor) (domain : Root) : Step :=
  .asked (.simulate sender (s.transaction domain none)) (.ok s.gas)

/-- The entry with the gas limit of the simulation. -/
def sentEntry (s : PreparedStake) (domain : Root) (now : Instant) : StakeEntry :=
  s.entry domain now (some s.gas.gasLimit)

end PreparedStake

def simulatedEntry (domain : Root) (now : Instant) (s : SignedStake) :
    Except CallError GasEstimate → Except TaskError StakeEntry
  | .error (.simulation reason) => .error (.simulation s.record.address reason)
  | .error e => .error (.call e)
  | .ok gas => .ok (s.entry domain now (some gas.gasLimit))

theorem stakeEntry_eq_ok_iff {record : MinipoolRecord} {key : ValidatorKey} {domain : Root}
    {now : Instant} {entry : StakeEntry} :
    stakeEntry record key domain now = .ok entry ↔
      SignedStake.Checked ⟨record, key⟩ domain ∧
        entry = SignedStake.entry ⟨record, key⟩ domain now none := by
  unfold stakeEntry
  constructor
  · intro h
    dsimp only at h
    split at h
    · cases h
    · next hkey =>
      split at h
      · next haccepted =>
        cases h
        exact ⟨⟨Decidable.of_not_not hkey, haccepted⟩, rfl⟩
      · cases h
  · rintro ⟨⟨hkey, haccepted⟩, rfl⟩
    dsimp only
    rw [if_neg (not_not_intro hkey)]
    exact if_pos haccepted

/-! ## Loading the keys -/

def keyedEntry (domain : Root) (now : Instant) (record : MinipoolRecord) :
    Except CallError (Option ValidatorKey) → Except TaskError StakeEntry
  | .error e => .error (.call e)
  | .ok none => .error (.missingKey record.pubkey)
  | .ok (some key) => stakeEntry record key domain now

theorem keyedEntry_eq_ok_iff {domain : Root} {now : Instant} {record : MinipoolRecord}
    {answer : Except CallError (Option ValidatorKey)} {entry : StakeEntry} :
    keyedEntry domain now record answer = .ok entry ↔
      ∃ key, answer = .ok (some key) ∧ SignedStake.Checked ⟨record, key⟩ domain ∧
        entry = SignedStake.entry ⟨record, key⟩ domain now none := by
  rcases answer with e | _ | key
  · simp [keyedEntry]
  · simp [keyedEntry]
  · simp [keyedEntry, stakeEntry_eq_ok_iff]

namespace StakeTask

theorem buildEntries_eq_askEach (domain : Root) (now : Instant) (records : List MinipoolRecord) :
    buildEntries domain now records =
      askEach (fun r => .loadKey r.pubkey) (keyedEntry domain now) records := by
  induction records with
  | nil => rfl
  | cons record rest ih =>
    rw [buildEntries, ih]
    show Routine.ask _ _ = Routine.ask _ _
    congr 1
    funext answer
    rcases answer with e | _ | key <;> rfl

/-- Keys are loaded and checked in order, and the first that is missing or refused ends the run. -/
theorem runs_buildEntries {domain : Root} {now : Instant} {records : List MinipoolRecord}
    {history : List Step} {ending : Ending (Except TaskError (List StakeEntry))}
    (ran : (buildEntries domain now records).Runs history ending) :
    ∃ stakes : List SignedStake, (∀ s ∈ stakes, s.Checked domain) ∧
      ((records = stakes.map (·.record) ∧ history = stakes.map (·.loading) ∧
          ending = .done (.ok (stakes.map (·.entry domain now none)))) ∨
        ∃ record rest answer e, records = stakes.map (·.record) ++ record :: rest ∧
          history = stakes.map (·.loading) ++ [.asked (.loadKey record.pubkey) answer] ∧
            keyedEntry domain now record answer = .error e ∧ ending = .done (.error e)) := by
  rw [buildEntries_eq_askEach] at ran
  obtain ⟨ks, h⟩ := runs_askEach (fun k : { s : SignedStake // s.Checked domain } => k.1.record)
    (fun k => k.1.loading) (fun k => k.1.entry domain now none) (fun record answer entry h => by
      obtain ⟨key, rfl, hk, rfl⟩ := keyedEntry_eq_ok_iff.1 h
      exact ⟨⟨⟨record, key⟩, hk⟩, rfl, rfl, rfl⟩) ran
  refine ⟨ks.map Subtype.val, fun s hs => ?_, ?_⟩
  · obtain ⟨k, _, rfl⟩ := List.mem_map.1 hs
    exact k.2
  · simp only [List.map_map, Function.comp_def]
    exact h

/-! ## Simulating the transactions -/

theorem simulateEntries_eq_askEach (sender : Transactor) (domain : Root) (now : Instant)
    (stakes : List SignedStake) :
    simulateEntries sender (stakes.map (·.entry domain now none)) =
      askEach (fun s => .simulate sender (s.transaction domain none))
        (simulatedEntry domain now) stakes := by
  induction stakes with
  | nil => rfl
  | cons s rest ih =>
    rw [List.map_cons, simulateEntries, ih]
    show Routine.ask _ _ = Routine.ask _ _
    congr 1
    funext answer
    rcases answer with e | gas
    · cases e <;> rfl
    · rfl

/-- Transactions are simulated in order, and the first that fails ends the run. -/
theorem runs_simulateEntries {sender : Transactor} {domain : Root} {now : Instant}
    {stakes : List SignedStake} {history : List Step}
    {ending : Ending (Except TaskError (List StakeEntry))}
    (ran : (simulateEntries sender (stakes.map (·.entry domain now none))).Runs history ending) :
    ∃ prepared : List PreparedStake,
      (stakes = prepared.map (·.toSignedStake) ∧
          history = prepared.map (·.simulation sender domain) ∧
            ending = .done (.ok (prepared.map (·.sentEntry domain now)))) ∨
        ∃ s rest answer e, stakes = prepared.map (·.toSignedStake) ++ s :: rest ∧
          history = prepared.map (·.simulation sender domain) ++
            [.asked (.simulate sender (s.transaction domain none)) (.error answer)] ∧
              ending = .done (.error e) := by
  rw [simulateEntries_eq_askEach] at ran
  obtain ⟨ks, h | ⟨s, rest, answer, e, hs, hh, ht, he⟩⟩ :=
    runs_askEach PreparedStake.toSignedStake (·.simulation sender domain)
      (·.sentEntry domain now) (fun s answer entry h => by
        rcases answer with e | gas
        · cases e <;> cases h
        · cases h
          exact ⟨⟨s, gas⟩, rfl, rfl, rfl⟩) ran
  · exact ⟨ks, .inl h⟩
  · rcases answer with error | gas
    · exact ⟨ks, .inr ⟨s, rest, error, e, hs, hh, he⟩⟩
    · cases ht

end StakeTask

end StakeKeeper
