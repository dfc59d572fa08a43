import StakeKeeper.Proofs.Devnet.Serving

/-!
A chain with one minipool that is due, and a run of the staking task that stakes it there. Main
statement: `due_staked` (the run is answered by the chain, which executes its batch).
-/
namespace StakeKeeper.Devnet
set_option autoImplicit false

open StakeTask

theorem Serves.of_calls {c c' : Chain} {history : List Step} (h : Serves c (calls history) c') :
    Serves c history c' := by
  induction history generalizing c with
  | nil => exact h
  | cons step rest ih =>
    cases step with
    | asked q answer =>
      cases h with
      | asked served more => exact .asked served (ih more)
    | noted e => exact .noted e (ih h)

theorem Serves.answered (n n' : Net) {q : Request} {answer : Except CallError q.Reply}
    {rest : List Step} {c' : Chain} (h : q.isSubmission = false)
    (ha : n.answer q = (.answered answer, n')) (more : Serves n'.chain rest c') :
    Serves n.chain (.asked q answer :: rest) c' := .asked (.answered h ha) more

/-- The collaborators around a chain whose only minipool is due, after some calls. -/
def dueNet (key : ValidatorKey) (multicalls : List (Nat × UInt64))
    (refreshed : List ContractRegistry) (simulated : List Address) : Net :=
  { Net.new (dueView key).header (dueView key).settings (Bytes.zero 20)
      ⟨0, 12, 32, Bytes.zero 4⟩ with
    chain := { Chain.new (dueView key).header (dueView key).settings with
      minipools := [dueRecord key]
      multicalls
      refreshed
      simulated } }

theorem Net.answer_multicall {n : Net} {reads : List ContractRead} {values : List ReadValue}
    (block : UInt64) (hreads : n.chain.failReads = false)
    (h : reads.mapM n.chain.answer = .ok values) :
    n.answer (.multicall reads block) = (.answered (.ok values),
      { n with chain :=
        { n.chain with multicalls := n.chain.multicalls ++ [(reads.length, block)] } }) := by
  show ((Reaction.answered (n.chain.multicall reads block).1 : Reaction (List ReadValue)),
    { n with chain := (n.chain.multicall reads block).2 }) = _
  unfold Chain.multicall
  rw [if_neg (by rw [hreads]; decide), h]
  rfl

theorem dueSettings_answered (c : Chain)
    (h : c.settings = ⟨.ofSecs 1, .ofSecs 10, .zero⟩) :
    settingsReads.mapM c.answer =
      .ok [.uint (.ofUInt64 1), .uint (.ofUInt64 10), .uint .zero] := by
  simp only [settingsReads, List.mapM_cons, List.mapM_nil, Chain.answer, h, Duration.secs_ofSecs]
  rfl

theorem dueRecord_answered (key : ValidatorKey) (c : Chain) (h : c.minipools = [dueRecord key]) :
    (allFields.map (.minipool (dueRecord key).address)).mapM c.answer =
      .ok ((dueRecord key).values 0) := by
  have hfirst : c.minipool? (dueRecord key).address = some (dueRecord key) := by
    unfold Chain.minipool?
    rw [h]
    rfl
  have htime : (dueRecord key).statusTime.unixSecs = 0 := show Instant.epoch.unixSecs = 0 by decide
  simp only [allFields, List.map_cons, List.map_nil, List.mapM_cons, List.mapM_nil, Chain.answer,
    hfirst, Chain.fieldValue, htime]
  rfl

theorem query_served (key : ValidatorKey) : Serves (dueNet key [] [] []).chain
    (singleQuery eagerTask.runner (dueView key).header (dueView key).transactor 1 10 .zero
      (dueRecord key) 0)
    (dueNet key [(4, 7), (1, 7), (5, 7)] [.execution, .protocol] []).chain := by
  refine .answered _ (dueNet key [] [] []) rfl rfl ?_
  refine .answered _ (dueNet key [] [.execution] []) rfl rfl ?_
  refine .answered _ (dueNet key [] [.execution, .protocol] []) rfl rfl ?_
  refine .asked (.outside _ _ rfl) ?_
  refine .answered _ (dueNet key [(4, 7)] [.execution, .protocol] []) rfl
    (Net.answer_multicall 7 rfl ?_) ?_
  · rw [List.mapM_cons, dueSettings_answered _ rfl]
    rfl
  refine .answered _ (dueNet key [(4, 7), (1, 7)] [.execution, .protocol] []) rfl
    (Net.answer_multicall 7 rfl ?_) ?_
  · rfl
  refine .answered _ (dueNet key [(4, 7), (1, 7), (5, 7)] [.execution, .protocol] []) rfl
    (Net.answer_multicall 7 rfl ?_) ?_
  · exact dueRecord_answered key _ rfl
  exact .noted _ (.nil _)

/-- The stake of the minipool, with the gas that the chain estimates. -/
def dueStake (key : ValidatorKey) : PreparedStake := ⟨⟨dueRecord key, key⟩, ⟨Chain.stakeGas⟩⟩

section

-- The range of instants is never computed with below.
seal Instant.ofNanos?

theorem due_submits (key : ValidatorKey) (multicalls : List (Nat × UInt64))
    (refreshed : List ContractRegistry) (simulated : List Address)
    (txs : List TransactionRequest) (fees : FeeSettings) :
    ∃ c, (dueNet key multicalls refreshed simulated).chain.submit? txs fees =
        some ((List.range' 1 txs.length).map Chain.txHash, c) ∧ c.submitted = [⟨txs, fees⟩] := by
  have hsecs : Instant.ofSecs? 1 = some dueTime := Instant.ofNanos?_eq_some_iff.2 (by decide)
  have htime : (dueNet key multicalls refreshed simulated).chain.header.time? = some dueTime := hsecs
  unfold Chain.submit?
  rw [htime]
  exact ⟨_, rfl, rfl⟩

theorem due_staked {key : ValidatorKey}
    (checked : SignedStake.Checked ⟨dueRecord key, key⟩ (depositDomain (Bytes.zero 4))) :
    ∃ history next c,
      (StakeTask.run (dueSnapshot key)).Runs eagerTask history (.done (.ok (), next)) ∧
        Serves (dueNet key [] [] []).chain history c ∧ c.submitted ≠ [] := by
  let config : BeaconConfig := ⟨0, 12, 32, Bytes.zero 4⟩
  have own : SignedStake.Checked ⟨dueRecord key, key⟩ (depositDomain config.genesisFork) := checked
  obtain ⟨rest, ran, hcalls⟩ :=
    due_runs ⟨Chain.stakeGas⟩ 10 eagerTask.policy ⟨20, 1⟩ [Chain.txHash 1] own rfl
  obtain ⟨c, hsubmit, hsubmitted⟩ := due_submits key [(4, 7), (1, 7), (5, 7)]
    [.execution, .protocol] [Bytes.zero 20]
    [((dueStake key).sentEntry (depositDomain (Bytes.zero 4)) dueTime).tx] ⟨20, 2⟩
  refine ⟨_, _, { c with waited := c.waited ++ [Chain.txHash 1] }, ran,
    Serves.append_iff.2 ⟨_, query_served key, .of_calls ?_⟩, ?_⟩
  · rw [hcalls]
    refine .asked (.outside _ _ rfl) (.asked (.outside _ _ rfl) ?_)
    refine .answered _ (dueNet key [(4, 7), (1, 7), (5, 7)] [.execution, .protocol]
      [Bytes.zero 20]) rfl rfl ?_
    refine .answered _ (dueNet key [(4, 7), (1, 7), (5, 7)] [.execution, .protocol]
      [Bytes.zero 20]) rfl rfl ?_
    refine .asked (.sent hsubmit) ?_
    exact .answered { dueNet key [] [] [] with chain := c } _ rfl rfl (.nil _)
  · rw [show ({ c with waited := c.waited ++ [Chain.txHash 1] } : Chain).submitted = _ from
      hsubmitted]
    exact List.cons_ne_nil _ _

end

end StakeKeeper.Devnet
