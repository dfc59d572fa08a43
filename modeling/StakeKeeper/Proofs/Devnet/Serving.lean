import StakeKeeper.Devnet.Rehearsal
import StakeKeeper.Proofs.Exit.Conduct
import StakeKeeper.Proofs.Query.Paging
import StakeKeeper.Proofs.Stake.Authenticity

/-!
Histories that a chain in memory took part in. The execution client's calls are answered by the chain
or fail, before or after they reached it; all other calls are answered in any way. Main statements:
`Serves.quiet` (without a batch the chain stays as it is) and `view_served` (the view of a stake query
is what the chain holds).
-/
namespace StakeKeeper.Devnet
set_option autoImplicit false

/-! ## One call -/

namespace Chain

def addresses (c : Chain) : List Address := c.minipools.map (·.address)

/-- Whether a chain differs from another only in the record of what was asked of it, batches apart. -/
def Quiet (c c' : Chain) : Prop :=
  c' = { c with
    multicalls := c'.multicalls
    refreshed := c'.refreshed
    simulated := c'.simulated
    waited := c'.waited }

variable {c m c' : Chain}

theorem Quiet.refl (c : Chain) : c.Quiet c := rfl

theorem Quiet.trans (h : c.Quiet m) (h' : m.Quiet c') : c.Quiet c' := by
  unfold Quiet at *
  rw [h] at h'
  exact h'

theorem Quiet.minipools (h : c.Quiet c') : c'.minipools = c.minipools := by rw [h]

theorem Quiet.submitted (h : c.Quiet c') : c'.submitted = c.submitted := by rw [h]

theorem Quiet.answer (h : c.Quiet c') : c'.answer = c.answer := by
  rw [h]
  funext read
  cases read <;> rfl

end Chain

theorem Net.answer_quiet (n : Net) {q : Request} (h : q.isSubmission = false) :
    n.chain.Quiet (n.answer q).2.chain := by
  cases q with
  | submit sender txs fees => cases h
  | multicall reads block =>
    show n.chain.Quiet (n.chain.multicall reads block).2
    unfold Chain.multicall
    split <;> exact rfl
  | _ => exact rfl

/-- How a call is answered that the chain takes part in, with the chain before and after it. -/
inductive Served : Chain → (q : Request) → Except CallError q.Reply → Chain → Prop
  | answered {n n' : Net} {q : Request} {answer : Except CallError q.Reply} :
      q.isSubmission = false → n.answer q = (.answered answer, n') →
        Served n.chain q answer n'.chain
  | sent {c c' : Chain} {sender : Transactor} {txs : List TransactionRequest} {fees : FeeSettings}
      {hashes : List Root} : c.submit? txs fees = some (hashes, c') →
        Served c (.submit sender txs fees) (.ok hashes) c'
  /-- The call fails before it reaches the chain. -/
  | refused (c : Chain) (q : Request) (e : CallError) : Served c q (.error e) c
  /-- The chain answers, but the answer does not come back. -/
  | lost {c c' : Chain} {q : Request} {answer : Except CallError q.Reply} (e : CallError) :
      Served c q answer c' → Served c q (.error e) c'
  | outside (c : Chain) {q : Request} (answer : Except CallError q.Reply) :
      q.isExecution = false → Served c q answer c

namespace Served
variable {c c' : Chain}

theorem quiet {q : Request} {answer : Except CallError q.Reply} (served : Served c q answer c')
    (h : q.isSubmission = false) : c.Quiet c' := by
  induction served with
  | @answered n n' q answer _ ha =>
    have hq := n.answer_quiet h
    rwa [ha] at hq
  | sent => cases h
  | refused => exact .refl _
  | lost e served ih => exact ih h
  | outside => exact .refl _

theorem values {reads : List ContractRead} {block : UInt64} {values : List ReadValue}
    (served : Served c (.multicall reads block) (.ok values) c') :
    reads.mapM c.answer = .ok values := by
  cases served with
  | @answered n n' _ _ _ ha =>
    have hr : (n.chain.multicall reads block).1 = .ok values :=
      Reaction.answered.inj (congrArg Prod.fst ha)
    unfold Chain.multicall at hr
    split at hr
    · cases hr
    · exact hr
  | outside _ _ h => cases h

theorem submission {q : Request} {answer : Except CallError q.Reply} (served : Served c q answer c')
    {sender : Transactor} {txs : List TransactionRequest} {fees : FeeSettings}
    (hq : q = .submit sender txs fees) :
    c' = c ∨ ∃ hashes, c.submit? txs fees = some (hashes, c') := by
  induction served with
  | answered h _ =>
    rw [hq] at h
    cases h
  | sent hs =>
    cases hq
    exact .inr ⟨_, hs⟩
  | refused => exact .inl rfl
  | lost e served ih => exact ih hq
  | outside _ _ h =>
    rw [hq] at h
    cases h

end Served

/-! ## Whole histories -/

/-- A history that a chain took part in, with the chain before and after it. -/
inductive Serves : Chain → List Step → Chain → Prop
  | nil (c : Chain) : Serves c [] c
  | asked {c m c' : Chain} {q : Request} {answer : Except CallError q.Reply} {rest : List Step} :
      Served c q answer m → Serves m rest c' → Serves c (.asked q answer :: rest) c'
  | noted {c c' : Chain} (e : Event) {rest : List Step} :
      Serves c rest c' → Serves c (.noted e :: rest) c'

namespace Serves
variable {c c' : Chain}

theorem append_iff {first second : List Step} :
    Serves c (first ++ second) c' ↔ ∃ m, Serves c first m ∧ Serves m second c' := by
  constructor
  · intro serves
    induction first generalizing c with
    | nil => exact ⟨c, .nil c, serves⟩
    | cons step first ih =>
      cases serves with
      | asked served more =>
        obtain ⟨m, hfirst, hsecond⟩ := ih more
        exact ⟨m, .asked served hfirst, hsecond⟩
      | noted e more =>
        obtain ⟨m, hfirst, hsecond⟩ := ih more
        exact ⟨m, .noted e hfirst, hsecond⟩
  · rintro ⟨m, hfirst, hsecond⟩
    induction hfirst with
    | nil => exact hsecond
    | asked served _ ih => exact .asked served (ih hsecond)
    | noted e _ ih => exact .noted e (ih hsecond)

theorem quiet {history : List Step} (serves : Serves c history c')
    (h : callsOf Request.isSubmission history = []) : c.Quiet c' := by
  induction serves with
  | nil => exact .refl _
  | @asked c m c' q answer rest served _ ih =>
    rw [callsOf_cons] at h
    split at h
    · cases h
    · next hq => exact (served.quiet (Bool.eq_false_iff.2 hq)).trans (ih h)
  | noted e _ ih => exact ih h

/-- Without a batch every read is answered from the chain as it was. -/
theorem values {history : List Step} (serves : Serves c history c')
    (h : callsOf Request.isSubmission history = []) {reads : List ContractRead} {block : UInt64}
    {values : List ReadValue} (hq : .asked (.multicall reads block) (.ok values) ∈ history) :
    reads.mapM c.answer = .ok values := by
  obtain ⟨before, after, rfl⟩ := List.append_of_mem hq
  obtain ⟨m, hbefore, hrest⟩ := append_iff.1 serves
  rw [callsOf_append, List.append_eq_nil_iff] at h
  rw [← (hbefore.quiet h.1).answer]
  cases hrest with
  | asked served _ => exact served.values

end Serves

/-! ## Views -/

def Chain.source (c : Chain) : Source where
  header := none
  refresh _ := none
  transactor := .error (.network "")
  read _ read := (c.answer read).toOption

theorem gather?_records {s : Source} {node : Address} {header : BlockHeader}
    {transactor : Option Transactor} {view : StakeView}
    (h : s.gather? node stakeQuery header transactor = some view) :
    ∃ count addresses, s.addresses? node header.number count = some addresses ∧
      addresses.mapM (s.record? node header.number) = some view.validators := by
  rw [Source.gather?_allFields stakeQuery header transactor rfl rfl] at h
  obtain ⟨count, _, h⟩ := Option.bind_eq_some_iff.1 h
  obtain ⟨_, _, h⟩ := Option.bind_eq_some_iff.1 h
  obtain ⟨settings, _, h⟩ := Option.bind_eq_some_iff.1 h
  obtain ⟨addresses, haddresses, h⟩ := Option.bind_eq_some_iff.1 h
  obtain ⟨validators, hvalidators, h⟩ := Option.bind_eq_some_iff.1 h
  refine ⟨count.toNat, addresses, haddresses, ?_⟩
  cases transactor with
  | none => cases h
  | some transactor =>
    cases h
    exact hvalidators

theorem view_gathered {c c' : Chain} {runner : QueryRunner} {query : List Step} {view : StakeView}
    (serves : Serves c query c')
    (viewed : (runner.run stakeQuery).Runs query (.done (.ok (.ready view)))) :
    ∃ block count addresses, c.source.addresses? runner.node block count = some addresses ∧
      addresses.mapM (c.source.record? runner.node block) = some view.validators := by
  have unsent : callsOf Request.isSubmission query = [] :=
    StakeTask.callsOf_query (fun _ h => Request.unsent_of_isRead h) viewed
  rcases FailingRoutine.runs_call_bind_iff.1 viewed with ⟨e, _, h⟩ | ⟨header, rest, rfl, going⟩
  · cases h
  rcases FailingRoutine.runs_bind_iff.1 going with ⟨_, h, _⟩ | ⟨_, h, _⟩ |
    ⟨readiness, first, second, rfl, _, gathering⟩
  · cases h
  · cases h
  cases readiness with
  | notReady reason =>
    obtain ⟨_, _, _, h⟩ := FailingRoutine.runs_note_bind_iff.1 gathering
    cases h
  | ready transactor =>
    rcases FailingRoutine.runs_bind_iff.1 gathering with ⟨_, h, _⟩ | ⟨_, h, _⟩ |
      ⟨output, third, last, rfl, gathered, _, h⟩
    · cases h
    · cases h
    cases h
    have vouched : c.source.Vouches third := by
      intro q answer hq
      obtain ⟨reads, rfl⟩ := (runner.gather_meets stakeQuery header transactor).call gathered hq
      rintro values rfl
      have hvalues : reads.mapM c.answer = .ok values :=
        serves.values unsent (List.mem_cons_of_mem _
          (List.mem_append_right first (List.mem_append_left last hq)))
      show reads.mapM (fun read => (c.answer read).toOption) = some values
      rw [← toOption_mapM, hvalues]
      rfl
    have hview := (Source.gather_computes runner.pages stakeQuery header transactor).sound
      third view gathered vouched
    obtain ⟨count, addresses, haddresses, hrecords⟩ := gather?_records hview
    exact ⟨header.number, count, addresses, haddresses, hrecords⟩

/-! ### Its records -/

theorem record?_inv {s : Source} {node : Address} {block : UInt64} {a : Address}
    {r : MinipoolRecord} (h : s.record? node block a = some r) :
    r.address = a ∧
      s.value? block MinipoolRecord.decodeStatus (.minipool a .status) = some r.status := by
  obtain ⟨_, _, h⟩ := Option.bind_eq_some_iff.1 h
  obtain ⟨status, hstatus, h⟩ := Option.bind_eq_some_iff.1 h
  obtain ⟨_, _, h⟩ := Option.bind_eq_some_iff.1 h
  obtain ⟨_, _, h⟩ := Option.bind_eq_some_iff.1 h
  obtain ⟨_, _, h⟩ := Option.bind_eq_some_iff.1 h
  obtain ⟨_, _, h⟩ := Option.bind_eq_some_iff.1 h
  cases h
  exact ⟨rfl, hstatus⟩

theorem records_inv {s : Source} {node : Address} {block : UInt64} {addresses : List Address}
    {records : List MinipoolRecord}
    (h : addresses.mapM (s.record? node block) = some records) :
    records.map (·.address) = addresses ∧ ∀ r ∈ records,
      s.value? block MinipoolRecord.decodeStatus (.minipool r.address .status) = some r.status := by
  induction addresses generalizing records with
  | nil =>
    cases h
    exact ⟨rfl, fun _ hr => nomatch hr⟩
  | cons a rest ih =>
    rw [List.mapM_cons] at h
    obtain ⟨first, hfirst, h⟩ := Option.bind_eq_some_iff.1 h
    obtain ⟨more, hmore, h⟩ := Option.bind_eq_some_iff.1 h
    cases h
    obtain ⟨haddress, hstatus⟩ := record?_inv hfirst
    obtain ⟨haddresses, hstatuses⟩ := ih hmore
    refine ⟨by rw [List.map_cons, haddress, haddresses], fun r hr => ?_⟩
    rcases List.mem_cons.1 hr with rfl | hr
    · rw [haddress]
      exact hstatus
    · exact hstatuses r hr

theorem prelaunch_of_value {c : Chain} {block : UInt64} {a : Address}
    (h : c.source.value? block MinipoolRecord.decodeStatus (.minipool a .status) =
      some .prelaunch) :
    ∃ r, c.minipool? a = some r ∧ r.status = .prelaunch := by
  unfold Source.value? Chain.source at h
  obtain ⟨value, hvalue, hdecoded⟩ := Option.bind_eq_some_iff.1 h
  simp only [Chain.answer] at hvalue
  cases hr : c.minipool? a with
  | none =>
    rw [hr] at hvalue
    cases hvalue
    cases hdecoded
  | some r =>
    rw [hr] at hvalue
    cases hvalue
    refine ⟨r, rfl, ?_⟩
    obtain ⟨_, _, _, status, _, _, _, _⟩ := r
    cases status <;> first
      | rfl
      | cases hdecoded

theorem range_mapM_getElem? {α : Type} {f : Nat → Option α} {l found : List α} {n : Nat}
    (hf : ∀ i < n, f i = l[i]?) (h : (List.range n).mapM f = some found) : found = l.take n := by
  induction n generalizing found with
  | zero =>
    cases h
    rfl
  | succ n ih =>
    rw [List.range_succ, List.mapM_append] at h
    obtain ⟨first, hfirst, h⟩ := Option.bind_eq_some_iff.1 h
    obtain ⟨last, hlast, h⟩ := Option.bind_eq_some_iff.1 h
    cases h
    rw [List.mapM_cons] at hlast
    obtain ⟨x, hx, hlast⟩ := Option.bind_eq_some_iff.1 hlast
    cases hlast
    rw [hf n (Nat.lt_succ_self n)] at hx
    rw [ih (fun i hi => hf i (Nat.lt_succ_of_lt hi)) hfirst, List.take_add_one, hx]
    rfl

theorem addresses_sublist {c : Chain} {node : Address} {block : UInt64} {count : Nat}
    {addresses : List Address} (h : c.source.addresses? node block count = some addresses) :
    addresses.Sublist c.addresses := by
  unfold Source.addresses? at h
  split at h
  · next hcount =>
    have hread : ∀ i < count,
        c.source.address? node block i = ((c.ownedBy node).map (·.address))[i]? := by
      intro i hi
      have hindex : (UInt64.ofNat i).toNat = i := by
        have hmax : maxAddresses < UInt64.size := by decide
        exact UInt64.toNat_ofNat_of_lt (by omega)
      unfold Source.address? Source.value? Chain.source Chain.answer
      dsimp only
      rw [hindex, List.getElem?_map]
      cases (c.ownedBy node)[i]? <;> rfl
    rw [range_mapM_getElem? hread h]
    exact (List.take_sublist _ _).trans (List.filter_sublist.map _)
  · cases h

/-- The minipools of a view are minipools of the chain, none of them twice, and those in prelaunch are
in prelaunch there. -/
theorem view_served {c c' : Chain} {runner : QueryRunner} {query : List Step} {view : StakeView}
    (serves : Serves c query c')
    (viewed : (runner.run stakeQuery).Runs query (.done (.ok (.ready view)))) :
    (view.validators.map (·.address)).Sublist c.addresses ∧
      ∀ r ∈ view.validators, r.status = .prelaunch →
        ∃ held, c.minipool? r.address = some held ∧ held.status = .prelaunch := by
  obtain ⟨block, count, addresses, haddresses, hrecords⟩ := view_gathered serves viewed
  obtain ⟨rfl, hstatuses⟩ := records_inv hrecords
  refine ⟨addresses_sublist haddresses, fun r hr hprelaunch => ?_⟩
  have hstatus := hstatuses r hr
  rw [hprelaunch] at hstatus
  exact prelaunch_of_value hstatus

end StakeKeeper.Devnet
