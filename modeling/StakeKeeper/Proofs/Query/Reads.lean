import StakeKeeper.Proofs.Questions
import StakeKeeper.Stake.Task

/-!
What queries ask. All contracts are read at the block of the one header that a query fetches first.
Main statement: `stakeQuery_history` (the calls behind a view of the stake query).
-/
namespace StakeKeeper
set_option autoImplicit false

/-- Whether a call only reads the chain or the wallet's account. -/
def Request.isRead : Request → Bool
  | header _ => true
  | refresh _ => true
  | multicall _ _ => true
  | transactor => true
  | _ => false

def Request.ReadsAt (block : UInt64) (q : Request) : Prop := ∃ reads, q = .multicall reads block

/-! ## The parts of a query -/

theorem multicall_meets (reads : List ContractRead) (block : UInt64) :
    (QueryRoutine.multicall reads block).Meets (Request.ReadsAt block) fun _ => True := by
  refine (FailingRoutine.meets_call ⟨reads, rfl⟩).bind fun values _ => ?_
  split
  · exact FailingRoutine.meets_pure trivial
  · exact FailingRoutine.meets_throw

theorem ofDecoding_meets {α : Type} {p : Request → Prop} (d : Decoding α) :
    (QueryRoutine.ofDecoding d).Meets p fun _ => True := by
  unfold QueryRoutine.ofDecoding
  cases d.run
  · trivial
  · exact fun _ _ => trivial

theorem addressesFrom_meets (node : Address) (block : UInt64) (page count start : Nat) :
    (addressesFrom node block page count start).Meets (Request.ReadsAt block) fun _ => True := by
  induction start using addressesFrom.induct page count with
  | case1 start hlt stop ih =>
    rw [addressesFrom, if_pos hlt]
    refine (multicall_meets _ _).bind fun values _ => ?_
    refine (FailingRoutine.meets_ofExcept fun _ _ => trivial).bind fun found _ => ?_
    exact ih.bind fun rest _ => FailingRoutine.meets_pure trivial
  | case2 start hge =>
    rw [addressesFrom, if_neg hge]
    exact FailingRoutine.meets_pure trivial

theorem detailsOf_meets (node : Address) (block : UInt64) (fields : List MinipoolField)
    (pages : List (List Address)) :
    (detailsOf node block fields pages).Meets (Request.ReadsAt block) fun _ => True := by
  induction pages with
  | nil => exact FailingRoutine.meets_pure trivial
  | cons page rest ih =>
    refine (multicall_meets _ _).bind fun values _ => ?_
    refine (ofDecoding_meets _).bind fun records _ => ?_
    exact ih.bind fun more _ => FailingRoutine.meets_pure trivial

namespace QueryRunner
variable {σ ω : Type} (runner : QueryRunner) (query : NodeQuery σ ω)

theorem addresses_meets (block count : UInt64) :
    (runner.addresses block count).Meets (Request.ReadsAt block) fun _ => True := by
  refine FailingRoutine.meets_require.bind fun _ _ => ?_
  refine (addressesFrom_meets _ _ _ _ _).bind fun found _ => ?_
  exact FailingRoutine.meets_require.bind fun _ _ => FailingRoutine.meets_pure trivial

theorem details_meets (block : UInt64) (fields : List MinipoolField) (addresses : List Address) :
    (runner.details block fields addresses).Meets (Request.ReadsAt block) fun _ => True := by
  unfold details
  split
  · exact FailingRoutine.meets_pure trivial
  · exact detailsOf_meets _ _ _ _

theorem gather_meets (header : BlockHeader) (transactor : Option Transactor) :
    (runner.gather query header transactor).Meets (Request.ReadsAt header.number) fun output =>
      ∃ own gathered, query.finish own gathered = .ok output ∧ gathered.header = header := by
  refine (multicall_meets _ _).bind fun values _ => ?_
  cases values with
  | nil => exact FailingRoutine.meets_throw
  | cons countValue ownValues =>
    refine (FailingRoutine.meets_ofExcept fun _ _ => trivial).bind fun count _ => ?_
    refine (FailingRoutine.meets_ofExcept fun _ _ => trivial).bind fun own _ => ?_
    refine (addresses_meets _ _ _).bind fun addresses _ => ?_
    show (ite _ _ _ : QueryRoutine ω).Meets _ _
    split
    · refine (details_meets _ _ _ _).bind fun validators _ => ?_
      refine FailingRoutine.meets_note.bind fun _ _ => ?_
      exact FailingRoutine.meets_ofExcept fun output h => ⟨own, _, h, rfl⟩
    · refine FailingRoutine.meets_note.bind fun _ _ => ?_
      exact FailingRoutine.meets_ofExcept fun output h => ⟨own, _, h, rfl⟩

theorem run_meets (h : query.prepare.Meets (fun q => q.isRead = true) fun _ => True) :
    (runner.run query).Meets (fun q => q.isRead = true) fun _ => True := by
  have hc : (FailingRoutine.call (.header none) : QueryRoutine BlockHeader).Meets
      (fun q => q.isRead = true) fun _ => True := FailingRoutine.meets_call rfl
  refine hc.bind fun header _ => ?_
  refine h.bind fun readiness _ => ?_
  cases readiness with
  | notReady reason =>
    exact FailingRoutine.meets_note.bind fun _ _ => FailingRoutine.meets_pure trivial
  | ready transactor =>
    have hg := (runner.gather_meets query header transactor).mono (q := fun q => q.isRead = true)
      (by rintro _ ⟨reads, rfl⟩; rfl)
    exact hg.bind fun _ _ => FailingRoutine.meets_pure trivial

end QueryRunner

/-! ## The stake query -/

theorem refreshRegistries_meets {p : Request → Prop} (h : ∀ r, p (.refresh r)) :
    refreshRegistries.Meets p fun _ => True :=
  (FailingRoutine.meets_call (h _)).bind fun _ _ => FailingRoutine.meets_call (h _)

theorem stakeQuery_prepare_meets {p : Request → Prop} (hr : ∀ r, p (.refresh r))
    (ht : p .transactor) : stakeQuery.prepare.Meets p fun _ => True := by
  refine (refreshRegistries_meets hr).bind fun _ _ => ?_
  refine (FailingRoutine.meets_attempt ht).bind fun answer _ => ?_
  rcases answer with e | transactor
  · cases e <;> first
      | exact FailingRoutine.meets_pure trivial
      | exact FailingRoutine.meets_throw
  · exact FailingRoutine.meets_pure trivial

theorem stakeQuery_finish_header {settings : NetworkSettings} {gathered : Gathered}
    {view : StakeView} (h : stakeQuery.finish settings gathered = .ok view) :
    view.header = gathered.header := by
  unfold stakeQuery at h
  dsimp only at h
  split at h
  · cases h
    rfl
  · cases h

/-- The calls behind a view: its header, then refreshes, the wallet's account and reads at the
header's block. -/
theorem stakeQuery_history {runner : QueryRunner} {history : List Step} {view : StakeView}
    (ran : (runner.run stakeQuery).Runs history (.done (.ok (.ready view)))) :
    ∃ rest, history = .asked (.header none) (.ok view.header) :: rest ∧
      ∀ q answer, .asked q answer ∈ rest →
        (∃ r, q = .refresh r) ∨ q = .transactor ∨ q.ReadsAt view.header.number := by
  rcases FailingRoutine.runs_call_bind_iff.1 ran with ⟨e, _, h⟩ | ⟨header, rest, rfl, hrest⟩
  · cases h
  let p (q : Request) : Prop := (∃ r, q = .refresh r) ∨ q = .transactor ∨ q.ReadsAt header.number
  let viewed (outcome : QueryOutcome StakeView) : Prop :=
    ∀ v, outcome = .ready v → v.header = header
  have hm : (∀ q answer, .asked q answer ∈ rest → p q) ∧ viewed (.ready view) := by
    refine FailingRoutine.meets_runs p viewed ?_ hrest
    refine (stakeQuery_prepare_meets (p := p) (fun r => .inl ⟨r, rfl⟩) (.inr (.inl rfl))).bind
      fun readiness _ => ?_
    cases readiness with
    | notReady reason =>
      refine FailingRoutine.meets_note.bind fun _ _ => FailingRoutine.meets_pure ?_
      rintro _ ⟨⟩
    | ready transactor =>
      have hg := (runner.gather_meets stakeQuery header transactor).mono (q := p)
        fun q h => .inr (.inr h)
      refine hg.bind fun output ho => FailingRoutine.meets_pure ?_
      obtain ⟨own, gathered, hf, rfl⟩ := ho
      rintro _ ⟨⟩
      exact stakeQuery_finish_header hf
  have hv : view.header = header := hm.2 view rfl
  rw [hv]
  exact ⟨rest, rfl, hm.1⟩

end StakeKeeper
