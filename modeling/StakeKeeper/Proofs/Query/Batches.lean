import StakeKeeper.Proofs.Questions
import StakeKeeper.Query.Runner

/-!
Runs of routines told by their calls: what the calls of a run that ends with a result look like, and
those of a run that stops early. Main statements: `FailingRoutine.Follows.bind` (two routines in a
row) and `QueryRoutine.readBatch_follows` (a batch that is read and decoded; the listing of
addresses, the records and the opening of a query are put together from such batches).
-/
namespace StakeKeeper
set_option autoImplicit false

/-! ## Runs that end or stop -/

/-- Why a routine ended without a result. -/
inductive Stop (ε : Type) where
  | failed (e : ε)
  | crashed (c : Crash)

def Stop.ending {ε α : Type} : Stop ε → Ending (Except ε α)
  | failed e => .done (.error e)
  | crashed c => .crashed c

namespace FailingRoutine
variable {ε α β : Type} {trust : Step → Prop} {done : List Step → α → Prop}
  {stopped : List Step → Stop ε → Prop}

/-- Whether the calls of every run in which all answers can be trusted are as `done` says of its
result, or as `stopped` says of why there is none. -/
def Follows (m : FailingRoutine ε α) (trust : Step → Prop) (done : List Step → α → Prop)
    (stopped : List Step → Stop ε → Prop) : Prop :=
  ∀ history ending, m.Runs history ending → (∀ step ∈ calls history, trust step) →
    (∃ a, ending = .done (.ok a) ∧ done (calls history) a) ∨
      ∃ stop, ending = stop.ending ∧ stopped (calls history) stop

theorem Follows.mono {m : FailingRoutine ε α} {done' : List Step → α → Prop}
    {stopped' : List Step → Stop ε → Prop} (h : m.Follows trust done stopped)
    (hdone : ∀ steps a, done steps a → done' steps a)
    (hstopped : ∀ steps stop, stopped steps stop → stopped' steps stop) :
    m.Follows trust done' stopped' := by
  intro history ending ran trusted
  rcases h history ending ran trusted with ⟨a, ha, hd⟩ | ⟨stop, hs, hd⟩
  · exact .inl ⟨a, ha, hdone _ a hd⟩
  · exact .inr ⟨stop, hs, hstopped _ stop hd⟩

/-- The second routine goes on where the first has ended, so it is told what came before. -/
theorem Follows.bind {m : FailingRoutine ε α} {f : α → FailingRoutine ε β}
    {last : List Step → β → Prop} (h : m.Follows trust done stopped)
    (hf : ∀ first a, done first a → (f a).Follows trust (fun second => last (first ++ second))
      fun second => stopped (first ++ second)) : (m >>= f).Follows trust last stopped := by
  intro history ending ran trusted
  rcases runs_bind_iff.1 ran with ⟨c, rfl, hm⟩ | ⟨e, rfl, hm⟩ | ⟨a, first, second, rfl, hm, hsecond⟩
  · rcases h _ _ hm trusted with ⟨a, ha, _⟩ | ⟨stop, hs, hd⟩
    · cases ha
    · cases stop with
      | failed e => cases hs
      | crashed d =>
        cases hs
        exact .inr ⟨.crashed c, rfl, hd⟩
  · rcases h _ _ hm trusted with ⟨a, ha, _⟩ | ⟨stop, hs, hd⟩
    · cases ha
    · cases stop with
      | failed d =>
        cases hs
        exact .inr ⟨.failed e, rfl, hd⟩
      | crashed c => cases hs
  · rw [calls_append] at trusted ⊢
    have hfirst := h _ _ hm fun step hs => trusted step (List.mem_append_left _ hs)
    rcases hfirst with ⟨b, hb, hd⟩ | ⟨stop, hs, _⟩
    · cases hb
      exact hf _ a hd second ending hsecond fun step hs => trusted step (List.mem_append_right _ hs)
    · cases stop <;> cases hs

theorem follows_pure {a : α} (h : done [] a) :
    (pure a : FailingRoutine ε α).Follows trust done stopped := by
  rintro history ending ⟨rfl, rfl⟩ _
  exact .inl ⟨a, rfl, h⟩

theorem follows_ofExcept {r : Except ε α} (hok : ∀ a, r = .ok a → done [] a)
    (herror : ∀ e, r = .error e → stopped [] (.failed e)) :
    (ofExcept r).Follows trust done stopped := by
  rintro history ending ⟨rfl, rfl⟩ _
  cases r with
  | ok a => exact .inl ⟨a, rfl, hok a rfl⟩
  | error e => exact .inr ⟨.failed e, rfl, herror e rfl⟩

theorem follows_throw {e : ε} (h : stopped [] (.failed e)) :
    (throw e : FailingRoutine ε α).Follows trust done stopped := by
  rintro history ending ⟨rfl, rfl⟩ _
  exact .inr ⟨.failed e, rfl, h⟩

theorem follows_crash {c : Crash} (h : stopped [] (.crashed c)) :
    Follows (ExceptT.mk (Routine.crash c)) trust done stopped := by
  rintro history ending ⟨rfl, rfl⟩ _
  exact .inr ⟨.crashed c, rfl, h⟩

theorem follows_note {e : Event} :
    (note e : FailingRoutine ε Unit).Follows trust (fun steps _ => steps = []) stopped := by
  intro history ending ran _
  obtain ⟨rfl, rfl⟩ := runs_note_iff.1 ran
  exact .inl ⟨(), rfl, rfl⟩

theorem follows_require {b : Bool} {c : Crash} (h : b = false → stopped [] (.crashed c)) :
    (ofRoutine (Routine.require b c) : FailingRoutine ε Unit).Follows trust
      (fun steps _ => steps = []) stopped := by
  cases b with
  | true => exact follows_pure rfl
  | false => exact follows_crash (h rfl)

theorem follows_attempt {q : Request} {done : List Step → Except CallError q.Reply → Prop}
    (h : ∀ answer, trust (.asked q answer) → done [.asked q answer] answer) :
    (ofRoutine (.attempt q) : FailingRoutine ε (Except CallError q.Reply)).Follows trust done
      stopped := by
  rintro history ending ⟨answer, rest, rfl, rfl, rfl⟩ trusted
  exact .inl ⟨answer, rfl, h answer (trusted _ List.mem_cons_self)⟩

theorem follows_call [OfCallError ε] {q : Request} {done : List Step → q.Reply → Prop}
    (hok : ∀ a, trust (.asked q (.ok a)) → done [.asked q (.ok a)] a)
    (herror : ∀ e, trust (.asked q (.error e)) →
      stopped [.asked q (.error e)] (.failed (ofCallError e))) :
    (call q : FailingRoutine ε q.Reply).Follows trust done stopped := by
  rintro history ending ⟨answer, rest, rfl, hanswer⟩ trusted
  cases answer with
  | ok a =>
    obtain ⟨rfl, rfl⟩ := hanswer
    exact .inl ⟨a, rfl, hok a (trusted _ List.mem_cons_self)⟩
  | error e =>
    obtain ⟨rfl, rfl⟩ := hanswer
    exact .inr ⟨.failed (ofCallError e), rfl, herror e (trusted _ List.mem_cons_self)⟩

end FailingRoutine

/-! ## One batch -/

namespace QueryRoutine
variable {ο : Type} {trust : Step → Prop}

def readBatch (reads : List ContractRead) (block : UInt64) (take : List ReadValue → Decoding ο) :
    QueryRoutine ο := do
  let values ← multicall reads block
  ofDecoding (take values)

/-- Why the answer to a batch is not taken. -/
inductive Refused (reads : List ContractRead) (take : List ReadValue → Decoding ο) :
    Except CallError (List ReadValue) → Stop QueryError → Prop
  | call (e : CallError) : Refused reads take (.error e) (.failed (.call e))
  | length {values : List ReadValue} (h : values.length ≠ reads.length) :
      Refused reads take (.ok values) (.failed (.resultCount reads.length values.length))
  | value {values : List ReadValue} {e : QueryError} (hlength : values.length = reads.length)
      (h : (take values).run = some (.error e)) : Refused reads take (.ok values) (.failed e)
  | time {values : List ReadValue} (hlength : values.length = reads.length)
      (h : (take values).run = none) : Refused reads take (.ok values) (.crashed .timeRange)

def batchStep (reads : List ContractRead) (block : UInt64)
    (answer : Except CallError (List ReadValue)) : Step := .asked (.multicall reads block) answer

theorem multicall_follows (reads : List ContractRead) (block : UInt64)
    (take : List ReadValue → Decoding ο) :
    (multicall reads block).Follows trust
      (fun steps values => steps = [batchStep reads block (.ok values)] ∧
        trust (batchStep reads block (.ok values)) ∧ values.length = reads.length)
      fun steps stop => ∃ answer, steps = [batchStep reads block answer] ∧
        trust (batchStep reads block answer) ∧ Refused reads take answer stop := by
  have hcall : (FailingRoutine.call (.multicall reads block) :
      QueryRoutine (List ReadValue)).Follows trust
      (fun steps values => steps = [batchStep reads block (.ok values)] ∧
        trust (batchStep reads block (.ok values)))
      fun steps stop => ∃ answer, steps = [batchStep reads block answer] ∧
        trust (batchStep reads block answer) ∧ Refused reads take answer stop :=
    FailingRoutine.follows_call (fun values ht => ⟨rfl, ht⟩)
      fun e ht => ⟨.error e, rfl, ht, .call e⟩
  refine hcall.bind fun first values hfirst => ?_
  obtain ⟨rfl, ht⟩ := hfirst
  split
  · rename_i hlength
    exact FailingRoutine.follows_pure ⟨rfl, ht, hlength⟩
  · rename_i hlength
    exact FailingRoutine.follows_throw ⟨.ok values, rfl, ht, .length hlength⟩

theorem readBatch_follows (reads : List ContractRead) (block : UInt64)
    (take : List ReadValue → Decoding ο) :
    (readBatch reads block take).Follows trust
      (fun steps o => ∃ values, steps = [batchStep reads block (.ok values)] ∧
        trust (batchStep reads block (.ok values)) ∧
          values.length = reads.length ∧ (take values).run = some (.ok o))
      fun steps stop => ∃ answer, steps = [batchStep reads block answer] ∧
        trust (batchStep reads block answer) ∧ Refused reads take answer stop := by
  refine (multicall_follows reads block take).bind fun first values hfirst => ?_
  obtain ⟨rfl, ht, hlength⟩ := hfirst
  unfold ofDecoding
  cases h : (take values).run with
  | none => exact FailingRoutine.follows_crash ⟨.ok values, rfl, ht, .time hlength h⟩
  | some r =>
    refine FailingRoutine.follows_ofExcept (r := r) ?_ ?_
    · rintro o rfl
      exact ⟨values, rfl, ht, hlength, h⟩
    · rintro e rfl
      exact ⟨.ok values, rfl, ht, .value hlength h⟩

end QueryRoutine

open QueryRoutine

/-! ## The batches of a query -/

def takeAddresses (values : List ReadValue) : Decoding (List Address) :=
  ExceptT.mk (some ((values.mapM ReadValue.asAddress).mapError .call))

theorem addressesFrom_eq (node : Address) (block : UInt64) (page count start : Nat) :
    addressesFrom node block page count start =
      if start < count then do
        let stop := min (start + page + 1) count
        let found ← readBatch (addressReads node start stop) block takeAddresses
        let rest ← addressesFrom node block page count stop
        pure (found ++ rest)
      else pure [] := by
  rw [addressesFrom]
  split
  · unfold readBatch
    dsimp only
    rw [bind_assoc]
    rfl
  · rfl

theorem detailsOf_cons (node : Address) (block : UInt64) (fields : List MinipoolField)
    (page : List Address) (rest : List (List Address)) :
    detailsOf node block fields (page :: rest) = (do
      let records ← readBatch (detailReads fields page) block (recordsOf node fields page)
      let more ← detailsOf node block fields rest
      pure (records ++ more)) := by
  rw [detailsOf, readBatch, bind_assoc]

namespace QueryRunner
variable {σ ω : Type} (runner : QueryRunner) (query : NodeQuery σ ω)

def firstReads : List ContractRead := .minipoolCount runner.node :: query.ownReads runner.node

def takeFirst : List ReadValue → Decoding (UInt64 × σ)
  | [] => throw (.resultCount (runner.firstReads query).length 0)
  | countValue :: ownValues => do
    let count ← ExceptT.mk (some (countValue.asUint64.mapError .call))
    let own ← ExceptT.mk (some (query.decodeOwn ownValues))
    pure (count, own)

/-- What a query does once it is opened. -/
def gatherFrom (header : BlockHeader) (transactor : Option Transactor) (count : UInt64) (own : σ) :
    QueryRoutine ω := do
  let addresses ← runner.addresses header.number count
  if query.wantsDetails addresses then
    let validators ← runner.details header.number query.fields addresses
    FailingRoutine.note (.queryComplete runner.node header.number validators.length)
    FailingRoutine.ofExcept
      (query.finish own ⟨header, runner.node, addresses, validators, transactor⟩)
  else
    FailingRoutine.note (.detailsSkipped runner.node header.number addresses.length)
    FailingRoutine.ofExcept (query.finish own ⟨header, runner.node, addresses, [], transactor⟩)

theorem gather_eq (header : BlockHeader) (transactor : Option Transactor) :
    runner.gather query header transactor = (do
      let opened ← readBatch (runner.firstReads query) header.number (runner.takeFirst query)
      runner.gatherFrom query header transactor opened.1 opened.2) := by
  rw [readBatch, bind_assoc, gather]
  refine congrArg _ (funext fun values => ?_)
  cases values with
  | nil => rfl
  | cons countValue ownValues =>
    dsimp only [takeFirst, taking]
    rcases countValue.asUint64 with e | count
    · rfl
    · rcases query.decodeOwn ownValues with e | own <;> rfl

end QueryRunner

end StakeKeeper
