import StakeKeeper.Proofs.Query.Fitting
import StakeKeeper.Proofs.Query.Sequence

/-!
What a faulty answer does to a query. Main statement: `QueryRunner.run_ends_at_fault` (a query of
the daemon ends at its first faulty call, with the outcome that belongs to the fault, and has an
output only if there is none).
-/
namespace StakeKeeper
set_option autoImplicit false
open QueryRoutine

/-! ## Faults -/

/-- What a query ends with instead of an output. -/
inductive Abort where
  | failed (e : QueryError)
  | notReady (reason : String)

def Abort.outcome {ω : Type} : Abort → Except QueryError (QueryOutcome ω)
  | failed e => .error e
  | notReady reason => .ok (.notReady reason)

/-- Whether an answer holds no status time that is a 64-bit number but no instant. -/
def Request.Timely : (q : Request) → Except CallError q.Reply → Prop
  | multicall reads _, .ok (values : List ReadValue) => ∀ p ∈ reads.zip values, p.1.Timely p.2
  | _, _ => True

namespace Step

/-- Whether a call is no batch without reads. -/
def Filled : Step → Prop
  | asked (.multicall reads _) _ => reads ≠ []
  | _ => True

def Timely : Step → Prop
  | asked q answer => q.Timely answer
  | noted _ => True

/-- Which answers are faulty, and what a query ends with that is given one: a call that failed, or a
batch whose values are too few, too many or of the wrong kind. Only the wallet may be locked. -/
inductive Aborts : Step → Abort → Prop
  | call {q : Request} {e : CallError}
      (h : ∀ reason, e = .walletNotReady reason → q ≠ .transactor) :
      Aborts (.asked q (.error e)) (.failed (.call e))
  | locked (reason : String) :
      Aborts (.asked .transactor (.error (.walletNotReady reason))) (.notReady reason)
  | length {reads : List ContractRead} {block : UInt64} {values : List ReadValue}
      (h : values.length ≠ reads.length) :
      Aborts (batchStep reads block (.ok values))
        (.failed (.resultCount reads.length values.length))
  | value {reads : List ContractRead} {block : UInt64} {values : List ReadValue} {e : QueryError}
      (hlength : values.length = reads.length) (h : FirstUnfit (reads.zip values) e) :
      Aborts (batchStep reads block (.ok values)) (.failed e)

def Clean (step : Step) : Prop := ∀ abort, ¬ step.Aborts abort

theorem clean_batch {reads : List ContractRead} {block : UInt64} {values : List ReadValue}
    (hlength : values.length = reads.length) (hfits : ∀ p ∈ reads.zip values, p.1.Fits p.2) :
    (batchStep reads block (.ok values)).Clean := by
  intro abort h
  cases h with
  | length h => exact h hlength
  | value _ h =>
    obtain ⟨before, read, v, after, hpairs, -, hunfit, -⟩ := h
    exact hunfit (hfits (read, v) (by simp [hpairs]))

end Step

/-- Whether a chain counts more minipools among the answers to some calls than a list can hold. -/
def Overcounted (steps : List Step) : Prop :=
  ∃ node reads block count values,
    batchStep (.minipoolCount node :: reads) block (.ok (.uint count :: values)) ∈ steps ∧
      maxAddresses < count.val

theorem Overcounted.after {first second : List Step} (h : Overcounted second) :
    Overcounted (first ++ second) := by
  obtain ⟨node, reads, block, count, values, hmem, hmore⟩ := h
  exact ⟨node, reads, block, count, values, List.mem_append_right _ hmem, hmore⟩

/-- How a query ends whose calls are given: at its first faulty call, or with an output. It breaks
off without a fault only where the addresses would fit no list. -/
inductive Concludes {ω : Type} (steps : List Step) :
    Ending (Except QueryError (QueryOutcome ω)) → Prop
  | aborted {before : List Step} {step : Step} {abort : Abort} (hsteps : steps = before ++ [step])
      (hbefore : ∀ s ∈ before, s.Clean) (habort : step.Aborts abort) :
      Concludes steps (.done abort.outcome)
  | completed {output : ω} (hclean : ∀ s ∈ steps, s.Clean) :
      Concludes steps (.done (.ok (.ready output)))
  | overflowed (hclean : ∀ s ∈ steps, s.Clean) (hcount : Overcounted steps) :
      Concludes steps (.crashed .capacity)

/-! ## Routines that stop at the first fault -/

/-- Whether no call is faulty and no batch among them is empty. -/
def Settled (steps : List Step) : Prop := ∀ step ∈ steps, step.Filled ∧ step.Clean

theorem settled_nil : Settled [] := fun _ h => nomatch h

theorem settled_singleton {step : Step} (hfilled : step.Filled) (hclean : step.Clean) :
    Settled [step] := by
  intro s hs
  rw [List.mem_singleton.1 hs]
  exact ⟨hfilled, hclean⟩

theorem Settled.append {first second : List Step} (h : Settled first) (h' : Settled second) :
    Settled (first ++ second) :=
  fun step hs => (List.mem_append.1 hs).elim (h step) (h' step)

/-- Whether the last of some calls is faulty and no call before it. -/
def EndsAt (steps : List Step) (abort : Abort) : Prop :=
  ∃ before step, steps = before ++ [step] ∧ Settled before ∧ step.Filled ∧ step.Aborts abort

theorem endsAt_singleton {step : Step} {abort : Abort} (hfilled : step.Filled)
    (h : step.Aborts abort) : EndsAt [step] abort := ⟨[], step, rfl, settled_nil, hfilled, h⟩

theorem EndsAt.after {first second : List Step} {abort : Abort} (h : EndsAt second abort)
    (hfirst : Settled first) : EndsAt (first ++ second) abort := by
  obtain ⟨before, step, rfl, hbefore, hlast⟩ := h
  exact ⟨first ++ before, step, by rw [List.append_assoc], hfirst.append hbefore, hlast⟩

/-- Why a query has no result: a fault, or too many minipools. -/
inductive Broken (overflow : Prop) (steps : List Step) : Stop QueryError → Prop
  | fault {e : QueryError} (h : EndsAt steps (.failed e)) : Broken overflow steps (.failed e)
  | capacity (hsettled : Settled steps) (h : overflow) : Broken overflow steps (.crashed .capacity)

theorem Broken.after {overflow overflow' : Prop} {first second : List Step} {stop : Stop QueryError}
    (h : Broken overflow second stop) (hfirst : Settled first) (hoverflow : overflow → overflow') :
    Broken overflow' (first ++ second) stop := by
  cases h with
  | fault h => exact .fault (h.after hfirst)
  | capacity hsettled h => exact .capacity (hfirst.append hsettled) (hoverflow h)

/-- Whether every run of a routine stops at its first fault, and one that overflows stops only where
that is allowed. -/
def Orderly {α : Type} (overflow : Prop) (m : QueryRoutine α) (post : α → Prop) : Prop :=
  m.Follows Step.Timely (fun steps a => Settled steps ∧ post a) (Broken overflow)

namespace Orderly
variable {α β : Type} {overflow : Prop} {post : α → Prop} {last : β → Prop}

theorem bind {m : QueryRoutine α} {f : α → QueryRoutine β} (h : Orderly overflow m post)
    (hf : ∀ a, post a → Orderly overflow (f a) last) : Orderly overflow (m >>= f) last := by
  refine FailingRoutine.Follows.bind h fun first a hfirst => ?_
  exact (hf a hfirst.2).mono (fun _ _ hsecond => ⟨hfirst.1.append hsecond.1, hsecond.2⟩)
    fun _ _ hsecond => hsecond.after hfirst.1 id

theorem pure {a : α} (h : post a) : Orderly overflow (Pure.pure a : QueryRoutine α) post :=
  FailingRoutine.follows_pure ⟨settled_nil, h⟩

theorem note {e : Event} :
    Orderly overflow (FailingRoutine.note e : QueryRoutine Unit) fun _ => True :=
  FailingRoutine.follows_note.mono (fun _ _ h => ⟨h ▸ settled_nil, trivial⟩) fun _ _ h => h

theorem require {b : Bool} (h : b = false → overflow) :
    Orderly overflow (FailingRoutine.ofRoutine (Routine.require b .capacity) : QueryRoutine Unit)
      fun _ => True := by
  refine (FailingRoutine.follows_require fun hb => ?_).mono
    (fun _ _ h => ⟨h ▸ settled_nil, trivial⟩) fun _ _ h => h
  exact .capacity settled_nil (h hb)

theorem call {q : Request} (hfilled : ∀ answer, (Step.asked q answer).Filled)
    (hclean : ∀ a, (Step.asked q (.ok a)).Clean) (hq : q ≠ .transactor) :
    Orderly overflow (FailingRoutine.call q : QueryRoutine q.Reply) fun _ => True := by
  refine FailingRoutine.follows_call (fun a _ => ?_) fun e _ => ?_
  · exact ⟨settled_singleton (hfilled _) (hclean a), trivial⟩
  · exact .fault (endsAt_singleton (hfilled _) (.call fun _ _ => hq))

end Orderly

/-! ## Batches -/

section
variable {overflow : Prop} {ο : Type} {reads : List ContractRead}
  {take : List ReadValue → Decoding ο} {post : ο → Prop}

theorem readBatch_settles (block : UInt64) (hreads : reads ≠ [])
    (hchecks : ∀ values, values.length = reads.length →
      (∀ p ∈ reads.zip values, p.1.Timely p.2) → (take values).Checks post (reads.zip values)) :
    (readBatch reads block take).Follows Step.Timely
      (fun steps o => (Settled steps ∧ post o) ∧ ∃ values,
        steps = [batchStep reads block (.ok values)] ∧ (take values).run = some (.ok o))
      (Broken False) := by
  refine (readBatch_follows reads block take).mono ?_ ?_
  · rintro steps o ⟨values, rfl, htimely, hlength, hvalues⟩
    obtain ⟨r, hr, h⟩ := hchecks values hlength htimely
    rw [hvalues] at hr
    cases hr
    exact ⟨⟨settled_singleton hreads (Step.clean_batch hlength h.2), h.1⟩, values, rfl, hvalues⟩
  · rintro steps stop ⟨answer, rfl, htimely, hrefused⟩
    cases hrefused with
    | call e => exact .fault (endsAt_singleton hreads (.call fun _ _ h => nomatch h))
    | length h => exact .fault (endsAt_singleton hreads (.length h))
    | value hlength h =>
      obtain ⟨r, hr, hunfit⟩ := hchecks _ hlength htimely
      rw [h] at hr
      cases hr
      exact .fault (endsAt_singleton hreads (.value hlength hunfit))
    | time hlength h =>
      obtain ⟨r, hr, _⟩ := hchecks _ hlength htimely
      rw [h] at hr
      cases hr

theorem readBatch_orderly (block : UInt64) (hreads : reads ≠ [])
    (hchecks : ∀ values, values.length = reads.length →
      (∀ p ∈ reads.zip values, p.1.Timely p.2) → (take values).Checks post (reads.zip values)) :
    Orderly overflow (readBatch reads block take) post :=
  (readBatch_settles block hreads hchecks).mono (fun _ _ h => h.1)
    fun _ _ h => h.after settled_nil False.elim

theorem addressesFrom_orderly (node : Address) (block : UInt64) (page count start : Nat) :
    Orderly overflow (addressesFrom node block page count start) fun found =>
      found.length = count - start := by
  induction start using addressesFrom.induct page count with
  | case1 start hlt stop ih =>
    rw [addressesFrom_eq, if_pos hlt]
    have hstop : start < stop ∧ stop ≤ count := by omega
    have hlength := length_addressReads node start stop
    have hreads : addressReads node start stop ≠ [] := List.ne_nil_of_length_pos (by omega)
    refine (readBatch_orderly block hreads fun values hvalues _ =>
      takeAddresses_checks ?_ hvalues).bind fun found hfound => ?_
    · intro read hread
      obtain ⟨index, _, rfl⟩ := List.mem_map.1 hread
      exact ⟨node, _, rfl⟩
    · refine ih.bind fun rest hrest => .pure ?_
      rw [List.length_append, hfound, hrest]
      omega
  | case2 start hge =>
    rw [addressesFrom, if_neg hge]
    refine .pure ?_
    rw [List.length_nil]
    omega

theorem detailsOf_orderly (node : Address) (block : UInt64) {fields : List MinipoolField}
    (hfields : fields ≠ []) {parts : List (List Address)} (hparts : ∀ part ∈ parts, part ≠ []) :
    Orderly overflow (detailsOf node block fields parts) fun _ => True := by
  induction parts with
  | nil => exact .pure trivial
  | cons part rest ih =>
    rw [detailsOf_cons]
    have hreads : detailReads fields part ≠ [] := by
      cases part with
      | nil => exact absurd rfl (hparts [] List.mem_cons_self)
      | cons a part =>
        intro h
        exact hfields (List.map_eq_nil_iff.1 (List.append_eq_nil_iff.1 h).1)
    refine (readBatch_orderly block hreads fun values _ htimely =>
      recordsOf_checks node fields htimely).bind fun records _ => ?_
    exact (ih fun p hp => hparts p (List.mem_cons_of_mem part hp)).bind fun _ _ => .pure trivial

end

/-! ## Queries -/

/-- Whether a query has an output whatever is gathered with an account. -/
def NodeQuery.Finishes {σ ω : Type} (query : NodeQuery σ ω) (transactor : Option Transactor) :
    Prop :=
  ∀ own gathered, gathered.transactor = transactor →
    ∃ output, query.finish own gathered = .ok output

/-- Whether the preparation of a query stops at its first fault. -/
def NodeQuery.PreparesOrderly {σ ω : Type} (query : NodeQuery σ ω) : Prop :=
  query.prepare.Follows Step.Timely
    (fun steps readiness =>
      match readiness with
      | .ready transactor => Settled steps ∧ query.Finishes transactor
      | .notReady reason => EndsAt steps (.notReady reason))
    (Broken False)

namespace QueryRunner
variable {σ ω : Type} (runner : QueryRunner) {query : NodeQuery σ ω}

theorem addresses_orderly (block count : UInt64) :
    Orderly (maxAddresses < count.toNat) (runner.addresses block count) fun _ => True := by
  have large {n : Nat} (hle : n ≤ count.toNat) (h : decide (n ≤ maxAddresses) = false) :
      maxAddresses < count.toNat := by
    have hmore := of_decide_eq_false h
    omega
  refine (Orderly.require fun h => large (Nat.min_le_left _ _) h).bind fun _ _ => ?_
  refine (addressesFrom_orderly runner.node block _ count.toNat 0).bind fun found hfound => ?_
  refine (Orderly.require fun h => large (by omega) h).bind fun _ _ => ?_
  exact .pure trivial

theorem details_orderly {overflow : Prop} (block : UInt64) (fields : List MinipoolField)
    (addresses : List Address) :
    Orderly overflow (runner.details block fields addresses) fun _ => True := by
  unfold details
  split
  · exact .pure trivial
  · rename_i hfields
    exact detailsOf_orderly runner.node block (fun h => hfields (List.isEmpty_iff.2 h))
      fun _ hpart => ne_nil_of_mem_pages hpart

theorem gatherFrom_orderly (header : BlockHeader) {transactor : Option Transactor} (count : UInt64)
    (own : σ) (hfinish : query.Finishes transactor) :
    Orderly (maxAddresses < count.toNat)
      (runner.gatherFrom query header transactor count own) fun _ => True := by
  refine (runner.addresses_orderly header.number count).bind fun addresses _ => ?_
  have finishing (validators : List MinipoolRecord) (event : Event) :
      Orderly (maxAddresses < count.toNat) (FailingRoutine.note event >>= fun _ =>
        FailingRoutine.ofExcept
          (query.finish own ⟨header, runner.node, addresses, validators, transactor⟩) :
          QueryRoutine ω) fun _ => True := by
    obtain ⟨output, houtput⟩ :=
      hfinish own ⟨header, runner.node, addresses, validators, transactor⟩ rfl
    rw [houtput]
    exact Orderly.note.bind fun _ _ => .pure trivial
  split
  · exact (runner.details_orderly header.number query.fields addresses).bind
      fun validators _ => finishing validators _
  · exact finishing [] _

theorem gather_settles (header : BlockHeader) {transactor : Option Transactor}
    (hown : query.ChecksOwn runner.node) (hfinish : query.Finishes transactor) :
    (runner.gather query header transactor).Follows Step.Timely (fun steps _ => Settled steps)
      fun steps stop => Broken (Overcounted steps) steps stop := by
  rw [gather_eq]
  have hopening := readBatch_settles header.number (List.cons_ne_nil _ _)
    fun values hlength _ => takeFirst_checks hown hlength
  refine (hopening.mono (fun _ _ h => h) fun _ _ h =>
    h.after settled_nil False.elim).bind fun first opened hfirst => ?_
  obtain ⟨⟨hsettled, -⟩, values, hsteps, hvalues⟩ := hfirst
  obtain ⟨ownValues, rfl, -⟩ := runner.eq_of_takeFirst query hvalues
  refine (runner.gatherFrom_orderly header opened.1 opened.2 hfinish).mono
    (fun _ _ h => hsettled.append h.1) fun second stop h => h.after hsettled fun hmore => ?_
  exact ⟨runner.node, _, header.number, .ofUInt64 opened.1, ownValues,
    List.mem_append_left _ (hsteps ▸ List.mem_singleton_self _), hmore⟩

end QueryRunner

/-! ## Preparations -/

theorem refreshRegistries_orderly {overflow : Prop} :
    Orderly overflow refreshRegistries fun _ => True := by
  have hrefresh (registry : ContractRegistry) : Orderly overflow
      (FailingRoutine.call (.refresh registry) : QueryRoutine Unit) fun _ => True :=
    Orderly.call (q := .refresh registry) (fun _ => trivial) (fun _ _ h => nomatch h)
      fun h => nomatch h
  exact (hrefresh .execution).bind fun _ _ => hrefresh .protocol

theorem snapshotQuery_preparesOrderly : snapshotQuery.PreparesOrderly := by
  refine FailingRoutine.Follows.bind refreshRegistries_orderly fun first _ hfirst => ?_
  refine FailingRoutine.follows_pure ⟨?_, fun own gathered _ => ⟨_, rfl⟩⟩
  rw [List.append_nil]
  exact hfirst.1

theorem stakeQuery_preparesOrderly : stakeQuery.PreparesOrderly := by
  refine FailingRoutine.Follows.bind refreshRegistries_orderly fun first _ hfirst => ?_
  have hask : (FailingRoutine.ofRoutine (.attempt .transactor) :
      QueryRoutine (Except CallError Transactor)).Follows Step.Timely
      (fun steps answer => steps = [.asked .transactor answer])
      fun steps stop => Broken False (first ++ steps) stop :=
    FailingRoutine.follows_attempt fun _ _ => rfl
  refine hask.bind fun second answer hsecond => ?_
  subst hsecond
  cases answer with
  | ok transactor =>
    refine FailingRoutine.follows_pure ⟨?_, fun own gathered h => ?_⟩
    · exact hfirst.1.append (settled_singleton trivial fun _ h => nomatch h)
    · exact ⟨⟨gathered.header, own, transactor, gathered.validators⟩, by
        simp only [stakeQuery, h]; rfl⟩
  | error e =>
    have hfilled : (Step.asked .transactor (.error e)).Filled := trivial
    have failed (he : ∀ reason, e ≠ .walletNotReady reason) :
        Broken False (first ++ ([.asked .transactor (.error e)] ++ [])) (.failed (.call e)) :=
      have hlast := endsAt_singleton hfilled (.call fun reason h => absurd h (he reason))
      .fault (hlast.after hfirst.1)
    cases e with
    | walletNotReady reason =>
      exact FailingRoutine.follows_pure
        ((endsAt_singleton hfilled (.locked reason)).after hfirst.1)
    | _ => exact FailingRoutine.follows_throw (failed fun _ h => nomatch h)

/-! ## Whole queries -/

/-- How a query ends, and that none of its batches is empty. -/
def Concluded {ω : Type} (steps : List Step)
    (ending : Ending (Except QueryError (QueryOutcome ω))) : Prop :=
  (∀ step ∈ steps, step.Filled) ∧ Concludes steps ending

section
variable {ω : Type} {steps : List Step}

theorem Settled.filled (h : Settled steps) : ∀ step ∈ steps, step.Filled := fun s hs => (h s hs).1

theorem Settled.clean (h : Settled steps) : ∀ step ∈ steps, step.Clean := fun s hs => (h s hs).2

theorem EndsAt.concluded {abort : Abort} (h : EndsAt steps abort) :
    Concluded steps (.done abort.outcome : Ending (Except QueryError (QueryOutcome ω))) := by
  obtain ⟨before, step, rfl, hbefore, hfilled, habort⟩ := h
  refine ⟨fun s hs => ?_, .aborted rfl hbefore.clean habort⟩
  rcases List.mem_append.1 hs with hs | hs
  · exact hbefore.filled s hs
  · rw [List.mem_singleton.1 hs]
    exact hfilled

theorem Broken.concluded {stop : Stop QueryError} (h : Broken (Overcounted steps) steps stop) :
    Concluded steps (stop.ending : Ending (Except QueryError (QueryOutcome ω))) := by
  cases h with
  | fault h => exact h.concluded
  | capacity hsettled h => exact ⟨hsettled.filled, .overflowed hsettled.clean h⟩

end

namespace QueryRunner
variable {σ ω : Type} {runner : QueryRunner} {query : NodeQuery σ ω}

theorem ready_concluded {before : List Step} (hbefore : Settled before) (header : BlockHeader)
    {transactor : Option Transactor} (hown : query.ChecksOwn runner.node)
    (hfinish : query.Finishes transactor) :
    FailingRoutine.Follows (do
        let output ← runner.gather query header transactor
        pure (QueryOutcome.ready output) : QueryRoutine (QueryOutcome ω)) Step.Timely
      (fun steps outcome => Concluded (before ++ steps) (.done (.ok outcome)))
      fun steps stop => Concluded (before ++ steps)
        (stop.ending : Ending (Except QueryError (QueryOutcome ω))) := by
  refine ((runner.gather_settles header hown hfinish).mono (fun _ _ h => h) fun _ _ h =>
    (h.after hbefore Overcounted.after).concluded).bind fun steps output hsteps => ?_
  refine FailingRoutine.follows_pure ?_
  rw [List.append_nil]
  have hall := hbefore.append hsteps
  exact ⟨hall.filled, .completed hall.clean⟩

theorem run_concluded (hprepare : query.PreparesOrderly) (hown : query.ChecksOwn runner.node)
    {history : List Step} {ending : Ending (Except QueryError (QueryOutcome ω))}
    (ran : (runner.run query).Runs history ending) (timely : ∀ step ∈ calls history, step.Timely) :
    Concluded (calls history) ending := by
  have hfollows : (runner.run query).Follows Step.Timely
      (fun steps outcome => Concluded steps (.done (.ok outcome)))
      fun steps stop =>
        Concluded steps (stop.ending : Ending (Except QueryError (QueryOutcome ω))) := by
    have hheader : Orderly False (FailingRoutine.call (.header none) : QueryRoutine BlockHeader)
        fun _ => True :=
      Orderly.call (q := .header none) (fun _ => trivial) (fun _ _ h => nomatch h)
        fun h => nomatch h
    refine (FailingRoutine.Follows.mono hheader (fun _ _ h => h) fun _ _ h =>
      (h.after settled_nil False.elim).concluded).bind fun first header hfirst => ?_
    refine (FailingRoutine.Follows.mono hprepare (fun _ _ h => h) fun _ _ h =>
      (h.after hfirst.1 False.elim).concluded).bind fun second readiness hsecond => ?_
    cases readiness with
    | notReady reason =>
      refine FailingRoutine.follows_note.bind fun third _ hthird => FailingRoutine.follows_pure ?_
      subst hthird
      rw [List.append_nil, List.append_nil]
      exact (hsecond.after hfirst.1).concluded
    | ready transactor =>
      have hready := ready_concluded (hfirst.1.append hsecond.1) header hown hsecond.2
      simp only [List.append_assoc] at hready
      exact hready
  rcases hfollows history ending ran timely with ⟨outcome, rfl, h⟩ | ⟨stop, rfl, h⟩ <;> exact h

/-- A query of the daemon ends at its first faulty call, whatever its calls are answered with: the
fault decides what it ends with, nothing is asked after it, and an output means that there was no
fault. No batch is empty, so an answer that is as long as its batch has a first value. -/
theorem run_ends_at_fault (runner : QueryRunner) {history : List Step}
    (timely : ∀ step ∈ calls history, step.Timely) :
    (∀ ending, (runner.run snapshotQuery).Runs history ending →
      (∀ step ∈ calls history, step.Filled) ∧ Concludes (calls history) ending) ∧
    ∀ ending, (runner.run stakeQuery).Runs history ending →
      (∀ step ∈ calls history, step.Filled) ∧ Concludes (calls history) ending :=
  ⟨fun _ ran => run_concluded snapshotQuery_preparesOrderly (snapshotQuery_checksOwn _) ran timely,
    fun _ ran => run_concluded stakeQuery_preparesOrderly (stakeQuery_checksOwn _) ran timely⟩

/-- The steps of a stake query whose only minipool has a status that there is none of. -/
def strayStatus : List Step :=
  loneQuery.take 6 ++ [batchStep (allFields.map (.minipool (Bytes.zero 20))) 7
    (.ok [.bool true, .uint (.ofUInt64 7), .uint (.ofUInt64 0x7fffffffffffffff),
      .bytes (Bytes.zero 48).toList, .bytes (Bytes.zero 32).toList])]

theorem strayStatus_timely : ∀ step ∈ calls strayStatus, step.Timely := by
  refine List.forall_mem_cons.2 ⟨trivial, List.forall_mem_cons.2 ⟨trivial,
    List.forall_mem_cons.2 ⟨trivial, List.forall_mem_cons.2 ⟨trivial,
      List.forall_mem_cons.2 ⟨?_, List.forall_mem_cons.2 ⟨?_,
        List.forall_mem_cons.2 ⟨?_, fun _ h => nomatch h⟩⟩⟩⟩⟩⟩⟩
  -- Only the last batch reads a status time.
  · rintro p hp a n hread -
    simp only [settingsReads, List.zip_cons_cons, List.zip_nil_right, List.mem_cons,
      List.not_mem_nil, or_false] at hp
    obtain rfl | rfl | rfl | rfl := hp <;> cases hread
  · rintro p hp a n hread -
    obtain rfl := List.mem_singleton.1 hp
    cases hread
  · rintro p hp a n hread hn
    simp only [allFields, List.map_cons, List.map_nil, List.zip_cons_cons, List.zip_nil_right,
      List.mem_cons, List.not_mem_nil, or_false] at hp
    obtain rfl | rfl | rfl | rfl | rfl := hp <;> cases hread
    rw [ReadValue.asUint64_ofUInt64] at hn
    cases hn
    decide

theorem strayStatus_runs : (loneRunner.run stakeQuery).Runs strayStatus
    (.done (.error (.decode (Bytes.zero 20) .status (.value (.unknownStatus 7))))) := by
  have hprepare : stakeQuery.prepare.Runs ((strayStatus.drop 1).take 3)
      (.done (.ok (.ready (some ⟨Bytes.zero 20, 1⟩)))) :=
    ⟨.ok (), _, rfl, .ok (), _, rfl, .ok ⟨Bytes.zero 20, 1⟩, _, rfl, rfl, rfl⟩
  have hopening : (readBatch (loneRunner.firstReads stakeQuery) 7
      (loneRunner.takeFirst stakeQuery)).Runs ((strayStatus.drop 4).take 1)
      (.done (.ok (1, ⟨.ofSecs 1, .ofSecs 1, .ofUInt64 1⟩))) :=
    (multicall_runs 7 rfl).bind ⟨rfl, rfl⟩
  have hdetails : (loneRunner.details 7 allFields [Bytes.zero 20]).Runs (strayStatus.drop 6)
      (.done (.error (.decode (Bytes.zero 20) .status (.value (.unknownStatus 7))))) :=
    (multicall_runs 7 rfl).bind ⟨rfl, rfl⟩
  have hgather : (loneRunner.gather stakeQuery ⟨7, Bytes.zero 32, 0⟩
      (some ⟨Bytes.zero 20, 1⟩)).Runs (strayStatus.drop 4)
      (.done (.error (.decode (Bytes.zero 20) .status (.value (.unknownStatus 7))))) := by
    rw [gather_eq]
    refine hopening.bind ((addresses_single loneRunner 7 (Bytes.zero 20)).bind ?_)
    exact FailingRoutine.runs_bind_iff.2 (.inr (.inl ⟨_, rfl, hdetails⟩))
  refine FailingRoutine.runs_call_bind_iff.2 (.inr ⟨⟨7, Bytes.zero 32, 0⟩, _, rfl, ?_⟩)
  exact hprepare.bind (FailingRoutine.runs_bind_iff.2 (.inr (.inl ⟨_, rfl, hgather⟩)))

theorem run_ends_at_fault_strayStatus :
    (∀ step ∈ calls strayStatus, step.Timely) ∧
    (loneRunner.run stakeQuery).Runs strayStatus
      (.done (.error (.decode (Bytes.zero 20) .status (.value (.unknownStatus 7))))) ∧
    Concludes (calls strayStatus) (.done (.error
      (.decode (Bytes.zero 20) .status (.value (.unknownStatus 7)))) :
        Ending (Except QueryError (QueryOutcome StakeView))) :=
  ⟨strayStatus_timely, strayStatus_runs,
    ((run_ends_at_fault loneRunner strayStatus_timely).2 _ strayStatus_runs).2⟩

end QueryRunner

end StakeKeeper
