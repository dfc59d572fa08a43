import StakeKeeper.Devnet.Net
import StakeKeeper.Proofs.Conduct
import StakeKeeper.Proofs.Histories

/-!
Routines played against the collaborators in memory, up to their record of what was asked of them.
Main statements: `Routine.runWith_alike` (states that are answered alike are played alike) and
`Routine.Plays.bind`, `FailingRoutine.Plays.bind`, `StatefulRoutine.Plays.bind` (two routines in a
row).
-/
namespace StakeKeeper
set_option autoImplicit false

/-- Whether a call changes nothing but a record of it. -/
def Request.isLook : Request → Bool
  | submit _ _ _ => false
  | escrowListing => false
  | uploadExits _ => false
  | _ => true

/-! ## Two plays of one routine -/

/-- If answers and the states they leave depend on the states up to a relation alone, so does a
whole run. -/
theorem Routine.runWith_alike {σ α : Type} {h : Handler σ} {r : σ → σ → Prop}
    {p : Request → Prop} {post : α → Prop}
    (answer : ∀ q, p q → ∀ s t, r s t →
      (h.answer q s).1 = (h.answer q t).1 ∧ r (h.answer q s).2 (h.answer q t).2)
    (note : ∀ e s t, r s t → r (h.note e s) (h.note e t)) {m : Routine α}
    (asks : m.Keeps (.asking p) post) {s t : σ} (hst : r s t) :
    (m.runWith h s).1 = (m.runWith h t).1 ∧ r (m.runWith h s).2 (m.runWith h t).2 := by
  induction m generalizing s t with
  | done a => exact ⟨rfl, hst⟩
  | ask q next ih =>
    obtain ⟨same, left⟩ := answer q asks.1 s t hst
    unfold runWith
    generalize h.answer q s = here at same left
    generalize h.answer q t = there at same left
    obtain ⟨reaction, s'⟩ := here
    obtain ⟨_, t'⟩ := there
    cases same
    cases reaction with
    | answered r => exact ih r (asks.2 r trivial) left
    | crashed c => exact ⟨rfl, left⟩
    | cancelled => exact ⟨rfl, left⟩
  | noteThen e next ih => exact ih asks (note e s t hst)
  | crash c => exact ⟨rfl, hst⟩

namespace Devnet

/-! ## States without their record of calls -/

/-- The chain without its record of calls. The batches are kept. -/
def Chain.still (c : Chain) : Chain :=
  { c with multicalls := [], refreshed := [], simulated := [], waited := [] }

def Beacon.still (b : Beacon) : Beacon := { b with configCalls := 0, statusQueries := [] }

/-- The collaborators without their record of calls. What the coordination service was asked for is
kept: it may stop answering. -/
def Net.still (n : Net) : Net := { n with chain := n.chain.still, beacon := n.beacon.still }

theorem Net.service_of_still {n n' : Net} (h : n.still = n'.still) : n.service = n'.service := by
  have hsame := congrArg Net.service h
  exact hsame

@[simp] theorem Chain.still_answer (c : Chain) : c.still.answer = c.answer := by
  funext read
  cases read <;> rfl

theorem Chain.still_submit? (c : Chain) (txs : List TransactionRequest) (fees : FeeSettings) :
    c.still.submit? txs fees = (c.submit? txs fees).map fun r => (r.1, r.2.still) := by
  unfold submit? still
  dsimp only
  cases c.header.time? <;> rfl

theorem Chain.still_multicall (c : Chain) (reads : List ContractRead) (block : UInt64) :
    (c.still.multicall reads block).1 = (c.multicall reads block).1 ∧
      (c.multicall reads block).2.still = c.still ∧
        (c.still.multicall reads block).2.still = c.still := by
  have hfail : c.still.failReads = c.failReads := rfl
  unfold multicall
  rw [hfail, still_answer]
  by_cases h : c.failReads
  · rw [if_pos h, if_pos h]
    exact ⟨rfl, rfl, rfl⟩
  · rw [if_neg h, if_neg h]
    exact ⟨rfl, rfl, rfl⟩

theorem Net.still_multicall (n : Net) (reads : List ContractRead) (block : UInt64) :
    (n.answer (.multicall reads block)).2.still = n.still := by
  show ({ n with chain := (n.chain.multicall reads block).2 } : Net).still = n.still
  rw [still, (n.chain.still_multicall reads block).2.1]
  rfl

theorem Net.answer_submit_some {n : Net} (sender : Transactor) {txs : List TransactionRequest}
    {fees : FeeSettings} {hashes : List Root} {c : Chain}
    (h : n.chain.submit? txs fees = some (hashes, c)) :
    n.answer (.submit sender txs fees) = (.answered (.ok hashes), { n with chain := c }) := by
  -- No instant may be computed where the two sides are compared.
  obtain ⟨submit, hsubmit⟩ : ∃ submit, n.chain.submit? = submit := ⟨_, rfl⟩
  rw [hsubmit] at h
  refine (Net.answer.eq_def n (.submit sender txs fees)).trans ?_
  rw [hsubmit]
  dsimp only
  rw [h]

theorem Net.answer_submit_none {n : Net} (sender : Transactor) {txs : List TransactionRequest}
    {fees : FeeSettings} (h : n.chain.submit? txs fees = none) :
    n.answer (.submit sender txs fees) = (.crashed .timeRange, n) := by
  obtain ⟨submit, hsubmit⟩ : ∃ submit, n.chain.submit? = submit := ⟨_, rfl⟩
  rw [hsubmit] at h
  refine (Net.answer.eq_def n (.submit sender txs fees)).trans ?_
  rw [hsubmit]
  dsimp only
  rw [h]

theorem Net.still_reply (n : Net) (q : Request) :
    (n.still.answer q).1 = (n.answer q).1 ∧ (n.still.answer q).2.still = (n.answer q).2.still := by
  cases q with
  | multicall reads block =>
    rw [still_multicall, still_multicall]
    exact ⟨congrArg Reaction.answered (n.chain.still_multicall reads block).1, rfl⟩
  | submit sender txs fees =>
    have hstill := n.chain.still_submit? txs fees
    cases hs : n.chain.submit? txs fees with
    | none =>
      have hthere : n.still.chain.submit? txs fees = none := by rw [hs] at hstill; exact hstill
      rw [answer_submit_none sender hs, answer_submit_none sender hthere]
      exact ⟨rfl, rfl⟩
    | some r =>
      have hthere : n.still.chain.submit? txs fees = some (r.1, r.2.still) := by
        rw [hs] at hstill
        exact hstill
      rw [answer_submit_some sender hs, answer_submit_some sender hthere]
      exact ⟨rfl, rfl⟩
  | header number => cases number <;> exact ⟨rfl, rfl⟩
  | _ => exact ⟨rfl, rfl⟩

theorem Net.still_look (n : Net) {q : Request} (h : q.isLook = true) :
    (n.answer q).2.still = n.still := by
  cases q with
  | multicall reads block => exact n.still_multicall reads block
  | submit sender txs fees => cases h
  | escrowListing => cases h
  | uploadExits exits => cases h
  | _ => rfl

theorem Net.reply_congr {s t : Net} (h : s.still = t.still) (q : Request) :
    (s.answer q).1 = (t.answer q).1 ∧ (s.answer q).2.still = (t.answer q).2.still := by
  have hs := s.still_reply q
  have ht := t.still_reply q
  rw [h] at hs
  exact ⟨hs.1.symm.trans ht.1, hs.2.symm.trans ht.2⟩

end Devnet

/-! ## Playing a routine -/

open Devnet

namespace Routine
variable {α β : Type} {n n₁ n' : Net}

/-- How a routine that is played against the collaborators ends, and the collaborators afterwards, up
to their record of calls. -/
def Plays (m : Routine α) (n : Net) (ending : Ending α) (n' : Net) : Prop :=
  (m.runWith Net.handler n).1 = ending ∧ (m.runWith Net.handler n).2.still = n'.still

theorem runWith_ask {σ : Type} (h : Handler σ) (q : Request)
    (next : Except CallError q.Reply → Routine α) (s : σ) :
    (ask q next).runWith h s =
      match h.answer q s with
      | (.answered r, t) => (next r).runWith h t
      | (.crashed c, t) => (.crashed c, t)
      | (.cancelled, t) => (.cancelled, t) := by
  rcases hanswer : h.answer q s with ⟨r | c | _, t⟩ <;> simp only [runWith, hanswer]

theorem runWith_bind {σ : Type} (h : Handler σ) (m : Routine α) (f : α → Routine β) (s : σ) :
    (m >>= f).runWith h s =
      match m.runWith h s with
      | (.done a, t) => (f a).runWith h t
      | (.crashed c, t) => (.crashed c, t)
      | (.cancelled, t) => (.cancelled, t) := by
  show (m.andThen f).runWith h s = _
  induction m generalizing s with
  | done a => rfl
  | ask q next ih =>
    rw [andThen, runWith_ask, runWith_ask]
    rcases h.answer q s with ⟨r | c | _, t⟩
    · exact ih r t
    · rfl
    · rfl
  | noteThen e next ih => exact ih (h.note e s)
  | crash c => rfl

theorem keeps_anything (m : Routine α) : m.Keeps (.asking fun _ => True) fun _ => True := by
  induction m with
  | done a => trivial
  | ask q next ih => exact ⟨trivial, fun answer _ => ih answer⟩
  | noteThen e next ih => exact ih
  | crash c => trivial

theorem Plays.congr {m : Routine α} {ending : Ending α} {s : Net} (h : m.Plays n ending n')
    (same : s.still = n.still) : m.Plays s ending n' := by
  have alike := runWith_alike (h := Net.handler) (r := fun s t : Net => s.still = t.still)
    (fun q _ s t hst => Net.reply_congr hst q) (fun _ _ _ hst => hst) m.keeps_anything same
  exact ⟨alike.1.trans h.1, alike.2.trans h.2⟩

theorem Plays.unique {m : Routine α} {ending ending' : Ending α} (h : m.Plays n ending n₁)
    (h' : m.Plays n ending' n') : ending = ending' ∧ n₁.still = n'.still :=
  ⟨h.1.symm.trans h'.1, h.2.symm.trans h'.2⟩

theorem plays_done (a : α) (n : Net) : (done a).Plays n (.done a) n := ⟨rfl, rfl⟩

theorem plays_ask {q : Request} {next : Except CallError q.Reply → Routine α}
    {answer : Except CallError q.Reply} {ending : Ending α}
    (h : n.answer q = (.answered answer, n₁)) (going : (next answer).Plays n₁ ending n') :
    (ask q next).Plays n ending n' := by
  have hanswer : Net.handler.answer q n = (.answered answer, n₁) := h
  unfold Plays
  rw [runWith_ask, hanswer]
  exact going

theorem plays_look {q : Request} {next : Except CallError q.Reply → Routine α}
    {answer : Except CallError q.Reply} {ending : Ending α} (hq : q.isLook = true)
    (h : (n.answer q).1 = .answered answer) (going : (next answer).Plays n ending n') :
    (ask q next).Plays n ending n' :=
  plays_ask (Prod.ext h rfl) (going.congr (n.still_look hq))

theorem Plays.bind {m : Routine α} {f : α → Routine β} {a : α} {ending : Ending β}
    (h : m.Plays n (.done a) n₁) (hf : (f a).Plays n₁ ending n') :
    (m >>= f).Plays n ending n' := by
  obtain ⟨hending, hleft⟩ := h
  have hbind := runWith_bind Net.handler m f n
  generalize m.runWith Net.handler n = played at hending hleft hbind
  obtain ⟨_, s⟩ := played
  cases hending
  unfold Plays
  rw [hbind]
  exact hf.congr hleft

theorem Plays.bind_crashed {m : Routine α} {c : Crash} (h : m.Plays n (.crashed c) n')
    (f : α → Routine β) : (m >>= f).Plays n (.crashed c) n' := by
  obtain ⟨hending, hleft⟩ := h
  have hbind := runWith_bind Net.handler m f n
  generalize m.runWith Net.handler n = played at hending hleft hbind
  obtain ⟨_, s⟩ := played
  cases hending
  unfold Plays
  rw [hbind]
  exact ⟨rfl, hleft⟩

theorem plays_noteAll (events : List Event) (n : Net) :
    (noteAll events).Plays n (.done ()) n := by
  induction events with
  | nil => exact ⟨rfl, rfl⟩
  | cons e rest ih => exact ih

end Routine

/-! ## Routines that may fail -/

/-- Goes on from the result of an ending, if it has one. -/
def Ending.proceed {ε α β : Type} (ending : Ending (Except ε α)) (f : α → Ending (Except ε β)) :
    Ending (Except ε β) :=
  match ending with
  | .done (.ok a) => f a
  | .done (.error e) => .done (.error e)
  | .crashed c => .crashed c
  | .cancelled => .cancelled

/-- The end with a value, or with a crash where there is none. -/
def Ending.orCrash {ε α : Type} (c : Crash) : Option α → Ending (Except ε α)
  | some a => .done (.ok a)
  | none => .crashed c

theorem Ending.proceed_proceed {ε α β γ : Type} (ending : Ending (Except ε α))
    (f : α → Ending (Except ε β)) (g : β → Ending (Except ε γ)) :
    (ending.proceed f).proceed g = ending.proceed fun a => (f a).proceed g := by
  rcases ending with (e | a) | c | _ <;> rfl

theorem Ending.proceed_ends {ε α β : Type} {ending : Ending (Except ε α)}
    {f : α → Ending (Except ε β)} (h : ending ≠ .cancelled) (hf : ∀ a, f a ≠ .cancelled) :
    ending.proceed f ≠ .cancelled := by
  rcases ending with (e | a) | c | _
  · exact nofun
  · exact hf a
  · exact nofun
  · exact absurd rfl h

namespace FailingRoutine
variable {ε α β : Type} {n n₁ n' : Net}

def Plays (m : FailingRoutine ε α) (n : Net) (ending : Ending (Except ε α)) (n' : Net) : Prop :=
  Routine.Plays m.run n ending n'

theorem plays_ofExcept (r : Except ε α) (n : Net) : (ofExcept r).Plays n (.done r) n := ⟨rfl, rfl⟩

theorem plays_pure (a : α) (n : Net) : (pure a : FailingRoutine ε α).Plays n (.done (.ok a)) n :=
  ⟨rfl, rfl⟩

theorem plays_note (e : Event) (n : Net) :
    (note e : FailingRoutine ε Unit).Plays n (.done (.ok ())) n := ⟨rfl, rfl⟩

theorem Plays.bind {m : FailingRoutine ε α} {f : α → FailingRoutine ε β} {a : α}
    {ending : Ending (Except ε β)} (h : m.Plays n (.done (.ok a)) n₁)
    (hf : (f a).Plays n₁ ending n') : (m >>= f).Plays n ending n' := Routine.Plays.bind h hf

theorem Plays.bind_error {m : FailingRoutine ε α} {e : ε} (h : m.Plays n (.done (.error e)) n')
    (f : α → FailingRoutine ε β) : (m >>= f).Plays n (.done (.error e)) n' :=
  Routine.Plays.bind h ⟨rfl, rfl⟩

theorem Plays.bind_crashed {m : FailingRoutine ε α} {c : Crash} (h : m.Plays n (.crashed c) n')
    (f : α → FailingRoutine ε β) : (m >>= f).Plays n (.crashed c) n' :=
  Routine.Plays.bind_crashed h _

/-- A routine that only looks, and then what follows from its result. -/
theorem Plays.proceed {m : FailingRoutine ε α} {f : α → FailingRoutine ε β}
    {first : Ending (Except ε α)} {g : α → Ending (Except ε β)} (h : m.Plays n first n)
    (ends : first ≠ .cancelled) (hf : ∀ a, first = .done (.ok a) → (f a).Plays n (g a) n) :
    (m >>= f).Plays n (first.proceed g) n := by
  rcases first with (e | a) | c | _
  · exact h.bind_error f
  · exact h.bind (hf a rfl)
  · exact h.bind_crashed f
  · exact (ends rfl).elim

theorem plays_call [OfCallError ε] {q : Request} {r : Except CallError q.Reply}
    (hq : q.isLook = true) (h : (n.answer q).1 = .answered r) :
    (call q : FailingRoutine ε q.Reply).Plays n (.done (r.mapError ofCallError)) n := by
  refine Routine.plays_look hq h ?_
  cases r <;> exact Routine.plays_done _ n

theorem plays_call_ok [OfCallError ε] {q : Request} {a : q.Reply}
    (h : n.answer q = (.answered (.ok a), n')) :
    (call q : FailingRoutine ε q.Reply).Plays n (.done (.ok a)) n' :=
  Routine.plays_ask h (Routine.plays_done _ n')

theorem plays_attempt {q : Request} {answer : Except CallError q.Reply} (hq : q.isLook = true)
    (h : (n.answer q).1 = .answered answer) :
    (ofRoutine (.attempt q) : FailingRoutine ε (Except CallError q.Reply)).Plays n
      (.done (.ok answer)) n := Routine.plays_look hq h (Routine.plays_done _ n)

theorem plays_ofRoutine {m : Routine α} {a : α} (h : Routine.Plays m n (.done a) n') :
    (ofRoutine m : FailingRoutine ε α).Plays n (.done (.ok a)) n' :=
  Routine.Plays.bind h (Routine.plays_done (Except.ok a) n')

theorem plays_noteAll (events : List Event) (n : Net) :
    (ofRoutine (.noteAll events) : FailingRoutine ε Unit).Plays n (.done (.ok ())) n :=
  plays_ofRoutine (Routine.plays_noteAll events n)

theorem plays_orCrash (c : Crash) (r : Option α) (n : Net) :
    (ofRoutine (.orCrash c r) : FailingRoutine ε α).Plays n (.orCrash c r) n := by
  cases r <;> exact ⟨rfl, rfl⟩

theorem plays_orCrash_bind {c : Crash} {r : Option α} {f : α → FailingRoutine ε β}
    {g : α → Option β} (h : ∀ a, (f a).Plays n (.orCrash c (g a)) n) :
    (ofRoutine (.orCrash c r) >>= f).Plays n (.orCrash c (r >>= g)) n := by
  cases r with
  | none => exact (plays_orCrash c none n).bind_crashed f
  | some a => exact (plays_orCrash c (some a) n).bind (h a)

theorem plays_require (b : Bool) (c : Crash) (n : Net) :
    (ofRoutine (.require b c) : FailingRoutine ε Unit).Plays n
      (if b then .done (.ok ()) else .crashed c) n := by
  cases b <;> exact ⟨rfl, rfl⟩

theorem plays_askEach {ι ο : Type} {f : ι → Request}
    {take : (i : ι) → Except CallError (f i).Reply → Except ε ο}
    {g : (i : ι) → Except CallError (f i).Reply} (look : ∀ i, (f i).isLook = true)
    (answers : ∀ i, (n.answer (f i)).1 = .answered (g i)) (items : List ι) :
    (askEach f take items).Plays n (.done (items.mapM fun i => take i (g i))) n := by
  induction items with
  | nil => exact ⟨rfl, rfl⟩
  | cons i rest ih =>
    rw [List.mapM_cons]
    refine (plays_attempt (look i) (answers i)).bind ?_
    have taken := plays_ofExcept (take i (g i)) n
    generalize take i (g i) = value at taken ⊢
    rcases value with e | o
    · exact taken.bind_error _
    refine taken.bind ?_
    generalize rest.mapM (fun i => take i (g i)) = values at ih ⊢
    rcases values with e | values
    · exact ih.bind_error _
    · exact ih.bind (plays_pure (o :: values) n)

end FailingRoutine

/-! ## Routines that keep a state -/

namespace StatefulRoutine
variable {σ ε α β : Type} {s t : σ} {n n₁ n' : Net}

def Plays (m : StatefulRoutine σ ε α) (s : σ) (n : Net) (ending : Ending (Except ε α × σ))
    (n' : Net) : Prop :=
  Routine.Plays (m.run.run s) n ending n'

theorem plays_pure (a : α) (s : σ) (n : Net) :
    (pure a : StatefulRoutine σ ε α).Plays s n (.done (.ok a, s)) n := ⟨rfl, rfl⟩

theorem plays_note (e : Event) (s : σ) (n : Net) :
    (note e : StatefulRoutine σ ε Unit).Plays s n (.done (.ok (), s)) n := ⟨rfl, rfl⟩

theorem plays_ofFailing {m : FailingRoutine ε α} {r : Except ε α} (h : m.Plays n (.done r) n')
    (s : σ) : (ofFailing m : StatefulRoutine σ ε α).Plays s n (.done (r, s)) n' :=
  Routine.Plays.bind h (Routine.plays_done (r, s) n')

theorem plays_ofFailing_crashed {m : FailingRoutine ε α} {c : Crash}
    (h : m.Plays n (.crashed c) n') (s : σ) :
    (ofFailing m : StatefulRoutine σ ε α).Plays s n (.crashed c) n' :=
  Routine.Plays.bind_crashed h _

theorem plays_ofRoutine {m : Routine α} {a : α} (h : Routine.Plays m n (.done a) n') (s : σ) :
    (ofRoutine m : StatefulRoutine σ ε α).Plays s n (.done (.ok a, s)) n' :=
  plays_ofFailing (FailingRoutine.plays_ofRoutine h) s

theorem Plays.bind {m : StatefulRoutine σ ε α} {f : α → StatefulRoutine σ ε β} {a : α}
    {ending : Ending (Except ε β × σ)} (h : m.Plays s n (.done (.ok a, t)) n₁)
    (hf : (f a).Plays t n₁ ending n') : (m >>= f).Plays s n ending n' := by
  unfold Plays
  rw [ExceptT.run_bind, StateT.run_bind]
  exact Routine.Plays.bind h hf

theorem Plays.bind_error {m : StatefulRoutine σ ε α} {e : ε}
    (h : m.Plays s n (.done (.error e, t)) n') (f : α → StatefulRoutine σ ε β) :
    (m >>= f).Plays s n (.done (.error e, t)) n' := by
  unfold Plays
  rw [ExceptT.run_bind, StateT.run_bind]
  exact Routine.Plays.bind h ⟨rfl, rfl⟩

theorem Plays.bind_crashed {m : StatefulRoutine σ ε α} {c : Crash}
    (h : m.Plays s n (.crashed c) n') (f : α → StatefulRoutine σ ε β) :
    (m >>= f).Plays s n (.crashed c) n' := by
  unfold Plays
  rw [ExceptT.run_bind, StateT.run_bind]
  exact Routine.Plays.bind_crashed h _

theorem plays_modify (f : σ → σ) (s : σ) (n : Net) :
    (modify f : StatefulRoutine σ ε Unit).Plays s n (.done (.ok (), f s)) n := ⟨rfl, rfl⟩

theorem plays_noteAll (events : List Event) (s : σ) (n : Net) :
    (ofRoutine (.noteAll events) : StatefulRoutine σ ε Unit).Plays s n (.done (.ok (), s)) n :=
  plays_ofFailing (FailingRoutine.plays_noteAll events n) s

theorem plays_get_bind {f : σ → StatefulRoutine σ ε α} {ending : Ending (Except ε α × σ)}
    (h : (f s).Plays s n ending n') : (get >>= f).Plays s n ending n' := h

theorem plays_attempt_bind {q : Request} {answer : Except CallError q.Reply}
    {f : Except CallError q.Reply → StatefulRoutine σ ε α} {ending : Ending (Except ε α × σ)}
    (ha : n.answer q = (.answered answer, n₁)) (hf : (f answer).Plays s n₁ ending n') :
    (ofRoutine (.attempt q) >>= f).Plays s n ending n' := Routine.plays_ask ha hf

theorem plays_call_bind [OfCallError ε] {q : Request} {a : q.Reply}
    {f : q.Reply → StatefulRoutine σ ε α} {ending : Ending (Except ε α × σ)}
    (ha : n.answer q = (.answered (.ok a), n₁)) (hf : (f a).Plays s n₁ ending n') :
    (call q >>= f).Plays s n ending n' :=
  (plays_ofFailing (FailingRoutine.plays_call_ok ha) s).bind hf

theorem plays_look_bind [OfCallError ε] {q : Request} {a : q.Reply}
    {f : q.Reply → StatefulRoutine σ ε α} {ending : Ending (Except ε α × σ)}
    (hq : q.isLook = true) (ha : (n.answer q).1 = .answered (.ok a))
    (hf : (f a).Plays s n ending n') : (call q >>= f).Plays s n ending n' :=
  (plays_ofFailing (FailingRoutine.plays_call hq ha) s).bind hf

end StatefulRoutine

end StakeKeeper
