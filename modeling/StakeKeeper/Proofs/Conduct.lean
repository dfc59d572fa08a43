import StakeKeeper.Proofs.Questions

/-!
What a routine may do, given what it may rely on. Main statements: `Routine.Keeps.bind`,
`FailingRoutine.Keeps.bind` and `StatefulRoutine.Keeps.bind` (two routines in a row),
`Routine.Keeps.asked` (the calls of a run are allowed) and `Routine.Keeps.ends` (how a run ends).
-/
namespace StakeKeeper
set_option autoImplicit false

/-- What a routine may do. -/
structure Conduct where
  asks : Request → Prop
  /-- The answers that it may rely on. -/
  trusts : (q : Request) → Except CallError q.Reply → Prop
  crashes : Prop

def Conduct.Trusted (k : Conduct) (history : List Step) : Prop :=
  ∀ q answer, .asked q answer ∈ history → k.trusts q answer

/-- Only bounds on the calls that are made. -/
def Conduct.asking (p : Request → Prop) : Conduct := ⟨p, fun _ _ => True, True⟩

theorem Conduct.trusted_asking (p : Request → Prop) (history : List Step) :
    (Conduct.asking p).Trusted history := fun _ _ _ => trivial

theorem Conduct.Trusted.tail {k : Conduct} {step : Step} {rest : List Step}
    (trusted : k.Trusted (step :: rest)) : k.Trusted rest :=
  fun q answer hq => trusted q answer (List.mem_cons_of_mem step hq)

/-! ## Routines -/

namespace Routine
variable {α β : Type} {k : Conduct} {post : α → Prop} {m : Routine α}

/-- Whether a routine does only what it may, and all its results meet a condition. -/
def Keeps (k : Conduct) (post : α → Prop) : Routine α → Prop
  | done a => post a
  | ask q next => k.asks q ∧ ∀ answer, k.trusts q answer → Keeps k post (next answer)
  | noteThen _ next => Keeps k post next
  | crash _ => k.crashes

theorem Keeps.bind {f : α → Routine β} {last : β → Prop} (h : m.Keeps k post)
    (hf : ∀ a, post a → (f a).Keeps k last) : (m >>= f).Keeps k last := by
  show (m.andThen f).Keeps k last
  induction m with
  | done a => exact hf a h
  | ask q next ih => exact ⟨h.1, fun answer trusted => ih answer (h.2 answer trusted)⟩
  | noteThen e next ih => exact ih h
  | crash c => exact h

theorem Keeps.mono {last : α → Prop} (h : m.Keeps k post) (himp : ∀ a, post a → last a) :
    m.Keeps k last := by
  induction m with
  | done a => exact himp a h
  | ask q next ih => exact ⟨h.1, fun answer trusted => ih answer (h.2 answer trusted)⟩
  | noteThen e next ih => exact ih h
  | crash c => exact h

theorem Meets.keeps {p : Request → Prop} (h : m.Meets p post) : m.Keeps (.asking p) post := by
  induction m with
  | done a => exact h
  | ask q next ih => exact ⟨h.1, fun answer _ => ih answer (h.2 answer)⟩
  | noteThen e next ih => exact ih h
  | crash c => trivial

theorem Keeps.asked (h : m.Keeps k post) {history : List Step} {ending : Ending α}
    (ran : m.Runs history ending) (trusted : k.Trusted history) {q : Request}
    {answer : Except CallError q.Reply} (hq : .asked q answer ∈ history) : k.asks q := by
  induction m generalizing history with
  | done a =>
    obtain ⟨rfl, _⟩ := ran
    cases hq
  | ask r next ih =>
    obtain ⟨reply, rest, rfl, ran⟩ := ran
    rcases List.mem_cons.1 hq with hq | hq
    · cases hq
      exact h.1
    · exact ih reply (h.2 reply (trusted r reply List.mem_cons_self)) ran trusted.tail hq
  | noteThen e next ih =>
    obtain ⟨rest, rfl, ran⟩ := ran
    rcases List.mem_cons.1 hq with hq | hq
    · cases hq
    · exact ih h ran trusted.tail hq
  | crash c =>
    obtain ⟨rfl, _⟩ := ran
    cases hq

/-- A run that is given trusted answers is done with a value that meets the condition, unless the
conduct allows crashes. -/
theorem Keeps.ends (h : m.Keeps k post) {history : List Step} {ending : Ending α}
    (ran : m.Runs history ending) (trusted : k.Trusted history) :
    (∃ a, ending = .done a ∧ post a) ∨ (∃ c, ending = .crashed c) ∧ k.crashes := by
  induction m generalizing history with
  | done a =>
    obtain ⟨_, rfl⟩ := ran
    exact .inl ⟨a, rfl, h⟩
  | ask q next ih =>
    obtain ⟨answer, rest, rfl, ran⟩ := ran
    exact ih answer (h.2 answer (trusted q answer List.mem_cons_self)) ran trusted.tail
  | noteThen e next ih =>
    obtain ⟨rest, rfl, ran⟩ := ran
    exact ih h ran trusted.tail
  | crash c =>
    obtain ⟨_, rfl⟩ := ran
    exact .inr ⟨⟨c, rfl⟩, h⟩

theorem keeps_pure {a : α} (h : post a) : (pure a : Routine α).Keeps k post := h

theorem keeps_attempt {q : Request} (h : k.asks q) : (attempt q).Keeps k (k.trusts q) :=
  ⟨h, fun _ trusted => trusted⟩

theorem keeps_note {e : Event} : (note e).Keeps k fun _ => True := trivial

theorem keeps_noteAll (events : List Event) : (noteAll events).Keeps k fun _ => True := by
  induction events with
  | nil => trivial
  | cons e events ih => exact ih

theorem keeps_orCrash {c : Crash} {r : Option α} (h : r = none → k.crashes)
    (hr : ∀ a, r = some a → post a) : (orCrash c r).Keeps k post := by
  cases r with
  | none => exact h rfl
  | some a => exact hr a rfl

end Routine

/-! ## Routines that may fail -/

namespace FailingRoutine
variable {ε α β : Type} {k : Conduct} {post : α → Prop}

/-- The same for a routine that may fail; nothing is asked of an error. -/
def Keeps (k : Conduct) (post : α → Prop) (m : FailingRoutine ε α) : Prop :=
  Routine.Keeps k (fun r => ∀ a, r = .ok a → post a) m.run

theorem keeps_ofExcept {r : Except ε α} (h : ∀ a, r = .ok a → post a) :
    (ofExcept r).Keeps k post := h

theorem keeps_pure {a : α} (h : post a) : (pure a : FailingRoutine ε α).Keeps k post := by
  rintro _ ⟨⟩
  exact h

theorem keeps_throw {e : ε} : (throw e : FailingRoutine ε α).Keeps k post := by
  rintro _ ⟨⟩

theorem Keeps.bind {m : FailingRoutine ε α} {f : α → FailingRoutine ε β} {last : β → Prop}
    (h : m.Keeps k post) (hf : ∀ a, post a → (f a).Keeps k last) : (m >>= f).Keeps k last := by
  refine Routine.Keeps.bind h fun r hr => ?_
  cases r with
  | error e => rintro _ ⟨⟩
  | ok a => exact hf a (hr a rfl)

theorem Keeps.mono {m : FailingRoutine ε α} {last : α → Prop} (h : m.Keeps k post)
    (himp : ∀ a, post a → last a) : m.Keeps k last :=
  Routine.Keeps.mono h fun _ hr a ha => himp a (hr a ha)

theorem keeps_ofRoutine {m : Routine α} (h : m.Keeps k post) :
    (ofRoutine m : FailingRoutine ε α).Keeps k post :=
  Routine.Keeps.bind h fun a ha => by
    rintro _ ⟨⟩
    exact ha

theorem keeps_call [OfCallError ε] {q : Request} (h : k.asks q) :
    (call q : FailingRoutine ε q.Reply).Keeps k fun a => k.trusts q (.ok a) := by
  refine ⟨h, fun answer trusted => ?_⟩
  cases answer with
  | error e => rintro _ ⟨⟩
  | ok a =>
    rintro _ ⟨⟩
    exact trusted

theorem keeps_note {e : Event} : (note e : FailingRoutine ε Unit).Keeps k fun _ => True :=
  fun _ _ => trivial

end FailingRoutine

/-! ## Routines that keep a state -/

namespace StatefulRoutine
variable {σ ε α β : Type} {k : Conduct} {post : α → Prop}

/-- The same for a routine that keeps a state, from every state. -/
def Keeps (k : Conduct) (post : α → Prop) (m : StatefulRoutine σ ε α) : Prop :=
  ∀ s, Routine.Keeps k (fun r => ∀ a, r.1 = .ok a → post a) (m.run.run s)

theorem keeps_pure {a : α} (h : post a) : (pure a : StatefulRoutine σ ε α).Keeps k post := by
  rintro s _ ⟨⟩
  exact h

theorem keeps_throw {e : ε} : (throw e : StatefulRoutine σ ε α).Keeps k post := by
  rintro s _ ⟨⟩

theorem keeps_get : (get : StatefulRoutine σ ε σ).Keeps k fun _ => True := fun _ _ _ => trivial

theorem keeps_get_bind {f : σ → StatefulRoutine σ ε α} {s : σ} (h : (f s).Keeps k post) :
    Routine.Keeps k (fun r => ∀ a, r.1 = .ok a → post a) ((get >>= f).run.run s) := h s

theorem keeps_modify {f : σ → σ} : (modify f : StatefulRoutine σ ε Unit).Keeps k fun _ => True :=
  fun _ _ _ => trivial

theorem Keeps.bind {m : StatefulRoutine σ ε α} {f : α → StatefulRoutine σ ε β} {last : β → Prop}
    (h : m.Keeps k post) (hf : ∀ a, post a → (f a).Keeps k last) : (m >>= f).Keeps k last := by
  intro s
  rw [ExceptT.run_bind, StateT.run_bind]
  refine Routine.Keeps.bind (h s) fun r hr => ?_
  obtain ⟨e | a, t⟩ := r
  · rintro _ ⟨⟩
  · exact hf a (hr a rfl) t

theorem keeps_ofFailing {m : FailingRoutine ε α} (h : m.Keeps k post) :
    (ofFailing m : StatefulRoutine σ ε α).Keeps k post :=
  fun _ => Routine.Keeps.bind h fun _ hr => hr

theorem keeps_ofRoutine {m : Routine α} (h : m.Keeps k post) :
    (ofRoutine m : StatefulRoutine σ ε α).Keeps k post :=
  keeps_ofFailing (FailingRoutine.keeps_ofRoutine h)

theorem keeps_call [OfCallError ε] {q : Request} (h : k.asks q) :
    (call q : StatefulRoutine σ ε q.Reply).Keeps k fun a => k.trusts q (.ok a) :=
  keeps_ofFailing (FailingRoutine.keeps_call h)

theorem keeps_note {e : Event} : (note e : StatefulRoutine σ ε Unit).Keeps k fun _ => True :=
  keeps_ofFailing FailingRoutine.keeps_note

end StatefulRoutine

end StakeKeeper
