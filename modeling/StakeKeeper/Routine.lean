import StakeKeeper.Event
import StakeKeeper.Request

/-!
Routines: what the daemon does, as a tree of calls to its collaborators, events that it notes, and
an end. A routine says nothing of how calls are answered: `Routine.runWith` plays it against a
handler that answers each call from a state, and `Routine.Runs` relates it to every history that
some answers could give rise to. Main statement: `Runs.bind_iff` splits a history at a bind.
-/
namespace StakeKeeper
set_option autoImplicit false

/-! ## Trees -/

/-- Why a routine breaks off without a result. -/
inductive Crash where
  /-- A time left the range of instants. -/
  | timeRange
  /-- A list would not fit the address space. -/
  | capacity
  deriving DecidableEq

/-- A routine with a result of type `α`. -/
inductive Routine (α : Type) : Type where
  | done (a : α)
  | ask (q : Request) (next : Except CallError q.Reply → Routine α)
  | noteThen (e : Event) (next : Routine α)
  | crash (c : Crash)

namespace Routine

variable {α β : Type}

def andThen : Routine α → (α → Routine β) → Routine β
  | done a, f => f a
  | ask q next, f => ask q fun r => (next r).andThen f
  | noteThen e next, f => noteThen e (next.andThen f)
  | crash c, _ => crash c

instance : Monad Routine where
  pure := done
  bind := andThen

theorem andThen_done (m : Routine α) : m.andThen done = m := by
  induction m with
  | done a => rfl
  | ask q next ih => simp only [andThen, ih]
  | noteThen e next ih => simp only [andThen, ih]
  | crash c => rfl

theorem andThen_assoc {γ : Type} (m : Routine α) (f : α → Routine β) (g : β → Routine γ) :
    (m.andThen f).andThen g = m.andThen fun a => (f a).andThen g := by
  induction m with
  | done a => rfl
  | ask q next ih => simp only [andThen, ih]
  | noteThen e next ih => simp only [andThen, ih]
  | crash c => rfl

instance : LawfulMonad Routine :=
  LawfulMonad.mk' Routine (fun m => andThen_done m) (fun _ _ => rfl)
    (fun m f g => andThen_assoc m f g)

def note (e : Event) : Routine Unit := noteThen e (done ())

def orCrash (c : Crash) : Option α → Routine α
  | some a => done a
  | none => crash c

/-- Breaks off with a crash unless a condition holds. -/
def require (p : Bool) (c : Crash) : Routine Unit := if p then done () else crash c

end Routine

/-! ## Routines that may fail or keep a state -/

/-- A routine that may end in an error. -/
abbrev FailingRoutine (ε α : Type) := ExceptT ε Routine α

/-- A routine that keeps a state, also when it ends in an error. -/
abbrev StatefulRoutine (σ ε α : Type) := ExceptT ε (StateT σ Routine) α

/-- The outcome of a call that ends nothing when it fails. -/
def Routine.attempt (q : Request) : Routine (Except CallError q.Reply) := .ask q .done

def Routine.noteAll : List Event → Routine Unit
  | [] => .done ()
  | e :: rest => .noteThen e (noteAll rest)

namespace FailingRoutine

variable {ε α : Type}

def ofRoutine (m : Routine α) : FailingRoutine ε α := ExceptT.lift m

def ofExcept (r : Except ε α) : FailingRoutine ε α := ExceptT.mk (.done r)

/-- Makes a call; a failed one ends the routine. -/
def call [OfCallError ε] (q : Request) : FailingRoutine ε q.Reply :=
  .ask q fun
    | .ok a => .done (.ok a)
    | .error e => .done (.error (ofCallError e))

def note (e : Event) : FailingRoutine ε Unit := ofRoutine (Routine.note e)

end FailingRoutine

namespace StatefulRoutine

variable {σ ε α : Type}

def ofFailing (m : FailingRoutine ε α) : StatefulRoutine σ ε α := ExceptT.mk (StateT.lift m.run)

def ofRoutine (m : Routine α) : StatefulRoutine σ ε α := ofFailing (.ofRoutine m)

def call [OfCallError ε] (q : Request) : StatefulRoutine σ ε q.Reply := ofFailing (.call q)

def note (e : Event) : StatefulRoutine σ ε Unit := ofFailing (.note e)

end StatefulRoutine

/-! ## Histories -/

inductive Ending (α : Type) where
  | done (a : α)
  | crashed (c : Crash)
  /-- Given up from outside during a call. -/
  | cancelled

/-- What a routine did: a call with its answer, or an event. -/
inductive Step where
  | asked (q : Request) (answer : Except CallError q.Reply)
  | noted (e : Event)

namespace Routine

variable {α β : Type}

/-- Whether a routine has a history and an ending, for some answers to its calls. -/
def Runs : Routine α → List Step → Ending α → Prop
  | done a, history, ending => history = [] ∧ ending = .done a
  | ask q next, history, ending =>
    ∃ answer rest, history = .asked q answer :: rest ∧ Runs (next answer) rest ending
  | noteThen e next, history, ending => ∃ rest, history = .noted e :: rest ∧ Runs next rest ending
  | crash c, history, ending => history = [] ∧ ending = .crashed c

/-- A history of two routines in a row is one of the first, which may crash, and one of the
second. -/
theorem Runs.bind_iff {m : Routine α} {f : α → Routine β} {history : List Step}
    {ending : Ending β} :
    (m >>= f).Runs history ending ↔
      (∃ c, ending = .crashed c ∧ m.Runs history (.crashed c)) ∨
        ∃ a first second, history = first ++ second ∧ m.Runs first (.done a) ∧
          (f a).Runs second ending := by
  show (m.andThen f).Runs history ending ↔ _
  induction m generalizing history with
  | done a =>
    simp only [andThen, Runs]
    constructor
    · intro h; exact .inr ⟨a, [], history, rfl, ⟨rfl, rfl⟩, h⟩
    · rintro (⟨c, _, _, h⟩ | ⟨b, first, second, rfl, ⟨rfl, h⟩, hf⟩)
      · cases h
      · cases h; simpa using hf
  | ask q next ih =>
    simp only [andThen, Runs, ih]
    constructor
    · rintro ⟨answer, rest, rfl, ⟨c, rfl, h⟩ | ⟨a, first, second, rfl, h, hf⟩⟩
      · exact .inl ⟨c, rfl, answer, rest, rfl, h⟩
      · exact .inr ⟨a, .asked q answer :: first, second, rfl, ⟨answer, first, rfl, h⟩, hf⟩
    · rintro (⟨c, rfl, answer, rest, rfl, h⟩ | ⟨a, _, second, rfl, ⟨answer, first, rfl, h⟩, hf⟩)
      · exact ⟨answer, rest, rfl, .inl ⟨c, rfl, h⟩⟩
      · exact ⟨answer, first ++ second, rfl, .inr ⟨a, first, second, rfl, h, hf⟩⟩
  | noteThen e next ih =>
    simp only [andThen, Runs, ih]
    constructor
    · rintro ⟨rest, rfl, ⟨c, rfl, h⟩ | ⟨a, first, second, rfl, h, hf⟩⟩
      · exact .inl ⟨c, rfl, rest, rfl, h⟩
      · exact .inr ⟨a, .noted e :: first, second, rfl, ⟨first, rfl, h⟩, hf⟩
    · rintro (⟨c, rfl, rest, rfl, h⟩ | ⟨a, _, second, rfl, ⟨first, rfl, h⟩, hf⟩)
      · exact ⟨rest, rfl, .inl ⟨c, rfl, h⟩⟩
      · exact ⟨first ++ second, rfl, .inr ⟨a, first, second, rfl, h, hf⟩⟩
  | crash c =>
    simp only [andThen, Runs]
    constructor
    · rintro ⟨rfl, rfl⟩; exact .inl ⟨c, rfl, rfl, rfl⟩
    · rintro (⟨d, rfl, rfl, h⟩ | ⟨a, first, second, rfl, ⟨rfl, h⟩, _⟩)
      · cases h; exact ⟨rfl, rfl⟩
      · cases h

end Routine

/-! ## Handlers -/

inductive Reaction (α : Type) where
  | answered (answer : Except CallError α)
  | crashed (c : Crash)
  | cancelled

/-- Answers calls and takes events, from a state. -/
structure Handler (σ : Type) where
  answer : (q : Request) → σ → Reaction q.Reply × σ
  note : Event → σ → σ

def Routine.runWith {σ α : Type} (h : Handler σ) : Routine α → σ → Ending α × σ
  | .done a, s => (.done a, s)
  | .ask q next, s =>
    match h.answer q s with
    | (.answered r, s) => (next r).runWith h s
    | (.crashed c, s) => (.crashed c, s)
    | (.cancelled, s) => (.cancelled, s)
  | .noteThen e next, s => next.runWith h (h.note e s)
  | .crash c, s => (.crashed c, s)

end StakeKeeper
