import Mathlib.Data.List.Forall2
import StakeKeeper.Proofs.Questions

/-!
Two routines that do the same as each other while they are given answers that mean the same. A
likeness says which answers those are, and which events are not compared. Main statements:
`Routine.Mirrors.bind` and `StatefulRoutine.Mirrors.bind` (one mirrored routine after another) and
`Routine.Mirrors.runs` (in their histories the same calls are made and the same events noted, in the
same order, and they end alike).
-/
namespace StakeKeeper
set_option autoImplicit false

/-- Up to what two histories are compared. -/
structure Likeness where
  /-- Whether two answers to a call mean the same. -/
  values : (q : Request) → q.Reply → q.Reply → Prop
  /-- Whether an event is left out. -/
  quiet : Event → Bool

namespace Likeness

/-- Whether two outcomes of a call mean the same; a failure is like itself only. -/
inductive Answers (L : Likeness) {q : Request} :
    Except CallError q.Reply → Except CallError q.Reply → Prop where
  | ok {a a' : q.Reply} (h : L.values q a a') : L.Answers (.ok a) (.ok a')
  | error (e : CallError) : L.Answers (.error e) (.error e)

/-- Whether a call has answers that mean the same only if they are the same. -/
def Plain (L : Likeness) (q : Request) : Prop := ∀ a a', L.values q a a' → a = a'

/-- Whether two steps are the same call, answered alike, or the same event. -/
inductive Steps (L : Likeness) : Step → Step → Prop where
  | asked (q : Request) {answer answer' : Except CallError q.Reply} (h : L.Answers answer answer') :
    L.Steps (.asked q answer) (.asked q answer')
  | noted (e : Event) : L.Steps (.noted e) (.noted e)

def isLoud (L : Likeness) : Step → Bool
  | .asked _ _ => true
  | .noted e => !L.quiet e

def loud (L : Likeness) (history : List Step) : List Step := history.filter L.isLoud

/-- Whether two histories are answered alike: the same call after the same calls, answered alike,
has answers that mean the same. -/
def AnsweredAlike (L : Likeness) (first second : List Step) : Prop :=
  ∀ past past' q answer answer' rest rest', first = past ++ .asked q answer :: rest →
    second = past' ++ .asked q answer' :: rest' → List.Forall₂ L.Steps (calls past) (calls past') →
      L.Answers answer answer'

variable {L : Likeness}

theorem Steps.refl (h : ∀ q a, L.values q a a) : (step : Step) → L.Steps step step
  | .asked q (.ok a) => .asked q (.ok (h q a))
  | .asked q (.error e) => .asked q (.error e)
  | .noted e => .noted e

theorem filterMap_eq {α : Type} {f : Step → Option α} (same : ∀ s s', L.Steps s s' → f s = f s')
    (left_out : ∀ e, L.quiet e = true → f (.noted e) = none) {first second : List Step}
    (h : List.Forall₂ L.Steps (L.loud first) (L.loud second)) :
    first.filterMap f = second.filterMap f := by
  have hquiet (step : Step) (hs : L.isLoud step = false) : f step = none := by
    cases step with
    | asked q answer => cases hs
    | noted e => exact left_out e ((Bool.not_eq_false' _).mp hs)
  rw [← filterMap_filter_of_imp hquiet first, ← filterMap_filter_of_imp hquiet second]
  unfold loud at h
  generalize first.filter L.isLoud = steps, second.filter L.isLoud = steps' at h
  induction h with
  | nil => rfl
  | cons hs _ ih => rw [List.filterMap_cons, List.filterMap_cons, same _ _ hs, ih]

theorem Answers.eq {q : Request} (plain : L.Plain q) {answer answer' : Except CallError q.Reply}
    (h : L.Answers answer answer') : answer = answer' := by
  cases h with
  | ok h => rw [plain _ _ h]
  | error e => rfl

/-! ## Answered alike -/

section
variable {first second : List Step}

theorem AnsweredAlike.of_noted_left {e : Event}
    (alike : L.AnsweredAlike (.noted e :: first) second) : L.AnsweredAlike first second :=
  fun past past' q answer answer' rest rest' hfirst hsecond =>
    alike (.noted e :: past) past' q answer answer' rest rest' (congrArg _ hfirst) hsecond

theorem AnsweredAlike.of_noted_right {e : Event}
    (alike : L.AnsweredAlike first (.noted e :: second)) : L.AnsweredAlike first second :=
  fun past past' q answer answer' rest rest' hfirst hsecond =>
    alike past (.noted e :: past') q answer answer' rest rest' hfirst (congrArg _ hsecond)

theorem AnsweredAlike.of_asked {q : Request} {answer answer' : Except CallError q.Reply}
    (alike : L.AnsweredAlike (.asked q answer :: first) (.asked q answer' :: second)) :
    L.Answers answer answer' ∧ L.AnsweredAlike first second := by
  have h : L.Answers answer answer' := alike [] [] q answer answer' first second rfl rfl .nil
  refine ⟨h, fun past past' r reply reply' rest rest' hfirst hsecond same => ?_⟩
  exact alike (.asked q answer :: past) (.asked q answer' :: past') r reply reply' rest rest'
    (congrArg _ hfirst) (congrArg _ hsecond) (.cons (.asked q h) same)

/-- Histories are answered alike if their calls are, one by one. -/
theorem answeredAlike_of_calls (h : List.Forall₂ L.Steps (calls first) (calls second)) :
    L.AnsweredAlike first second := by
  rintro past past' q answer answer' rest rest' rfl rfl same
  rw [calls_append, calls_append, calls_asked, calls_asked] at h
  have hrest := List.forall₂_drop_append _ _ _ h
  rw [← same.length_eq, List.drop_left] at hrest
  obtain ⟨hstep, _⟩ := List.forall₂_cons.1 hrest
  cases hstep with
  | asked _ h => exact h

end

end Likeness

/-- Whether two routines end alike, with results that are related. -/
inductive Ending.Agree {α β : Type} (rel : α → β → Prop) : Ending α → Ending β → Prop where
  | done {a : α} {b : β} (h : rel a b) : Agree rel (.done a) (.done b)
  | crashed (c : Crash) : Agree rel (.crashed c) (.crashed c)

/-! ## Routines -/

namespace Routine
variable {L : Likeness} {α β γ δ : Type} {rel : α → β → Prop}

/-- Whether two routines make the same calls and note the same events, but for quiet ones, as long
as they are answered alike, with results that are related. -/
inductive Mirrors (L : Likeness) (rel : α → β → Prop) : Routine α → Routine β → Prop where
  | done {a : α} {b : β} (h : rel a b) : Mirrors L rel (.done a) (.done b)
  | ask (q : Request) {next : Except CallError q.Reply → Routine α}
    {next' : Except CallError q.Reply → Routine β}
    (h : ∀ answer answer', L.Answers answer answer' → Mirrors L rel (next answer) (next' answer')) :
    Mirrors L rel (.ask q next) (.ask q next')
  | note (e : Event) {m : Routine α} {m' : Routine β} (h : Mirrors L rel m m') :
    Mirrors L rel (.noteThen e m) (.noteThen e m')
  | quiet_left {e : Event} (he : L.quiet e = true) {m : Routine α} {m' : Routine β}
    (h : Mirrors L rel m m') : Mirrors L rel (.noteThen e m) m'
  | quiet_right {e : Event} (he : L.quiet e = true) {m : Routine α} {m' : Routine β}
    (h : Mirrors L rel m m') : Mirrors L rel m (.noteThen e m')
  | crash (c : Crash) : Mirrors L rel (.crash c) (.crash c)

theorem Mirrors.bind {m : Routine α} {m' : Routine β} {f : α → Routine γ} {f' : β → Routine δ}
    {last : γ → δ → Prop} (h : Mirrors L rel m m')
    (hf : ∀ a b, rel a b → Mirrors L last (f a) (f' b)) :
    Mirrors L last (m >>= f) (m' >>= f') := by
  induction h with
  | done h => exact hf _ _ h
  | ask q h ih => exact .ask q ih
  | note e h ih => exact .note e ih
  | quiet_left he h ih => exact .quiet_left he ih
  | quiet_right he h ih => exact .quiet_right he ih
  | crash c => exact .crash c

/-- A routine whose calls are plain mirrors itself. -/
theorem mirrors_self {m : Routine α} {post : α → Prop} (h : m.Meets L.Plain post) :
    Mirrors L Eq m m := by
  induction m with
  | done a => exact .done rfl
  | ask q next ih =>
    refine .ask q fun answer answer' same => ?_
    obtain rfl := same.eq h.1
    exact ih answer (h.2 answer)
  | noteThen e next ih => exact .note e (ih h)
  | crash c => exact .crash c

/-- Whether a routine only notes quiet events on the way to a result. -/
inductive Hushed (L : Likeness) (a : α) : Routine α → Prop where
  | done : Hushed L a (.done a)
  | note {e : Event} (he : L.quiet e = true) {m : Routine α} (h : Hushed L a m) :
    Hushed L a (.noteThen e m)

theorem Hushed.mirrors {m : Routine α} {m' : Routine β} {a : α} {b : β} (h : Hushed L a m)
    (h' : Hushed L b m') (hab : rel a b) : Mirrors L rel m m' := by
  induction h with
  | note he h ih => exact .quiet_left he ih
  | done =>
    induction h' with
    | note he h ih => exact .quiet_right he ih
    | done => exact .done hab

/-- Histories of routines that mirror each other, when they are answered alike. -/
theorem Mirrors.runs {m : Routine α} {m' : Routine β} (h : Mirrors L rel m m')
    {first second : List Step} {ending : Ending α} {ending' : Ending β} (ran : m.Runs first ending)
    (ran' : m'.Runs second ending') (alike : L.AnsweredAlike first second) :
    List.Forall₂ L.Steps (L.loud first) (L.loud second) ∧ ending.Agree rel ending' := by
  induction h generalizing first second with
  | done h =>
    obtain ⟨rfl, rfl⟩ := ran
    obtain ⟨rfl, rfl⟩ := ran'
    exact ⟨.nil, .done h⟩
  | ask q h ih =>
    obtain ⟨answer, rest, rfl, ran⟩ := ran
    obtain ⟨answer', rest', rfl, ran'⟩ := ran'
    obtain ⟨same, later⟩ := alike.of_asked
    obtain ⟨steps, ends⟩ := ih answer answer' same ran ran' later
    exact ⟨.cons (.asked q same) steps, ends⟩
  | note e h ih =>
    obtain ⟨rest, rfl, ran⟩ := ran
    obtain ⟨rest', rfl, ran'⟩ := ran'
    obtain ⟨steps, ends⟩ := ih ran ran' alike.of_noted_left.of_noted_right
    refine ⟨?_, ends⟩
    unfold Likeness.loud at steps ⊢
    rw [List.filter_cons, List.filter_cons]
    split
    · exact .cons (.noted e) steps
    · exact steps
  -- An event of one side only is quiet, so that it is no step that is compared.
  | quiet_left he h ih =>
    obtain ⟨rest, rfl, ran⟩ := ran
    obtain ⟨steps, ends⟩ := ih ran ran' alike.of_noted_left
    refine ⟨?_, ends⟩
    rw [Likeness.loud, List.filter_cons_of_neg (by simp [Likeness.isLoud, he])]
    exact steps
  | quiet_right he h ih =>
    obtain ⟨rest, rfl, ran'⟩ := ran'
    obtain ⟨steps, ends⟩ := ih ran ran' alike.of_noted_right
    refine ⟨?_, ends⟩
    rw [Likeness.loud, Likeness.loud, List.filter_cons_of_neg (by simp [Likeness.isLoud, he])]
    exact steps
  | crash c =>
    obtain ⟨rfl, rfl⟩ := ran
    obtain ⟨rfl, rfl⟩ := ran'
    exact ⟨.nil, .crashed c⟩

end Routine

/-! ## Routines that keep a state -/

namespace StatefulRoutine
variable {L : Likeness} {σ ε α β : Type} {related : σ → σ → Prop} {s s' : σ}

/-- Whether two routines from two states mirror each other, with the same result and with states
that are related again. -/
def Mirrors (L : Likeness) (related : σ → σ → Prop) (m m' : StatefulRoutine σ ε α) (s s' : σ) :
    Prop :=
  Routine.Mirrors L (fun p p' => p.1 = p'.1 ∧ related p.2 p'.2) (m.run.run s) (m'.run.run s')

theorem Mirrors.bind {m m' : StatefulRoutine σ ε α} {f f' : α → StatefulRoutine σ ε β}
    (h : Mirrors L related m m' s s')
    (hf : ∀ a t t', related t t' → Mirrors L related (f a) (f' a) t t') :
    Mirrors L related (m >>= f) (m' >>= f') s s' := by
  unfold Mirrors
  rw [ExceptT.run_bind, StateT.run_bind, ExceptT.run_bind, StateT.run_bind]
  refine Routine.Mirrors.bind h ?_
  rintro ⟨r, t⟩ ⟨_, t'⟩ ⟨rfl, ht⟩
  cases r with
  | error e => exact .done ⟨rfl, ht⟩
  | ok a => exact hf a t t' ht

theorem mirrors_pure (a : α) (h : related s s') :
    Mirrors L related (pure a : StatefulRoutine σ ε α) (pure a) s s' := .done ⟨rfl, h⟩

theorem mirrors_throw (e : ε) (h : related s s') :
    Mirrors L related (throw e : StatefulRoutine σ ε α) (throw e) s s' := .done ⟨rfl, h⟩

theorem mirrors_note (e : Event) (h : related s s') :
    Mirrors L related (note e : StatefulRoutine σ ε Unit) (note e) s s' := .note e (.done ⟨rfl, h⟩)

theorem mirrors_modify {g g' : σ → σ} (h : related (g s) (g' s')) :
    Mirrors L related (modify g : StatefulRoutine σ ε Unit) (modify g') s s' := .done ⟨rfl, h⟩

theorem mirrors_get_bind {f f' : σ → StatefulRoutine σ ε β}
    (h : Mirrors L related (f s) (f' s') s s') :
    Mirrors L related (get >>= f) (get >>= f') s s' := h

theorem mirrors_attempt_bind {q : Request} {f f' : Except CallError q.Reply → StatefulRoutine σ ε β}
    (h : ∀ answer answer', L.Answers answer answer' →
      Mirrors L related (f answer) (f' answer') s s') :
    Mirrors L related (ofRoutine (.attempt q) >>= f) (ofRoutine (.attempt q) >>= f') s s' :=
  .ask q h

theorem mirrors_call_bind [OfCallError ε] {q : Request} {f f' : q.Reply → StatefulRoutine σ ε β}
    (hs : related s s') (h : ∀ a a', L.values q a a' → Mirrors L related (f a) (f' a') s s') :
    Mirrors L related (call q >>= f) (call q >>= f') s s' := by
  refine .ask q fun answer answer' same => ?_
  cases same with
  | ok same => exact h _ _ same
  | error e => exact .done ⟨rfl, hs⟩

theorem mirrors_ofRoutine {m : Routine α} {post : α → Prop} (h : m.Meets L.Plain post)
    (hs : related s s') :
    Mirrors L related (ofRoutine m : StatefulRoutine σ ε α) (ofRoutine m) s s' := by
  have lifted : Routine.Mirrors L Eq (FailingRoutine.ofRoutine (ε := ε) m).run
      (FailingRoutine.ofRoutine m).run :=
    Routine.Mirrors.bind (Routine.mirrors_self h) fun _ _ hab => .done (congrArg Except.ok hab)
  exact Routine.Mirrors.bind lifted fun _ _ hab => .done ⟨hab, hs⟩

/-- Whether a routine only notes quiet events and goes from a state to another. -/
def Hushed (L : Likeness) (m : StatefulRoutine σ ε Unit) (s t : σ) : Prop :=
  Routine.Hushed L (.ok (), t) (m.run.run s)

theorem hushed_noteAll {events : List Event} (h : ∀ e ∈ events, L.quiet e = true) (s : σ) :
    Hushed L (ofRoutine (.noteAll events) : StatefulRoutine σ ε Unit) s s := by
  induction events with
  | nil => exact .done
  | cons e rest ih =>
    obtain ⟨he, hrest⟩ := List.forall_mem_cons.1 h
    exact .note he (ih hrest)

theorem Hushed.mirrors {m m' : StatefulRoutine σ ε Unit} {t t' : σ} (h : Hushed L m s t)
    (h' : Hushed L m' s' t') (ht : related t t') : Mirrors L related m m' s s' :=
  Routine.Hushed.mirrors h h' ⟨rfl, ht⟩

end StatefulRoutine

end StakeKeeper
