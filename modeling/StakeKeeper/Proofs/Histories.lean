import StakeKeeper.Routine

/-!
Histories of routines that may fail and of routines that keep a state, opened one step at a time.
Main statements: `FailingRoutine.runs_bind_iff` and `StatefulRoutine.runs_bind_iff` (a history of two
routines in a row), `Routine.Runs.done_unique` (where a finished routine's part of a history ends is
known from the history) and `Routine.Runs.determined` (a run is known from the answers it is given).
-/
namespace StakeKeeper
set_option autoImplicit false

/-! ## Routines -/

/-- Whether two histories are answered alike: a call that both make after the same steps has the same
answer in both. -/
def Alike (first second : List Step) : Prop :=
  ∀ past q answer answer' rest rest', first = past ++ .asked q answer :: rest →
    second = past ++ .asked q answer' :: rest' → answer = answer'

theorem Alike.refl (history : List Step) : Alike history history := by
  rintro past q answer answer' rest rest' rfl h
  cases List.append_cancel_left h
  rfl

theorem Alike.tail {step : Step} {first second : List Step}
    (alike : Alike (step :: first) (step :: second)) : Alike first second := by
  intro past q answer answer' rest rest' hfirst hsecond
  exact alike (step :: past) q answer answer' rest rest' (congrArg (step :: ·) hfirst)
    (congrArg (step :: ·) hsecond)

namespace Routine
variable {α β : Type} {history : List Step}

/-- No run that is done is a proper part of another one: where the first of two routines in a row
stopped is known from the history. -/
theorem Runs.done_unique {m : Routine α} {first second first' second' : List Step} {a a' : α}
    (h : m.Runs first (.done a)) (h' : m.Runs first' (.done a'))
    (same : first ++ second = first' ++ second') :
    first = first' ∧ a = a' ∧ second = second' := by
  induction m generalizing first first' with
  | done b =>
    obtain ⟨rfl, ha⟩ := h
    obtain ⟨rfl, ha'⟩ := h'
    cases ha
    cases ha'
    exact ⟨rfl, rfl, same⟩
  | ask q next ih =>
    obtain ⟨answer, rest, rfl, h⟩ := h
    obtain ⟨answer', rest', rfl, h'⟩ := h'
    simp only [List.cons_append, List.cons.injEq, Step.asked.injEq, heq_eq_eq, true_and] at same
    obtain ⟨rfl, same⟩ := same
    obtain ⟨rfl, ha, hs⟩ := ih answer h h' same
    exact ⟨rfl, ha, hs⟩
  | noteThen e next ih =>
    obtain ⟨rest, rfl, h⟩ := h
    obtain ⟨rest', rfl, h'⟩ := h'
    obtain ⟨rfl, ha, hs⟩ := ih h h' (List.cons.inj same).2
    exact ⟨rfl, ha, hs⟩
  | crash c =>
    obtain ⟨_, h⟩ := h
    cases h

/-- Runs of one routine that are answered alike are the same run. -/
theorem Runs.determined {m : Routine α} {first second : List Step} {ending ending' : Ending α}
    (h : m.Runs first ending) (h' : m.Runs second ending') (alike : Alike first second) :
    first = second ∧ ending = ending' := by
  induction m generalizing first second with
  | done a =>
    obtain ⟨rfl, rfl⟩ := h
    obtain ⟨rfl, rfl⟩ := h'
    exact ⟨rfl, rfl⟩
  | ask q next ih =>
    obtain ⟨answer, rest, rfl, h⟩ := h
    obtain ⟨answer', rest', rfl, h'⟩ := h'
    obtain rfl := alike [] q answer answer' rest rest' rfl rfl
    obtain ⟨rfl, rfl⟩ := ih answer h h' alike.tail
    exact ⟨rfl, rfl⟩
  | noteThen e next ih =>
    obtain ⟨rest, rfl, h⟩ := h
    obtain ⟨rest', rfl, h'⟩ := h'
    obtain ⟨rfl, rfl⟩ := ih h h' alike.tail
    exact ⟨rfl, rfl⟩
  | crash c =>
    obtain ⟨rfl, rfl⟩ := h
    obtain ⟨rfl, rfl⟩ := h'
    exact ⟨rfl, rfl⟩

theorem runs_bind_pure_iff {m : Routine α} {f : α → β} {ending : Ending β} :
    (m >>= fun a => pure (f a)).Runs history ending ↔
      (∃ c, ending = .crashed c ∧ m.Runs history (.crashed c)) ∨
        ∃ a, ending = .done (f a) ∧ m.Runs history (.done a) := by
  refine Runs.bind_iff.trans (or_congr_right ?_)
  constructor
  · rintro ⟨a, first, second, rfl, h, rfl, rfl⟩
    exact ⟨a, rfl, by rwa [List.append_nil]⟩
  · rintro ⟨a, rfl, h⟩
    exact ⟨a, history, [], (List.append_nil _).symm, h, rfl, rfl⟩

theorem runs_noteAll_bind_iff {events : List Event} {f : Unit → Routine β} {ending : Ending β} :
    (noteAll events >>= f).Runs history ending ↔
      ∃ rest, history = events.map .noted ++ rest ∧ (f ()).Runs rest ending := by
  induction events generalizing history with
  | nil => exact ⟨fun h => ⟨history, rfl, h⟩, fun ⟨_, hr, h⟩ => hr ▸ h⟩
  | cons e events ih =>
    constructor
    · rintro ⟨more, rfl, h⟩
      obtain ⟨rest, rfl, hf⟩ := ih.1 h
      exact ⟨rest, rfl, hf⟩
    · rintro ⟨rest, rfl, h⟩
      exact ⟨_, rfl, ih.2 ⟨rest, rfl, h⟩⟩

theorem runs_orCrash_bind_iff {c : Crash} {r : Option α} {f : α → Routine β} {ending : Ending β} :
    (orCrash c r >>= f).Runs history ending ↔
      (∃ a, r = some a ∧ (f a).Runs history ending) ∨
        r = none ∧ history = [] ∧ ending = .crashed c := by
  cases r with
  | none =>
    constructor
    · exact fun h => .inr ⟨rfl, h⟩
    · rintro (⟨a, h, _⟩ | ⟨_, h⟩)
      · cases h
      · exact h
  | some a =>
    constructor
    · exact fun h => .inl ⟨a, rfl, h⟩
    · rintro (⟨_, h, hf⟩ | ⟨h, _⟩) <;> cases h
      exact hf

end Routine

/-! ## Routines that may fail -/

namespace FailingRoutine
variable {ε α β : Type} {history : List Step}

/-- Whether a routine that may fail has a history and an ending. -/
def Runs (m : FailingRoutine ε α) (history : List Step) (ending : Ending (Except ε α)) : Prop :=
  Routine.Runs m.run history ending

theorem runs_note_iff {e : Event} {ending : Ending (Except ε Unit)} :
    (note e : FailingRoutine ε Unit).Runs history ending ↔
      history = [.noted e] ∧ ending = .done (.ok ()) := by
  constructor
  · rintro ⟨rest, rfl, rfl, rfl⟩
    exact ⟨rfl, rfl⟩
  · rintro ⟨rfl, rfl⟩
    exact ⟨[], rfl, rfl, rfl⟩

theorem runs_adapt_iff {δ : Type} {f : δ → ε} {m : FailingRoutine δ α}
    {ending : Ending (Except ε α)} :
    FailingRoutine.Runs (m.adapt f) history ending ↔
      (∃ c, ending = .crashed c ∧ m.Runs history (.crashed c)) ∨
        ∃ r, ending = .done (r.mapError f) ∧ m.Runs history (.done r) :=
  Routine.runs_bind_pure_iff

/-! ### Two in a row -/

theorem runs_bind_iff {m : FailingRoutine ε α} {f : α → FailingRoutine ε β}
    {ending : Ending (Except ε β)} :
    (m >>= f).Runs history ending ↔
      (∃ c, ending = .crashed c ∧ m.Runs history (.crashed c)) ∨
        (∃ e, ending = .done (.error e) ∧ m.Runs history (.done (.error e))) ∨
          ∃ a first second, history = first ++ second ∧ m.Runs first (.done (.ok a)) ∧
            (f a).Runs second ending := by
  unfold Runs
  rw [ExceptT.run_bind, Routine.Runs.bind_iff]
  constructor
  · rintro (⟨c, hc, h⟩ | ⟨r, first, second, rfl, h, hf⟩)
    · exact .inl ⟨c, hc, h⟩
    · cases r with
      | error e =>
        obtain ⟨rfl, rfl⟩ := hf
        exact .inr (.inl ⟨e, rfl, by rwa [List.append_nil]⟩)
      | ok a => exact .inr (.inr ⟨a, first, second, rfl, h, hf⟩)
  · rintro (⟨c, hc, h⟩ | ⟨e, rfl, h⟩ | ⟨a, first, second, rfl, h, hf⟩)
    · exact .inl ⟨c, hc, h⟩
    · exact .inr ⟨.error e, history, [], (List.append_nil _).symm, h, rfl, rfl⟩
    · exact .inr ⟨.ok a, first, second, rfl, h, hf⟩

theorem Runs.bind {m : FailingRoutine ε α} {f : α → FailingRoutine ε β} {first second : List Step}
    {a : α} {ending : Ending (Except ε β)} (h : m.Runs first (.done (.ok a)))
    (hf : (f a).Runs second ending) : (m >>= f).Runs (first ++ second) ending :=
  runs_bind_iff.2 (.inr (.inr ⟨a, first, second, rfl, h, hf⟩))

theorem Runs.bind_pure {m : FailingRoutine ε α} {a : α} (h : m.Runs history (.done (.ok a)))
    (f : α → β) : (m >>= fun a => pure (f a)).Runs history (.done (.ok (f a))) :=
  runs_bind_iff.2 (.inr (.inr ⟨a, history, [], (List.append_nil _).symm, h, rfl, rfl⟩))

theorem runs_attempt_bind_iff {q : Request}
    {f : Except CallError q.Reply → FailingRoutine ε β} {ending : Ending (Except ε β)} :
    (ofRoutine (.attempt q) >>= f).Runs history ending ↔
      ∃ answer rest, history = .asked q answer :: rest ∧ (f answer).Runs rest ending := Iff.rfl

theorem runs_ofExcept_bind_iff {r : Except ε α} {f : α → FailingRoutine ε β}
    {ending : Ending (Except ε β)} :
    (ofExcept r >>= f).Runs history ending ↔
      (∃ a, r = .ok a ∧ (f a).Runs history ending) ∨
        ∃ e, r = .error e ∧ history = [] ∧ ending = .done (.error e) := by
  cases r with
  | error e =>
    constructor
    · exact fun h => .inr ⟨e, rfl, h⟩
    · rintro (⟨a, h, _⟩ | ⟨_, h, hs⟩) <;> cases h
      exact hs
  | ok a =>
    constructor
    · exact fun h => .inl ⟨a, rfl, h⟩
    · rintro (⟨_, h, hf⟩ | ⟨e, h, _⟩) <;> cases h
      exact hf

theorem runs_call_bind_iff [OfCallError ε] {q : Request} {f : q.Reply → FailingRoutine ε β}
    {ending : Ending (Except ε β)} :
    (call q >>= f).Runs history ending ↔
      (∃ e, history = [.asked q (.error e)] ∧ ending = .done (.error (ofCallError e))) ∨
        ∃ a rest, history = .asked q (.ok a) :: rest ∧ (f a).Runs rest ending := by
  constructor
  · rintro ⟨answer, rest, rfl, h⟩
    cases answer with
    | error e =>
      obtain ⟨rfl, rfl⟩ := h
      exact .inl ⟨e, rfl, rfl⟩
    | ok a => exact .inr ⟨a, rest, rfl, h⟩
  · rintro (⟨e, rfl, rfl⟩ | ⟨a, rest, rfl, h⟩)
    · exact ⟨.error e, [], rfl, rfl, rfl⟩
    · exact ⟨.ok a, rest, rfl, h⟩

theorem runs_note_bind_iff {e : Event} {f : Unit → FailingRoutine ε β}
    {ending : Ending (Except ε β)} :
    (note e >>= f).Runs history ending ↔
      ∃ rest, history = .noted e :: rest ∧ (f ()).Runs rest ending := Iff.rfl

theorem ofRoutine_bind_run (m : Routine α) (f : α → FailingRoutine ε β) :
    (ofRoutine m >>= f).run = m >>= fun a => (f a).run := ExceptT.run_bind_lift m f

theorem runs_noteAll_bind_iff {events : List Event} {f : Unit → FailingRoutine ε β}
    {ending : Ending (Except ε β)} :
    (ofRoutine (.noteAll events) >>= f).Runs history ending ↔
      ∃ rest, history = events.map .noted ++ rest ∧ (f ()).Runs rest ending := by
  rw [Runs, ofRoutine_bind_run]
  exact Routine.runs_noteAll_bind_iff

theorem runs_orCrash_bind_iff {c : Crash} {r : Option α} {f : α → FailingRoutine ε β}
    {ending : Ending (Except ε β)} :
    (ofRoutine (.orCrash c r) >>= f).Runs history ending ↔
      (∃ a, r = some a ∧ (f a).Runs history ending) ∨
        r = none ∧ history = [] ∧ ending = .crashed c := by
  rw [Runs, ofRoutine_bind_run]
  exact Routine.runs_orCrash_bind_iff

end FailingRoutine

/-! ## Routines that keep a state -/

namespace StatefulRoutine
variable {σ ε α β : Type} {s : σ} {history : List Step}

/-- Whether a routine that keeps a state has a history from a state, and an ending. -/
def Runs (m : StatefulRoutine σ ε α) (s : σ) (history : List Step)
    (ending : Ending (Except ε α × σ)) : Prop :=
  Routine.Runs (m.run.run s) history ending

theorem runs_pure_iff {a : α} {ending : Ending (Except ε α × σ)} :
    (pure a : StatefulRoutine σ ε α).Runs s history ending ↔
      history = [] ∧ ending = .done (.ok a, s) := Iff.rfl

theorem runs_throw_iff {e : ε} {ending : Ending (Except ε α × σ)} :
    (throw e : StatefulRoutine σ ε α).Runs s history ending ↔
      history = [] ∧ ending = .done (.error e, s) := Iff.rfl

theorem runs_modify_iff {f : σ → σ} {ending : Ending (Except ε Unit × σ)} :
    (modify f : StatefulRoutine σ ε Unit).Runs s history ending ↔
      history = [] ∧ ending = .done (.ok (), f s) := Iff.rfl

theorem runs_note_iff {e : Event} {ending : Ending (Except ε Unit × σ)} :
    (note e : StatefulRoutine σ ε Unit).Runs s history ending ↔
      history = [.noted e] ∧ ending = .done (.ok (), s) := by
  constructor
  · rintro ⟨rest, rfl, rfl, rfl⟩
    exact ⟨rfl, rfl⟩
  · rintro ⟨rfl, rfl⟩
    exact ⟨[], rfl, rfl, rfl⟩

theorem runs_ofFailing_iff {m : FailingRoutine ε α} {ending : Ending (Except ε α × σ)} :
    (ofFailing m : StatefulRoutine σ ε α).Runs s history ending ↔
      (∃ c, ending = .crashed c ∧ m.Runs history (.crashed c)) ∨
        ∃ r, ending = .done (r, s) ∧ m.Runs history (.done r) :=
  Routine.runs_bind_pure_iff

theorem runs_noteAll_iff {events : List Event} {ending : Ending (Except ε Unit × σ)} :
    (ofRoutine (.noteAll events) : StatefulRoutine σ ε Unit).Runs s history ending ↔
      history = events.map .noted ∧ ending = .done (.ok (), s) := by
  induction events generalizing history with
  | nil => exact Iff.rfl
  | cons e events ih =>
    constructor
    · rintro ⟨more, rfl, h⟩
      obtain ⟨rfl, rfl⟩ := ih.1 h
      exact ⟨rfl, rfl⟩
    · rintro ⟨rfl, rfl⟩
      exact ⟨_, rfl, ih.2 ⟨rfl, rfl⟩⟩

/-! ### Two in a row -/

theorem runs_bind_iff {m : StatefulRoutine σ ε α} {f : α → StatefulRoutine σ ε β}
    {ending : Ending (Except ε β × σ)} :
    (m >>= f).Runs s history ending ↔
      (∃ c, ending = .crashed c ∧ m.Runs s history (.crashed c)) ∨
        (∃ e t, ending = .done (.error e, t) ∧ m.Runs s history (.done (.error e, t))) ∨
          ∃ a t first second, history = first ++ second ∧ m.Runs s first (.done (.ok a, t)) ∧
            (f a).Runs t second ending := by
  unfold Runs
  rw [ExceptT.run_bind, StateT.run_bind, Routine.Runs.bind_iff]
  constructor
  · rintro (⟨c, hc, h⟩ | ⟨⟨r, t⟩, first, second, rfl, h, hf⟩)
    · exact .inl ⟨c, hc, h⟩
    · cases r with
      | error e =>
        obtain ⟨rfl, rfl⟩ := hf
        exact .inr (.inl ⟨e, t, rfl, by rwa [List.append_nil]⟩)
      | ok a => exact .inr (.inr ⟨a, t, first, second, rfl, h, hf⟩)
  · rintro (⟨c, hc, h⟩ | ⟨e, t, rfl, h⟩ | ⟨a, t, first, second, rfl, h, hf⟩)
    · exact .inl ⟨c, hc, h⟩
    · exact .inr ⟨(.error e, t), history, [], (List.append_nil _).symm, h, rfl, rfl⟩
    · exact .inr ⟨(.ok a, t), first, second, rfl, h, hf⟩

theorem Runs.bind {m : StatefulRoutine σ ε α} {f : α → StatefulRoutine σ ε β}
    {first second : List Step} {a : α} {t : σ} {ending : Ending (Except ε β × σ)}
    (h : m.Runs s first (.done (.ok a, t))) (hf : (f a).Runs t second ending) :
    (m >>= f).Runs s (first ++ second) ending :=
  runs_bind_iff.2 (.inr (.inr ⟨a, t, first, second, rfl, h, hf⟩))

theorem runs_ofFailing_bind_iff {m : FailingRoutine ε α} {f : α → StatefulRoutine σ ε β}
    {ending : Ending (Except ε β × σ)} :
    (ofFailing m >>= f).Runs s history ending ↔
      (∃ c, ending = .crashed c ∧ m.Runs history (.crashed c)) ∨
        (∃ e, ending = .done (.error e, s) ∧ m.Runs history (.done (.error e))) ∨
          ∃ a first second, history = first ++ second ∧ m.Runs first (.done (.ok a)) ∧
            (f a).Runs s second ending := by
  rw [runs_bind_iff]
  constructor
  · rintro (⟨c, rfl, ran⟩ | ⟨e, t, rfl, ran⟩ | ⟨a, t, first, second, rfl, ran, hf⟩)
    · obtain ⟨_, hc, h⟩ | ⟨_, hr, _⟩ := runs_ofFailing_iff.1 ran
      · cases hc
        exact .inl ⟨c, rfl, h⟩
      · cases hr
    · obtain ⟨_, hc, _⟩ | ⟨_, hr, h⟩ := runs_ofFailing_iff.1 ran
      · cases hc
      · cases hr
        exact .inr (.inl ⟨e, rfl, h⟩)
    · obtain ⟨_, hc, _⟩ | ⟨_, hr, h⟩ := runs_ofFailing_iff.1 ran
      · cases hc
      · cases hr
        exact .inr (.inr ⟨a, first, second, rfl, h, hf⟩)
  · rintro (⟨c, rfl, h⟩ | ⟨e, rfl, h⟩ | ⟨a, first, second, rfl, h, hf⟩)
    · exact .inl ⟨c, rfl, runs_ofFailing_iff.2 (.inl ⟨c, rfl, h⟩)⟩
    · exact .inr (.inl ⟨e, s, rfl, runs_ofFailing_iff.2 (.inr ⟨_, rfl, h⟩)⟩)
    · exact .inr (.inr ⟨a, s, first, second, rfl, runs_ofFailing_iff.2 (.inr ⟨_, rfl, h⟩), hf⟩)

theorem ofRoutine_bind_run (m : Routine α) (f : α → StatefulRoutine σ ε β) (s : σ) :
    (ofRoutine m >>= f).run.run s = m >>= fun a => (f a).run.run s := by
  show (((m >>= fun a => pure (Except.ok a)) >>= fun r => pure (r, s)) >>= _) = _
  rw [bind_assoc, bind_assoc]
  rfl

theorem runs_ofRoutine_bind_iff {m : Routine α} {f : α → StatefulRoutine σ ε β}
    {ending : Ending (Except ε β × σ)} :
    (ofRoutine m >>= f).Runs s history ending ↔
      (∃ c, ending = .crashed c ∧ m.Runs history (.crashed c)) ∨
        ∃ a first second, history = first ++ second ∧ m.Runs first (.done a) ∧
          (f a).Runs s second ending := by
  rw [Runs, ofRoutine_bind_run]
  exact Routine.Runs.bind_iff

theorem runs_get_bind_iff {f : σ → StatefulRoutine σ ε β} {ending : Ending (Except ε β × σ)} :
    (get >>= f).Runs s history ending ↔ (f s).Runs s history ending := Iff.rfl

theorem runs_modify_bind_iff {g : σ → σ} {f : Unit → StatefulRoutine σ ε β}
    {ending : Ending (Except ε β × σ)} :
    (modify g >>= f).Runs s history ending ↔ (f ()).Runs (g s) history ending := Iff.rfl

theorem runs_attempt_bind_iff {q : Request}
    {f : Except CallError q.Reply → StatefulRoutine σ ε β} {ending : Ending (Except ε β × σ)} :
    (ofRoutine (.attempt q) >>= f).Runs s history ending ↔
      ∃ answer rest, history = .asked q answer :: rest ∧ (f answer).Runs s rest ending := Iff.rfl

theorem runs_call_bind_iff [OfCallError ε] {q : Request} {f : q.Reply → StatefulRoutine σ ε β}
    {ending : Ending (Except ε β × σ)} :
    (call q >>= f).Runs s history ending ↔
      (∃ e, history = [.asked q (.error e)] ∧ ending = .done (.error (ofCallError e), s)) ∨
        ∃ a rest, history = .asked q (.ok a) :: rest ∧ (f a).Runs s rest ending := by
  constructor
  · rintro ⟨answer, rest, rfl, h⟩
    cases answer with
    | error e =>
      obtain ⟨rfl, rfl⟩ := h
      exact .inl ⟨e, rfl, rfl⟩
    | ok a => exact .inr ⟨a, rest, rfl, h⟩
  · rintro (⟨e, rfl, rfl⟩ | ⟨a, rest, rfl, h⟩)
    · exact ⟨.error e, [], rfl, rfl, rfl⟩
    · exact ⟨.ok a, rest, rfl, h⟩

theorem runs_note_bind_iff {e : Event} {f : Unit → StatefulRoutine σ ε β}
    {ending : Ending (Except ε β × σ)} :
    (note e >>= f).Runs s history ending ↔
      ∃ rest, history = .noted e :: rest ∧ (f ()).Runs s rest ending := Iff.rfl

theorem runs_noteAll_bind_iff {events : List Event} {f : Unit → StatefulRoutine σ ε β}
    {ending : Ending (Except ε β × σ)} :
    (ofRoutine (.noteAll events) >>= f).Runs s history ending ↔
      ∃ rest, history = events.map .noted ++ rest ∧ (f ()).Runs s rest ending := by
  rw [Runs, ofRoutine_bind_run]
  exact Routine.runs_noteAll_bind_iff

theorem runs_orCrash_bind_iff {c : Crash} {r : Option α} {f : α → StatefulRoutine σ ε β}
    {ending : Ending (Except ε β × σ)} :
    (ofRoutine (.orCrash c r) >>= f).Runs s history ending ↔
      (∃ a, r = some a ∧ (f a).Runs s history ending) ∨
        r = none ∧ history = [] ∧ ending = .crashed c := by
  rw [Runs, ofRoutine_bind_run]
  exact Routine.runs_orCrash_bind_iff

/-! ### Several runs -/

/-- Runs one after another, each on an input of its own and from the state that the one before left,
until one crashes. -/
inductive Lives {ι : Type} (run : ι → StatefulRoutine σ ε Unit) (start : σ) :
    List Step → Ending σ → Prop
  | start : Lives run start [] (.done start)
  | ran {history more : List Step} {s t : σ} {i : ι} {result : Except ε Unit} :
      Lives run start history (.done s) → (run i).Runs s more (.done (result, t)) →
        Lives run start (history ++ more) (.done t)
  | crashed {history more : List Step} {s : σ} {i : ι} {c : Crash} :
      Lives run start history (.done s) → (run i).Runs s more (.crashed c) →
        Lives run start (history ++ more) (.crashed c)

end StatefulRoutine

end StakeKeeper
