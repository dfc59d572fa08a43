import StakeKeeper.Proofs.Histories

/-!
The calls in a history. Main statements: `Routine.Meets.call` and `Routine.Meets.result` (what holds
of every call and result in a routine's tree holds of those in its histories) and `runs_askEach` (a
loop that asks about each item of a list asks in order and stops at the first answer that is no good).
-/
namespace StakeKeeper
set_option autoImplicit false

/-! ## The calls of a history -/

def Step.isCall : Step → Bool
  | asked _ _ => true
  | noted _ => false

def calls (history : List Step) : List Step := history.filter Step.isCall

@[simp] theorem calls_nil : calls [] = [] := rfl

@[simp] theorem calls_asked (q : Request) (answer : Except CallError q.Reply) (rest : List Step) :
    calls (.asked q answer :: rest) = .asked q answer :: calls rest := rfl

theorem calls_cons {step : Step} (h : step.isCall = true) (rest : List Step) :
    calls (step :: rest) = step :: calls rest := List.filter_cons_of_pos h

@[simp] theorem calls_noted (e : Event) (rest : List Step) :
    calls (.noted e :: rest) = calls rest := rfl

@[simp] theorem calls_append (first second : List Step) :
    calls (first ++ second) = calls first ++ calls second := List.filter_append ..

@[simp] theorem calls_events (events : List Event) : calls (events.map .noted) = [] := by
  induction events with
  | nil => rfl
  | cons e rest ih => exact ih

theorem mem_of_mem_calls {history : List Step} {step : Step} (h : step ∈ calls history) :
    step ∈ history := (List.mem_filter.1 h).1

theorem calls_calls (history : List Step) : calls (calls history) = calls history := by
  rw [calls, calls, List.filter_filter]
  exact List.filter_congr fun step _ => Bool.and_self _

theorem calls_eq_append_cons {history first second : List Step} {step : Step}
    (h : calls history = first ++ step :: second) :
    ∃ before after, history = before ++ step :: after ∧ calls before = first ∧
      calls after = second := by
  obtain ⟨before, rest, rfl, hfirst, hrest⟩ := List.filter_eq_append_iff.1 h
  obtain ⟨events, after, rfl, hevents, _, hafter⟩ := List.filter_eq_cons_iff.1 hrest
  refine ⟨before ++ events, after, (List.append_assoc ..).symm, ?_, hafter⟩
  rw [calls_append, calls, hfirst, calls, List.filter_eq_nil_iff.2 hevents, List.append_nil]

theorem filterMap_filter_of_imp {α β : Type} {f : α → Option β} {keep : α → Bool}
    (h : ∀ a, keep a = false → f a = none) (items : List α) :
    (items.filter keep).filterMap f = items.filterMap f := by
  induction items with
  | nil => rfl
  | cons a rest ih =>
    cases hk : keep a with
    | true => rw [List.filter_cons_of_pos hk, List.filterMap_cons, List.filterMap_cons, ih]
    | false =>
      rw [List.filter_cons_of_neg (Bool.eq_false_iff.1 hk), List.filterMap_cons, h a hk, ih]

/-- A search that no left-out element could answer may skip them. -/
theorem findSome?_filter_of_imp {α β : Type} {f : α → Option β} {keep : α → Bool}
    (h : ∀ a, keep a = false → f a = none) (items : List α) :
    (items.filter keep).findSome? f = items.findSome? f := by
  rw [← List.head?_filterMap, filterMap_filter_of_imp h, List.head?_filterMap]

theorem filterMap_calls {α : Type} {f : Step → Option α} (h : ∀ e, f (.noted e) = none)
    (history : List Step) : (calls history).filterMap f = history.filterMap f := by
  refine filterMap_filter_of_imp (fun step hs => ?_) history
  cases step with
  | asked q answer => cases hs
  | noted e => exact h e

theorem append_eq_append_cons {first second before after : List Step} {step : Step}
    (same : first ++ second = before ++ step :: after) :
    (∃ later, before = first ++ later ∧ second = later ++ step :: after) ∨
      ∃ more, first = before ++ step :: more ∧ after = more ++ second := by
  rcases List.append_eq_append_iff.1 same with ⟨later, hbefore, hsecond⟩ | ⟨more, rfl, hmore⟩
  · exact .inl ⟨later, hbefore, hsecond⟩
  · cases more with
    | nil => exact .inl ⟨[], by rw [List.append_nil, List.append_nil], hmore.symm⟩
    | cons first more =>
      obtain ⟨rfl, rfl⟩ := List.cons.inj hmore
      exact .inr ⟨more, rfl, rfl⟩

/-! ### Calls of one kind -/

def Step.asks (kind : Request → Bool) : Step → Bool
  | asked q _ => kind q
  | noted _ => false

def callsOf (kind : Request → Bool) (history : List Step) : List Step :=
  history.filter (Step.asks kind)

section Kind
variable {kind : Request → Bool}

@[simp] theorem callsOf_nil : callsOf kind [] = [] := rfl

@[simp] theorem callsOf_append (first second : List Step) :
    callsOf kind (first ++ second) = callsOf kind first ++ callsOf kind second :=
  List.filter_append ..

theorem callsOf_calls (history : List Step) :
    callsOf kind (calls history) = callsOf kind history := by
  unfold callsOf calls
  rw [List.filter_filter]
  refine List.filter_congr fun step _ => ?_
  cases step <;> simp [Step.asks, Step.isCall]

theorem callsOf_cons (step : Step) (rest : List Step) :
    callsOf kind (step :: rest) =
      if step.asks kind then step :: callsOf kind rest else callsOf kind rest := List.filter_cons ..

theorem callsOf_eq_nil_iff {history : List Step} :
    callsOf kind history = [] ↔ ∀ step ∈ history, step.asks kind = false := by
  simp [callsOf, List.filter_eq_nil_iff]

theorem not_asks_of_split {before after : List Step} {step : Step}
    (h : callsOf kind (before ++ step :: after) = []) : step.asks kind = false :=
  callsOf_eq_nil_iff.1 h step (List.mem_append_right before List.mem_cons_self)

theorem callsOf_eq_nil_of_calls {history : List Step}
    (h : ∀ q answer, .asked q answer ∈ history → kind q = false) : callsOf kind history = [] := by
  refine callsOf_eq_nil_iff.2 fun step hs => ?_
  cases step with
  | asked q answer => exact h q answer hs
  | noted e => rfl

theorem callsOf_or_eq_nil {other : Request → Bool} {history : List Step}
    (h : callsOf (fun q => kind q || other q) history = []) :
    callsOf kind history = [] ∧ callsOf other history = [] := by
  have neither (q : Request) (answer : Except CallError q.Reply)
      (hq : .asked q answer ∈ history) : kind q = false ∧ other q = false := by
    have hor : (kind q || other q) = false := callsOf_eq_nil_iff.1 h _ hq
    exact Bool.or_eq_false_iff.1 hor
  exact ⟨callsOf_eq_nil_of_calls fun q answer hq => (neither q answer hq).1,
    callsOf_eq_nil_of_calls fun q answer hq => (neither q answer hq).2⟩

theorem callsOf_map_of_pos {α : Type} {f : α → Step} (h : ∀ a, (f a).asks kind = true)
    (items : List α) : callsOf kind (items.map f) = items.map f := by
  refine List.filter_eq_self.2 fun step hs => ?_
  obtain ⟨a, _, rfl⟩ := List.mem_map.1 hs
  exact h a

theorem callsOf_map_of_neg {α : Type} {f : α → Step} (h : ∀ a, (f a).asks kind = false)
    (items : List α) : callsOf kind (items.map f) = [] := by
  refine callsOf_eq_nil_iff.2 fun step hs => ?_
  obtain ⟨a, _, rfl⟩ := List.mem_map.1 hs
  exact h a

/-- A call of a kind that is not in the first part of a history is in the second. -/
theorem split_append {first second before after : List Step} {step : Step}
    (h : callsOf kind first = []) (hs : step.asks kind = true)
    (same : first ++ second = before ++ step :: after) :
    ∃ later, before = first ++ later ∧ second = later ++ step :: after := by
  rcases append_eq_append_cons same with hlater | ⟨more, rfl, _⟩
  · exact hlater
  · rw [not_asks_of_split h] at hs
    cases hs

/-- The only call of a kind splits a history in one way. -/
theorem split_unique {before after before' after' : List Step} {step step' : Step}
    (hs : step.asks kind = true) (hb : callsOf kind before' = [])
    (ha : callsOf kind after' = [])
    (same : before ++ step :: after = before' ++ step' :: after') :
    before = before' ∧ step = step' ∧ after = after' := by
  induction before' generalizing before with
  | nil =>
    cases before with
    | nil => exact ⟨rfl, List.cons.inj same⟩
    | cons first before =>
      obtain ⟨_, rfl⟩ := List.cons.inj same
      have := callsOf_eq_nil_iff.1 ha step (by simp)
      rw [hs] at this
      cases this
  | cons first' before' ih =>
    have hf : first'.asks kind = false := callsOf_eq_nil_iff.1 hb first' (by simp)
    cases before with
    | nil =>
      obtain ⟨rfl, _⟩ := List.cons.inj same
      rw [hs] at hf
      cases hf
    | cons first before =>
      obtain ⟨rfl, rest⟩ := List.cons.inj same
      rw [callsOf, List.filter_cons_of_neg (Bool.eq_false_iff.1 hf)] at hb
      obtain ⟨rfl, hstep, hafter⟩ := ih hb rest
      exact ⟨rfl, hstep, hafter⟩

theorem Step.isCall_of_asks {step : Step} (h : step.asks kind = true) : step.isCall = true := by
  cases step with
  | asked q answer => rfl
  | noted e => cases h

/-- A call of a kind that comes only as the last one, right after a call of another kind. -/
theorem last_unique {before after before' after' : List Step} {step last last' : Step}
    (hb : callsOf kind before = []) (hstep : step.asks kind = false) (hcall : step.isCall = true)
    (ha : calls after = [last]) (hlast : last'.asks kind = true)
    (same : before ++ step :: after = before' ++ last' :: after') :
    calls before' = calls before ++ [step] ∧ last' = last := by
  have hcalls : calls before' ++ last' :: calls after' = calls before ++ [step] ++ last :: [] := by
    have h := congrArg calls same
    rw [calls_append, calls_append, calls_cons hcall, calls_cons (Step.isCall_of_asks hlast),
      ha] at h
    rw [List.append_assoc]
    exact h.symm
  have hnone : callsOf kind (calls before ++ [step]) = [] := by
    rw [callsOf_append, callsOf_calls, hb, callsOf_cons, hstep]
    rfl
  obtain ⟨hbefore, h, _⟩ := split_unique hlast hnone callsOf_nil hcalls
  exact ⟨hbefore, h⟩

end Kind

/-! ## Bounds on calls and results -/

namespace Routine
variable {α β : Type} {p : Request → Prop} {post : α → Prop}

/-- Whether all calls that a routine can make, and all its results, meet conditions. -/
def Meets (p : Request → Prop) (post : α → Prop) : Routine α → Prop
  | done a => post a
  | ask q next => p q ∧ ∀ answer, Meets p post (next answer)
  | noteThen _ next => Meets p post next
  | crash _ => True

theorem Meets.bind {m : Routine α} {f : α → Routine β} {last : β → Prop} (h : m.Meets p post)
    (hf : ∀ a, post a → (f a).Meets p last) : (m >>= f).Meets p last := by
  show (m.andThen f).Meets p last
  induction m with
  | done a => exact hf a h
  | ask q next ih => exact ⟨h.1, fun answer => ih answer (h.2 answer)⟩
  | noteThen e next ih => exact ih h
  | crash c => trivial

theorem Meets.call {m : Routine α} (h : m.Meets p post) {history : List Step} {ending : Ending α}
    (ran : m.Runs history ending) {q : Request} {answer : Except CallError q.Reply}
    (hq : .asked q answer ∈ history) : p q := by
  induction m generalizing history with
  | done a =>
    obtain ⟨rfl, _⟩ := ran
    cases hq
  | ask r next ih =>
    obtain ⟨answer', rest, rfl, ran⟩ := ran
    rcases List.mem_cons.1 hq with hq | hq
    · cases hq
      exact h.1
    · exact ih answer' (h.2 answer') ran hq
  | noteThen e next ih =>
    obtain ⟨rest, rfl, ran⟩ := ran
    rcases List.mem_cons.1 hq with hq | hq
    · cases hq
    · exact ih h ran hq
  | crash c =>
    obtain ⟨rfl, _⟩ := ran
    cases hq

theorem Meets.result {m : Routine α} (h : m.Meets p post) {history : List Step} {a : α}
    (ran : m.Runs history (.done a)) : post a := by
  induction m generalizing history with
  | done b =>
    obtain ⟨_, hb⟩ := ran
    cases hb
    exact h
  | ask q next ih =>
    obtain ⟨answer, rest, rfl, ran⟩ := ran
    exact ih answer (h.2 answer) ran
  | noteThen e next ih =>
    obtain ⟨rest, rfl, ran⟩ := ran
    exact ih h ran
  | crash c =>
    obtain ⟨_, hc⟩ := ran
    cases hc

end Routine

namespace FailingRoutine
variable {ε α β : Type} {p : Request → Prop} {post : α → Prop}

/-- The same for a routine that may fail; nothing is asked of an error. -/
def Meets (p : Request → Prop) (post : α → Prop) (m : FailingRoutine ε α) : Prop :=
  Routine.Meets p (fun r => ∀ a, r = .ok a → post a) m.run

theorem meets_pure {a : α} (h : post a) : (pure a : FailingRoutine ε α).Meets p post := by
  rintro _ ⟨⟩
  exact h

theorem meets_throw {e : ε} : (throw e : FailingRoutine ε α).Meets p post := by
  rintro _ ⟨⟩

theorem meets_ofExcept {r : Except ε α} (h : ∀ a, r = .ok a → post a) :
    (ofExcept r).Meets p post := h

theorem meets_call [OfCallError ε] {q : Request} (h : p q) :
    (call q : FailingRoutine ε q.Reply).Meets p fun _ => True := by
  refine ⟨h, fun answer => ?_⟩
  cases answer <;> exact fun _ _ => trivial

theorem meets_attempt {q : Request} (h : p q) :
    (ofRoutine (.attempt q) : FailingRoutine ε (Except CallError q.Reply)).Meets p
      fun _ => True :=
  ⟨h, fun _ _ _ => trivial⟩

theorem meets_note {e : Event} : (note e : FailingRoutine ε Unit).Meets p fun _ => True :=
  fun _ _ => trivial

theorem meets_require {b : Bool} {c : Crash} :
    (ofRoutine (Routine.require b c) : FailingRoutine ε Unit).Meets p fun _ => True := by
  cases b
  · trivial
  · exact fun _ _ => trivial

theorem Meets.bind {m : FailingRoutine ε α} {f : α → FailingRoutine ε β} {last : β → Prop}
    (h : m.Meets p post) (hf : ∀ a, post a → (f a).Meets p last) : (m >>= f).Meets p last := by
  refine Routine.Meets.bind h fun r hr => ?_
  cases r with
  | error e => rintro _ ⟨⟩
  | ok a => exact hf a (hr a rfl)

theorem Meets.mono {m : FailingRoutine ε α} {q : Request → Prop} (h : m.Meets p post)
    (hq : ∀ r, p r → q r) : m.Meets q post := by
  unfold Meets at h ⊢
  generalize m.run = routine at h
  induction routine with
  | done a => exact h
  | ask r next ih => exact ⟨hq r h.1, fun answer => ih answer (h.2 answer)⟩
  | noteThen e next ih => exact ih h
  | crash c => trivial

theorem meets_runs (p : Request → Prop) (post : α → Prop) {m : FailingRoutine ε α}
    (h : m.Meets p post) {history : List Step} {a : α} (ran : m.Runs history (.done (.ok a))) :
    (∀ q answer, .asked q answer ∈ history → p q) ∧ post a :=
  ⟨fun _ _ => Routine.Meets.call h ran, Routine.Meets.result h ran a rfl⟩

end FailingRoutine

/-! ## One question after another -/

section Loop
variable {ι ο ε : Type} (ask : ι → Request)
  (take : (i : ι) → Except CallError (ask i).Reply → Except ε ο)

/-- Asks about each item in order, and takes the answers until one is no good. -/
def askEach : List ι → FailingRoutine ε (List ο)
  | [] => pure []
  | i :: rest => do
    let answer ← FailingRoutine.ofRoutine (.attempt (ask i))
    let value ← FailingRoutine.ofExcept (take i answer)
    let values ← askEach rest
    pure (value :: values)

variable {ask take}

/-- Here `κ` holds what is known of an item whose answer is good. -/
theorem runs_askEach {κ : Type} (item : κ → ι) (step : κ → Step) (value : κ → ο)
    (good : ∀ i answer o, take i answer = .ok o →
      ∃ k, item k = i ∧ step k = .asked (ask i) answer ∧ value k = o)
    {items : List ι} {history : List Step} {ending : Ending (Except ε (List ο))}
    (ran : (askEach ask take items).Runs history ending) :
    ∃ ks : List κ,
      (items = ks.map item ∧ history = ks.map step ∧ ending = .done (.ok (ks.map value))) ∨
        ∃ i rest answer e, items = ks.map item ++ i :: rest ∧
          history = ks.map step ++ [.asked (ask i) answer] ∧ take i answer = .error e ∧
            ending = .done (.error e) := by
  induction items generalizing history ending with
  | nil =>
    obtain ⟨rfl, rfl⟩ := ran
    exact ⟨[], .inl ⟨rfl, rfl, rfl⟩⟩
  | cons i items ih =>
    obtain ⟨answer, more, rfl, taking⟩ := FailingRoutine.runs_attempt_bind_iff.1 ran
    rcases FailingRoutine.runs_ofExcept_bind_iff.1 taking with ⟨o, ho, going⟩ | ⟨e, he, rfl, rfl⟩
    · obtain ⟨k, hi, hs, rfl⟩ := good i answer o ho
      rcases FailingRoutine.runs_bind_iff.1 going with ⟨c, _, h⟩ | ⟨e, rfl, h⟩ |
        ⟨os, first, last, rfl, h, rfl, rfl⟩
      · obtain ⟨ks, ⟨_, _, hc⟩ | ⟨_, _, _, _, _, _, _, hc⟩⟩ := ih h <;> cases hc
      · obtain ⟨ks, ⟨_, _, hc⟩ | ⟨j, rest, answer', e', rfl, rfl, ht, he⟩⟩ := ih h
        · cases hc
        · cases he
          exact ⟨k :: ks, .inr ⟨j, rest, answer', e, by simp [hi], by simp [hs], ht, rfl⟩⟩
      · obtain ⟨ks, ⟨rfl, rfl, hv⟩ | ⟨_, _, _, _, _, _, _, hc⟩⟩ := ih h
        · cases hv
          exact ⟨k :: ks, .inl ⟨by simp [hi], by simp [hs], rfl⟩⟩
        · cases hc
    · exact ⟨[], .inr ⟨i, items, answer, e, rfl, rfl, he, rfl⟩⟩

end Loop

end StakeKeeper
