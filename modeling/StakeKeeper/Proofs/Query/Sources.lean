import StakeKeeper.Proofs.Query.Reads

/-!
Queries against collaborators whose answer to a read does not depend on the batch that the read came
in. Main statements: `Source.Computes.bind` (what two routines in a row come to) and
`Source.Computes.yields` (a routine that computes a value ends with it in every run, and some run is
there).
-/
namespace StakeKeeper
set_option autoImplicit false

/-! ## Values -/

theorem length_of_mapM {ι ο : Type} {f : ι → Option ο} {items : List ι} {values : List ο}
    (h : items.mapM f = some values) : values.length = items.length := by
  induction items generalizing values with
  | nil =>
    cases h
    rfl
  | cons i items ih =>
    rw [List.mapM_cons] at h
    obtain ⟨o, _, hrest⟩ := Option.bind_eq_some_iff.1 h
    obtain ⟨rest, hmore, hvalues⟩ := Option.bind_eq_some_iff.1 hrest
    cases hvalues
    rw [List.length_cons, List.length_cons, ih hmore]

theorem toOption_mapM {ε κ ο : Type} (take : κ → Except ε ο) (items : List κ) :
    (items.mapM take).toOption = items.mapM fun k => (take k).toOption := by
  induction items with
  | nil => rfl
  | cons k items ih =>
    rw [List.mapM_cons, List.mapM_cons, ← ih]
    cases take k with
    | error e => rfl
    | ok o => cases items.mapM take <;> rfl

/-- Taking all values after reading them all is taking each once it is read. -/
theorem mapM_bind_mapM {ι κ ο : Type} (read : ι → Option κ) (take : κ → Option ο)
    (items : List ι) :
    ((items.mapM read).bind fun values => values.mapM take) =
      items.mapM fun i => (read i).bind take := by
  induction items with
  | nil => rfl
  | cons i items ih =>
    rw [List.mapM_cons, List.mapM_cons, ← ih]
    cases read i with
    | none => rfl
    | some k =>
      cases items.mapM read with
      | none => cases hk : take k <;> simp [hk]
      | some values => exact List.mapM_cons

def Decoding.value? {α : Type} (d : Decoding α) : Option α := d.run.bind Except.toOption

/-! ## Sources -/

/-- Collaborators that answer each read at a block in one way, and whose header and account stay the
same during a query. -/
structure Source where
  /-- The latest header; none if it cannot be had. -/
  header : Option BlockHeader
  /-- None if the cache cannot be reloaded. -/
  refresh : ContractRegistry → Option Unit
  transactor : Except CallError Transactor
  /-- None if the read fails. -/
  read : UInt64 → ContractRead → Option ReadValue

namespace Source

/-- Whether an answer is the source's. A batch is answered by the values of its reads, in order, and
fails if one of them does. Nothing is said of calls that no query makes. -/
def Gives (s : Source) : (q : Request) → Except CallError q.Reply → Prop
  | .header none, answer => answer.toOption = s.header
  | .refresh registry, answer => answer.toOption = s.refresh registry
  | .transactor, answer => answer = s.transactor
  | .multicall reads block, answer => answer.toOption = reads.mapM (s.read block)
  | _, _ => True

/-- Whether an answer is the source's or a batch that failed for another reason. -/
def Allows (s : Source) : (q : Request) → Except CallError q.Reply → Prop
  | .multicall reads block, answer =>
    ∀ values, answer = .ok values → reads.mapM (s.read block) = some values
  | q, answer => s.Gives q answer

def Answers (s : Source) (history : List Step) : Prop :=
  ∀ q answer, .asked q answer ∈ history → s.Gives q answer

/-- The same, where batches may fail. -/
def Vouches (s : Source) (history : List Step) : Prop :=
  ∀ q answer, .asked q answer ∈ history → s.Allows q answer

variable {s : Source}

theorem Answers.append_iff {first second : List Step} :
    s.Answers (first ++ second) ↔ s.Answers first ∧ s.Answers second := by
  simp only [Answers, List.mem_append, or_imp, forall_and]

theorem Vouches.append_iff {first second : List Step} :
    s.Vouches (first ++ second) ↔ s.Vouches first ∧ s.Vouches second := by
  simp only [Vouches, List.mem_append, or_imp, forall_and]

theorem Vouches.nil : s.Vouches [] := fun _ _ h => nomatch h

theorem Vouches.asked {q : Request} {answer : Except CallError q.Reply} {history : List Step}
    (given : s.Allows q answer) (rest : s.Vouches history) :
    s.Vouches (.asked q answer :: history) := by
  intro r reply h
  rcases List.mem_cons.1 h with h | h
  · cases h
    exact given
  · exact rest r reply h

theorem Vouches.noted {e : Event} {history : List Step} (rest : s.Vouches history) :
    s.Vouches (.noted e :: history) := by
  intro r reply h
  rcases List.mem_cons.1 h with h | h
  · cases h
  · exact rest r reply h

theorem Vouches.events (s : Source) (events : List Event) : s.Vouches (events.map .noted) := by
  induction events with
  | nil => exact .nil
  | cons e rest ih => exact .noted ih

theorem Vouches.of_calls {history : List Step} (h : s.Vouches (calls history)) :
    s.Vouches history :=
  fun q answer hmem => h q answer (List.mem_filter.2 ⟨hmem, rfl⟩)

theorem Vouches.read {reads : List ContractRead} {block : UInt64} {values : List ReadValue}
    {history : List Step} (h : reads.mapM (s.read block) = some values)
    (rest : s.Vouches history) :
    s.Vouches (.asked (.multicall reads block) (.ok values) :: history) :=
  .asked (by rintro _ ⟨⟩; exact h) rest

theorem exists_answer (s : Source) (q : Request) : ∃ answer, s.Gives q answer := by
  have lift {α : Type} (value : Option α) :
      ∃ answer : Except CallError α, answer.toOption = value := by
    cases value with
    | none => exact ⟨.error (.network ""), rfl⟩
    | some a => exact ⟨.ok a, rfl⟩
  cases q with
  | header number =>
    cases number with
    | none => exact lift s.header
    | some n => exact ⟨.error (.network ""), trivial⟩
  | refresh registry => exact lift (s.refresh registry)
  | transactor => exact ⟨s.transactor, rfl⟩
  | multicall reads block => exact lift (reads.mapM (s.read block))
  | _ => exact ⟨.error (.network ""), trivial⟩

/-- Every routine can be run against a source. -/
theorem exists_run {α : Type} (s : Source) (m : Routine α) :
    ∃ history ending, m.Runs history ending ∧ s.Answers history := by
  induction m with
  | done a => exact ⟨[], .done a, ⟨rfl, rfl⟩, fun _ _ h => nomatch h⟩
  | ask q next ih =>
    obtain ⟨answer, given⟩ := s.exists_answer q
    obtain ⟨history, ending, ran, answered⟩ := ih answer
    refine ⟨.asked q answer :: history, ending, ⟨answer, history, rfl, ran⟩, fun r reply h => ?_⟩
    rcases List.mem_cons.1 h with h | h
    · cases h
      exact given
    · exact answered r reply h
  | noteThen e next ih =>
    obtain ⟨history, ending, ran, answered⟩ := ih
    refine ⟨.noted e :: history, ending, ⟨history, rfl, ran⟩, fun r reply h => ?_⟩
    rcases List.mem_cons.1 h with h | h
    · cases h
    · exact answered r reply h
  | crash c => exact ⟨[], .crashed c, ⟨rfl, rfl⟩, fun _ _ h => nomatch h⟩

/-! ## What a routine computes -/

/-- What a routine comes to against a source: all its runs end with the value, or all without a
result. Some run is there. -/
structure Yields {α : Type} (s : Source) (m : QueryRoutine α) (value : Option α) : Prop where
  runs : ∃ history ending, m.Runs history ending ∧ s.Answers history
  ends : ∀ history ending, m.Runs history ending → s.Answers history →
    ∀ a, ending = .done (.ok a) ↔ value = some a

/-- The same in two parts. A result is the value even where batches may fail; if none fails for
another reason than its reads, the value is the result. -/
structure Computes {α : Type} (s : Source) (m : QueryRoutine α) (value : Option α) : Prop where
  sound : ∀ history a, m.Runs history (.done (.ok a)) → s.Vouches history → value = some a
  complete : ∀ history ending, m.Runs history ending → s.Answers history →
    ∀ a, value = some a → ending = .done (.ok a)

theorem Answers.vouches {history : List Step} (h : s.Answers history) : s.Vouches history := by
  intro q answer hq
  have given := h q answer hq
  cases q with
  | multicall reads block =>
    rintro values rfl
    exact given.symm
  | _ => exact given

section
variable {α β : Type} {m : QueryRoutine α} {value : Option α}

/-- A routine that computes a value ends with it in every run, and has a run for every source. -/
theorem Computes.yields (h : s.Computes m value) : s.Yields m value where
  runs := s.exists_run m.run
  ends history ending ran answered a := by
    constructor
    · rintro rfl
      exact h.sound history a ran answered.vouches
    · exact h.complete history ending ran answered a

theorem Computes.bind {f : α → QueryRoutine β} {g : α → Option β} (h : s.Computes m value)
    (hf : ∀ a, value = some a → s.Computes (f a) (g a)) :
    s.Computes (m >>= f) (value.bind g) := by
  constructor
  · intro history b ran vouched
    rcases FailingRoutine.runs_bind_iff.1 ran with ⟨c, hc, _⟩ | ⟨e, he, _⟩ |
      ⟨a, first, second, rfl, hm, hsecond⟩
    · cases hc
    · cases he
    · obtain ⟨hfirst, hrest⟩ := Vouches.append_iff.1 vouched
      have hvalue := h.sound first a hm hfirst
      rw [hvalue]
      exact (hf a hvalue).sound second b hsecond hrest
  · intro history ending ran answered b hb
    obtain ⟨a, hvalue, hg⟩ := Option.bind_eq_some_iff.1 hb
    have ended {first : List Step} {last : Ending (Except QueryError α)} (hm : m.Runs first last)
        (hfirst : s.Answers first) : last = .done (.ok a) :=
      h.complete first last hm hfirst a hvalue
    rcases FailingRoutine.runs_bind_iff.1 ran with ⟨c, _, hm⟩ | ⟨e, _, hm⟩ |
      ⟨a', first, second, rfl, hm, hsecond⟩
    · cases ended hm answered
    · cases ended hm answered
    · obtain ⟨hfirst, hrest⟩ := Answers.append_iff.1 answered
      cases ended hm hfirst
      exact (hf a hvalue).complete second ending hsecond hrest b hg

theorem Computes.congr {other : Option α} (h : s.Computes m value) (same : value = other) :
    s.Computes m other := same ▸ h

theorem computes_pure (a : α) : s.Computes (pure a) (some a) := by
  constructor
  · rintro history b ⟨_, hb⟩ _
    cases hb
    rfl
  · rintro history ending ⟨_, rfl⟩ _ b hb
    cases hb
    rfl

theorem computes_ofExcept (r : Except QueryError α) :
    s.Computes (FailingRoutine.ofExcept r) r.toOption := by
  constructor
  · rintro history b ⟨_, hb⟩ _
    cases hb
    rfl
  · rintro history ending ⟨_, rfl⟩ _ b hb
    cases r with
    | error e => cases hb
    | ok a =>
      cases hb
      rfl

theorem computes_taking (r : Except CallError α) :
    s.Computes (QueryRoutine.taking r) r.toOption :=
  (computes_ofExcept (r.mapError .call)).congr (by cases r <;> rfl)

theorem computes_throw (e : QueryError) : s.Computes (throw e : QueryRoutine α) none :=
  computes_ofExcept (.error e)

theorem computes_note (e : Event) : s.Computes (FailingRoutine.note e) (some ()) := by
  constructor
  · intro history u _ _
    rfl
  · intro history ending ran _ u _
    exact (FailingRoutine.runs_note_iff.1 ran).2

theorem computes_crash (c : Crash) :
    s.Computes (ExceptT.mk (.crash c) : QueryRoutine α) none := by
  constructor
  · rintro history a ⟨_, ha⟩ _
    cases ha
  · rintro history ending _ _ a ⟨⟩

theorem computes_require (b : Bool) (c : Crash) :
    s.Computes (FailingRoutine.ofRoutine (.require b c)) (if b then some () else none) := by
  cases b with
  | true => exact computes_pure ()
  | false => exact computes_crash c

theorem computes_ofDecoding (d : Decoding α) :
    s.Computes (QueryRoutine.ofDecoding d) d.value? := by
  unfold QueryRoutine.ofDecoding Decoding.value?
  cases d.run with
  | some r => exact computes_ofExcept r
  | none => exact computes_crash .timeRange

theorem computes_call {q : Request} {value : Option q.Reply}
    (allowed : ∀ a, s.Allows q (.ok a) → value = some a)
    (given : ∀ answer, s.Gives q answer → answer.toOption = value) :
    s.Computes (FailingRoutine.call q : QueryRoutine q.Reply) value := by
  constructor
  · rintro history a ⟨answer, rest, rfl, ran⟩ vouched
    cases answer with
    | error e =>
      obtain ⟨_, ha⟩ := ran
      cases ha
    | ok reply =>
      obtain ⟨_, ha⟩ := ran
      cases ha
      exact allowed a (vouched q (.ok a) List.mem_cons_self)
  · rintro history ending ⟨answer, rest, rfl, ran⟩ answered a ha
    have hanswer := given answer (answered q answer List.mem_cons_self)
    rw [ha] at hanswer
    cases answer with
    | error e => cases hanswer
    | ok reply =>
      cases hanswer
      exact ran.2

theorem computes_header : s.Computes (FailingRoutine.call (.header none)) s.header :=
  computes_call (fun _ h => h.symm) fun _ h => h

theorem computes_refresh (registry : ContractRegistry) :
    s.Computes (FailingRoutine.call (.refresh registry)) (s.refresh registry) :=
  computes_call (fun _ h => h.symm) fun _ h => h

theorem computes_transactor :
    s.Computes (FailingRoutine.ofRoutine (.attempt .transactor)) (some s.transactor) := by
  constructor
  · rintro history a ⟨answer, rest, rfl, _, ha⟩ vouched
    cases ha
    exact congrArg some (vouched .transactor a List.mem_cons_self).symm
  · rintro history ending ⟨answer, rest, rfl, _, rfl⟩ answered a ha
    cases ha
    have hanswer : answer = s.transactor := answered .transactor answer List.mem_cons_self
    rw [hanswer]

theorem computes_multicall (reads : List ContractRead) (block : UInt64) :
    s.Computes (QueryRoutine.multicall reads block) (reads.mapM (s.read block)) := by
  have hcall : s.Computes (FailingRoutine.call (.multicall reads block))
      (reads.mapM (s.read block)) := computes_call (fun a h => h a rfl) fun _ h => h
  rw [← Option.bind_fun_some (reads.mapM (s.read block))]
  refine hcall.bind fun values hvalues => ?_
  rw [if_pos (length_of_mapM hvalues)]
  exact computes_pure values

end

end Source

end StakeKeeper
