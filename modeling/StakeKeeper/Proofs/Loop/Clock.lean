import StakeKeeper.Devnet.Rehearsal
import StakeKeeper.Proofs.Devnet.Playing

/-!
Time on a clock that moves only while something waits. Main statements: `Handler.Prompt.runWith`
(where calls are answered at once a play takes no time), `Handler.Logs.runWith` (a log of calls takes
in those of a play), and `Devnet.Rehearsal.prompt`, `Devnet.Rehearsal.logs` and
`Devnet.Rehearsal.clock_exact` (rehearsals without delays are such plays, keep such a log, and their
sleeps end on time).
-/
namespace StakeKeeper
set_option autoImplicit false

/-! ## Plays without delay -/

/-- The calls of a play, each with the time at which it is made. -/
def Routine.callsAt {σ α : Type} (h : Handler σ) (now : σ → Nat) :
    Routine α → σ → List (Nat × Request)
  | .done _, _ => []
  | .ask q next, s =>
    (now s, q) ::
      match h.answer q s with
      | (.answered r, s) => (next r).callsAt h now s
      | _ => []
  | .noteThen e next, s => next.callsAt h now (h.note e s)
  | .crash _, _ => []

/-- Whether calls are answered at once, in states of a kind. -/
structure Handler.Prompt {σ : Type} (h : Handler σ) (now : σ → Nat) (fair : σ → Prop) : Prop where
  answered : ∀ q s, fair s → fair (h.answer q s).2 ∧ now (h.answer q s).2 = now s
  uncancelled : ∀ q s, fair s → (h.answer q s).1 ≠ .cancelled
  noted : ∀ e s, fair s → fair (h.note e s) ∧ now (h.note e s) = now s

section
variable {σ α : Type} {h : Handler σ} {now : σ → Nat} {fair : σ → Prop}

/-- Where calls are answered at once, a play leaves the clock where it was and is not cancelled. -/
theorem Handler.Prompt.runWith (prompt : h.Prompt now fair) (m : Routine α) {s : σ}
    (hs : fair s) :
    fair (m.runWith h s).2 ∧ now (m.runWith h s).2 = now s ∧ (m.runWith h s).1 ≠ .cancelled := by
  induction m generalizing s with
  | done a => exact ⟨hs, rfl, by rintro ⟨⟩⟩
  | ask q next ih =>
    rw [Routine.runWith_ask]
    obtain ⟨hfair, hnow⟩ := prompt.answered q s hs
    have hreaction := prompt.uncancelled q s hs
    generalize h.answer q s = answer at hfair hnow hreaction
    obtain ⟨reaction, t⟩ := answer
    cases reaction with
    | answered r =>
      obtain ⟨hlast, hthen, hend⟩ := ih r hfair
      exact ⟨hlast, hthen.trans hnow, hend⟩
    | crashed c => exact ⟨hfair, hnow, by rintro ⟨⟩⟩
    | cancelled => exact absurd rfl hreaction
  | noteThen e next ih =>
    obtain ⟨hfair, hnow⟩ := prompt.noted e s hs
    obtain ⟨hlast, hthen, hend⟩ := ih hfair
    exact ⟨hlast, hthen.trans hnow, hend⟩
  | crash c => exact ⟨hs, rfl, by rintro ⟨⟩⟩

theorem Handler.Prompt.callsAt (prompt : h.Prompt now fair) (m : Routine α) {s : σ}
    (hs : fair s) : ∀ call ∈ m.callsAt h now s, call.1 = now s := by
  induction m generalizing s with
  | done a => intro call hcall; cases hcall
  | ask q next ih =>
    obtain ⟨hfair, hnow⟩ := prompt.answered q s hs
    unfold Routine.callsAt
    generalize h.answer q s = answer at hfair hnow
    obtain ⟨reaction, t⟩ := answer
    refine List.forall_mem_cons.2 ⟨rfl, ?_⟩
    cases reaction with
    | answered r => exact fun call hcall => (ih r hfair call hcall).trans hnow
    | crashed c => intro call hcall; cases hcall
    | cancelled => intro call hcall; cases hcall
  | noteThen e next ih =>
    obtain ⟨hfair, hnow⟩ := prompt.noted e s hs
    exact fun call hcall => (ih hfair call hcall).trans hnow
  | crash c => intro call hcall; cases hcall

/-- Whether a state keeps a log of all calls, each with its time. -/
structure Handler.Logs (h : Handler σ) (now : σ → Nat) (log : σ → List (Nat × Request)) :
    Prop where
  answered : ∀ q s, log (h.answer q s).2 = log s ++ [(now s, q)]
  noted : ∀ e s, log (h.note e s) = log s

/-- What the calls of a run add to the log is what the run called, each with its time. -/
theorem Handler.Logs.runWith {log : σ → List (Nat × Request)} (logs : h.Logs now log)
    (m : Routine α) (s : σ) : log (m.runWith h s).2 = log s ++ m.callsAt h now s := by
  induction m generalizing s with
  | done a => exact (List.append_nil _).symm
  | ask q next ih =>
    have hlog := logs.answered q s
    rw [Routine.runWith_ask]
    unfold Routine.callsAt
    generalize h.answer q s = answer at hlog ⊢
    obtain ⟨reaction, t⟩ := answer
    cases reaction with
    | answered r =>
      have hrest := ih r t
      rw [hlog, List.append_assoc] at hrest
      exact hrest
    | crashed c => exact hlog
    | cancelled => exact hlog
  | noteThen e next ih =>
    have hrest := ih (h.note e s)
    rw [logs.noted] at hrest
    exact hrest
  | crash c => exact (List.append_nil _).symm

/-- A play that ends is a run on the answers that it was given. -/
theorem Routine.runs_of_runWith {m : Routine α} {s t : σ} {a : α}
    (played : m.runWith h s = (.done a, t)) : ∃ history, m.Runs history (.done a) := by
  induction m generalizing s with
  | done b =>
    cases played
    exact ⟨[], rfl, rfl⟩
  | ask q next ih =>
    rw [runWith_ask] at played
    generalize h.answer q s = answer at played
    obtain ⟨reaction, s'⟩ := answer
    cases reaction with
    | answered r =>
      obtain ⟨history, ran⟩ := ih r played
      exact ⟨.asked q r :: history, r, history, rfl, ran⟩
    | crashed c => cases played
    | cancelled => cases played
  | noteThen e next ih =>
    obtain ⟨history, ran⟩ := ih played
    exact ⟨.noted e :: history, history, rfl, ran⟩
  | crash c => cases played

end

/-- Whether a sleep adds nothing to a log of calls. -/
def TaskLoop.Clock.Silent {σ : Type} (clock : TaskLoop.Clock σ)
    (log : σ → List (Nat × Request)) : Prop := ∀ d s, log (clock.sleep d s).2 = log s

/-- Whether a sleep of whole milliseconds ends on time: when it is over, or when the loop is told to
stop if that is before. Nothing is said of a sleep that is over just when the loop is told to
stop. -/
structure TaskLoop.Clock.Exact {σ : Type} (clock : TaskLoop.Clock σ) (now : σ → Nat)
    (fair : σ → Prop) (stop : Option Nat) (d : Duration) (pause : Nat) : Prop where
  whole : d.nanos = pause * 1000000
  left : ∀ s, fair s → fair (clock.sleep d s).2
  slept : ∀ s, fair s → (∀ t, stop = some t → now s + pause < t) →
    (clock.sleep d s).1 = true ∧ now (clock.sleep d s).2 = now s + pause
  woken : ∀ s t, fair s → stop = some t → now s < t → t < now s + pause →
    (clock.sleep d s).1 = false ∧ now (clock.sleep d s).2 = t

theorem TaskLoop.Clock.Exact.ends {σ : Type} {clock : TaskLoop.Clock σ} {now : σ → Nat}
    {fair : σ → Prop} {stop : Option Nat} {d : Duration} {pause first : Nat}
    (h : clock.Exact now fair stop d pause) {s : σ} (hs : fair s) (hfirst : now s = first)
    (start : ∀ t, stop = some t → first < t) (off : ∀ t, stop = some t → first + pause ≠ t) :
    ((clock.sleep d s).1 = true ∧ now (clock.sleep d s).2 = first + pause ∧
        ∀ t, stop = some t → first + pause < t) ∨
      (clock.sleep d s).1 = false ∧ ∃ t, stop = some t ∧ t < first + pause ∧
        now (clock.sleep d s).2 = t := by
  subst hfirst
  by_cases told : ∃ t, stop = some t ∧ t < now s + pause
  · obtain ⟨t, hstop, hlt⟩ := told
    obtain ⟨hwoke, hnow⟩ := h.woken s t hs hstop (start t hstop) hlt
    exact .inr ⟨hwoke, t, hstop, hlt, hnow⟩
  · have hlate : ∀ t, stop = some t → now s + pause < t := by
      intro t hstop
      have hle : ¬ t < now s + pause := fun hlt => told ⟨t, hstop, hlt⟩
      have hne := off t hstop
      omega
    obtain ⟨hslept, hnow⟩ := h.slept s hs hlate
    exact .inl ⟨hslept, hnow, hlate⟩

/-! ## Rehearsals without delays -/

namespace Devnet

theorem Net.answer_uncancelled (n : Net) (q : Request) : (n.answer q).1 ≠ .cancelled := by
  cases q with
  | submit sender txs fees =>
    cases hs : n.chain.submit? txs fees with
    | none =>
      rw [answer_submit_none sender hs]
      rintro ⟨⟩
    | some r =>
      rw [answer_submit_some sender hs]
      rintro ⟨⟩
  | _ => rintro ⟨⟩

namespace Rehearsal

variable {s s' : Rehearsal} {stop : Option Nat}

/-- Whether no fault delays a call, now or later, and the daemon is told to stop at a time. -/
structure Fair (stop : Option Nat) (s : Rehearsal) : Prop where
  stopAt : s.stopAt = stop
  faults : ∀ f ∈ s.faults, f.delayMs = 0
  agenda : ∀ p ∈ s.agenda, ∀ f, p.change = some (.addFault f) → f.delayMs = 0

theorem answerNet_cases (s : Rehearsal) (q : Request) :
    (∃ reply, s.answerNet q = (.answered reply, s)) ∨
      s.answerNet q = ((s.net.answer q).1, { s with net := (s.net.answer q).2 }) := by
  unfold answerNet
  split
  · exact .inl ⟨_, rfl⟩
  · exact .inr rfl

theorem answerNet_prompt (s : Rehearsal) (q : Request) :
    (∃ net, (s.answerNet q).2 = { s with net }) ∧ (s.answerNet q).1 ≠ .cancelled := by
  obtain ⟨reply, h⟩ | h := s.answerNet_cases q
  · rw [h]
    exact ⟨⟨s.net, rfl⟩, by rintro ⟨⟩⟩
  · rw [h]
    exact ⟨⟨_, rfl⟩, s.net.answer_uncancelled q⟩

theorem answerWith_prompt (s : Rehearsal) (faults : List Fault) (q : Request) :
    (∃ net, (s.answerWith faults q).2 = { s with net }) ∧
      (s.answerWith faults q).1 ≠ .cancelled := by
  unfold answerWith
  cases Fault.errorBefore faults with
  | some e => exact ⟨⟨s.net, rfl⟩, by rintro ⟨⟩⟩
  | none =>
    have h := s.answerNet_prompt q
    dsimp only
    generalize s.answerNet q = result at h ⊢
    obtain ⟨(e | a) | c | _, t⟩ := result
    · exact h
    · cases Fault.errorAfter (methodOf q) faults with
      | some e => exact ⟨h.1, by rintro ⟨⟩⟩
      | none => exact ⟨h.1, by rintro ⟨⟩⟩
    · exact h
    · exact h

theorem no_delay {faults : List Fault} (h : ∀ f ∈ faults, f.delayMs = 0) :
    faults.foldl (fun ms f => ms + min longestWait f.delayMs) 0 = 0 := by
  induction faults with
  | nil => rfl
  | cons f faults ih =>
    obtain ⟨hf, hfaults⟩ := List.forall_mem_cons.1 h
    rw [List.foldl_cons, hf]
    exact ih hfaults

theorem Fair.answer (h : Fair stop s) (q : Request) :
    ∃ counts faults, s.answer q =
      { s.record (.call q) with counts }.answerWith faults q := by
  refine ⟨_, _, if_pos (no_delay ?_)⟩
  intro f hf
  exact h.faults f (List.mem_filter.1 hf).1

theorem prompt (stop : Option Nat) : handler.Prompt now (Fair stop) where
  answered := by
    intro q s h
    obtain ⟨counts, faults, hanswer⟩ := h.answer q
    obtain ⟨net, hleft⟩ := (answerWith_prompt { s.record (.call q) with counts } faults q).1
    show Fair stop (answer q s).2 ∧ (answer q s).2.now = s.now
    rw [hanswer, hleft]
    exact ⟨⟨h.stopAt, h.faults, h.agenda⟩, rfl⟩
  uncancelled := by
    intro q s h
    obtain ⟨counts, faults, hanswer⟩ := h.answer q
    show (answer q s).1 ≠ .cancelled
    rw [hanswer]
    exact (answerWith_prompt { s.record (.call q) with counts } faults q).2
  noted := fun _ _ h => ⟨⟨h.stopAt, h.faults, h.agenda⟩, rfl⟩

/-! ### Sleeps -/

theorem change?_keeps {change : Change} {receipt : Receipt}
    (h : s.change? change = some (s', receipt)) :
    s'.now = s.now ∧ s'.stopAt = s.stopAt ∧
      ∀ f ∈ s'.faults, f ∈ s.faults ∨ change = .addFault f := by
  unfold change? at h
  split at h
  · cases h
    exact ⟨rfl, rfl, fun f hf => .inl hf⟩
  · cases h
    refine ⟨rfl, rfl, fun f hf => ?_⟩
    obtain hf | hf := List.mem_append.1 hf
    · exact .inl hf
    · exact .inr (congrArg _ (List.mem_singleton.1 hf).symm)
  · cases h
    exact ⟨rfl, rfl, by simp⟩
  · obtain ⟨⟨net, receipt⟩, _, hs⟩ := Option.map_eq_some_iff.1 h
    cases hs
    exact ⟨rfl, rfl, fun f hf => .inl hf⟩

/-- The planned changes up to a time leave a rehearsal fair, and its clock at that time at most. -/
theorem applyUntil_keeps (target : Nat) {agenda : List Planned}
    (h : Fair stop { s with agenda }) : Fair stop (applyUntil target agenda s) ∧
      (applyUntil target agenda s).now ≤ max s.now target := by
  induction agenda generalizing s with
  | nil => exact ⟨h, Nat.le_max_left ..⟩
  | cons p rest ih =>
    obtain ⟨hp, hrest⟩ := List.forall_mem_cons.1 h.agenda
    unfold applyUntil
    by_cases hdue : p.atMs ≤ target
    · rw [if_pos hdue]
      have hmax : max (max s.now p.atMs) target = max s.now target := by omega
      rw [← hmax]
      cases hchange : p.change with
      | none => exact ih ⟨h.stopAt, h.faults, hrest⟩
      | some change =>
        dsimp only
        generalize hs : change? _ change = made
        cases made with
        | none => exact ⟨⟨h.stopAt, h.faults, by simp⟩, Nat.le_max_left ..⟩
        | some made =>
          obtain ⟨s', receipt⟩ := made
          obtain ⟨hnow', hstop', hfaults'⟩ := change?_keeps hs
          have hfair : Fair stop { s' with agenda := rest } := by
            refine ⟨hstop'.trans h.stopAt, ?_, hrest⟩
            intro f hf
            obtain hf | rfl := hfaults' f hf
            · exact h.faults f hf
            · exact hp f hchange
          have hlast := ih hfair
          rw [hnow'] at hlast
          exact hlast
    · rw [if_neg hdue]
      exact ⟨h, Nat.le_max_left ..⟩

def movedTo (target : Nat) (s : Rehearsal) : Rehearsal :=
  { applyUntil target s.agenda s with now := max (applyUntil target s.agenda s).now target }

theorem Fair.movedTo (h : Fair stop s) (target : Nat) :
    Fair stop (s.movedTo target) ∧ (s.now ≤ target → (s.movedTo target).now = target) := by
  obtain ⟨hfair, hnow⟩ := applyUntil_keeps target h
  refine ⟨⟨hfair.stopAt, hfair.faults, hfair.agenda⟩, ?_⟩
  intro hle
  show max _ target = target
  omega

theorem Fair.advanceTo_told (h : Fair stop s) {t target : Nat} (hstop : stop = some t)
    (hle : t ≤ target) : s.advanceTo target = (false, s.movedTo t) := by
  unfold advanceTo
  rw [h.stopAt, hstop]
  exact if_pos hle

theorem Fair.advanceTo_untold (h : Fair stop s) {target : Nat}
    (hlate : ∀ t, stop = some t → target < t) : s.advanceTo target = (true, s.movedTo target) := by
  unfold advanceTo
  rw [h.stopAt]
  cases stop with
  | none => rfl
  | some t => exact if_neg (Nat.not_le.2 (hlate t rfl))

theorem toMs_eq {d : Duration} {pause : Nat} (whole : d.nanos = pause * 1000000)
    (hlong : pause ≤ longestWait) : toMs d = pause := by
  unfold toMs
  rw [whole]
  omega

theorem clock_exact (stop : Option Nat) {d : Duration} {pause : Nat}
    (whole : d.nanos = pause * 1000000) (hlong : pause ≤ longestWait) :
    clock.Exact now (Fair stop) stop d pause where
  whole := whole
  left := by
    intro s h
    show Fair stop (s.advanceTo (s.now + toMs d)).2
    by_cases told : ∃ t, stop = some t ∧ t ≤ s.now + toMs d
    · obtain ⟨t, hstop, hle⟩ := told
      rw [h.advanceTo_told hstop hle]
      exact (h.movedTo t).1
    · have hlate (t : Nat) (hstop : stop = some t) : s.now + toMs d < t :=
        Nat.lt_of_not_le fun hle => told ⟨t, hstop, hle⟩
      rw [h.advanceTo_untold hlate]
      exact (h.movedTo _).1
  slept := by
    intro s h hlate
    show (s.advanceTo (s.now + toMs d)).1 = true ∧
      (s.advanceTo (s.now + toMs d)).2.now = s.now + pause
    rw [toMs_eq whole hlong, h.advanceTo_untold hlate]
    exact ⟨rfl, (h.movedTo _).2 (Nat.le_add_right ..)⟩
  woken := by
    intro s t h hstop hafter hbefore
    show (s.advanceTo (s.now + toMs d)).1 = false ∧ (s.advanceTo (s.now + toMs d)).2.now = t
    rw [toMs_eq whole hlong, h.advanceTo_told hstop (Nat.le_of_lt hbefore)]
    exact ⟨rfl, (h.movedTo t).2 (Nat.le_of_lt hafter)⟩

/-! ### The record of calls -/

def callOf : Nat × Moment → Option (Nat × Request)
  | (t, .call q) => some (t, q)
  | _ => none

/-- The calls on record, each with its time, oldest first. -/
def calls (s : Rehearsal) : List (Nat × Request) := (s.moments.filterMap callOf).reverse

theorem change?_moments {change : Change} {receipt : Receipt}
    (h : s.change? change = some (s', receipt)) : s'.moments = s.moments := by
  unfold change? at h
  split at h
  · cases h
    rfl
  · cases h
    rfl
  · cases h
    rfl
  · obtain ⟨⟨net, receipt⟩, _, hs⟩ := Option.map_eq_some_iff.1 h
    cases hs
    rfl

theorem calls_applyUntil (target : Nat) (agenda : List Planned) (s : Rehearsal) :
    (applyUntil target agenda s).calls = s.calls := by
  induction agenda generalizing s with
  | nil => rfl
  | cons p rest ih =>
    unfold applyUntil
    by_cases hdue : p.atMs ≤ target
    · rw [if_pos hdue]
      cases p.change with
      | none => exact ih _
      | some change =>
        dsimp only
        generalize hs : change? _ change = made
        cases made with
        | none => rfl
        | some made =>
          obtain ⟨s', receipt⟩ := made
          have hmoments := change?_moments hs
          have hrest := ih s'
          unfold calls at hrest ⊢
          rw [hmoments] at hrest
          exact hrest
    · rw [if_neg hdue]
      rfl

theorem calls_advanceTo (s : Rehearsal) (target : Nat) :
    (s.advanceTo target).2.calls = s.calls := by
  unfold advanceTo
  split
  · split
    · exact calls_applyUntil ..
    · exact calls_applyUntil ..
  · exact calls_applyUntil ..

theorem calls_answerWith (s : Rehearsal) (faults : List Fault) (q : Request) :
    (s.answerWith faults q).2.calls = s.calls := by
  obtain ⟨net, h⟩ := (s.answerWith_prompt faults q).1
  rw [h]
  rfl

theorem calls_record (s : Rehearsal) (q : Request) (counts : Registry Method Nat) :
    calls { s.record (.call q) with counts } = s.calls ++ [(s.now, q)] := by
  simp [calls, record, callOf]

theorem logs : handler.Logs now calls where
  answered := by
    intro q s
    show (answer q s).2.calls = _
    unfold answer
    extract_lets method count noted recorded faults delay
    have hrecorded : recorded.calls = s.calls ++ [(s.now, q)] := s.calls_record q _
    rw [← hrecorded]
    by_cases hdelay : delay = 0
    · rw [if_pos hdelay]
      exact calls_answerWith ..
    · rw [if_neg hdelay]
      have hcalls := recorded.calls_advanceTo (recorded.now + delay)
      generalize recorded.advanceTo (recorded.now + delay) = advanced at hcalls ⊢
      obtain ⟨awake, later⟩ := advanced
      cases awake with
      | true => exact (calls_answerWith ..).trans hcalls
      | false => exact hcalls
  noted := fun _ _ => rfl

theorem clock_silent : clock.Silent calls := fun _ s => s.calls_advanceTo _

end Rehearsal

end Devnet

end StakeKeeper
