import StakeKeeper.Proofs.Loop.Clock
import StakeKeeper.Proofs.Loop.Isolation

/-!
When the ticks of a loop start, on a clock that moves only while the loop sleeps. Main statements:
`TaskLoop.cycle_logs` (the calls of the ticks are all that a loop makes), `TaskLoop.cycle_scheduled`
(ticks start on a schedule that their outcomes set) and `TaskLoop.start_scheduled` (they do so up to
the time at which the loop is told to stop, and then the loop stops and calls nothing more).
-/
namespace StakeKeeper
set_option autoImplicit false

namespace TaskLoop

variable {τ σ : Type} [ScheduledTask τ]

/-! ## Ticks on a clock -/

/-- A tick of a loop that runs on a clock. -/
structure TimedTick where
  start : Nat
  /-- The calls that it made, each with its time. -/
  calls : List (Nat × Request)
  /-- An outcome, or how it broke off. -/
  ending : Ending TickOutcome

def TimedTick.HasOutcome (tick : TimedTick) : Prop := ∃ outcome, tick.ending = .done outcome

/-- The ticks of a loop's run, each in the state that the one before and the pause after it left. -/
def ticksOf (handler : Handler σ) (clock : Clock σ) (now : σ → Nat) :
    Nat → TaskLoop τ → σ → List TimedTick
  | 0, _, _ => []
  | ticks + 1, loop, s =>
    let calls := loop.tick.callsAt handler now s
    match loop.tick.runWith handler s with
    | (.done (outcome, loop), t) =>
      ⟨now s, calls, .done outcome⟩ ::
        match clock.sleep (loop.pauseAfter outcome) t with
        | (true, t) => ticksOf handler clock now ticks loop t
        | (false, _) => []
    | (.crashed c, _) => [⟨now s, calls, .crashed c⟩]
    | (.cancelled, _) => [⟨now s, calls, .cancelled⟩]

/-- The pause after a tick, given the two pauses of its loop in milliseconds: the cooldown where a
client was not in sync, else the interval. -/
def TimedTick.pause (interval cooldown : Nat) (tick : TimedTick) : Nat :=
  match tick.ending with
  | .done .executionNotSynced => cooldown
  | .done .consensusNotSynced => cooldown
  | _ => interval

theorem TimedTick.pause_cases (interval cooldown : Nat) (tick : TimedTick) :
    tick.pause interval cooldown = interval ∨ tick.pause interval cooldown = cooldown := by
  unfold pause
  split
  · exact .inr rfl
  · exact .inr rfl
  · exact .inl rfl

/-- When the next tick is due after several ticks, the first of which is due at `first`. -/
def dueAfter (interval cooldown first : Nat) : List TimedTick → Nat
  | [] => first
  | tick :: rest => dueAfter interval cooldown (first + tick.pause interval cooldown) rest

/-- Whether each tick starts when it is due. -/
def Punctual (interval cooldown first : Nat) : List TimedTick → Prop
  | [] => True
  | tick :: rest =>
    tick.start = first ∧ Punctual interval cooldown (first + tick.pause interval cooldown) rest

/-- What a run of at most `limit` ticks comes to, on a clock that shows `ended` at its end. -/
structure OnSchedule (interval cooldown first limit : Nat) (stop : Option Nat)
    (ticks : List TimedTick) (progress : Progress) (ended : Nat) : Prop where
  punctual : Punctual interval cooldown first ticks
  /-- Every tick makes a call. -/
  opened : ∀ tick ∈ ticks, tick.calls.head? = some (tick.start, .executionSync)
  called : ∀ tick ∈ ticks, ∀ call ∈ tick.calls, call.1 = tick.start
  /-- No tick starts after the loop was told to stop. -/
  before : ∀ t, stop = some t → ∀ tick ∈ ticks, tick.start < t
  /-- A loop that still runs has not been told to stop, and is where its next tick is due. -/
  running : progress = .running → ticks.length = limit ∧
    ended = dueAfter interval cooldown first ticks ∧ ∀ t, stop = some t → ended < t
  /-- A loop that has stopped did so when it was told to, with its next tick still to come. -/
  stopped : progress = .stopped →
    stop = some ended ∧ ended < dueAfter interval cooldown first ticks
  outcomes : (∀ c, progress ≠ .crashed c) → ∀ tick ∈ ticks, tick.HasOutcome
  /-- A loop that has crashed did so in its last tick, and all ticks before had an outcome. -/
  crashed : ∀ c, progress = .crashed c → ∃ past last, ticks = past ++ [last] ∧
    (∀ tick ∈ past, tick.HasOutcome) ∧ last.ending = .crashed c ∧ ended = last.start

section
variable {interval cooldown first limit ended : Nat} {stop : Option Nat} {ticks : List TimedTick}
  {progress : Progress}

theorem le_dueAfter (hinterval : 0 < interval) (hcooldown : 0 < cooldown)
    (first : Nat) (ticks : List TimedTick) :
    first + ticks.length ≤ dueAfter interval cooldown first ticks := by
  induction ticks generalizing first with
  | nil => exact Nat.le_refl first
  | cons tick rest ih =>
    have hpause : 0 < tick.pause interval cooldown := by
      obtain h | h := tick.pause_cases interval cooldown
      · rwa [h]
      · rwa [h]
    have hrest := ih (first + tick.pause interval cooldown)
    simp only [List.length_cons, dueAfter]
    omega

theorem dvd_dueAfter {unit : Nat} (hinterval : unit ∣ interval) (hcooldown : unit ∣ cooldown)
    (hfirst : unit ∣ first) (ticks : List TimedTick) :
    unit ∣ dueAfter interval cooldown first ticks := by
  induction ticks generalizing first with
  | nil => exact hfirst
  | cons tick rest ih =>
    apply ih
    apply Nat.dvd_add hfirst
    obtain h | h := tick.pause_cases interval cooldown
    · rwa [h]
    · rwa [h]

namespace OnSchedule

/-- A loop that is told to stop does so after finitely many ticks. -/
theorem not_running (h : OnSchedule interval cooldown first limit stop ticks progress ended)
    (hinterval : 0 < interval) (hcooldown : 0 < cooldown) {t : Nat} (hstop : stop = some t)
    (hlimit : t ≤ first + limit) : progress ≠ .running := by
  intro hrunning
  obtain ⟨hlength, hended, hbefore⟩ := h.running hrunning
  have hdue := le_dueAfter hinterval hcooldown first ticks
  have hlate := hbefore t hstop
  omega

theorem nil (start : ∀ t, stop = some t → first < t) :
    OnSchedule interval cooldown first 0 stop [] .running first where
  punctual := trivial
  opened := by simp
  called := by simp
  before := by simp
  running := fun _ => ⟨rfl, rfl, start⟩
  stopped := by rintro ⟨⟩
  outcomes := by simp
  crashed := by rintro c ⟨⟩

variable (tick : TimedTick) (hstart : tick.start = first)
  (hopened : tick.calls.head? = some (tick.start, .executionSync))
  (hcalled : ∀ call ∈ tick.calls, call.1 = tick.start) (start : ∀ t, stop = some t → first < t)
include hstart hopened hcalled start

theorem broken {c : Crash} (hcrash : tick.ending = .crashed c) :
    OnSchedule interval cooldown first (limit + 1) stop [tick] (.crashed c) first where
  punctual := ⟨hstart, trivial⟩
  opened := by simpa using hopened
  called := by simpa using hcalled
  before := by simpa [hstart] using start
  running := by rintro ⟨⟩
  stopped := by rintro ⟨⟩
  outcomes := fun h => absurd rfl (h c)
  crashed := by
    rintro _ ⟨⟩
    exact ⟨[], tick, rfl, by simp, hcrash, hstart.symm⟩

variable (houtcome : tick.HasOutcome)
include houtcome

theorem last {t : Nat} (hstop : stop = some t) (hdue : t < first + tick.pause interval cooldown) :
    OnSchedule interval cooldown first (limit + 1) stop [tick] .stopped t where
  punctual := ⟨hstart, trivial⟩
  opened := by simpa using hopened
  called := by simpa using hcalled
  before := by simpa [hstart] using start
  running := by rintro ⟨⟩
  stopped := fun _ => ⟨hstop, hdue⟩
  outcomes := fun _ => by simpa using houtcome
  crashed := by rintro c ⟨⟩

theorem cons (rest : OnSchedule interval cooldown (first + tick.pause interval cooldown) limit stop
    ticks progress ended) :
    OnSchedule interval cooldown first (limit + 1) stop (tick :: ticks) progress ended where
  punctual := ⟨hstart, rest.punctual⟩
  opened := List.forall_mem_cons.2 ⟨hopened, rest.opened⟩
  called := List.forall_mem_cons.2 ⟨hcalled, rest.called⟩
  before := by
    intro t hstop
    exact List.forall_mem_cons.2 ⟨hstart ▸ start t hstop, rest.before t hstop⟩
  running := by
    intro hrunning
    obtain ⟨hlength, hended, hbefore⟩ := rest.running hrunning
    exact ⟨by rw [List.length_cons, hlength], hended, hbefore⟩
  stopped := rest.stopped
  outcomes := fun h => List.forall_mem_cons.2 ⟨houtcome, rest.outcomes h⟩
  crashed := by
    intro c hc
    obtain ⟨past, last, rfl, hpast, hlast, hended⟩ := rest.crashed c hc
    exact ⟨tick :: past, last, rfl, List.forall_mem_cons.2 ⟨houtcome, hpast⟩, hlast, hended⟩

end OnSchedule

end

/-! ## A run of the loop -/

theorem head?_callsAt_tick (loop : TaskLoop τ) (handler : Handler σ) (now : σ → Nat) (s : σ) :
    (loop.tick.callsAt handler now s).head? = some (now s, .executionSync) := by
  show (Routine.callsAt handler now (.ask .executionSync _) s).head? = _
  rw [Routine.callsAt]
  rfl

theorem tick_keeps_pauses {loop next : TaskLoop τ} {history : List Step} {outcome : TickOutcome}
    (ran : loop.tick.Runs history (.done (outcome, next))) :
    next.interval = loop.interval ∧ next.cooldown = loop.cooldown := by
  cases runs_tick_iff.1 ran with
  | executionBehind _ => exact ⟨rfl, rfl⟩
  | consensusBehind _ _ => exact ⟨rfl, rfl⟩
  | synced _ _ course => cases course <;> exact ⟨rfl, rfl⟩

section
variable {handler : Handler σ} {clock : Clock σ} {now : σ → Nat} {fair : σ → Prop}
  {stop : Option Nat} {interval cooldown : Nat}

/-- The calls of its ticks are all that a loop makes. -/
theorem cycle_logs {log : σ → List (Nat × Request)} (logs : handler.Logs now log)
    (silent : clock.Silent log) (limit : Nat) (loop : TaskLoop τ) (s : σ) :
    log (loop.cycle handler clock limit s).2 =
      log s ++ (loop.ticksOf handler clock now limit s).flatMap TimedTick.calls := by
  induction limit generalizing loop s with
  | zero => exact (List.append_nil _).symm
  | succ limit ih =>
    have hlog := logs.runWith loop.tick s
    unfold cycle ticksOf
    generalize loop.tick.runWith handler s = played at hlog ⊢
    obtain ⟨ending, s₁⟩ := played
    cases ending with
    | crashed c => simpa using hlog
    | cancelled => simpa [logs.noted] using hlog
    | done result =>
      obtain ⟨outcome, next⟩ := result
      have hslept := silent (next.pauseAfter outcome) s₁
      dsimp only at hlog hslept ⊢
      generalize clock.sleep (next.pauseAfter outcome) s₁ = sleep at hslept ⊢
      obtain ⟨woke, s₂⟩ := sleep
      cases woke with
      | true => simp [ih, hslept, hlog]
      | false => simp [logs.noted, hslept, hlog]

omit [ScheduledTask τ] in
theorem exact_pause {loop : TaskLoop τ}
    (hinterval : clock.Exact now fair stop loop.interval interval)
    (hcooldown : clock.Exact now fair stop loop.cooldown cooldown) (tick : TimedTick)
    {outcome : TickOutcome} (houtcome : tick.ending = .done outcome) :
    clock.Exact now fair stop (loop.pauseAfter outcome) (tick.pause interval cooldown) := by
  unfold TimedTick.pause
  rw [houtcome]
  cases outcome with
  | executionNotSynced => exact hcooldown
  | consensusNotSynced => exact hcooldown
  | snapshotFailed => exact hinterval
  | completed failed => exact hinterval

/-- Each tick of a loop starts when the one before says, and the loop ends with its last one or in
the pause after it. -/
theorem cycle_scheduled (prompt : handler.Prompt now fair) (limit : Nat) (loop : TaskLoop τ) {s : σ}
    {first : Nat} (hs : fair s) (hfirst : now s = first)
    (hinterval : clock.Exact now fair stop loop.interval interval)
    (hcooldown : clock.Exact now fair stop loop.cooldown cooldown)
    (start : ∀ t, stop = some t → first < t)
    (off : ∀ t, stop = some t → ∀ n,
      dueAfter interval cooldown first (loop.ticksOf handler clock now n s) ≠ t) :
    OnSchedule interval cooldown first limit stop (loop.ticksOf handler clock now limit s)
      (loop.cycle handler clock limit s).1 (now (loop.cycle handler clock limit s).2) := by
  induction limit generalizing loop s first with
  | zero =>
    show OnSchedule interval cooldown first 0 stop [] .running (now s)
    rw [hfirst]
    exact .nil start
  | succ limit ih =>
    have hopened := loop.head?_callsAt_tick handler now s
    have hcalled := prompt.callsAt loop.tick hs
    obtain ⟨hfair, hnow, hend⟩ := prompt.runWith loop.tick hs
    have offNext (t : Nat) (hstop : stop = some t) (n : Nat) := off t hstop (n + 1)
    clear off
    rw [hfirst] at hopened hcalled hnow
    unfold ticksOf at offNext
    unfold cycle ticksOf
    rw [hfirst] at offNext ⊢
    generalize hplayed : loop.tick.runWith handler s = played at *
    obtain ⟨ending, s₁⟩ := played
    cases ending with
    | crashed c =>
      dsimp only at hnow ⊢
      rw [hnow]
      exact .broken ⟨first, _, .crashed c⟩ rfl hopened hcalled start rfl
    | cancelled => exact absurd rfl hend
    | done result =>
      obtain ⟨outcome, next⟩ := result
      obtain ⟨history, ran⟩ := Routine.runs_of_runWith hplayed
      obtain ⟨sameInterval, sameCooldown⟩ := tick_keeps_pauses ran
      rw [← sameInterval] at hinterval
      rw [← sameCooldown] at hcooldown
      let tick : TimedTick := ⟨first, loop.tick.callsAt handler now s, .done outcome⟩
      have hpause := exact_pause hinterval hcooldown tick rfl
      have offPause (t : Nat) (hstop : stop = some t) :
          first + tick.pause interval cooldown ≠ t := by
        have h := offNext t hstop 0
        dsimp only at h
        split at h <;> exact h
      have slept := hpause.ends hfair hnow start offPause
      have hleft := hpause.left s₁ hfair
      dsimp only at offNext ⊢
      generalize clock.sleep (next.pauseAfter outcome) s₁ = sleep at *
      obtain ⟨woke, s₂⟩ := sleep
      obtain ⟨rfl, hdue, hlate⟩ | ⟨rfl, t, hstop, hlt, hended⟩ := slept
      · have hrest := ih next hleft hdue hinterval hcooldown hlate offNext
        exact .cons tick rfl hopened hcalled start ⟨outcome, rfl⟩ hrest
      · have hnote := (prompt.noted .loopStopped s₂ hleft).2
        dsimp only
        rw [hnote, hended]
        exact .last tick rfl hopened hcalled start ⟨outcome, rfl⟩ hstop hlt

/-- The state in which the first tick of a loop starts. -/
def started (handler : Handler σ) (loop : TaskLoop τ) (s : σ) : σ :=
  handler.note (.loopStarted loop.names loop.interval) s

/-- A loop that starts at time zero ticks on schedule, and the calls of its ticks are all that it
makes, whoever keeps a log of them. A request to stop ends it on time, and after that nothing is
called; without one it goes on unless a tick breaks off. -/
theorem start_scheduled (prompt : handler.Prompt now fair) (loop : TaskLoop τ) {s : σ}
    (hs : fair s) (zero : now s = 0)
    (hinterval : clock.Exact now fair stop loop.interval interval) (interval_pos : 0 < interval)
    (hcooldown : clock.Exact now fair stop loop.cooldown cooldown) (cooldown_pos : 0 < cooldown)
    (off : ∀ t, stop = some t → ∀ n, dueAfter interval cooldown 0
      (loop.ticksOf handler clock now n (loop.started handler s)) ≠ t) (limit : Nat) :
    let ticks := loop.ticksOf handler clock now limit (loop.started handler s)
    let run := loop.start handler clock limit s
    OnSchedule interval cooldown 0 limit stop ticks run.1 (now run.2) ∧
      (∀ log, handler.Logs now log → clock.Silent log →
        log run.2 = log s ++ ticks.flatMap TimedTick.calls) ∧
      (∀ t, stop = some t → (∀ call ∈ ticks.flatMap TimedTick.calls, call.1 < t) ∧
        (t ≤ limit → run.1 ≠ .running)) ∧
      (stop = none → run.1 ≠ .stopped) := by
  intro ticks run
  obtain ⟨hfair, hnow⟩ := prompt.noted (.loopStarted loop.names loop.interval) s hs
  have hstart : ∀ t, stop = some t → 0 < t := fun t hstop =>
    Nat.pos_of_ne_zero (Ne.symm (off t hstop 0))
  have onSchedule : OnSchedule interval cooldown 0 limit stop ticks run.1 (now run.2) :=
    cycle_scheduled prompt limit loop hfair (hnow.trans zero) hinterval hcooldown hstart off
  refine ⟨onSchedule, ?_, ?_, ?_⟩
  · intro log logs silent
    rw [← logs.noted (.loopStarted loop.names loop.interval) s]
    exact cycle_logs logs silent limit loop _
  · intro t hstop
    refine ⟨?_, fun hlimit =>
      onSchedule.not_running interval_pos cooldown_pos hstop (by omega)⟩
    intro call hcall
    obtain ⟨tick, htick, hmade⟩ := List.mem_flatMap.1 hcall
    rw [onSchedule.called tick htick call hmade]
    exact onSchedule.before t hstop tick htick
  · intro hnone hstopped
    have hstop := (onSchedule.stopped hstopped).1
    rw [hnone] at hstop
    cases hstop

end

section
open Devnet.Rehearsal

/-- A consensus client that falls behind for one tick, and a request to stop some ticks later. -/
def briefLapse : Devnet.Rehearsal :=
  { Devnet.Rehearsal.new (.new ⟨7, Bytes.zero 32, 1⟩ ⟨.zero, .zero, .zero⟩ (Bytes.zero 20)
      ⟨1, 12, 32, Bytes.zero 4⟩) with
    agenda := [⟨299000, "behind", some (.consensusSynced false)⟩,
      ⟨305000, "in sync", some (.consensusSynced true)⟩]
    stopAt := some 315005 }

/-- The loop ticks three times, with a short pause after the second tick, and stops when it is told
to. The rehearsal's record holds the calls of these ticks and no others. -/
theorem start_scheduled_briefLapse :
    let loop := ofConfig .default (Bytes.zero 20)
    let ticks := loop.ticksOf handler clock now 315005 (loop.started handler briefLapse)
    let run := loop.start handler clock 315005 briefLapse
    OnSchedule 300000 10000 0 315005 (some 315005) ticks run.1 run.2.now ∧ run.1 = .stopped ∧
      ticks.map (·.start) = [0, 300000, 310000] ∧ run.2.calls = ticks.flatMap TimedTick.calls ∧
        ∀ call ∈ run.2.calls, call.1 < 315005 := by
  intro loop ticks run
  have fair : Fair (some 315005) briefLapse := by
    refine ⟨rfl, by simp [briefLapse, new], ?_⟩
    simp [briefLapse]
  have off (t : Nat) (hstop : some 315005 = some t) (n : Nat) :
      dueAfter 300000 10000 0
        (loop.ticksOf handler clock now n (loop.started handler briefLapse)) ≠ t := by
    cases hstop
    intro hdue
    have hdvd : 10000 ∣ 315005 := hdue ▸ dvd_dueAfter (by decide) (by decide) (by decide) _
    omega
  have hinterval : clock.Exact _ _ (some 315005) (.ofSecs 300) 300000 :=
    clock_exact _ (by decide) (by decide)
  have hcooldown : clock.Exact _ _ (some 315005) (.ofSecs 10) 10000 :=
    clock_exact _ (by decide) (by decide)
  obtain ⟨onSchedule, logged, told, _⟩ := start_scheduled (prompt (some 315005)) loop fair rfl
    hinterval (by decide) hcooldown (by decide) off 315005
  have hcalls := logged Devnet.Rehearsal.calls logs clock_silent
  rw [show briefLapse.calls = [] from rfl, List.nil_append] at hcalls
  refine ⟨onSchedule, by decide +kernel, by decide +kernel, hcalls, ?_⟩
  rw [hcalls]
  exact (told 315005 rfl).1

end

end TaskLoop

end StakeKeeper
