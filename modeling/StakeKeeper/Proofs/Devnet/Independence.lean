import StakeKeeper.Devnet.Rehearsal
import StakeKeeper.Proofs.Devnet.Ticking

/-!
What the daemon uploads does not depend on what it stakes. Main statements: `World.drive_uploads`
(what was uploaded stays on record), `Alike.move` (worlds that differ only in what staking sees stay
so) and `exits_independent` (two daemons whose worlds differ so upload the same exits).
-/
namespace StakeKeeper.Devnet
set_option autoImplicit false

-- The range of instants is never computed with below.
seal Instant.ofNanos?

/-! ## Worlds -/

/-- A daemon and the collaborators around it. -/
structure World where
  net : Net
  /-- None once the daemon has crashed. -/
  loop : Option (TaskLoop DaemonTask)

/-- What may happen next. -/
inductive Move where
  | change (change : Change)
  | tick

/-- The world after a tick that ended and left the collaborators like this. -/
def World.after : Ending (TickOutcome × TaskLoop DaemonTask) → Net → World
  | .done (_, loop), net => ⟨net, some loop⟩
  | _, net => ⟨net, none⟩

/-- The collaborators after a change, as they are if it cannot be made. -/
def Net.changed (n : Net) (change : Change) : Net :=
  ((Rehearsal.changeNet n change).map Prod.fst).getD n

/-- The world after a move. After a crash a tick leaves it as it is. -/
def World.move (w : World) : Move → World
  | .change change => { w with net := w.net.changed change }
  | .tick =>
    match w.loop with
    | none => w
    | some loop =>
      let (ending, net) := loop.tick.runWith Net.handler w.net
      .after ending net

def World.drive (w : World) (moves : List Move) : World := moves.foldl World.move w

theorem World.drive_cons (w : World) (m : Move) (rest : List Move) :
    w.drive (m :: rest) = (w.move m).drive rest := rfl

/-- Whether a move changes only what staking sees: the wallet, the fees or a simulation. -/
def Move.isForStaking : Move → Bool
  | .change (.walletReady _) => true
  | .change (.setFee _) => true
  | .change (.failSimulation _) => true
  | _ => false

/-- The times that a move brings are in the range of instants. -/
def Move.InRange (settings : NetworkSettings) : Move → Prop
  | .change (.advance timestamp) => ∃ now, Instant.ofSecs? timestamp = some now
  | .change (.addMinipool r) => r.status = .prelaunch →
    ∃ e, (r.shown r.node).reviewEnd? settings.scrubPeriod.floorSecs = some e
  | _ => True

theorem World.after_net (ending : Ending (TickOutcome × TaskLoop DaemonTask)) (n : Net) :
    (World.after ending n).net = n := by
  rcases ending with ⟨_, _⟩ | c | _ <;> rfl

theorem World.move_tick_net (n : Net) (loop : TaskLoop DaemonTask) :
    (World.move ⟨n, some loop⟩ .tick).net = (loop.tick.runWith Net.handler n).2 :=
  World.after_net _ _

/-! ## The record of uploads -/

theorem answer_uploads (n : Net) (q : Request) :
    n.service.uploads <+: (n.answer q).2.service.uploads := by
  cases q with
  | uploadExits exits => exact List.prefix_append _ _
  | submit sender txs fees =>
    have hservice : (n.answer (.submit sender txs fees)).2.service = n.service := by
      cases hs : n.chain.submit? txs fees with
      | none => rw [Net.answer_submit_none sender hs]
      | some r => rw [Net.answer_submit_some sender hs]
    exact hservice ▸ List.prefix_refl _
  | _ => exact List.prefix_refl _

theorem runWith_uploads {α : Type} (m : Routine α) (n : Net) :
    n.service.uploads <+: (m.runWith Net.handler n).2.service.uploads := by
  induction m generalizing n with
  | done a => exact List.prefix_refl _
  | noteThen e next ih => exact ih n
  | crash c => exact List.prefix_refl _
  | ask q next ih =>
    have hanswer : n.service.uploads <+: (Net.handler.answer q n).2.service.uploads :=
      answer_uploads n q
    rw [Routine.runWith_ask]
    generalize Net.handler.answer q n = answered at hanswer ⊢
    rcases answered with ⟨r | c | _, left⟩
    · exact hanswer.trans (ih r left)
    · exact hanswer
    · exact hanswer

theorem changed_service_uploads (n : Net) (change : Change) :
    (n.changed change).service.uploads = n.service.uploads := by
  cases change with
  | advance timestamp =>
    rw [Net.changed, Rehearsal.changeNet]
    cases n.chain.advance? timestamp <;> rfl
  | setFinalized epoch =>
    rw [Net.changed, Rehearsal.changeNet]
    cases n.beacon.finalize? epoch <;> rfl
  | _ => rfl

/-- What was uploaded stays on record. -/
theorem World.drive_uploads (w : World) (moves : List Move) :
    w.net.service.uploads <+: (w.drive moves).net.service.uploads := by
  induction moves generalizing w with
  | nil => exact List.prefix_refl _
  | cons m rest ih =>
    refine List.IsPrefix.trans ?_ (ih (w.move m))
    obtain ⟨n, loop⟩ := w
    cases m with
    | change change =>
      exact changed_service_uploads n change ▸ List.prefix_refl _
    | tick =>
      cases loop with
      | none => exact List.prefix_refl _
      | some loop =>
        rw [World.move_tick_net]
        exact runWith_uploads loop.tick n

/-! ## What exits depend on -/

/-- The collaborators without what only staking sees, and without what it changes. -/
def Net.settled (n : Net) : Net := { n.still with chain := n.chain.settled, walletReady := true }

section
variable {n n' : Net} (same : n.settled = n'.settled)
include same

theorem Net.chain_of_settled : n.chain.settled = n'.chain.settled := by
  have hsame := congrArg Net.chain same
  exact hsame

theorem Net.beacon_of_settled : n.beacon.still = n'.beacon.still := by
  have hsame := congrArg Net.beacon same
  exact hsame

theorem Net.keys_of_settled : n.keys = n'.keys := by
  have hsame := congrArg Net.keys same
  exact hsame

theorem Net.service_of_settled : n.service = n'.service := by
  have hsame := congrArg Net.service same
  exact hsame

theorem Net.synced_of_settled : (n.chain.synced = true ∧ n.beacon.synced = true) =
    (n'.chain.synced = true ∧ n'.beacon.synced = true) := by
  have hsame := congrArg (fun m : Net => m.chain.synced = true ∧ m.beacon.synced = true) same
  exact hsame

end

theorem map_settled_settled (records : List MinipoolRecord) :
    (records.map MinipoolRecord.settled).map MinipoolRecord.settled =
      records.map MinipoolRecord.settled := by
  have hrecord (r : MinipoolRecord) : r.settled.settled = r.settled := by
    by_cases h : r.status = .prelaunch ∨ r.status = .staking
    · rw [MinipoolRecord.settled_of_open h]
      exact MinipoolRecord.settled_of_open (.inr rfl)
    · rw [MinipoolRecord.settled_of_not h, MinipoolRecord.settled_of_not h]
  rw [List.map_map]
  exact List.map_congr_left fun r _ => hrecord r

theorem advance?_settled (c : Chain) (timestamp : UInt64) :
    c.settled.advance? timestamp = (c.advance? timestamp).map Chain.settled := by
  have hsame : c.settled.header = c.header := rfl
  unfold Chain.advance?
  rw [hsame]
  split <;> rfl

theorem finalize?_still (b : Beacon) (epoch : UInt64) :
    b.still.finalize? epoch = (b.finalize? epoch).map Beacon.still := by
  have hconfig : b.still.config = b.config := rfl
  unfold Beacon.finalize?
  dsimp only
  rw [hconfig]
  split <;> rfl

theorem changeNet_settled (n : Net) (change : Change) :
    (Rehearsal.changeNet n.settled change).map (·.1.settled) =
      (Rehearsal.changeNet n change).map (·.1.settled) := by
  cases change with
  | advance timestamp =>
    have hthere : n.settled.chain.advance? timestamp = _ := advance?_settled n.chain timestamp
    rw [Rehearsal.changeNet, Rehearsal.changeNet, hthere]
    cases n.chain.advance? timestamp with
    | none => rfl
    | some c =>
      simp only [Option.map_some, Net.settled, Net.still, Chain.settled, Chain.still,
        Beacon.still, map_settled_settled]
  | setFinalized epoch =>
    have hthere : n.settled.beacon.finalize? epoch = _ := finalize?_still n.beacon epoch
    rw [Rehearsal.changeNet, Rehearsal.changeNet, hthere]
    cases n.beacon.finalize? epoch with
    | none => rfl
    | some b =>
      simp only [Option.map_some, Net.settled, Net.still, Chain.settled, Chain.still,
        Beacon.still, map_settled_settled]
  | _ =>
    simp only [Rehearsal.changeNet, Net.settled, Net.still, Chain.settled, Chain.still,
      Beacon.still, List.map_append, map_settled_settled, Option.map_some]

theorem changed_settled {n n' : Net} (h : n.settled = n'.settled) (change : Change) :
    (n.changed change).settled = (n'.changed change).settled := by
  have hsame : (Rehearsal.changeNet n change).map (·.1.settled) =
      (Rehearsal.changeNet n' change).map (·.1.settled) := by
    rw [← changeNet_settled n, h, changeNet_settled]
  unfold Net.changed
  cases hn : Rehearsal.changeNet n change with
  | none =>
    rw [hn] at hsame
    rw [Option.map_eq_none_iff.1 hsame.symm]
    exact h
  | some left =>
    rw [hn] at hsame
    obtain ⟨left', hleft', hsettled⟩ := Option.map_eq_some_iff.1 hsame.symm
    rw [hleft']
    exact hsettled.symm

theorem changed_forStaking (n : Net) {change : Change}
    (h : (Move.change change).isForStaking = true) : (n.changed change).settled = n.settled := by
  cases change with
  | walletReady _ => rfl
  | setFee _ => rfl
  | failSimulation _ => rfl
  | _ => cases h

/-! ### Times in range -/

/-- No minipool gets into prelaunch by a batch. -/
theorem mem_of_mem_foldl {now : Instant} {txs : List TransactionRequest} {ms : List MinipoolRecord}
    {r : MinipoolRecord} (hs : r.status = .prelaunch)
    (h : r ∈ txs.foldl (fun ms tx => Chain.stakeFirst tx.recipient now ms) ms) : r ∈ ms := by
  have hfirst (a : Address) (ms : List MinipoolRecord) (h : r ∈ Chain.stakeFirst a now ms) :
      r ∈ ms := by
    induction ms with
    | nil => cases h
    | cons first rest ih =>
      unfold Chain.stakeFirst at h
      split at h
      · rcases List.mem_cons.1 h with rfl | h
        · cases hs
        · exact List.mem_cons_of_mem first h
      · rcases List.mem_cons.1 h with rfl | h
        · exact List.mem_cons_self
        · exact List.mem_cons_of_mem first (ih h)
  induction txs generalizing ms with
  | nil => exact h
  | cons tx txs ih => exact hfirst _ _ (ih h)

theorem execute_inRange {n : Net} (inRange : n.chain.InRange)
    (batch : Option (Instant × List StakeEntry × FeeSettings)) :
    (n.execute batch).chain.InRange := by
  refine ⟨?_, fun r hr hs => ?_⟩
  · rw [Net.execute_header]
    exact inRange.time
  rw [Net.execute_settings]
  refine inRange.reviews r ?_ hs
  rcases batch with _ | ⟨now, batch, fees⟩
  · exact hr
  · exact mem_of_mem_foldl hs hr

theorem changed_inRange {n : Net} (inRange : n.chain.InRange) (change : Change)
    (h : (Move.change change).InRange n.chain.settings) :
    (n.changed change).chain.InRange ∧ (n.changed change).chain.settings = n.chain.settings := by
  cases change with
  | addMinipool r =>
    refine ⟨⟨inRange.time, fun s hs hprelaunch => ?_⟩, rfl⟩
    rcases List.mem_append.1 hs with hs | hs
    · exact inRange.reviews s hs hprelaunch
    · cases List.mem_singleton.1 hs
      exact h hprelaunch
  | advance timestamp =>
    unfold Net.changed
    rw [Rehearsal.changeNet]
    unfold Chain.advance?
    split
    · exact ⟨⟨h, inRange.reviews⟩, rfl⟩
    · exact ⟨inRange, rfl⟩
  | setFinalized epoch =>
    unfold Net.changed
    rw [Rehearsal.changeNet]
    cases n.beacon.finalize? epoch
    · exact ⟨inRange, rfl⟩
    · exact ⟨inRange, rfl⟩
  | _ => exact ⟨⟨inRange.time, inRange.reviews⟩, rfl⟩

/-! ## Two daemons -/

/-- Worlds that differ only in what staking sees and does, with all times in range. -/
structure Alike (settings : NetworkSettings) (w w' : World) : Prop where
  net : w.net.settled = w'.net.settled
  inRange : w.net.chain.InRange
  inRange' : w'.net.chain.InRange
  settings : w.net.chain.settings = settings
  loop : w.loop = none ∧ w'.loop = none ∨
    ∃ loop loop' stake stake' exit, w.loop = some loop ∧ w'.loop = some loop' ∧
      Standard loop stake exit ∧ Standard loop' stake' exit ∧ loop.runner = loop'.runner

section
variable {settings : NetworkSettings} {w w' v v' : World} {n n' : Net}
  {loop loop' : TaskLoop DaemonTask} {stake stake' : StakeTask} {exit : ExitTask}

theorem Alike.symm (h : Alike settings w w') : Alike settings w' w := by
  have hsettings : w.net.chain.settings = w'.net.chain.settings :=
    congrArg (·.chain.settings) h.net
  refine ⟨h.net.symm, h.inRange', h.inRange, hsettings ▸ h.settings, ?_⟩
  rcases h.loop with ⟨hnone, hnone'⟩ | ⟨loop, loop', stake, stake', exit, hloop, hloop', hl, hl', hr⟩
  · exact .inl ⟨hnone', hnone⟩
  · exact .inr ⟨loop', loop, stake', stake, exit, hloop', hloop, hl', hl, hr.symm⟩

theorem settled_of_still (h : n.still = n'.still) : n.settled = n'.settled := by
  have hsame := congrArg Net.settled h
  exact hsame

theorem inRange_of_still (h : n.still = n'.still) (inRange : n'.chain.InRange) :
    n.chain.InRange := by
  have hstill : n'.still.chain.InRange := ⟨inRange.time, inRange.reviews⟩
  rw [← h] at hstill
  exact ⟨hstill.time, hstill.reviews⟩

theorem Alike.of_still (hw : w.net.still = v.net.still) (hloop : w.loop = v.loop)
    (hw' : w'.net.still = v'.net.still) (hloop' : w'.loop = v'.loop) (h : Alike settings v v') :
    Alike settings w w' := by
  have hsettings : w.net.chain.settings = v.net.chain.settings :=
    congrArg (·.chain.settings) hw
  refine ⟨?_, inRange_of_still hw h.inRange, inRange_of_still hw' h.inRange',
    hsettings.trans h.settings, ?_⟩
  · rw [settled_of_still hw, settled_of_still hw', h.net]
  · rw [hloop, hloop']
    exact h.loop

theorem settled_executed (n : Net) (task : StakeTask) (node : Address) (addresses : List Address)
    (service : Service) :
    ({ n.execute (n.batch? task (addresses.map (n.chain.shownAt node))) with
      service } : Net).settled = { n.settled with service } := by
  have hchain := n.execute_settled task node addresses
  rw [Net.execute_eq]
  show ({ n.settled with
    chain := (n.execute (n.batch? task (addresses.map (n.chain.shownAt node)))).chain.settled
    service } : Net) = _
  rw [hchain]
  rfl

/-- A tick leaves worlds alike: the same exits are uploaded, whatever is staked. -/
theorem tick_alike (same : n.settled = n'.settled) (inRange : n.chain.InRange)
    (inRange' : n'.chain.InRange) (standard : Standard loop stake exit)
    (standard' : Standard loop' stake' exit) (hrunner : loop.runner = loop'.runner) :
    ∃ ending ending' m m', loop.tick.Plays n ending m ∧ loop'.tick.Plays n' ending' m' ∧
      Alike n.chain.settings (.after ending m) (.after ending' m') := by
  have hchain := Net.chain_of_settled same
  have hsynced := Net.synced_of_settled same
  by_cases synced : n.chain.synced = true ∧ n.beacon.synced = true
  case neg =>
    obtain ⟨outcome, _, hplays⟩ := tick_plays_unsynced loop synced
    obtain ⟨outcome', _, hplays'⟩ := tick_plays_unsynced loop' (hsynced ▸ synced)
    exact ⟨_, _, n, n', hplays, hplays', same, inRange, inRange', rfl,
      .inr ⟨loop, loop', stake, stake', exit, rfl, rfl, standard, standard', hrunner⟩⟩
  have synced' : n'.chain.synced = true ∧ n'.beacon.synced = true := hsynced ▸ synced
  rcases Chain.gathered_of_settled hchain loop.runner with
    ⟨addresses, hfound, hfound'⟩ | ⟨e, he, he'⟩ | ⟨c, hc, hc'⟩
  case inr.inl =>
    rw [hrunner] at he'
    exact ⟨_, _, n, n', tick_plays_error synced he, tick_plays_error synced' he', same, inRange,
      inRange', rfl,
      .inr ⟨loop, loop', stake, stake', exit, rfl, rfl, standard, standard', hrunner⟩⟩
  case inr.inr =>
    rw [hrunner] at hc'
    exact ⟨_, _, n, n', tick_plays_crashed synced hc, tick_plays_crashed synced' hc', same, inRange,
      inRange', rfl, .inl ⟨rfl, rfl⟩⟩
  -- Both find the same minipools, and it does not matter to exits which of them are staked.
  obtain ⟨⟨result, last, hstake⟩, _, left, service, hexit⟩ :=
    Net.runs_end inRange stake exit loop.runner.node addresses
  obtain ⟨⟨result', last', hstake'⟩, _⟩ :=
    Net.runs_end inRange' stake' exit loop.runner.node addresses
  have hexit' := hexit
  rw [Net.exited_execute, Chain.header_of_settled hchain, Net.exited_congr
    (Net.beacon_of_settled same) (Net.keys_of_settled same) (Net.service_of_settled same)
    (Chain.shown_of_settled hchain loop.runner.node addresses), ← Net.exited_execute] at hexit'
  have hplays := tick_plays_completed standard synced hfound hstake hexit
  have hplays' := tick_plays_completed standard' synced' (hrunner ▸ hfound') hstake' hexit'
  refine ⟨_, _, _, _, hplays, hplays', ?_, execute_inRange inRange _, execute_inRange inRange' _,
    Net.execute_settings _ _, .inr ⟨_, _, _, _, _, rfl, rfl, ⟨rfl, ?_⟩, ⟨rfl, ?_⟩, hrunner⟩⟩
  · show ({ n.execute _ with service } : Net).settled =
      ({ n'.execute _ with service } : Net).settled
    rw [settled_executed, settled_executed, same]
  · exact (Net.stakeEnding_kept hstake).1.trans standard.runner
  · exact (Net.stakeEnding_kept hstake').1.trans standard'.runner

theorem Alike.move_tick (h : Alike settings w w') :
    Alike settings (w.move .tick) (w'.move .tick) := by
  obtain ⟨n, loop⟩ := w
  obtain ⟨n', loop'⟩ := w'
  rcases h.loop with ⟨hnone, hnone'⟩ | ⟨loop, loop', stake, stake', exit, hloop, hloop', hl, hl', hr⟩
  · cases hnone
    cases hnone'
    exact h
  cases hloop
  cases hloop'
  obtain ⟨ending, ending', m, m', hplays, hplays', alike⟩ :=
    tick_alike h.net h.inRange h.inRange' hl hl' hr
  have hafter {loop : TaskLoop DaemonTask} {n m : Net} {ending} (h : loop.tick.Plays n ending m) :
      (World.move ⟨n, some loop⟩ .tick).net.still = (World.after ending m).net.still ∧
        (World.move ⟨n, some loop⟩ .tick).loop = (World.after ending m).loop := by
    obtain ⟨rfl, hleft⟩ := h
    show (World.after _ _).net.still = _ ∧ (World.after _ _).loop = _
    cases (loop.tick.runWith Net.handler n).1 with
    | done r => exact ⟨hleft, rfl⟩
    | crashed c => exact ⟨hleft, rfl⟩
    | cancelled => exact ⟨hleft, rfl⟩
  rw [← show n.chain.settings = settings from h.settings]
  exact alike.of_still (hafter hplays).1 (hafter hplays).2 (hafter hplays').1 (hafter hplays').2

/-- The same move leaves worlds alike that were so before. -/
theorem Alike.move (h : Alike settings w w') {m : Move} (inRange : m.InRange settings) :
    Alike settings (w.move m) (w'.move m) := by
  cases m with
  | tick => exact h.move_tick
  | change change =>
    have hsettings : w'.net.chain.settings = settings := h.symm.settings
    obtain ⟨hinRange, hsame⟩ := changed_inRange h.inRange change (h.settings ▸ inRange)
    obtain ⟨hinRange', _⟩ := changed_inRange h.inRange' change (hsettings ▸ inRange)
    exact ⟨changed_settled h.net change, hinRange, hinRange', hsame.trans h.settings, h.loop⟩

theorem Alike.move_left (h : Alike settings w w') {m : Move} (hm : m.isForStaking = true) :
    Alike settings (w.move m) w' := by
  cases m with
  | tick => cases hm
  | change change =>
    have inRange : (Move.change change).InRange w.net.chain.settings := by
      cases change with
      | walletReady _ => trivial
      | setFee _ => trivial
      | failSimulation _ => trivial
      | _ => cases hm
    obtain ⟨hinRange, hsame⟩ := changed_inRange h.inRange change inRange
    exact ⟨(changed_forStaking w.net hm).trans h.net, hinRange, h.inRange', hsame.trans h.settings,
      h.loop⟩

theorem Alike.drive_left (h : Alike settings w w') {moves : List Move}
    (hmoves : ∀ m ∈ moves, m.isForStaking = true) : Alike settings (w.drive moves) w' := by
  induction moves generalizing w with
  | nil => exact h
  | cons m rest ih =>
    exact ih (h.move_left (hmoves m List.mem_cons_self)) fun m hm =>
      hmoves m (List.mem_cons_of_mem _ hm)

theorem Alike.drive (h : Alike settings w w') {moves moves' : List Move}
    (inRange : ∀ m ∈ moves, m.InRange settings)
    (same : moves.filter (!·.isForStaking) = moves'.filter (!·.isForStaking)) :
    Alike settings (w.drive moves) (w'.drive moves') := by
  induction moves generalizing w w' moves' with
  | nil =>
    refine (h.symm.drive_left fun m hm => ?_).symm
    have hnone := List.filter_eq_nil_iff.1 same.symm m hm
    simpa using hnone
  | cons m rest ih =>
    have later : ∀ m ∈ rest, m.InRange settings := fun m hm =>
      inRange m (List.mem_cons_of_mem _ hm)
    cases hm : m.isForStaking with
    | true =>
      rw [List.filter_cons_of_neg (by rw [hm]; decide)] at same
      exact ih (h.move_left hm) later same
    | false =>
      rw [List.filter_cons_of_pos (by rw [hm]; decide)] at same
      obtain ⟨others, rest', rfl, hothers, _, hrest⟩ := List.filter_eq_cons_iff.1 same.symm
      have hleft : Alike settings w (w'.drive others) :=
        (h.symm.drive_left fun m hm => by simpa using hothers m hm).symm
      have hdrive : w'.drive (others ++ m :: rest') = ((w'.drive others).move m).drive rest' := by
        unfold World.drive
        rw [List.foldl_append]
        rfl
      rw [hdrive]
      exact ih (hleft.move (inRange m List.mem_cons_self)) later hrest.symm

end

/-- Two daemons whose worlds and moves differ only in what staking sees have uploaded the same
exits, and hold the same exits for sent. -/
theorem exits_independent {n : Net} {config : Config} {node : Address} {moves moves' : List Move}
    (ready : Bool) (fee : FeeEstimate) (reverting : List Address) (policy : StakePolicy)
    (inRange : n.chain.InRange) (later : ∀ m ∈ moves, m.InRange n.chain.settings)
    (same : moves.filter (!·.isForStaking) = moves'.filter (!·.isForStaking)) :
    let here := World.drive ⟨n, some (.ofConfig config node)⟩ moves
    let there := World.drive
      ⟨{ n with walletReady := ready, chain := { n.chain with fee, reverting } },
        some (.ofConfig { config with stakePolicy := policy } node)⟩ moves'
    here.net.service = there.net.service ∧
      here.loop.map exitCaches = there.loop.map exitCaches := by
  intro here there
  have start : Alike n.chain.settings ⟨n, some (.ofConfig config node)⟩
      ⟨{ n with walletReady := ready, chain := { n.chain with fee, reverting } },
        some (.ofConfig { config with stakePolicy := policy } node)⟩ := by
    refine ⟨rfl, inRange, ⟨inRange.time, inRange.reviews⟩, rfl, .inr ?_⟩
    exact ⟨_, _, _, _, .fresh, rfl, rfl, ⟨rfl, rfl⟩, ⟨rfl, rfl⟩, rfl⟩
  have alike : Alike n.chain.settings here there := start.drive later same
  refine ⟨?_, ?_⟩
  · exact Net.service_of_settled alike.net
  · rcases alike.loop with ⟨hnone, hnone'⟩ | ⟨loop, loop', _, _, exit, hloop, hloop', hl, hl', _⟩
    · rw [hnone, hnone']
    · rw [hloop, hloop']
      show some (exitCaches loop) = some (exitCaches loop')
      unfold exitCaches
      rw [hl.tasks, hl'.tasks]
      rfl

/-- Collaborators around a minipool that is due, whose validator has an index and a key. -/
def watchedNet (key : ValidatorKey) : Net :=
  { dueNet key [] [] [] with
    beacon := { Beacon.new ⟨0, 12, 32, Bytes.zero 4⟩ with
      statuses := Registry.empty.insert key.pubkey ⟨some 5, 32, .activeOngoing⟩ }
    keys := ⟨Registry.empty.insert key.pubkey key.toBytes⟩ }

theorem watchedNet_time (key : ValidatorKey) :
    (watchedNet key).chain.header.time? = some StakeTask.dueTime :=
  (StakeTask.dueView_eligible key).time

theorem watchedNet_inRange (key : ValidatorKey) : (watchedNet key).chain.InRange := by
  refine ⟨⟨_, watchedNet_time key⟩, fun r hr _ => ?_⟩
  cases List.mem_singleton.1 hr
  refine ⟨StakeTask.dueTime, Instant.add?_eq_some_iff.2 ?_⟩
  show Instant.epoch.wholeSecs.nanos + (Duration.ofSecs 1).floorSecs.nanos = _
  decide

theorem watchedNet_exited {key : ValidatorKey} (hkey : key.pubkey ≠ Bytes.zero 48)
    {time : Option Instant} (timely : time.isNone = false) :
    ((watchedNet key).exited .fresh time
      ([Bytes.zero 20].map ((watchedNet key).chain.shownAt (Bytes.zero 20)))).2.uploads ≠ [] := by
  let listed : Net := { watchedNet key with service := (watchedNet key).service.list.2 }
  let found := [Bytes.zero 20].map ((watchedNet key).chain.shownAt (Bytes.zero 20))
  let cache := (watchedNet key).service.loadedInto .empty
  let candidates := exitCandidates cache found
  have hcache : cache.sent = [] := by
    show (ExitCache.markAll .empty (uploadedIn (([].mergeSort _).map _))).sent = []
    rw [List.mergeSort_nil]
    rfl
  have hcandidates : candidates = found := by
    refine List.filter_eq_self.2 fun r hr => ?_
    cases List.mem_singleton.1 hr
    show ((key.pubkey != Bytes.zero 48) && !cache.sent.contains key.pubkey) = true
    rw [hcache, bne_iff_ne.2 hkey]
    rfl
  have hstatus : listed.beacon.statuses.get? key.pubkey = some ⟨some 5, 32, .activeOngoing⟩ := by
    show (Registry.empty.insert key.pubkey _).get? key.pubkey = _
    rw [Registry.get?_insert, if_pos rfl]
  have hstored : listed.keys.keys.get? key.pubkey = some key.toBytes := by
    show (Registry.empty.insert key.pubkey _).get? key.pubkey = _
    rw [Registry.get?_insert, if_pos rfl]
  have hexit : key.pubkey ∈ (listed.exits candidates).map (·.pubkey) := by
    refine Net.mem_exits.2 ⟨?_, ⟨_, 5, hstatus, rfl⟩, _, Net.key?_eq_some hstored⟩
    rw [hcandidates]
    exact List.mem_singleton_self _
  show (listed.exitOf _ time candidates).2.uploads ≠ []
  rw [Net.exitOf_uploads _ timely hexit]
  exact List.cons_ne_nil _ _

/-- The first tick of the standard loop uploads the exit of the minipool. -/
theorem watchedNet_uploads {key : ValidatorKey} (hkey : key.pubkey ≠ Bytes.zero 48) :
    ((TaskLoop.ofConfig .default (Bytes.zero 20)).tick.runWith Net.handler
      (watchedNet key)).2.service.uploads ≠ [] := by
  have hlisting : (watchedNet key).chain.listing ⟨Bytes.zero 20, Config.default.pageSizes⟩ =
      .done (.ok [Bytes.zero 20]) :=
    Chain.listing_of_count_le (show 1 ≤ maxAddresses by decide) (Nat.le_refl 1)
  have standard : Standard (.ofConfig .default (Bytes.zero 20))
      ⟨⟨Bytes.zero 20, Config.default.pageSizes⟩, Config.default.stakePolicy, none⟩ .fresh :=
    ⟨rfl, rfl⟩
  rw [tick_service (watchedNet_inRange key) standard ⟨rfl, rfl⟩
    (Chain.gathered_of_listing rfl hlisting)]
  exact watchedNet_exited hkey (by rw [watchedNet_time]; rfl)

/-- A minipool is due, and the wallet of only one of the daemons is ready. Both upload its exit. -/
theorem exits_independent_due :
    let n := watchedNet StakeTask.firstKey
    let moves : List Move := [.tick, .change (.advance 2), .tick]
    let moves' : List Move := [.tick, .change (.setFee 90), .change (.advance 2), .tick]
    n.chain.InRange ∧ (∀ m ∈ moves, m.InRange n.chain.settings) ∧
      moves.filter (!·.isForStaking) = moves'.filter (!·.isForStaking) ∧
      let here := World.drive ⟨n, some (.ofConfig .default (Bytes.zero 20))⟩ moves
      let there := World.drive
        ⟨{ n with walletReady := false, chain := { n.chain with fee := ⟨50, 2⟩, reverting := [] } },
          some (.ofConfig { Config.default with stakePolicy := StakeTask.eagerTask.policy }
            (Bytes.zero 20))⟩ moves'
      here.net.service.uploads ≠ [] ∧ here.net.service = there.net.service ∧
        here.loop.map exitCaches = there.loop.map exitCaches := by
  intro n moves moves'
  have inRange : n.chain.InRange := watchedNet_inRange StakeTask.firstKey
  have later : ∀ m ∈ moves, m.InRange n.chain.settings := by
    intro m hm
    simp only [moves, List.mem_cons, List.not_mem_nil, or_false] at hm
    rcases hm with rfl | rfl | rfl
    · trivial
    · exact ⟨⟨2000000000, by decide, by decide⟩, Instant.ofNanos?_eq_some_iff.2 (by decide)⟩
    · trivial
  have same : moves.filter (!·.isForStaking) = moves'.filter (!·.isForStaking) := rfl
  refine ⟨inRange, later, same, fun hnone => ?_, exits_independent false ⟨50, 2⟩ []
    StakeTask.eagerTask.policy inRange later same⟩
  rw [World.drive_cons] at hnone
  have hrecord := World.drive_uploads
    (World.move ⟨n, some (.ofConfig .default (Bytes.zero 20))⟩ .tick) [.change (.advance 2), .tick]
  rw [hnone, World.move_tick_net] at hrecord
  exact watchedNet_uploads StakeTask.firstKey_pubkey_ne (List.prefix_nil.1 hrecord)

end StakeKeeper.Devnet
