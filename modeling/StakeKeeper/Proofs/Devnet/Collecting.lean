import Mathlib.Data.List.Nodup
import StakeKeeper.Proofs.Devnet.Playing
import StakeKeeper.Proofs.Query.Range
import StakeKeeper.Proofs.Query.Single
import StakeKeeper.Stake.Task

/-!
The daemon's queries against the collaborators in memory. Main statements: `collect_plays` and
`stakeQuery_plays` (how each query ends), and `collect_shows` (a snapshot that is collected is the
state of the chain, for all page sizes).
-/
namespace StakeKeeper
set_option autoImplicit false

/-! ## What a query shows -/

/-- The instant cut to whole seconds, and to the epoch if it is earlier. -/
def Instant.wholeSecs (t : Instant) : Instant where
  nanos := t.unixSecs * 1000000000
  lower := by omega
  upper := by
    have := t.unixSecs_lt
    omega

theorem Instant.ofSecs?_unixSecs (t : Instant) :
    Instant.ofSecs? (UInt64.ofNat t.unixSecs) = some t.wholeSecs := by
  have hsecs : (UInt64.ofNat t.unixSecs).toNat = t.unixSecs :=
    UInt64.toNat_ofNat_of_lt (Nat.lt_trans t.unixSecs_lt (by decide))
  refine Instant.ofNanos?_eq_some_iff.2 ?_
  rw [hsecs]
  rfl

theorem Duration.ofSecs_secs (d : Duration) : Duration.ofSecs (UInt64.ofNat d.secs) = d.floorSecs := by
  have hsecs : (UInt64.ofNat d.secs).toNat = d.secs := UInt64.toNat_ofNat_of_lt d.secs_lt
  refine Duration.ext ?_
  show (UInt64.ofNat d.secs).toNat * 1000000000 = d.secs * 1000000000
  rw [hsecs]

/-- The settings with both spans cut to whole seconds. -/
def NetworkSettings.floorSecs (s : NetworkSettings) : NetworkSettings :=
  { s with scrubPeriod := s.scrubPeriod.floorSecs, launchTimeout := s.launchTimeout.floorSecs }

/-- What a query for a node shows of a record. -/
def MinipoolRecord.shown (node : Address) (r : MinipoolRecord) : MinipoolRecord :=
  { r with node, statusTime := r.statusTime.wholeSecs, beacon := none }

theorem fieldValue_values (node : Address) (r : MinipoolRecord) :
    allFields.map (Devnet.Chain.fieldValue r) =
      (r.shown node).values (UInt64.ofNat r.statusTime.unixSecs) := by
  obtain ⟨_, _, known, status, statusTime, pubkey, credentials, _⟩ := r
  cases status <;> rfl

/-! ## Reading lists -/

section
variable {ε ι ο : Type} {f : ι → Except ε ο} {g : ι → ο}

theorem mapM_ok {items : List ι} (h : ∀ i ∈ items, f i = .ok (g i)) :
    items.mapM f = .ok (items.map g) := by
  induction items with
  | nil => rfl
  | cons i rest ih =>
    rw [List.mapM_cons, h i List.mem_cons_self, ih fun j hj => h j (List.mem_cons_of_mem i hj)]
    rfl

end

namespace Devnet
namespace Chain
variable (c : Chain) (node : Address)

def held : List Address := (c.ownedBy node).map (·.address)

/-- The number of a node's minipools that the chain reports. -/
def count : UInt64 := c.reportedCount.getD (UInt64.ofNat (c.ownedBy node).length)

/-- The number of a node's minipools that are not closed by their operator. -/
def active : UInt64 := UInt64.ofNat ((c.ownedBy node).filter (·.status ≠ .finalized)).length

/-- What a query for a node shows of the minipool at an address. -/
def shownAt (a : Address) : MinipoolRecord :=
  match c.minipool? a with
  | some r => r.shown node
  | none => .empty node a

def outOfRange (index : Nat) : CallError := .network s!"minipool index {index} out of range"

/-- The end of the part of a query that reads the addresses. -/
def listing (runner : QueryRunner) : Ending (Except QueryError (List Address)) :=
  let held := c.held runner.node
  let count := (c.count runner.node).toNat
  if maxAddresses < min count (max runner.pages.addresses.toNat 1) then .crashed .capacity
  else if held.length < count then .done (.error (.call (outOfRange held.length)))
  else if maxAddresses < count then .crashed .capacity
  else .done (.ok (held.take count))

/-- The end of the part of a query that reads the records. -/
def gathered (runner : QueryRunner) : Ending (Except QueryError (List MinipoolRecord)) :=
  if c.failReads then .done (.error (.call (.network "multicall failed")))
  else (c.listing runner).proceed fun addresses =>
    .done (.ok (addresses.map (c.shownAt runner.node)))

def snapshot (validators : List MinipoolRecord) : NetworkSnapshot where
  header := c.header
  settings := c.settings.floorSecs
  node := node
  activeCount := c.active node
  validators := validators

/-- The end of the collection of a snapshot. -/
def collected (runner : QueryRunner) : Ending (Except QueryError NetworkSnapshot) :=
  (c.gathered runner).proceed fun validators => .done (.ok (c.snapshot runner.node validators))

variable {c node}

theorem answer_minipoolAt {i : Nat} (hi : i < UInt64.size) :
    c.answer (.minipoolAt node (UInt64.ofNat i)) =
      match (c.held node)[i]? with
      | some a => .ok (.address a)
      | none => .error (outOfRange i) := by
  have hindex : (UInt64.ofNat i).toNat = i := UInt64.toNat_ofNat_of_lt hi
  have htext : toString (UInt64.ofNat i) = toString i := congrArg toString hindex
  unfold answer held outOfRange
  dsimp only
  rw [hindex, htext, List.getElem?_map]
  cases (c.ownedBy node)[i]? <;> rfl

theorem answer_page {start stop : Nat} (hstart : start ≤ (c.held node).length)
    (hle : start ≤ stop) (hstop : stop ≤ UInt64.size) :
    (addressReads node start stop).mapM c.answer =
      if stop ≤ (c.held node).length then
        .ok ((((c.held node).drop start).take (stop - start)).map .address)
      else .error (outOfRange (c.held node).length) := by
  obtain ⟨len, rfl⟩ := Nat.exists_eq_add_of_le hle
  rw [addressReads, List.mapM_map, Nat.add_sub_cancel_left]
  show (List.range' start len).mapM (fun i => c.answer (.minipoolAt node (UInt64.ofNat i))) = _
  clear hle
  induction len generalizing start with
  | zero =>
    rw [Nat.add_zero, if_pos hstart, List.take_zero]
    rfl
  | succ len ih =>
    have hnext : start + 1 + len = start + (len + 1) := by omega
    rw [List.range'_succ, List.mapM_cons, answer_minipoolAt (by omega)]
    by_cases hlt : start < (c.held node).length
    · rw [List.getElem?_eq_getElem hlt, ih (by omega) (by omega), List.drop_eq_getElem_cons hlt, hnext]
      by_cases hfits : start + (len + 1) ≤ (c.held node).length
      · rw [if_pos hfits, if_pos hfits]
        rfl
      · rw [if_neg hfits, if_neg hfits]
        rfl
    · have hend : start = (c.held node).length := by omega
      rw [List.getElem?_eq_none (by omega), if_neg (by omega), hend]
      rfl

/-! ### Values of fields -/

theorem minipool?_address {a : Address} {r : MinipoolRecord} (h : c.minipool? a = some r) :
    r.address = a := by
  unfold minipool? at h
  have hfound := List.find?_some h
  exact of_decide_eq_true hfound

variable (c node) in
theorem recordsOf_answer {addresses : List Address}
    (there : ∀ a ∈ addresses, ∃ r, c.minipool? a = some r) :
    ∃ values, (detailReads allFields addresses).mapM c.answer = .ok values ∧
      recordsOf node allFields addresses values = pure (addresses.map (c.shownAt node)) := by
  induction addresses with
  | nil => exact ⟨[], rfl, rfl⟩
  | cons a rest ih =>
    obtain ⟨r, hr⟩ := there a List.mem_cons_self
    obtain ⟨others, hothers, hrecords⟩ := ih fun b hb => there b (List.mem_cons_of_mem a hb)
    have hfields : (allFields.map (ContractRead.minipool a)).mapM c.answer =
        .ok (allFields.map (fieldValue r)) := by
      rw [List.mapM_map]
      refine mapM_ok fun field _ => ?_
      show Except.ok (match c.minipool? a with
        | some r => fieldValue r field
        | none => missingValue field) = _
      rw [hr]
    have hreads : detailReads allFields (a :: rest) =
        allFields.map (.minipool a) ++ detailReads allFields rest := List.flatMap_cons
    refine ⟨allFields.map (fieldValue r) ++ others, ?_, ?_⟩
    · rw [hreads, List.mapM_append, hfields, hothers]
      rfl
    · have haddress : r.address = a := minipool?_address hr
      have hfirst : (MinipoolRecord.empty node a).setFields
          (allFields.zip (allFields.map (fieldValue r))) = pure (r.shown node) := by
        rw [fieldValue_values node r, ← haddress]
        exact setFields_values (r := r.shown node) r.statusTime.ofSecs?_unixSecs rfl
      have hlength : (allFields.map (fieldValue r)).length = allFields.length :=
        List.length_map ..
      rw [recordsOf, ← hlength, List.take_left, List.drop_left, hfirst, hrecords, List.map_cons,
        shownAt, hr]
      rfl

end Chain

/-! ## The parts of a query -/

section
variable {n : Net} {runner : QueryRunner}

theorem multicall_plays (reads : List ContractRead) (block : UInt64)
    (hreads : n.chain.failReads = false) :
    (QueryRoutine.multicall reads block).Plays n
      (.done ((reads.mapM n.chain.answer).mapError .call)) n := by
  have hanswer : (n.answer (.multicall reads block)).1 =
      .answered (reads.mapM n.chain.answer) := by
    show Reaction.answered (n.chain.multicall reads block).1 = _
    rw [Chain.multicall, if_neg (by rw [hreads]; decide)]
    rfl
  have hcall := FailingRoutine.plays_call (ε := QueryError) rfl hanswer
  cases hvalues : reads.mapM n.chain.answer with
  | error e =>
    rw [hvalues] at hcall
    exact hcall.bind_error _
  | ok values =>
    rw [hvalues] at hcall
    refine hcall.bind ?_
    rw [if_pos (length_of_mapM_ok hvalues)]
    exact FailingRoutine.plays_pure values n

theorem take_append_drop_take {α : Type} (l : List α) {start stop count : Nat}
    (hstart : start ≤ stop) (hstop : stop ≤ count) :
    (l.drop start).take (stop - start) ++ (l.take count).drop stop = (l.take count).drop start := by
  have hcount : count - start = stop - start + (count - stop) := by omega
  have hdrop : l.drop stop = (l.drop start).drop (stop - start) := by
    rw [List.drop_drop, Nat.add_sub_cancel' hstart]
  rw [List.drop_take, List.drop_take, hcount, List.take_add, hdrop]

theorem addressesFrom_plays (node : Address) (block : UInt64) (page : Nat) {count start : Nat}
    (hreads : n.chain.failReads = false) (hcount : count ≤ UInt64.size)
    (hstart : start ≤ (n.chain.held node).length) :
    (addressesFrom node block page count start).Plays n
      (.done (if count ≤ (n.chain.held node).length then
          .ok (((n.chain.held node).take count).drop start)
        else .error (.call (Chain.outOfRange (n.chain.held node).length)))) n := by
  induction start using addressesFrom.induct page count with
  | case1 start hlt stop ih =>
    have hread := multicall_plays (addressReads node start stop) block hreads
    rw [Chain.answer_page hstart (by omega) (by omega)] at hread
    rw [addressesFrom, if_pos hlt]
    by_cases hstop : stop ≤ (n.chain.held node).length
    · rw [if_pos hstop] at hread
      refine hread.bind ?_
      have htaken : QueryRoutine.taking (((((n.chain.held node).drop start).take
          (stop - start)).map ReadValue.address).mapM ReadValue.asAddress) =
            pure (((n.chain.held node).drop start).take (stop - start)) := by
        have hvalues : (((n.chain.held node).drop start).take (stop - start)).mapM
            (ReadValue.asAddress ∘ ReadValue.address) =
              .ok ((((n.chain.held node).drop start).take (stop - start)).map id) :=
          mapM_ok fun _ _ => rfl
        rw [List.mapM_map, hvalues, List.map_id]
        rfl
      rw [htaken]
      refine (FailingRoutine.plays_pure _ n).bind ?_
      have hrest := ih hstop
      by_cases hfits : count ≤ (n.chain.held node).length
      · rw [if_pos hfits] at hrest ⊢
        refine hrest.bind ?_
        rw [take_append_drop_take _ (by omega) (by omega)]
        exact FailingRoutine.plays_pure _ n
      · rw [if_neg hfits] at hrest ⊢
        exact hrest.bind_error _
    · rw [if_neg hstop] at hread
      rw [if_neg (by omega)]
      exact hread.bind_error _
  | case2 start hge =>
    have hend : ((n.chain.held node).take count).drop start = [] :=
      List.drop_eq_nil_of_le (by rw [List.length_take]; omega)
    rw [addressesFrom, if_neg hge, if_pos (by omega), hend]
    exact FailingRoutine.plays_pure [] n

theorem addresses_plays (block : UInt64) (hreads : n.chain.failReads = false) :
    (runner.addresses block (n.chain.count runner.node)).Plays n (n.chain.listing runner) n := by
  have hcount : (n.chain.count runner.node).toNat ≤ UInt64.size :=
    Nat.le_of_lt (n.chain.count runner.node).toNat_lt
  have hfrom := addressesFrom_plays (n := n) runner.node block (runner.pages.addresses.toNat - 1)
    hreads hcount (Nat.zero_le _)
  unfold QueryRunner.addresses Chain.listing
  dsimp only
  by_cases hpage : min (n.chain.count runner.node).toNat (max runner.pages.addresses.toNat 1) ≤
      maxAddresses
  · rw [if_neg (Nat.not_lt.2 hpage), decide_eq_true hpage]
    refine (FailingRoutine.plays_require true _ n).bind ?_
    by_cases hfits : (n.chain.count runner.node).toNat ≤ (n.chain.held runner.node).length
    · rw [if_pos hfits, List.drop_zero] at hfrom
      rw [if_neg (Nat.not_lt.2 hfits)]
      refine hfrom.bind ?_
      rw [List.length_take_of_le hfits]
      by_cases hcount : (n.chain.count runner.node).toNat ≤ maxAddresses
      · rw [if_neg (Nat.not_lt.2 hcount), decide_eq_true hcount]
        exact (FailingRoutine.plays_require true _ n).bind (FailingRoutine.plays_pure _ n)
      · rw [if_pos (Nat.lt_of_not_le hcount), decide_eq_false hcount]
        exact (FailingRoutine.plays_require false _ n).bind_crashed _
    · rw [if_neg hfits] at hfrom
      rw [if_pos (Nat.lt_of_not_le hfits)]
      exact hfrom.bind_error _
  · rw [if_pos (Nat.lt_of_not_le hpage), decide_eq_false hpage]
    exact (FailingRoutine.plays_require false _ n).bind_crashed _

theorem detailsOf_plays (node : Address) (block : UInt64) (hreads : n.chain.failReads = false)
    (pages : List (List Address))
    (there : ∀ page ∈ pages, ∀ a ∈ page, ∃ r, n.chain.minipool? a = some r) :
    (detailsOf node block allFields pages).Plays n
      (.done (.ok (pages.flatten.map (n.chain.shownAt node)))) n := by
  induction pages with
  | nil => exact FailingRoutine.plays_pure [] n
  | cons page rest ih =>
    obtain ⟨values, hvalues, hrecords⟩ :=
      n.chain.recordsOf_answer node (there page List.mem_cons_self)
    have hread := multicall_plays (detailReads allFields page) block hreads
    rw [hvalues] at hread
    rw [detailsOf]
    refine hread.bind ?_
    rw [hrecords, List.flatten_cons, List.map_append]
    refine (FailingRoutine.plays_pure _ n).bind ?_
    refine (ih fun p hp => there p (List.mem_cons_of_mem page hp)).bind ?_
    exact FailingRoutine.plays_pure _ n

theorem details_plays (block : UInt64) (hreads : n.chain.failReads = false)
    {addresses : List Address} (there : ∀ a ∈ addresses, ∃ r, n.chain.minipool? a = some r) :
    (runner.details block allFields addresses).Plays n
      (.done (.ok (addresses.map (n.chain.shownAt runner.node)))) n := by
  unfold QueryRunner.details
  rw [if_neg (by decide)]
  have hpages := flatten_pages runner.pages.details.toNat addresses
  have hdetails := detailsOf_plays (n := n) runner.node block hreads
    (pages runner.pages.details.toNat addresses) fun page hpage a ha =>
      there a (hpages ▸ List.mem_flatten.2 ⟨page, hpage, ha⟩)
  rwa [hpages] at hdetails

theorem multicall_fails (reads : List ContractRead) (block : UInt64)
    (hreads : n.chain.failReads = true) :
    (QueryRoutine.multicall reads block).Plays n
      (.done (.error (.call (.network "multicall failed")))) n := by
  have hanswer : (n.answer (.multicall reads block)).1 =
      .answered (.error (.network "multicall failed")) := by
    show Reaction.answered (n.chain.multicall reads block).1 = _
    rw [Chain.multicall, if_pos hreads]
    rfl
  exact (FailingRoutine.plays_call (ε := QueryError) rfl hanswer).bind_error _

theorem Chain.listing_there {c : Chain} {addresses : List Address}
    (h : c.listing runner = .done (.ok addresses)) :
    ∀ a ∈ addresses, ∃ r, c.minipool? a = some r := by
  unfold listing at h
  dsimp only at h
  split at h
  · cases h
  split at h
  · cases h
  split at h
  · cases h
  cases h
  intro a ha
  obtain ⟨r, hr, rfl⟩ := List.mem_map.1 (List.mem_of_mem_take ha)
  have hsome : (c.minipool? r.address).isSome :=
    List.find?_isSome.2 ⟨r, (List.mem_filter.1 hr).1, decide_eq_true rfl⟩
  exact Option.isSome_iff_exists.1 hsome

theorem Chain.listing_ends (c : Chain) (runner : QueryRunner) :
    c.listing runner ≠ .cancelled := by
  unfold listing
  dsimp only
  split
  · exact nofun
  split
  · exact nofun
  split
  · exact nofun
  · exact nofun

theorem gather_plays {σ ω : Type} {query : NodeQuery σ ω} {values : List ReadValue} {own : σ}
    {transactor : Option Transactor} {finish : List MinipoolRecord → Except QueryError ω}
    (hwants : query.wantsDetails = NodeQuery.anyMinipool) (hfields : query.fields = allFields)
    (hvalues : (query.ownReads runner.node).mapM n.chain.answer = .ok values)
    (hown : query.decodeOwn values = .ok own)
    (hfinish : ∀ addresses validators, query.finish own
      ⟨n.chain.header, runner.node, addresses, validators, transactor⟩ = finish validators) :
    (runner.gather query n.chain.header transactor).Plays n
      ((n.chain.gathered runner).proceed fun validators => .done (finish validators)) n := by
  unfold QueryRunner.gather Chain.gathered
  by_cases hreads : n.chain.failReads = true
  · rw [if_pos hreads]
    exact (multicall_fails _ _ hreads).bind_error _
  have hread := multicall_plays (n := n) (.minipoolCount runner.node :: query.ownReads runner.node)
    n.chain.header.number (Bool.eq_false_iff.2 hreads)
  have hcount : (ReadValue.uint (.ofUInt64 (n.chain.count runner.node))).asUint64 =
      .ok (n.chain.count runner.node) := ReadValue.asUint64_ofUInt64 _
  have hall : (ContractRead.minipoolCount runner.node :: query.ownReads runner.node).mapM
      n.chain.answer = .ok (.uint (.ofUInt64 (n.chain.count runner.node)) :: values) := by
    rw [List.mapM_cons, hvalues]
    rfl
  rw [hall] at hread
  rw [if_neg hreads]
  refine hread.bind ?_
  dsimp only
  rw [hcount, hown, hwants, hfields]
  refine (FailingRoutine.plays_pure _ n).bind ((FailingRoutine.plays_pure _ n).bind ?_)
  rw [Ending.proceed_proceed]
  refine (addresses_plays _ (Bool.eq_false_iff.2 hreads)).proceed (n.chain.listing_ends runner)
    fun addresses hlisting => ?_
  by_cases hnone : addresses = []
  · subst hnone
    refine (FailingRoutine.plays_note _ n).bind ?_
    rw [hfinish]
    exact FailingRoutine.plays_ofExcept _ n
  · have hany : NodeQuery.anyMinipool addresses = true := by
      simp [NodeQuery.anyMinipool, hnone]
    rw [if_pos hany]
    refine (details_plays _ (Bool.eq_false_iff.2 hreads) (Chain.listing_there hlisting)).bind ?_
    refine (FailingRoutine.plays_note _ n).bind ?_
    rw [hfinish]
    exact FailingRoutine.plays_ofExcept _ n

/-! ## The daemon's queries -/

theorem Chain.answer_settings (c : Chain) :
    ∃ values, settingsReads.mapM c.answer = .ok values ∧
      decodeSettings values = .ok c.settings.floorSecs := by
  have hvalues : settingsReads.mapM c.answer =
      .ok [.uint (.ofUInt64 (UInt64.ofNat c.settings.scrubPeriod.secs)),
        .uint (.ofUInt64 (UInt64.ofNat c.settings.launchTimeout.secs)),
        .uint c.settings.minimumStake] := rfl
  refine ⟨_, hvalues, ?_⟩
  rw [decodeSettings_values, Duration.ofSecs_secs, Duration.ofSecs_secs]
  rfl

theorem refreshRegistries_plays (n : Net) : refreshRegistries.Plays n (.done (.ok ())) n := by
  have hrefresh (registry : ContractRegistry) :
      (FailingRoutine.call (.refresh registry) : QueryRoutine Unit).Plays n (.done (.ok ())) n :=
    FailingRoutine.plays_call (q := .refresh registry) (r := .ok ()) rfl rfl
  exact (hrefresh .execution).bind (hrefresh .protocol)

theorem header_plays (n : Net) :
    (FailingRoutine.call (.header none) : QueryRoutine BlockHeader).Plays n
      (.done (.ok n.chain.header)) n :=
  FailingRoutine.plays_call (q := .header none) (r := .ok n.chain.header) rfl rfl

theorem run_plays {σ ω : Type} {query : NodeQuery σ ω} {transactor : Option Transactor}
    {found : Ending (Except QueryError ω)}
    (hprepare : query.prepare.Plays n (.done (.ok (.ready transactor))) n)
    (hgather : (runner.gather query n.chain.header transactor).Plays n found n)
    (ends : found ≠ .cancelled) :
    (runner.run query).Plays n (found.proceed fun output => .done (.ok (.ready output))) n := by
  refine (header_plays n).bind (hprepare.bind ?_)
  exact hgather.proceed ends fun output _ => FailingRoutine.plays_pure _ n

theorem Chain.gathered_ends (c : Chain) (runner : QueryRunner) :
    c.gathered runner ≠ .cancelled := by
  unfold gathered
  split
  · exact nofun
  · exact Ending.proceed_ends (c.listing_ends runner) fun _ => nofun

/-- The end of a collection, whose last steps only take the snapshot out of the query's outcome. -/
def snapshotTaken : QueryOutcome NetworkSnapshot → Ending (Except QueryError NetworkSnapshot)
  | .notReady reason => .done (.error (.incomplete reason))
  | .ready s => .done (.ok s)

/-- The collection of a snapshot only looks: it ends as told from the chain, and leaves all as it
was. -/
theorem collect_plays (n : Net) (runner : QueryRunner) :
    runner.collect.Plays n (n.chain.collected runner) n := by
  obtain ⟨settings, hsettings, hdecoded⟩ := n.chain.answer_settings
  have hvalues : (snapshotQuery.ownReads runner.node).mapM n.chain.answer =
      .ok (.uint (.ofUInt64 (n.chain.active runner.node)) :: settings) := by
    show (ContractRead.activeCount runner.node :: settingsReads).mapM n.chain.answer = _
    rw [List.mapM_cons, hsettings]
    rfl
  have hown : snapshotQuery.decodeOwn (.uint (.ofUInt64 (n.chain.active runner.node)) :: settings) =
      .ok (n.chain.active runner.node, n.chain.settings.floorSecs) := by
    simp only [snapshotQuery, ReadValue.asUint64_ofUInt64, hdecoded]
    rfl
  have hgather : (runner.gather snapshotQuery n.chain.header none).Plays n
      ((n.chain.gathered runner).proceed fun validators =>
        .done (.ok (n.chain.snapshot runner.node validators))) n :=
    gather_plays rfl rfl hvalues hown fun _ _ => rfl
  have hprepare : snapshotQuery.prepare.Plays n (.done (.ok (.ready none))) n :=
    (refreshRegistries_plays n).bind (FailingRoutine.plays_pure _ n)
  have hrun := run_plays hprepare hgather
    (Ending.proceed_ends (n.chain.gathered_ends runner) fun _ => nofun)
  rw [Ending.proceed_proceed] at hrun
  have hends : n.chain.collected runner = ((n.chain.gathered runner).proceed fun validators =>
      (Ending.done (.ok (n.chain.snapshot runner.node validators))).proceed fun s =>
        .done (.ok (.ready s))).proceed snapshotTaken := by
    rw [Ending.proceed_proceed]
    rfl
  rw [hends]
  refine hrun.proceed (Ending.proceed_ends (n.chain.gathered_ends runner) fun _ => nofun)
    fun outcome _ => ?_
  cases outcome with
  | notReady reason => exact FailingRoutine.plays_ofExcept _ n
  | ready s =>
    dsimp only
    split
    · exact (FailingRoutine.plays_note _ n).bind
        ((FailingRoutine.plays_note _ n).bind (FailingRoutine.plays_pure _ n))
    · exact (FailingRoutine.plays_note _ n).bind (FailingRoutine.plays_pure _ n)

/-- The view with what was read of a node's minipools. -/
def Net.view (n : Net) (validators : List MinipoolRecord) : StakeView where
  header := n.chain.header
  settings := n.chain.settings.floorSecs
  transactor := ⟨n.node, Net.chainId⟩
  validators := validators

/-- The end of the query for a view. -/
def Net.viewed (n : Net) (runner : QueryRunner) :
    Ending (Except QueryError (QueryOutcome StakeView)) :=
  if n.walletReady then
    (n.chain.gathered runner).proceed fun validators => .done (.ok (.ready (n.view validators)))
  else .done (.ok (.notReady "wallet is locked"))

theorem stakeQuery_prepare_plays (n : Net) :
    stakeQuery.prepare.Plays n (.done (.ok (if n.walletReady then .ready (some ⟨n.node, Net.chainId⟩)
      else .notReady "wallet is locked"))) n := by
  refine (refreshRegistries_plays n).bind ?_
  have hanswer : (n.answer .transactor).1 = .answered n.transactor := rfl
  refine (FailingRoutine.plays_attempt rfl hanswer).bind ?_
  unfold Net.transactor
  by_cases hready : n.walletReady = true
  · rw [if_pos hready, if_pos hready]
    exact FailingRoutine.plays_pure _ n
  · rw [if_neg hready, if_neg hready]
    exact FailingRoutine.plays_pure _ n

/-- The query of the staking task only looks, too. -/
theorem stakeQuery_plays (n : Net) (runner : QueryRunner) :
    (runner.run stakeQuery).Plays n (n.viewed runner) n := by
  have hprepare := stakeQuery_prepare_plays n
  unfold Net.viewed
  by_cases hready : n.walletReady = true
  · rw [if_pos hready] at hprepare ⊢
    obtain ⟨settings, hsettings, hdecoded⟩ := n.chain.answer_settings
    have hgather :
        (runner.gather stakeQuery n.chain.header (some ⟨n.node, Net.chainId⟩)).Plays n
          ((n.chain.gathered runner).proceed fun validators => .done (.ok (n.view validators))) n :=
      gather_plays rfl rfl hsettings hdecoded fun _ _ => rfl
    have hrun := run_plays hprepare hgather
      (Ending.proceed_ends (n.chain.gathered_ends runner) fun _ => nofun)
    rw [Ending.proceed_proceed] at hrun
    exact hrun
  · rw [if_neg hready] at hprepare ⊢
    refine (header_plays n).bind (hprepare.bind ?_)
    exact (FailingRoutine.plays_note _ n).bind (FailingRoutine.plays_pure _ n)

/-! ## Snapshots -/

/-- What a snapshot for a node shows, if it shows these of the minipools. -/
structure Chain.ShownIn (c : Chain) (node : Address) (records : List MinipoolRecord)
    (s : NetworkSnapshot) : Prop where
  header : s.header = c.header
  settings : s.settings = { c.settings with
    scrubPeriod := c.settings.scrubPeriod.floorSecs
    launchTimeout := c.settings.launchTimeout.floorSecs }
  owner : s.node = node
  active : s.activeCount.toNat = ((c.ownedBy node).filter (·.status ≠ .finalized)).length
  validators : s.validators =
    records.map fun r => { r with statusTime := r.statusTime.wholeSecs, beacon := none }

theorem Chain.minipool?_of_mem {c : Chain} (distinct : (c.minipools.map (·.address)).Nodup)
    {r : MinipoolRecord} (h : r ∈ c.minipools) : c.minipool? r.address = some r := by
  have hsome : (c.minipool? r.address).isSome := List.find?_isSome.2 ⟨r, h, decide_eq_true rfl⟩
  obtain ⟨s, hs⟩ := Option.isSome_iff_exists.1 hsome
  have hmem : s ∈ c.minipools := List.mem_of_find?_eq_some hs
  rw [hs, List.inj_on_of_nodup_map distinct hmem h (minipool?_address hs)]

/-- With distinct addresses each of a node's minipools is shown as it is. -/
theorem Chain.shownAt_held {c : Chain} (distinct : (c.minipools.map (·.address)).Nodup)
    (node : Address) (k : Nat) :
    ((c.held node).take k).map (c.shownAt node) = ((c.ownedBy node).take k).map fun r =>
      { r with statusTime := r.statusTime.wholeSecs, beacon := none } := by
  rw [held, ← List.map_take, List.map_map]
  refine List.map_congr_left fun r hr => ?_
  obtain ⟨hmem, hnode⟩ := List.mem_filter.1 (List.mem_of_mem_take hr)
  obtain rfl : r.node = node := of_decide_eq_true hnode
  show c.shownAt r.node r.address = _
  rw [shownAt, minipool?_of_mem distinct hmem]
  rfl

theorem Chain.listing_of_count_le {c : Chain} {runner : QueryRunner}
    (fits : (c.ownedBy runner.node).length ≤ maxAddresses)
    (hcount : (c.count runner.node).toNat ≤ (c.ownedBy runner.node).length) :
    c.listing runner = .done (.ok ((c.held runner.node).take (c.count runner.node).toNat)) := by
  have hheld : (c.held runner.node).length = (c.ownedBy runner.node).length := List.length_map ..
  unfold listing
  dsimp only
  rw [if_neg (by omega), if_neg (by omega), if_neg (by omega)]

theorem Chain.gathered_of_listing {c : Chain} {runner : QueryRunner} {addresses : List Address}
    (hreads : c.failReads = false) (h : c.listing runner = .done (.ok addresses)) :
    c.gathered runner = .done (.ok (addresses.map (c.shownAt runner.node))) := by
  rw [gathered, if_neg (by rw [hreads]; decide), h]
  rfl

theorem Chain.collected_shows {c : Chain} {runner : QueryRunner} (hreads : c.failReads = false)
    (distinct : (c.minipools.map (·.address)).Nodup)
    (fits : (c.ownedBy runner.node).length ≤ maxAddresses)
    (hcount : (c.count runner.node).toNat ≤ (c.ownedBy runner.node).length) :
    ∃ s, c.collected runner = .done (.ok s) ∧
      c.ShownIn runner.node ((c.ownedBy runner.node).take (c.count runner.node).toNat) s := by
  have hgathered := gathered_of_listing hreads (listing_of_count_le fits hcount)
  have hactive : ((c.ownedBy runner.node).filter (·.status ≠ .finalized)).length ≤ maxAddresses :=
    Nat.le_trans (List.length_filter_le _ _) fits
  have hmax : maxAddresses < UInt64.size := by decide
  refine ⟨_, by rw [collected, hgathered]; rfl, rfl, rfl, rfl, ?_, shownAt_held distinct _ _⟩
  exact UInt64.toNat_ofNat_of_lt (Nat.lt_of_le_of_lt hactive hmax)

/-- A snapshot shows a node's minipools in the order in which the chain holds them, or as many of
them as the chain reports. If the chain reports more than it holds, the collection fails with the
first index that is out of range. -/
theorem collect_shows (n : Net) (runner : QueryRunner) (hreads : n.chain.failReads = false)
    (distinct : (n.chain.minipools.map (·.address)).Nodup)
    (fits : (n.chain.ownedBy runner.node).length ≤ maxAddresses) :
    let owned := n.chain.ownedBy runner.node
    let ending := (runner.collect.run.runWith Net.handler n).1
    (n.chain.reportedCount = none →
      ∃ s, ending = .done (.ok s) ∧ n.chain.ShownIn runner.node owned s) ∧
    ∀ count, n.chain.reportedCount = some count →
      (count.toNat ≤ owned.length → ∃ s, ending = .done (.ok s) ∧
        n.chain.ShownIn runner.node (owned.take count.toNat) s) ∧
      (owned.length < count.toNat →
        min count.toNat (max runner.pages.addresses.toNat 1) ≤ maxAddresses →
          ending = .done (.error (.call
            (.network s!"minipool index {owned.length} out of range")))) := by
  dsimp only
  have hplays : (runner.collect.run.runWith Net.handler n).1 = n.chain.collected runner :=
    (collect_plays n runner).1
  rw [hplays]
  refine ⟨fun hnone => ?_, fun count hsome => ⟨fun hle => ?_, fun hlt hpage => ?_⟩⟩
  · have hmax : maxAddresses < UInt64.size := by decide
    have hcount : (n.chain.count runner.node).toNat = (n.chain.ownedBy runner.node).length := by
      rw [Chain.count, hnone]
      exact UInt64.toNat_ofNat_of_lt (Nat.lt_of_le_of_lt fits hmax)
    have hshows := Chain.collected_shows hreads distinct fits (Nat.le_of_eq hcount)
    rwa [hcount, List.take_length] at hshows
  · have hcount : n.chain.count runner.node = count := by
      rw [Chain.count, hsome]
      rfl
    have hshows := Chain.collected_shows hreads distinct fits (hcount ▸ hle)
    rwa [hcount] at hshows
  · have hcount : n.chain.count runner.node = count := by
      rw [Chain.count, hsome]
      rfl
    have hheld : (n.chain.held runner.node).length = (n.chain.ownedBy runner.node).length :=
      List.length_map ..
    have hlisting : n.chain.listing runner =
        .done (.error (.call (Chain.outOfRange (n.chain.ownedBy runner.node).length))) := by
      unfold Chain.listing
      dsimp only
      rw [hcount, hheld, if_neg (by omega), if_pos hlt]
    rw [Chain.collected, Chain.gathered, if_neg (by rw [hreads]; decide), hlisting]
    rfl

end

/-- Collaborators around a chain that holds three minipools, the second of another node. -/
def sharedNet (reportedCount : Option UInt64) : Net :=
  let node := Bytes.zero 20
  let other : Address := Vector.replicate 20 1
  { Net.new ⟨7, Bytes.zero 32, 1⟩ ⟨.ofSecs 1, .ofSecs 10, .zero⟩ node ⟨0, 12, 32, Bytes.zero 4⟩ with
    chain := { Chain.new ⟨7, Bytes.zero 32, 1⟩ ⟨.ofSecs 1, .ofSecs 10, .zero⟩ with
      minipools :=
        [.empty node node, .empty other other,
          { MinipoolRecord.empty node (Vector.replicate 20 2) with status := .finalized }]
      reportedCount } }

theorem collect_shows_sharedNet :
    (∃ s, ((QueryRunner.collect ⟨Bytes.zero 20, ⟨1, 1⟩⟩).run.runWith Net.handler
        (sharedNet none)).1 = .done (.ok s) ∧
      (sharedNet none).chain.ShownIn (Bytes.zero 20)
        ((sharedNet none).chain.ownedBy (Bytes.zero 20)) s) ∧
    (∃ s, ((QueryRunner.collect ⟨Bytes.zero 20, ⟨1, 1⟩⟩).run.runWith Net.handler
        (sharedNet (some 1))).1 = .done (.ok s) ∧
      (sharedNet (some 1)).chain.ShownIn (Bytes.zero 20)
        (((sharedNet (some 1)).chain.ownedBy (Bytes.zero 20)).take 1) s) ∧
    ((QueryRunner.collect ⟨Bytes.zero 20, ⟨1, 1⟩⟩).run.runWith Net.handler
        (sharedNet (some 3))).1 =
      .done (.error (.call (.network "minipool index 2 out of range"))) := by
  have distinct (reportedCount : Option UInt64) :
      ((sharedNet reportedCount).chain.minipools.map (·.address)).Nodup := by
    show ([Bytes.zero 20, Vector.replicate 20 1, Vector.replicate 20 2] : List Address).Nodup
    decide
  have fits (reportedCount : Option UInt64) :
      ((sharedNet reportedCount).chain.ownedBy (Bytes.zero 20)).length ≤ maxAddresses :=
    Nat.le_trans (List.length_filter_le _ _) (show 3 ≤ maxAddresses by decide)
  refine ⟨?_, ?_, ?_⟩
  · exact (collect_shows (sharedNet none) ⟨Bytes.zero 20, ⟨1, 1⟩⟩ rfl (distinct none)
      (fits none)).1 rfl
  · exact ((collect_shows (sharedNet (some 1)) ⟨Bytes.zero 20, ⟨1, 1⟩⟩ rfl (distinct _)
      (fits _)).2 1 rfl).1 (by decide)
  · exact ((collect_shows (sharedNet (some 3)) ⟨Bytes.zero 20, ⟨1, 1⟩⟩ rfl (distinct _)
      (fits _)).2 3 rfl).2 (by decide) (by decide)

end Devnet

end StakeKeeper
