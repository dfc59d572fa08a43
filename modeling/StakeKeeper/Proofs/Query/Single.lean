import StakeKeeper.Proofs.Query.Reads

/-!
Queries of a node with one minipool. Main statement: `stakeQuery_single` (a stake query that is
answered with the values of a record, for any page sizes, ends with a view of that record).
-/
namespace StakeKeeper
set_option autoImplicit false

/-! ## Values of a record -/

/-- The values of the fields of a record, whose status last changed at a whole second. -/
def MinipoolRecord.values (r : MinipoolRecord) (secs : UInt64) : List ReadValue :=
  [.bool r.known, .uint ⟨r.status.code.toNat, Nat.lt_trans r.status.code.toNat_lt (by decide)⟩,
    .uint (.ofUInt64 secs), .bytes r.pubkey.toList, .bytes r.credentials.toList]

theorem decodeStatus_code (s : MinipoolStatus) (h : s.code.toNat < Uint256.limit) :
    MinipoolRecord.decodeStatus (.uint ⟨s.code.toNat, h⟩) = .ok s := by
  cases s <;> rfl

namespace ReadValue

theorem asUint64_ofUInt64 (n : UInt64) : (uint (.ofUInt64 n)).asUint64 = .ok n := by
  show (if n.toNat < UInt64.size then _ else _) = _
  rw [if_pos n.toNat_lt]
  exact congrArg Except.ok UInt64.ofNat_toNat

theorem asPubKey_toList (k : PubKey) : (bytes k.toList).asPubKey = .ok k := by
  have hread : Bytes.ofList? 48 k.toList = some k := Bytes.ofList?_toList k
  simp only [asPubKey, asBytes, bind, Except.bind, hread]
  rfl

theorem asRoot_toList (r : Root) : (bytes r.toList).asRoot = .ok r := by
  have hread : Bytes.ofList? 32 r.toList = some r := Bytes.ofList?_toList r
  simp only [asRoot, asBytes, bind, Except.bind, hread]
  rfl

end ReadValue

theorem setFields_values {r : MinipoolRecord} {secs : UInt64}
    (htime : Instant.ofSecs? secs = some r.statusTime) (hbeacon : r.beacon = none) :
    (MinipoolRecord.empty r.node r.address).setFields (allFields.zip (r.values secs)) = pure r := by
  obtain ⟨node, address, known, status, statusTime, pubkey, credentials, beacon⟩ := r
  simp only [MinipoolRecord.setFields, MinipoolRecord.setField, MinipoolRecord.withField, allFields,
    MinipoolRecord.values, List.zip_cons_cons, List.zip_nil_right, decodeStatus_code,
    ReadValue.asUint64_ofUInt64, ReadValue.asPubKey_toList, ReadValue.asRoot_toList]
  simp only [ReadValue.asBool, Except.map, htime, Option.map_some]
  cases hbeacon
  rfl

theorem decodeSettings_values (scrub timeout : UInt64) (stake : Uint256) :
    decodeSettings [.uint (.ofUInt64 scrub), .uint (.ofUInt64 timeout), .uint stake] =
      .ok ⟨.ofSecs scrub, .ofSecs timeout, stake⟩ := by
  simp only [decodeSettings, ReadValue.asUint64_ofUInt64]
  rfl

/-! ## The steps of a query -/

theorem multicall_runs {reads : List ContractRead} {values : List ReadValue} (block : UInt64)
    (h : values.length = reads.length) :
    (QueryRoutine.multicall reads block).Runs [.asked (.multicall reads block) (.ok values)]
      (.done (.ok values)) := by
  refine FailingRoutine.runs_call_bind_iff.2 (.inr ⟨values, [], rfl, ?_⟩)
  rw [if_pos h]
  exact ⟨rfl, rfl⟩

section
variable {runner : QueryRunner} {record : MinipoolRecord} {secs : UInt64}

theorem addresses_single (runner : QueryRunner) (block : UInt64) (a : Address) :
    (runner.addresses block 1).Runs
      [.asked (.multicall [.minipoolAt runner.node 0] block) (.ok [.address a])]
      (.done (.ok [a])) := by
  have hread : (QueryRoutine.multicall [.minipoolAt runner.node 0] block).Runs
      [.asked (.multicall [.minipoolAt runner.node 0] block) (.ok [.address a])]
      (.done (.ok [.address a])) := multicall_runs block rfl
  have hfrom : (addressesFrom runner.node block (runner.pages.addresses.toNat - 1) 1 0).Runs
      [.asked (.multicall [.minipoolAt runner.node 0] block) (.ok [.address a])]
      (.done (.ok [a])) := by
    have hstop : min (0 + (runner.pages.addresses.toNat - 1) + 1) 1 = 1 := by omega
    rw [addressesFrom, if_pos (by decide), hstop]
    refine hread.bind ?_
    rw [addressesFrom, if_neg (by decide)]
    exact ⟨rfl, rfl⟩
  have hpage : decide (min (1 : UInt64).toNat (max runner.pages.addresses.toNat 1) ≤
      maxAddresses) = true :=
    decide_eq_true (Nat.le_trans (Nat.min_le_left _ _) (by decide))
  unfold QueryRunner.addresses
  dsimp only
  rw [hpage]
  exact hfrom.bind ⟨rfl, rfl⟩

theorem details_single (block : UInt64) (hnode : record.node = runner.node)
    (htime : Instant.ofSecs? secs = some record.statusTime) (hbeacon : record.beacon = none) :
    (runner.details block allFields [record.address]).Runs
      [.asked (.multicall (allFields.map (.minipool record.address)) block)
        (.ok (record.values secs))]
      (.done (.ok [record])) := by
  have hread : (QueryRoutine.multicall (detailReads allFields [record.address]) block).Runs
      [.asked (.multicall (allFields.map (.minipool record.address)) block)
        (.ok (record.values secs))] (.done (.ok (record.values secs))) := multicall_runs block rfl
  have hpages : pages runner.pages.details.toNat [record.address] = [[record.address]] := rfl
  have hrecords : recordsOf runner.node allFields [record.address] (record.values secs) =
      pure [record] := by
    have h := setFields_values htime hbeacon
    rw [hnode] at h
    rw [recordsOf, List.take_of_length_le (Nat.le_refl 5), h]
    rfl
  unfold QueryRunner.details
  rw [if_neg (by decide), hpages, detailsOf]
  refine hread.bind ?_
  rw [hrecords]
  exact ⟨rfl, rfl⟩

/-- The steps of a stake query that finds one minipool. -/
def singleQuery (runner : QueryRunner) (header : BlockHeader) (transactor : Transactor)
    (scrub timeout : UInt64) (stake : Uint256) (record : MinipoolRecord) (secs : UInt64) :
    List Step :=
  let block := header.number
  [.asked (.header none) (.ok header), .asked (.refresh .execution) (.ok ()),
    .asked (.refresh .protocol) (.ok ()), .asked .transactor (.ok transactor),
    .asked (.multicall (.minipoolCount runner.node :: settingsReads) block)
      (.ok [.uint (.ofUInt64 1), .uint (.ofUInt64 scrub), .uint (.ofUInt64 timeout), .uint stake]),
    .asked (.multicall [.minipoolAt runner.node 0] block) (.ok [.address record.address]),
    .asked (.multicall (allFields.map (.minipool record.address)) block) (.ok (record.values secs)),
    .noted (.queryComplete runner.node block 1)]

theorem stakeQuery_single (header : BlockHeader) (transactor : Transactor) (scrub timeout : UInt64)
    (stake : Uint256) (hnode : record.node = runner.node)
    (htime : Instant.ofSecs? secs = some record.statusTime) (hbeacon : record.beacon = none) :
    (runner.run stakeQuery).Runs
      (singleQuery runner header transactor scrub timeout stake record secs)
      (.done (.ok (.ready
        ⟨header, ⟨.ofSecs scrub, .ofSecs timeout, stake⟩, transactor, [record]⟩))) := by
  have hprepare : stakeQuery.prepare.Runs
      [.asked (.refresh .execution) (.ok ()), .asked (.refresh .protocol) (.ok ()),
        .asked .transactor (.ok transactor)] (.done (.ok (.ready (some transactor)))) :=
    ⟨.ok (), _, rfl, .ok (), _, rfl, .ok transactor, _, rfl, rfl, rfl⟩
  have hcount : QueryRoutine.taking (ReadValue.uint (.ofUInt64 1)).asUint64 = .ofExcept (.ok 1) := by
    rw [ReadValue.asUint64_ofUInt64]
    rfl
  have hgather : (runner.gather stakeQuery header (some transactor)).Runs
      ((singleQuery runner header transactor scrub timeout stake record secs).drop 4)
      (.done (.ok ⟨header, ⟨.ofSecs scrub, .ofSecs timeout, stake⟩, transactor, [record]⟩)) := by
    let values : List ReadValue :=
      [.uint (.ofUInt64 1), .uint (.ofUInt64 scrub), .uint (.ofUInt64 timeout), .uint stake]
    let reads := .minipoolCount runner.node :: settingsReads
    have hread : (QueryRoutine.multicall reads header.number).Runs
        [.asked (.multicall reads header.number) (.ok values)] (.done (.ok values)) :=
      multicall_runs header.number rfl
    refine hread.bind ?_
    dsimp only [values]
    rw [hcount]
    refine FailingRoutine.runs_ofExcept_bind_iff.2 (.inl ⟨_, rfl, ?_⟩)
    refine FailingRoutine.runs_ofExcept_bind_iff.2
      (.inl ⟨_, decodeSettings_values scrub timeout stake, ?_⟩)
    refine (addresses_single runner header.number record.address).bind ?_
    refine (details_single header.number hnode htime hbeacon).bind ?_
    exact FailingRoutine.runs_note_bind_iff.2 ⟨_, rfl, rfl, rfl⟩
  refine FailingRoutine.runs_call_bind_iff.2 (.inr ⟨header, _, rfl, ?_⟩)
  exact hprepare.bind (hgather.bind_pure QueryOutcome.ready)

end

end StakeKeeper
