import StakeKeeper.Proofs.Query.Sources

/-!
Paging. The daemon's queries against a source come to what reading each view alone comes to, for all
page sizes. Main statements: `addresses_computes` and `details_computes` (the pages of a list put
together are the list) and `run_paged` (both queries come to the unpaged reference).
-/
namespace StakeKeeper
set_option autoImplicit false

/-! ## The unpaged reference -/

namespace Source
variable (s : Source) (node : Address) (block : UInt64)

/-- What the value of a read is taken as. -/
def value? {α : Type} (take : ReadValue → Except CallError α) (read : ContractRead) : Option α := do
  let v ← s.read block read
  (take v).toOption

def address? (i : Nat) : Option Address :=
  s.value? block ReadValue.asAddress (.minipoolAt node (UInt64.ofNat i))

/-- The addresses of as many minipools as there are. A list that would not fit the address space has
no value. -/
def addresses? (count : Nat) : Option (List Address) :=
  if count ≤ maxAddresses then (List.range count).mapM (s.address? node block) else none

/-- The record of a minipool, each field decoded from the read of that field. -/
def record? (a : Address) : Option MinipoolRecord := do
  let known ← s.value? block ReadValue.asBool (.minipool a .known)
  let status ← s.value? block MinipoolRecord.decodeStatus (.minipool a .status)
  let secs ← s.value? block ReadValue.asUint64 (.minipool a .statusTime)
  let statusTime ← Instant.ofSecs? secs
  let pubkey ← s.value? block ReadValue.asPubKey (.minipool a .pubkey)
  let credentials ← s.value? block ReadValue.asRoot (.minipool a .credentials)
  pure { node, address := a, known, status, statusTime, pubkey, credentials, beacon := none }

def records? : Option (List MinipoolRecord) := do
  let count ← s.value? block ReadValue.asUint64 (.minipoolCount node)
  let addresses ← s.addresses? node block count.toNat
  addresses.mapM (s.record? node block)

def settings? : Option NetworkSettings := do
  let scrub ← s.value? block ReadValue.asUint64 .scrubPeriod
  let timeout ← s.value? block ReadValue.asUint64 .launchTimeout
  let stake ← s.value? block ReadValue.asUint .minimumStake
  pure ⟨.ofSecs scrub, .ofSecs timeout, stake⟩

def refreshed? : Option Unit := do
  s.refresh .execution
  s.refresh .protocol

def snapshot? : Option NetworkSnapshot := do
  let header ← s.header
  s.refreshed?
  let activeCount ← s.value? header.number ReadValue.asUint64 (.activeCount node)
  let settings ← s.settings? header.number
  let validators ← s.records? node header.number
  pure { header, settings, node, activeCount, validators }

/-- The view of a stake query that a transactor is known for. -/
def view? (header : BlockHeader) (transactor : Transactor) : Option StakeView := do
  let settings ← s.settings? header.number
  let validators ← s.records? node header.number
  pure { header, settings, transactor, validators }

/-- The outcome of a stake query. -/
def stakeOutcome? : Option (QueryOutcome StakeView) := do
  let header ← s.header
  s.refreshed?
  match s.transactor with
  | .ok transactor => (s.view? node header transactor).map .ready
  | .error (.walletNotReady reason) => pure (.notReady reason)
  | .error _ => none

end Source

/-! ## Decoding -/

theorem decoding_bind {α β : Type} (d : Decoding α) (f : α → Decoding β) :
    (d >>= f).value? = d.value?.bind fun a => (f a).value? := by
  unfold Decoding.value?
  rw [ExceptT.run_bind]
  rcases d.run with _ | e | a <;> rfl

namespace MinipoolRecord

theorem withField_value (r : MinipoolRecord) (field : MinipoolField) (v : ReadValue) :
    (r.withField field v).toOption.bind id =
      match field with
      | .known => v.asBool.toOption.map fun b => { r with known := b }
      | .status => (decodeStatus v).toOption.map fun c => { r with status := c }
      | .statusTime =>
        (v.asUint64.toOption.bind Instant.ofSecs?).map fun t => { r with statusTime := t }
      | .pubkey => v.asPubKey.toOption.map fun k => { r with pubkey := k }
      | .credentials => v.asRoot.toOption.map fun c => { r with credentials := c } := by
  have each {α : Type} (x : Except CallError α) (f : α → Option MinipoolRecord) :
      (x.map f).toOption.bind id = x.toOption.bind f := by cases x <;> rfl
  cases field with
  | statusTime =>
    refine (each _ _).trans ?_
    rw [Option.map_bind]
    rfl
  | _ => exact (each _ _).trans Option.map_eq_bind.symm

theorem setFields_nil (r : MinipoolRecord) : (r.setFields []).value? = some r := rfl

theorem setFields_cons (r : MinipoolRecord) (field : MinipoolField) (v : ReadValue)
    (rest : List (MinipoolField × ReadValue)) :
    (r.setFields ((field, v) :: rest)).value? =
      ((r.withField field v).toOption.bind id).bind fun updated =>
        (updated.setFields rest).value? := by
  rw [setFields, decoding_bind, setField]
  rcases r.withField field v with reason | _ | updated <;> rfl

end MinipoolRecord

/-! ## Pages of addresses -/

namespace Source
variable {s : Source} {node : Address} {block : UInt64}

theorem addressReads_mapM (start stop : Nat) :
    (((addressReads node start stop).mapM (s.read block)).bind fun values =>
        (values.mapM ReadValue.asAddress).toOption) =
      (List.range' start (stop - start)).mapM (s.address? node block) := by
  simp only [toOption_mapM, mapM_bind_mapM, addressReads, List.mapM_map]
  rfl

theorem addressesFrom_computes (page count start : Nat) :
    s.Computes (addressesFrom node block page count start)
      ((List.range' start (count - start)).mapM (s.address? node block)) := by
  induction start using addressesFrom.induct page count with
  | case1 start hlt stop ih =>
    have hsplit : List.range' start (count - start) =
        List.range' start (stop - start) ++ List.range' stop (count - stop) := by
      have hstop : stop = start + (stop - start) := by omega
      have hcount : count - start = stop - start + (count - stop) := by omega
      rw [hcount, ← List.range'_append_1, ← hstop]
    rw [addressesFrom, if_pos hlt]
    refine ((computes_multicall _ _).bind fun values _ => (computes_taking _).bind fun found _ =>
      ih.bind fun rest _ => computes_pure (found ++ rest)).congr ?_
    rw [← Option.bind_assoc, addressReads_mapM, hsplit, List.mapM_append]
    rfl
  | case2 start hge =>
    rw [addressesFrom, if_neg hge, Nat.sub_eq_zero_of_le (Nat.le_of_not_lt hge)]
    exact computes_pure []

/-- The addresses do not depend on the page size. -/
theorem addresses_computes (pages : PageSizes) (count : UInt64) :
    s.Computes ((QueryRunner.mk node pages).addresses block count)
      (s.addresses? node block count.toNat) := by
  refine ((computes_require _ _).bind fun _ _ => (addressesFrom_computes _ _ _).bind
    fun found _ => (computes_require _ _).bind fun _ _ => computes_pure found).congr ?_
  rw [addresses?, List.range_eq_range', Nat.sub_zero]
  cases hfound : (List.range' 0 count.toNat).mapM (s.address? node block) with
  | none =>
    rw [ite_self]
    cases decide (min count.toNat (max pages.addresses.toNat 1) ≤ maxAddresses) <;> rfl
  | some found =>
    have hlength : found.length = count.toNat := by
      rw [length_of_mapM hfound, List.length_range']
    rw [Option.bind_some, hlength]
    by_cases hfits : count.toNat ≤ maxAddresses
    · have hpage : min count.toNat (max pages.addresses.toNat 1) ≤ maxAddresses := by omega
      rw [decide_eq_true hfits, decide_eq_true hpage, if_pos hfits]
      rfl
    · rw [decide_eq_false hfits, if_neg hfits]
      cases decide (min count.toNat (max pages.addresses.toNat 1) ≤ maxAddresses) <;> rfl

/-! ## Pages of details -/

def recordOf? (s : Source) (node : Address) (block : UInt64) (fields : List MinipoolField)
    (a : Address) : Option MinipoolRecord := do
  let values ← fields.mapM fun f => s.read block (.minipool a f)
  ((MinipoolRecord.empty node a).setFields (fields.zip values)).value?

theorem detailReads_mapM (fields : List MinipoolField) (addresses : List Address) :
    (((detailReads fields addresses).mapM (s.read block)).bind fun values =>
        (recordsOf node fields addresses values).value?) =
      addresses.mapM (s.recordOf? node block fields) := by
  induction addresses with
  | nil => rfl
  | cons a rest ih =>
    have hreads : detailReads fields (a :: rest) =
        fields.map (.minipool a) ++ detailReads fields rest := List.flatMap_cons
    have hfirst : (fields.map (.minipool a)).mapM (s.read block) =
        fields.mapM fun f => s.read block (.minipool a f) := List.mapM_map
    rw [hreads, List.mapM_append, hfirst, List.mapM_cons, ← ih, recordOf?]
    cases hfields : fields.mapM fun f => s.read block (.minipool a f) with
    | none => rfl
    | some values =>
      have hlength : values.length = fields.length := length_of_mapM hfields
      let record : Decoding MinipoolRecord :=
        (MinipoolRecord.empty node a).setFields (fields.zip values)
      cases (detailReads fields rest).mapM (s.read block) with
      | none =>
        show none = record.value?.bind fun _ => none
        rw [Option.bind_fun_none]
      | some others =>
        show (recordsOf node fields (a :: rest) (values ++ others)).value? = _
        rw [recordsOf, ← hlength, List.take_left, List.drop_left, decoding_bind]
        refine congrArg _ (funext fun r => ?_)
        rw [decoding_bind]
        rfl

theorem detailsOf_computes (fields : List MinipoolField) (pages : List (List Address)) :
    s.Computes (detailsOf node block fields pages)
      (pages.flatten.mapM (s.recordOf? node block fields)) := by
  induction pages with
  | nil => exact computes_pure []
  | cons page rest ih =>
    refine ((computes_multicall _ _).bind fun values _ => (computes_ofDecoding _).bind
      fun records _ => ih.bind fun more _ => computes_pure (records ++ more)).congr ?_
    rw [← Option.bind_assoc, detailReads_mapM, List.flatten_cons, List.mapM_append]
    rfl

/-- Nor do the records. -/
theorem details_computes (pages : PageSizes) (fields : List MinipoolField)
    (addresses : List Address) :
    s.Computes ((QueryRunner.mk node pages).details block fields addresses)
      (addresses.mapM (s.recordOf? node block fields)) := by
  unfold QueryRunner.details
  split
  · obtain rfl : fields = [] := List.isEmpty_iff.1 ‹_›
    have hempty : addresses.mapM (s.recordOf? node block []) =
        some (addresses.map (MinipoolRecord.empty node)) := List.mapM_pure
    rw [hempty]
    exact computes_pure _
  · have h : s.Computes
        (detailsOf node block fields (StakeKeeper.pages pages.details.toNat addresses)) _ :=
      detailsOf_computes fields _
    rwa [flatten_pages] at h

theorem recordOf?_allFields (a : Address) :
    s.recordOf? node block allFields a = s.record? node block a := by
  unfold recordOf? record? value? allFields
  simp only [List.mapM_cons, List.mapM_nil]
  cases s.read block (.minipool a .known) with
  | none => rfl
  | some known =>
  cases s.read block (.minipool a .status) with
  | none => simp
  | some status =>
  cases s.read block (.minipool a .statusTime) with
  | none => simp
  | some secs =>
  cases s.read block (.minipool a .pubkey) with
  | none => simp
  | some pubkey =>
  cases s.read block (.minipool a .credentials) with
  | none => simp
  | some credentials =>
    simp only [Option.bind_eq_bind, Option.bind_some, Option.pure_def, List.zip_cons_cons,
      List.zip_nil_right, MinipoolRecord.setFields_cons, MinipoolRecord.setFields_nil,
      MinipoolRecord.withField_value]
    -- No instant may be computed where the two sides are compared.
    generalize Instant.ofSecs? = time
    simp only [Option.bind_map, Option.bind_assoc, Function.comp_def, MinipoolRecord.empty]

/-! ## Whole queries -/

section
variable {σ ω : Type}

def details? (s : Source) (node : Address) (block : UInt64) (query : NodeQuery σ ω)
    (addresses : List Address) : Option (List MinipoolRecord) :=
  if query.wantsDetails addresses then addresses.mapM (s.recordOf? node block query.fields)
  else pure []

/-- What a prepared query comes to. -/
def gather? (s : Source) (node : Address) (query : NodeQuery σ ω) (header : BlockHeader)
    (transactor : Option Transactor) : Option ω := do
  let count ← s.value? header.number ReadValue.asUint64 (.minipoolCount node)
  let ownValues ← (query.ownReads node).mapM (s.read header.number)
  let own ← (query.decodeOwn ownValues).toOption
  let addresses ← s.addresses? node header.number count.toNat
  let validators ← s.details? node header.number query addresses
  (query.finish own ⟨header, node, addresses, validators, transactor⟩).toOption

theorem gather_computes (pages : PageSizes) (query : NodeQuery σ ω) (header : BlockHeader)
    (transactor : Option Transactor) :
    s.Computes ((QueryRunner.mk node pages).gather query header transactor)
      (s.gather? node query header transactor) := by
  -- The count comes back in one batch with the query's own values, but is decoded before them.
  refine ((computes_multicall _ _).bind (g := fun values => do
    let countValue ← values.head?
    let count ← countValue.asUint64.toOption
    let own ← (query.decodeOwn values.tail).toOption
    let addresses ← s.addresses? node header.number count.toNat
    let validators ← s.details? node header.number query addresses
    (query.finish own ⟨header, node, addresses, validators, transactor⟩).toOption)
    fun values _ => ?_).congr ?_
  · cases values with
    | nil => exact computes_throw _
    | cons countValue ownValues =>
      refine (computes_taking _).bind fun count _ => (computes_ofExcept _).bind fun own _ =>
        (addresses_computes pages count).bind fun addresses _ => ?_
      unfold details?
      by_cases hwants : query.wantsDetails addresses = true
      · rw [if_pos hwants, if_pos hwants]
        refine (details_computes pages query.fields addresses).bind fun validators _ => ?_
        exact (computes_note _).bind fun _ _ => computes_ofExcept _
      · rw [if_neg hwants, if_neg hwants]
        exact (computes_note _).bind fun _ _ => computes_ofExcept _
  · rw [List.mapM_cons, gather?, value?]
    cases s.read header.number (.minipoolCount node) with
    | none => rfl
    | some countValue =>
      cases (query.ownReads node).mapM (s.read header.number) with
      | some ownValues => rfl
      | none => exact (Option.bind_fun_none _).symm

theorem run_computes (pages : PageSizes) {query : NodeQuery σ ω} {prepared : Option Readiness}
    (h : s.Computes query.prepare prepared) :
    s.Computes ((QueryRunner.mk node pages).run query) (do
      let header ← s.header
      match ← prepared with
      | .notReady reason => pure (.notReady reason)
      | .ready transactor => (s.gather? node query header transactor).map .ready) := by
  refine computes_header.bind fun header _ => h.bind fun readiness _ => ?_
  cases readiness with
  | notReady reason => exact (computes_note _).bind fun _ _ => computes_pure _
  | ready transactor =>
    refine ((gather_computes pages query header transactor).bind fun output _ =>
      computes_pure (QueryOutcome.ready output)).congr ?_
    exact Option.map_eq_bind.symm

theorem gather?_allFields (query : NodeQuery σ ω) (header : BlockHeader)
    (transactor : Option Transactor) (hwants : query.wantsDetails = NodeQuery.anyMinipool)
    (hfields : query.fields = allFields) :
    s.gather? node query header transactor = (do
      let count ← s.value? header.number ReadValue.asUint64 (.minipoolCount node)
      let ownValues ← (query.ownReads node).mapM (s.read header.number)
      let own ← (query.decodeOwn ownValues).toOption
      let addresses ← s.addresses? node header.number count.toNat
      let validators ← addresses.mapM (s.record? node header.number)
      (query.finish own ⟨header, node, addresses, validators, transactor⟩).toOption) := by
  have hdetails (addresses : List Address) : s.details? node header.number query addresses =
      addresses.mapM (s.record? node header.number) := by
    have hrecord : s.recordOf? node header.number allFields = s.record? node header.number :=
      funext recordOf?_allFields
    rw [details?, hwants, hfields, hrecord]
    cases addresses <;> rfl
  simp only [gather?, hdetails]

end

theorem settings_mapM :
    ((settingsReads.mapM (s.read block)).bind fun values => (decodeSettings values).toOption) =
      s.settings? block := by
  unfold settingsReads settings? value?
  simp only [List.mapM_cons, List.mapM_nil]
  cases s.read block .scrubPeriod with
  | none => rfl
  | some scrub =>
  cases s.read block .launchTimeout with
  | none => simp
  | some timeout =>
  cases s.read block .minimumStake with
  | none => simp
  | some stake =>
    simp only [Option.bind_eq_bind, Option.bind_some, Option.pure_def, decodeSettings]
    rcases scrub.asUint64 with e | scrub
    · rfl
    rcases timeout.asUint64 with e | timeout
    · rfl
    rcases stake.asUint with e | stake <;> rfl

theorem refreshRegistries_computes : s.Computes refreshRegistries s.refreshed? :=
  (computes_refresh .execution).bind fun _ _ => computes_refresh .protocol

theorem active_mapM :
    (((.activeCount node :: settingsReads).mapM (s.read block)).bind fun values =>
        (snapshotQuery.decodeOwn values).toOption) =
      (s.value? block ReadValue.asUint64 (.activeCount node)).bind fun active =>
        (s.settings? block).map fun settings => (active, settings) := by
  rw [List.mapM_cons, ← settings_mapM, value?]
  cases s.read block (.activeCount node) with
  | none => rfl
  | some countValue =>
    cases settingsReads.mapM (s.read block) with
    | none => exact (Option.bind_fun_none _).symm
    | some values =>
      show (Except.toOption (do
        let active ← Except.mapError QueryError.call countValue.asUint64
        let settings ← decodeSettings values
        pure (active, settings))) = countValue.asUint64.toOption.bind fun active =>
          (decodeSettings values).toOption.map fun settings => (active, settings)
      rcases countValue.asUint64 with e | active
      · rfl
      · rcases decodeSettings values with e | settings <;> rfl

theorem snapshotQuery_gather (header : BlockHeader) :
    s.gather? node snapshotQuery header none = (do
      let activeCount ← s.value? header.number ReadValue.asUint64 (.activeCount node)
      let settings ← s.settings? header.number
      let validators ← s.records? node header.number
      pure { header, settings, node, activeCount, validators }) := by
  rw [gather?_allFields snapshotQuery header none rfl rfl, records?]
  cases s.value? header.number ReadValue.asUint64 (.minipoolCount node) with
  | none => simp
  | some count =>
    have hown : ((snapshotQuery.ownReads node).mapM (s.read header.number)).bind (fun values =>
        (snapshotQuery.decodeOwn values).toOption) = _ := active_mapM
    simp only [Option.bind_eq_bind, Option.bind_some]
    rw [← Option.bind_assoc, hown]
    simp only [Option.bind_assoc, Option.bind_map, Function.comp_def]
    rfl

theorem stakeQuery_gather (header : BlockHeader) (transactor : Transactor) :
    s.gather? node stakeQuery header (some transactor) = s.view? node header transactor := by
  rw [gather?_allFields stakeQuery header _ rfl rfl, view?, ← settings_mapM, records?]
  cases s.value? header.number ReadValue.asUint64 (.minipoolCount node) with
  | none => simp
  | some count =>
    simp only [Option.bind_eq_bind, Option.bind_some, Option.bind_assoc]
    rfl

theorem snapshotQuery_computes (pages : PageSizes) :
    s.Computes ((QueryRunner.mk node pages).run snapshotQuery)
      ((s.snapshot? node).map .ready) := by
  have hprepare : s.Computes snapshotQuery.prepare
      (s.refreshed?.bind fun _ => some (.ready none)) :=
    refreshRegistries_computes.bind fun _ _ => computes_pure _
  refine (run_computes pages hprepare).congr ?_
  unfold snapshot?
  cases s.header with
  | none => rfl
  | some header =>
    cases s.refreshed? with
    | none => rfl
    | some _ => exact congrArg (Option.map QueryOutcome.ready) (snapshotQuery_gather header)

/-- Whether a stake query goes on with an answer of the wallet. -/
def readiness? : Except CallError Transactor → Option Readiness
  | .ok transactor => some (.ready (some transactor))
  | .error (.walletNotReady reason) => some (.notReady reason)
  | .error _ => none

theorem stakeQuery_computes (pages : PageSizes) :
    s.Computes ((QueryRunner.mk node pages).run stakeQuery) (s.stakeOutcome? node) := by
  have hprepare : s.Computes stakeQuery.prepare
      (s.refreshed?.bind fun _ => readiness? s.transactor) := by
    refine refreshRegistries_computes.bind fun _ _ => ?_
    refine computes_transactor.bind (g := readiness?) fun answer _ => ?_
    rcases answer with e | transactor
    · cases e <;> first
        | exact computes_pure _
        | exact computes_throw _
    · exact computes_pure _
  refine (run_computes pages hprepare).congr ?_
  unfold stakeOutcome?
  cases s.header with
  | none => rfl
  | some header =>
    cases s.refreshed? with
    | none => rfl
    | some _ =>
      rcases s.transactor with e | transactor
      · cases e <;> rfl
      · exact congrArg (Option.map QueryOutcome.ready) (stakeQuery_gather header transactor)

end Source

/-- Both queries of the daemon come to the unpaged reference with every two page sizes: all runs end
with its output, or all end without one. -/
theorem QueryRunner.run_paged (s : Source) (node : Address) (first second : PageSizes) :
    (s.Yields ((QueryRunner.mk node first).run snapshotQuery) ((s.snapshot? node).map .ready) ∧
        s.Yields ((QueryRunner.mk node second).run snapshotQuery)
          ((s.snapshot? node).map .ready)) ∧
      s.Yields ((QueryRunner.mk node first).run stakeQuery) (s.stakeOutcome? node) ∧
        s.Yields ((QueryRunner.mk node second).run stakeQuery) (s.stakeOutcome? node) :=
  ⟨⟨(Source.snapshotQuery_computes first).yields, (Source.snapshotQuery_computes second).yields⟩,
    (Source.stakeQuery_computes first).yields, (Source.stakeQuery_computes second).yields⟩

end StakeKeeper
