import StakeKeeper.Pages
import StakeKeeper.Query.Field
import StakeKeeper.Routine

/-!
Batched queries of a node's minipools. A query pins one block, reads the node's minipool count
together with reads of its own, then the minipools' addresses and then their fields, each in pages,
all at that block. Any failure ends the query; no part of a result is kept.
-/
namespace StakeKeeper
set_option autoImplicit false

/-! ## Strategies -/

/-- How many things one batch of reads asks for. Zero acts as one. -/
structure PageSizes where
  addresses : UInt64
  details : UInt64
  deriving DecidableEq

inductive Readiness where
  | ready (transactor : Option Transactor)
  | notReady (reason : String)
  deriving DecidableEq

inductive QueryOutcome (ω : Type) where
  | ready (output : ω)
  | notReady (reason : String)

structure Gathered where
  header : BlockHeader
  node : Address
  addresses : List Address
  /-- Empty when no details were wanted. -/
  validators : List MinipoolRecord
  transactor : Option Transactor

abbrev QueryRoutine (α : Type) := FailingRoutine QueryError α

/-- One kind of query: `σ` is what its own reads decode to, `ω` its output. -/
structure NodeQuery (σ ω : Type) where
  /-- Refreshes caches and checks the wallet. -/
  prepare : QueryRoutine Readiness
  /-- The reads that go with the minipool count. -/
  ownReads : Address → List ContractRead
  decodeOwn : List ReadValue → Except QueryError σ
  /-- Whether the minipools' fields are worth reading. -/
  wantsDetails : List Address → Bool
  fields : List MinipoolField
  finish : σ → Gathered → Except QueryError ω

/-- Details are worth reading where there are minipools. -/
def NodeQuery.anyMinipool (addresses : List Address) : Bool := !addresses.isEmpty

/-! ## Running -/

structure QueryRunner where
  node : Address
  pages : PageSizes

/-- The longest list of addresses that fits the address space. -/
def maxAddresses : Nat := 0x7fffffffffffffff / 20

namespace QueryRoutine

def taking {α : Type} (r : Except CallError α) : QueryRoutine α := .ofExcept (r.mapError .call)

/-- Decoding, where an outcome that is missing is a crash. -/
def ofDecoding {α : Type} (d : Decoding α) : QueryRoutine α :=
  ExceptT.mk (Routine.orCrash .timeRange d.run)

/-- Reads a batch at a block. As many values as reads must come back. -/
def multicall (reads : List ContractRead) (block : UInt64) : QueryRoutine (List ReadValue) := do
  let values : List ReadValue ← FailingRoutine.call (.multicall reads block)
  if values.length = reads.length then pure values
  else throw (.resultCount reads.length values.length)

end QueryRoutine

open QueryRoutine

/-- The reads of the addresses of minipools `start` to `stop - 1`. -/
def addressReads (node : Address) (start stop : Nat) : List ContractRead :=
  (List.range' start (stop - start)).map fun i => .minipoolAt node (UInt64.ofNat i)

/-- The addresses of a node's minipools from index `start` on, `page + 1` at a time. -/
def addressesFrom (node : Address) (block : UInt64) (page count start : Nat) :
    QueryRoutine (List Address) :=
  if start < count then do
    let stop := min (start + page + 1) count
    let values ← multicall (addressReads node start stop) block
    let found ← taking (values.mapM ReadValue.asAddress)
    let rest ← addressesFrom node block page count stop
    pure (found ++ rest)
  else pure []
termination_by count - start

/-- The reads of fields of minipools, one minipool after the other. -/
def detailReads (fields : List MinipoolField) (addresses : List Address) : List ContractRead :=
  addresses.flatMap fun a => fields.map fun f => .minipool a f

def recordsOf (node : Address) (fields : List MinipoolField) :
    List Address → List ReadValue → Decoding (List MinipoolRecord)
  | [], _ => pure []
  | a :: rest, values => do
    let record ← (MinipoolRecord.empty node a).setFields (fields.zip (values.take fields.length))
    let records ← recordsOf node fields rest (values.drop fields.length)
    pure (record :: records)

def detailsOf (node : Address) (block : UInt64) (fields : List MinipoolField) :
    List (List Address) → QueryRoutine (List MinipoolRecord)
  | [] => pure []
  | page :: rest => do
    let values ← multicall (detailReads fields page) block
    let records ← ofDecoding (recordsOf node fields page values)
    let more ← detailsOf node block fields rest
    pure (records ++ more)

namespace QueryRunner

/-- The addresses of the node's minipools, of which the chain reports `count`. -/
def addresses (runner : QueryRunner) (block count : UInt64) : QueryRoutine (List Address) := do
  let page := runner.pages.addresses.toNat
  FailingRoutine.ofRoutine (Routine.require (min count.toNat (max page 1) ≤ maxAddresses) .capacity)
  let found ← addressesFrom runner.node block (page - 1) count.toNat 0
  FailingRoutine.ofRoutine (Routine.require (found.length ≤ maxAddresses) .capacity)
  pure found

/-- The records of the minipools at the addresses. Without fields there is nothing to read. -/
def details (runner : QueryRunner) (block : UInt64) (fields : List MinipoolField)
    (addresses : List Address) : QueryRoutine (List MinipoolRecord) :=
  if fields.isEmpty then pure (addresses.map (MinipoolRecord.empty runner.node))
  else detailsOf runner.node block fields (StakeKeeper.pages runner.pages.details.toNat addresses)

variable {σ ω : Type}

def gather (runner : QueryRunner) (query : NodeQuery σ ω) (header : BlockHeader)
    (transactor : Option Transactor) : QueryRoutine ω := do
  let reads := .minipoolCount runner.node :: query.ownReads runner.node
  match ← multicall reads header.number with
  | [] => throw (.resultCount reads.length 0)
  | countValue :: ownValues =>
    let count ← taking countValue.asUint64
    let own ← FailingRoutine.ofExcept (query.decodeOwn ownValues)
    let addresses ← runner.addresses header.number count
    if query.wantsDetails addresses then
      let validators ← runner.details header.number query.fields addresses
      FailingRoutine.note (.queryComplete runner.node header.number validators.length)
      FailingRoutine.ofExcept
        (query.finish own ⟨header, runner.node, addresses, validators, transactor⟩)
    else
      FailingRoutine.note (.detailsSkipped runner.node header.number addresses.length)
      FailingRoutine.ofExcept (query.finish own ⟨header, runner.node, addresses, [], transactor⟩)

/-- Runs a query at the latest block. -/
def run (runner : QueryRunner) (query : NodeQuery σ ω) : QueryRoutine (QueryOutcome ω) := do
  let header : BlockHeader ← FailingRoutine.call (.header none)
  match ← query.prepare with
  | .notReady reason =>
    FailingRoutine.note (.queryNotReady runner.node reason)
    pure (.notReady reason)
  | .ready transactor =>
    let output ← runner.gather query header transactor
    pure (.ready output)

end QueryRunner

end StakeKeeper
