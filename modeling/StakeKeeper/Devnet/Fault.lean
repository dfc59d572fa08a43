import StakeKeeper.Routine

/-!
Faults that a rehearsal injects into calls: a delay, an error in place of the answer, and changes to
the values of a batch of reads or to a gas limit.
-/
namespace StakeKeeper.Devnet
set_option autoImplicit false

/-! ## Methods -/

/-- The kinds of call that faults can be tied to. -/
inductive Method where
  | executionSync
  | header
  | refresh
  | multicall
  | feeEstimate
  | simulate
  | submit
  | wait
  | consensusSync
  | beaconConfig
  | validatorStatuses
  | chainHead
  | signingDomain
  | escrowListing
  | uploadExits
  | loadKey
  | transactor
  | outsideTask
  deriving DecidableEq

def methodOf : Request → Method
  | .executionSync => .executionSync
  | .header _ => .header
  | .refresh _ => .refresh
  | .multicall _ _ => .multicall
  | .feeEstimate => .feeEstimate
  | .simulate _ _ => .simulate
  | .submit _ _ _ => .submit
  | .wait _ => .wait
  | .consensusSync => .consensusSync
  | .beaconConfig => .beaconConfig
  | .validatorStatuses _ _ => .validatorStatuses
  | .chainHead => .chainHead
  | .signingDomain _ _ => .signingDomain
  | .escrowListing => .escrowListing
  | .uploadExits _ => .uploadExits
  | .loadKey _ => .loadKey
  | .transactor => .transactor
  | .outsideTask _ _ _ => .outsideTask

/-! ## Faults -/

/-- An error that a fault puts in place of an answer. -/
structure InjectedError where
  error : CallError
  /-- Whether the call is still made, and only a good answer replaced. -/
  after : Bool

/-- A fault of all calls of a kind, or of one of them. -/
structure Fault where
  method : Method
  /-- Which call of the kind, counted from zero; every one if absent. -/
  nth : Option Nat
  delayMs : Nat
  error : Option InjectedError
  /-- Values of a batch that are replaced. -/
  replaced : List (Nat × ReadValue)
  /-- How many values of a batch are kept. -/
  kept : Option Nat
  /-- Values that are added to a batch. -/
  added : List ReadValue
  gasLimit : Option UInt64

namespace Fault

def appliesTo (f : Fault) (method : Method) (count : Nat) : Bool :=
  f.method = method && (f.nth.isNone || f.nth = some count)

/-- How many calls of its kind a numbered fault still has to see. -/
def callsAhead (f : Fault) : Nat :=
  match f.nth with
  | some n => n + 1
  | none => 0

/-- The error that a call fails with before it is made: that of the first fault with such a one. -/
def errorBefore (faults : List Fault) : Option CallError :=
  ((faults.filterMap (·.error)).find? (!·.after)).map (·.error)

/-- The error that takes the place of a good answer. The key store's answers are left alone. -/
def errorAfter (method : Method) (faults : List Fault) : Option CallError :=
  if method = .loadKey then none
  else ((faults.filterMap (·.error)).find? (·.after)).map (·.error)

/-- The values of a batch after a fault: replaced, cut, and added to, in this order. -/
def editValues (values : List ReadValue) (f : Fault) : List ReadValue :=
  let values := f.replaced.foldl (fun vs (i, v) => vs.set i v) values
  let values :=
    match f.kept with
    | some n => values.take n
    | none => values
  values ++ f.added

/-- A gas estimate after the faults of its call: the first gas limit among them takes its place. -/
def editGas (faults : List Fault) (estimate : GasEstimate) : GasEstimate :=
  match faults.findSome? (·.gasLimit) with
  | some gasLimit => ⟨gasLimit⟩
  | none => estimate

def edit (faults : List Fault) : (q : Request) → q.Reply → q.Reply
  | .multicall _ _, values => faults.foldl editValues values
  | .simulate _ _, estimate => editGas faults estimate
  | _, answer => answer

end Fault

end StakeKeeper.Devnet
