import StakeKeeper.Devnet.Fault
import StakeKeeper.Devnet.Net
import StakeKeeper.TaskLoop

/-!
Rehearsals: the collaborators in memory behind a recorder, with faults, and on a clock that moves
only when something waits. Changes can be planned for later; they happen as the clock passes them.
-/
namespace StakeKeeper.Devnet
set_option autoImplicit false

/-! ## Changes -/

/-- A change of the world around the daemon. -/
inductive Change where
  | addMinipool (record : MinipoolRecord)
  | addKey (key : ValidatorKey)
  | removeKey (pubkey : PubKey)
  /-- From now on the key store answers these bytes for a validator. -/
  | aliasKey (pubkey : PubKey) (secret : List UInt8)
  | advance (timestamp : UInt64)
  | setFee (fee : UInt64)
  | executionSynced (value : Bool)
  | consensusSynced (value : Bool)
  | reportCount (count : UInt64)
  | failReads (value : Bool)
  | failSimulation (minipool : Address)
  | setBeacon (pubkey : PubKey) (status : BeaconStatus)
  | setFinalized (epoch : UInt64)
  | setRemote (pubkey : PubKey) (uploaded : Bool)
  | setOutcome (outcome : UploadOutcome)
  | dropUploads (pubkey : PubKey)
  | limitListings (count : UInt64)
  | walletReady (value : Bool)
  | addFault (fault : Fault)
  | clearFaults

/-- A change that is planned for a time, under a name. -/
structure Planned where
  atMs : Nat
  name : String
  /-- None if the plan comes to nothing. -/
  change : Option Change

/-! ## State -/

inductive Moment where
  | call (q : Request)
  | change (name : String)
  | shutdown
  | stopped

/-- A rehearsal. Moments and events are kept newest first. -/
structure Rehearsal where
  net : Net
  aliases : Registry PubKey (List UInt8)
  faults : List Fault
  counts : Registry Method Nat
  moments : List (Nat × Moment)
  events : List Event
  now : Nat
  agenda : List Planned
  /-- Whether a planned change could not be made. Nothing counts from then on. -/
  spoiled : Bool
  stopAt : Option Nat

namespace Rehearsal

def new (net : Net) : Rehearsal := ⟨net, .empty, [], .empty, [], [], 0, [], false, none⟩

def record (s : Rehearsal) (m : Moment) : Rehearsal := { s with moments := (s.now, m) :: s.moments }

/-- What a change leaves behind besides the world. -/
inductive Receipt where
  | none
  | key (pubkey : PubKey)
  | removed (present : Bool)

/-- Changes the collaborators; none if a number leaves its range. -/
def changeNet (n : Net) : Change → Option (Net × Receipt)
  | .addMinipool r =>
    some ({ n with chain := { n.chain with minipools := n.chain.minipools ++ [r] } }, .none)
  | .addKey key =>
    let (keys, pubkey) := n.keys.insert key
    some ({ n with keys }, .key pubkey)
  | .removeKey pubkey =>
    let (keys, present) := n.keys.remove pubkey
    some ({ n with keys }, .removed present)
  | .advance timestamp =>
    (n.chain.advance? timestamp).map fun chain => ({ n with chain }, .none)
  | .setFee fee =>
    some ({ n with chain := { n.chain with fee := { n.chain.fee with maxFee := fee } } }, .none)
  | .executionSynced value => some ({ n with chain := { n.chain with synced := value } }, .none)
  | .consensusSynced value => some ({ n with beacon := { n.beacon with synced := value } }, .none)
  | .reportCount count =>
    some ({ n with chain := { n.chain with reportedCount := some count } }, .none)
  | .failReads value => some ({ n with chain := { n.chain with failReads := value } }, .none)
  | .failSimulation a =>
    some ({ n with chain := { n.chain with reverting := a :: n.chain.reverting } }, .none)
  | .setBeacon pubkey status =>
    let statuses := n.beacon.statuses.insert pubkey status
    some ({ n with beacon := { n.beacon with statuses } }, .none)
  | .setFinalized epoch =>
    (n.beacon.finalize? epoch).map fun beacon => ({ n with beacon }, .none)
  | .setRemote pubkey uploaded =>
    let records := n.service.records.insert pubkey uploaded
    some ({ n with service := { n.service with records } }, .none)
  | .setOutcome outcome => some ({ n with service := { n.service with outcome } }, .none)
  | .dropUploads pubkey =>
    some ({ n with service := { n.service with dropped := pubkey :: n.service.dropped } }, .none)
  | .limitListings count =>
    some ({ n with service := { n.service with listingLimit := some count } }, .none)
  | .walletReady value => some ({ n with walletReady := value }, .none)
  | .aliasKey _ _ => some (n, .none)
  | .addFault _ => some (n, .none)
  | .clearFaults => some (n, .none)

def change? (s : Rehearsal) : Change → Option (Rehearsal × Receipt)
  | .aliasKey pubkey secret => some ({ s with aliases := s.aliases.insert pubkey secret }, .none)
  | .addFault fault => some ({ s with faults := s.faults ++ [fault] }, .none)
  | .clearFaults => some ({ s with faults := [] }, .none)
  | change => (changeNet s.net change).map fun (net, receipt) => ({ s with net }, receipt)

/-! ## The clock -/

def applyUntil (target : Nat) : List Planned → Rehearsal → Rehearsal
  | [], s => { s with agenda := [] }
  | p :: rest, s =>
    if p.atMs ≤ target then
      let s := { s with now := max s.now p.atMs }.record (.change p.name)
      match p.change with
      | none => applyUntil target rest s
      | some change =>
        match s.change? change with
        | some (s, _) => applyUntil target rest s
        | none => { s with agenda := [], spoiled := true }
    else { s with agenda := p :: rest }

/-- Moves the clock to a time, if the daemon is not told to stop first; else to that moment. -/
def advanceTo (target : Nat) (s : Rehearsal) : Bool × Rehearsal :=
  match s.stopAt with
  | some stop =>
    if stop ≤ target then
      let s := applyUntil stop s.agenda s
      (false, { s with now := max s.now stop })
    else
      let s := applyUntil target s.agenda s
      (true, { s with now := max s.now target })
  | none =>
    let s := applyUntil target s.agenda s
    (true, { s with now := max s.now target })

/-- The longest wait in milliseconds: thirty years of 365 days. -/
def longestWait : Nat := 946080000000

/-- A wait in milliseconds, rounded up. A wait of no length does not move the clock. -/
def toMs (d : Duration) : Nat := min longestWait ((d.nanos + 999999) / 1000000)

def clock : TaskLoop.Clock Rehearsal where
  sleep d s := s.advanceTo (s.now + toMs d)

/-! ## Calls -/

/-- The key store's answer, with the bytes that stand in for a key taking precedence. -/
def loadKey (s : Rehearsal) (pubkey : PubKey) : Except CallError (Option ValidatorKey) :=
  match s.aliases.get? pubkey with
  | some secret => ((keyOfBytes secret).mapError .value).map some
  | none => s.net.keys.load pubkey

def answerNet (s : Rehearsal) : (q : Request) → Reaction q.Reply × Rehearsal
  | .loadKey pubkey => (.answered (s.loadKey pubkey), s)
  | q =>
    let (reaction, net) := s.net.answer q
    (reaction, { s with net })

def answerWith (s : Rehearsal) (faults : List Fault) (q : Request) : Reaction q.Reply × Rehearsal :=
  match Fault.errorBefore faults with
  | some e => (.answered (.error e), s)
  | none =>
    match s.answerNet q with
    | (.answered (.ok a), s) =>
      match Fault.errorAfter (methodOf q) faults with
      | some e => (.answered (.error e), s)
      | none => (.answered (.ok (Fault.edit faults q a)), s)
    | result => result

/-- Records a call, waits as long as its faults say, and answers it. -/
def answer (q : Request) (s : Rehearsal) : Reaction q.Reply × Rehearsal :=
  let method := methodOf q
  let count := (s.counts.get? method).getD 0
  let s := { s.record (.call q) with counts := s.counts.insert method (count + 1) }
  let faults := s.faults.filter (·.appliesTo method count)
  let delay : Nat := faults.foldl (fun ms f => ms + min longestWait f.delayMs) 0
  if delay = 0 then s.answerWith faults q
  else
    match s.advanceTo (s.now + delay) with
    | (true, s) => s.answerWith faults q
    | (false, s) => (.cancelled, s)

def handler : Handler Rehearsal where
  answer := answer
  note e s := { s with events := e :: s.events }

/-! ## A whole run of the loop -/

/-- The faults that are there or planned. -/
def faultsToCome (s : Rehearsal) : List Fault :=
  s.faults ++ s.agenda.filterMap fun p =>
    match p.change with
    | some (.addFault fault) => some fault
    | _ => none

/-- How many ticks of a loop are played before a time, at most. Those that take time are no more
than one for each millisecond. One that takes none comes closer to a numbered fault, stakes a
minipool or sends an exit; or else the next one does the same, and that time never comes. -/
def tickLimit (stop : Nat) (s : Rehearsal) : Nat :=
  let idle := 2 * (s.net.chain.minipools.length + s.agenda.length)
  s.faultsToCome.foldl (fun ticks f => ticks + f.callsAhead) (stop + 1 + idle)

/-- A run of the task loop that is told to stop at a time, and whether it had ended before; none if
a planned change could not be made. -/
def runLoop {τ : Type} [ScheduledTask τ] (loop : TaskLoop τ) (stop : Nat) (s : Rehearsal) :
    Option (Bool × Rehearsal) :=
  let (crashed, s) :=
    match loop.start handler clock (s.tickLimit stop) { s with stopAt := some stop } with
    | (.crashed _, s) => (true, (s.advanceTo stop).2)
    | (_, s) => (false, s)
  if s.spoiled then none
  else
    let s := (s.record .shutdown).record .stopped
    some (crashed, if crashed then handler.note .loopCrashed s else s)

end Rehearsal

end StakeKeeper.Devnet
