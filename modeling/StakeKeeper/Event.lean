import StakeKeeper.Decimal.Shortest
import StakeKeeper.Network
import StakeKeeper.TaskError
import StakeKeeper.Text.Quoted

/-!
What the daemon notes in its log. An `Event` is a fact; `Event.line` writes it as a line with a
level, a message and named fields.
-/
namespace StakeKeeper
set_option autoImplicit false

/-- The two clients that must be in sync. -/
inductive Layer where
  | execution
  | consensus
  deriving DecidableEq

/-- A fact that the daemon notes. -/
inductive Event where
  | clientNotSynced (layer : Layer) (progress : Float)
  | syncCheckFailed (layer : Layer) (error : CallError)
  | queryNotReady (node : Address) (reason : String)
  | detailsSkipped (node : Address) (block : UInt64) (minipools : Nat)
  | queryComplete (node : Address) (block : UInt64) (minipools : Nat)
  | settingsUnset (block : UInt64) (settings : NetworkSettings)
  | snapshotCollected (node : Address) (block : UInt64) (minipools : Nat) (active : UInt64)
  | snapshotFailed (error : QueryError)
  | taskStarted (task : String) (block : UInt64)
  | taskFailed (task : String) (error : TaskError)
  | nonePrelaunch (node : Address)
  | stakeSkipped (reason : String)
  | inReview (minipool : Address) (remaining : Duration)
  | stakePostponed (pending : Nat) (fee threshold : UInt64)
  | stakeForced (forced : Nat) (fee : UInt64)
  | staking (minipool : Address)
  | stakesIncluded (node : Address) (staked : Nat) (maxFee : UInt64)
  | uploadedExitsLoaded (cached : Nat)
  | noExitNeeded (node : Address)
  | notOnBeaconChain (minipool : Address) (slot : UInt64)
  | noValidatorIndex (minipool : Address) (slot : UInt64)
  | exitKeyMissing (minipool : Address) (pubkey : PubKey)
  | exitKeyFailed (minipool : Address) (error : CallError)
  | exitsUploaded (count : Nat) (epoch : UInt64)
  | confirmationFailed (error : CallError) (count : Nat)
  | uploadedElsewhere (pubkey : PubKey)
  | uploadUnconfirmed (pubkey : PubKey)
  | loopStarted (tasks : List String) (interval : Duration)
  | loopStopped
  | loopCrashed

/-! ## Lines -/

inductive Level where
  | debug
  | info
  | warn
  | error
  deriving DecidableEq

structure LogLine where
  level : Level
  message : String
  fields : List (String × String)

/-- The decimal text of a part of a whole that is a power of ten, without trailing zeros. -/
def fractionText (part width : Nat) : String :=
  if part = 0 then ""
  else
    let digits := (toString part).toList
    let padded := List.replicate (width - digits.length) '0' ++ digits
    String.ofList ('.' :: (padded.reverse.dropWhile (· == '0')).reverse)

/-- A span in the largest unit of which it holds at least one. -/
def Duration.text (d : Duration) : String :=
  if d.nanos ≥ 1000000000 then
    toString (d.nanos / 1000000000) ++ fractionText (d.nanos % 1000000000) 9 ++ "s"
  else if d.nanos ≥ 1000000 then
    toString (d.nanos / 1000000) ++ fractionText (d.nanos % 1000000) 6 ++ "ms"
  else if d.nanos ≥ 1000 then
    toString (d.nanos / 1000) ++ fractionText (d.nanos % 1000) 3 ++ "µs"
  else toString d.nanos ++ "ns"

def NetworkSettings.text (s : NetworkSettings) : String :=
  "NetworkSettings \x7b scrub_period: " ++ s.scrubPeriod.text ++ ", launch_timeout: " ++
    s.launchTimeout.text ++ ", minimum_stake: " ++ s.minimumStake.decimal ++ " \x7d"

/-- Numbers from `10 ^ (-4)` up to `10 ^ 16` are written without an exponent. -/
def progressText : Decimal.FloatText := ⟨4, 16, false⟩

def Layer.label : Layer → String
  | execution => "Execution"
  | consensus => "Consensus"

def Layer.word : Layer → String
  | execution => "execution"
  | consensus => "consensus"

private def mixed (a : Address) : String := Address.checksummed a

def Event.line : Event → LogLine
  | clientNotSynced layer progress =>
    ⟨.info, s!"{layer.label} client not synced", [("progress", progressText.ofFloat progress)]⟩
  | syncCheckFailed layer error =>
    ⟨.warn, s!"Failed to check {layer.word} client sync status", [("error", error.message)]⟩
  | queryNotReady node reason =>
    ⟨.debug, "Node query not ready", [("node", mixed node), ("reason", reason)]⟩
  | detailsSkipped node block minipools =>
    ⟨.debug, "Skipping minipool details",
      [("node", mixed node), ("block", toString block), ("minipools", toString minipools)]⟩
  | queryComplete node block minipools =>
    ⟨.debug, "Node query complete",
      [("node", mixed node), ("block", toString block), ("minipools", toString minipools)]⟩
  | settingsUnset block settings =>
    ⟨.warn, "Network settings look unset; contract addresses may be stale",
      [("block", toString block), ("settings", settings.text)]⟩
  | snapshotCollected node block minipools active =>
    ⟨.debug, "Collected network snapshot",
      [("node", mixed node), ("block", toString block), ("minipools", toString minipools),
        ("active", toString active)]⟩
  | snapshotFailed error =>
    ⟨.error, "Failed to collect network snapshot", [("error", error.message)]⟩
  | taskStarted task block =>
    ⟨.debug, "Running task", [("task", task), ("block", toString block)]⟩
  | taskFailed task error => ⟨.error, "Task failed", [("task", task), ("error", error.message)]⟩
  | nonePrelaunch node => ⟨.debug, "No prelaunch minipools", [("node", mixed node)]⟩
  | stakeSkipped reason => ⟨.info, "Skipping stake check", [("reason", reason)]⟩
  | inReview minipool remaining =>
    ⟨.debug, "Minipool is still in its safety review",
      [("minipool", mixed minipool), ("remaining_secs", toString remaining.secs)]⟩
  | stakePostponed pending fee threshold =>
    ⟨.info, "Gas price is above threshold; postponing stake",
      [("pending", toString pending), ("fee_gwei", toString fee),
        ("threshold_gwei", toString threshold)]⟩
  | stakeForced forced fee =>
    ⟨.warn, "Minipools are close to their launch timeout; staking regardless of gas price",
      [("forced", toString forced), ("fee_gwei", toString fee)]⟩
  | staking minipool => ⟨.info, "Staking minipool", [("minipool", mixed minipool)]⟩
  | stakesIncluded node staked maxFee =>
    ⟨.info, "Stake transactions included",
      [("node", mixed node), ("staked", toString staked), ("max_fee_gwei", toString maxFee)]⟩
  | uploadedExitsLoaded cached =>
    ⟨.debug, "Loaded uploaded exits from coordination service", [("cached", toString cached)]⟩
  | noExitNeeded node => ⟨.debug, "No validators need an exit message", [("node", mixed node)]⟩
  | notOnBeaconChain minipool slot =>
    ⟨.debug, "Validator not visible on beacon chain yet",
      [("minipool", mixed minipool), ("slot", toString slot)]⟩
  | noValidatorIndex minipool slot =>
    ⟨.debug, "Validator has no index yet",
      [("minipool", mixed minipool), ("slot", toString slot)]⟩
  | exitKeyMissing minipool pubkey =>
    ⟨.warn, "No signing key; skipping exit",
      [("minipool", mixed minipool), ("pubkey", Hex.ofBytes pubkey)]⟩
  | exitKeyFailed minipool error =>
    ⟨.warn, "Failed to load signing key; skipping exit",
      [("minipool", mixed minipool), ("error", error.message)]⟩
  | exitsUploaded count epoch =>
    ⟨.info, "Uploaded signed exit messages",
      [("count", toString count), ("epoch", toString epoch)]⟩
  | confirmationFailed error count =>
    ⟨.warn, "Failed to confirm uploaded exits; caching them as sent",
      [("error", error.message), ("count", toString count)]⟩
  | uploadedElsewhere pubkey =>
    ⟨.debug, "Exit was uploaded out of band", [("pubkey", Hex.ofBytes pubkey)]⟩
  | uploadUnconfirmed pubkey =>
    ⟨.warn, "Uploaded exit not confirmed by coordination service", [("pubkey", Hex.ofBytes pubkey)]⟩
  | loopStarted tasks interval =>
    ⟨.info, "Task loop started",
      [("tasks", Text.quotedList tasks), ("interval_secs", toString interval.secs)]⟩
  | loopStopped => ⟨.info, "Task loop stopped", []⟩
  | loopCrashed => ⟨.error, "Task loop ended abnormally", []⟩

end StakeKeeper
