import StakeKeeper.Proofs.Wire.Faithful
import StakeKeeper.Wire.Records

/-!
Every record and choice that is kept or sent is read back from its text. The only values without a
text are those that hold an instant before the epoch. Main statement: `forms_round_trip`.
-/
namespace StakeKeeper
set_option autoImplicit false
open Wire Codec

/-! ## Names and records -/

instance : MinipoolStatus.codec.Lossless := name_lossless (by decide) fun s => by cases s <;> decide

instance : BeaconState.codec.Lossless := name_lossless (by decide) fun s => by cases s <;> decide

instance : DomainType.codec.Lossless := name_lossless (by decide) fun d => by cases d <;> decide

instance : ContractRegistry.codec.Lossless :=
  name_lossless (by decide) fun r => by cases r <;> decide

instance : MinipoolField.codec.Lossless := name_lossless (by decide) fun f => by cases f <;> decide

instance : BeaconStatus.codec.Lossless :=
  record_lossless (by decide) (fun _ => rfl) fun _ => rfl

instance : BlockHeader.codec.Lossless := record_lossless (by decide) (fun _ => rfl) fun _ => rfl

instance : NetworkSettings.codec.Lossless := record_lossless (by decide) (fun _ => rfl) fun _ => rfl

instance : BeaconConfig.codec.Lossless := record_lossless (by decide) (fun _ => rfl) fun _ => rfl

instance : ChainHead.codec.Lossless := record_lossless (by decide) (fun _ => rfl) fun _ => rfl

instance : VoluntaryExit.codec.Lossless := record_lossless (by decide) (fun _ => rfl) fun _ => rfl

instance : SignedVoluntaryExit.codec.Lossless :=
  record_lossless (by decide) (fun _ => rfl) fun _ => rfl

instance : DepositMessage.codec.Lossless := record_lossless (by decide) (fun _ => rfl) fun _ => rfl

instance : DepositData.codec.Lossless := record_lossless (by decide) (fun _ => rfl) fun _ => rfl

instance : ExitUpload.codec.Lossless := record_lossless (by decide) (fun _ => rfl) fun _ => rfl

instance : EscrowEntry.codec.Lossless := record_lossless (by decide) (fun _ => rfl) fun _ => rfl

instance : UploadOutcome.codec.Lossless := record_lossless (by decide) (fun _ => rfl) fun _ => rfl

instance : Transactor.codec.Lossless := record_lossless (by decide) (fun _ => rfl) fun _ => rfl

instance : GasEstimate.codec.Lossless := record_lossless (by decide) (fun _ => rfl) fun _ => rfl

instance : FeeEstimate.codec.Lossless := record_lossless (by decide) (fun _ => rfl) fun _ => rfl

instance : FeeSettings.codec.Lossless := record_lossless (by decide) (fun _ => rfl) fun _ => rfl

/-! ## Choices with contents -/

instance : ContractRead.nodeCodec.Lossless :=
  record_lossless (by decide) (fun _ => rfl) fun _ => rfl

instance : ContractRead.minipoolAtCodec.Lossless :=
  record_lossless (by decide) (fun _ => rfl) fun _ => rfl

instance : ContractRead.minipoolCodec.Lossless :=
  record_lossless (by decide) (fun _ => rfl) fun _ => rfl

instance : ContractCall.stakeCodec.Lossless :=
  record_lossless (by decide) (fun _ => rfl) fun _ => rfl

instance : ContractRead.codec.Lossless where
  faithful := by
    refine choice_faithful (by decide) ?_ fun read => ?_
    · simp only [List.forall_mem_cons]
      refine ⟨.of ?_, .of ?_, .of ?_, .unit _ _, .unit _ _, .unit _ _, .of ?_,
        List.forall_mem_nil _⟩
      all_goals
        intro read content h
        cases read <;> cases h
        rfl
    · cases read <;> simp [Alternative.of, Alternative.unit]

instance : ReadValue.codec.Lossless where
  faithful := by
    refine choice_faithful (by decide) ?_ fun value => ?_
    · simp only [List.forall_mem_cons]
      refine ⟨.of ?_, .of ?_, .of ?_, .of ?_, List.forall_mem_nil _⟩
      all_goals
        intro value content h
        cases value <;> cases h
        rfl
    · cases value <;> simp [Alternative.of]

instance : ContractCall.codec.Lossless where
  faithful := by
    refine choice_faithful (by decide) ?_ fun call => ?_
    · simp only [List.forall_mem_cons]
      refine ⟨.of fun call content h => ?_, List.forall_mem_nil _⟩
      cases call
      cases h
      rfl
    · cases call
      simp [Alternative.of]

instance : TransactionRequest.codec.Lossless :=
  record_lossless (by decide) (fun _ => rfl) fun _ => rfl

/-! ## Minipools and snapshots -/

instance : BeaconStatus.codec.option.Lossless :=
  option_lossless record_ne_null (scanParts_atom .null _ _)

/-- A minipool has a text if its status changed at or after the epoch. -/
theorem MinipoolRecord.codec_faithful :
    MinipoolRecord.codec.Faithful fun r => Instant.epoch ≤ r.statusTime :=
  (record_faithful
    (.cons Lossless.faithful <| .cons Lossless.faithful <| .cons Lossless.faithful <|
      .cons Lossless.faithful <| .cons instant_faithful Fields.Lossless.faithful)
    (by decide) (fun _ => rfl) fun _ => rfl).congr
    fun r => by simp [Anything]

theorem NetworkSnapshot.codec_faithful :
    NetworkSnapshot.codec.Faithful fun s => ∀ r ∈ s.validators, Instant.epoch ≤ r.statusTime :=
  (record_faithful
    (.cons Lossless.faithful <| .cons Lossless.faithful <| .cons Lossless.faithful <|
      .cons Lossless.faithful <| .cons (list_faithful MinipoolRecord.codec_faithful) .nil)
    (by decide) (fun _ => rfl) fun _ => rfl).congr
    fun s => by simp [Anything]

/-! ## All forms -/

/-- What is kept or sent as a text. The sync state is left out: its progress is a double. -/
inductive Form where
  | minipoolStatus
  | beaconState
  | beaconStatus
  | minipoolRecord
  | blockHeader
  | networkSettings
  | networkSnapshot
  | beaconConfig
  | chainHead
  | domainType
  | voluntaryExit
  | signedVoluntaryExit
  | depositMessage
  | depositData
  | exitUpload
  | escrowEntry
  | uploadOutcome
  | contractRegistry
  | minipoolField
  | contractRead
  | readValue
  | transactor
  | contractCall
  | transactionRequest
  | gasEstimate
  | feeEstimate
  | feeSettings

namespace Form

abbrev Value : Form → Type
  | minipoolStatus => MinipoolStatus
  | beaconState => BeaconState
  | beaconStatus => BeaconStatus
  | minipoolRecord => MinipoolRecord
  | blockHeader => BlockHeader
  | networkSettings => NetworkSettings
  | networkSnapshot => NetworkSnapshot
  | beaconConfig => BeaconConfig
  | chainHead => ChainHead
  | domainType => DomainType
  | voluntaryExit => VoluntaryExit
  | signedVoluntaryExit => SignedVoluntaryExit
  | depositMessage => DepositMessage
  | depositData => DepositData
  | exitUpload => ExitUpload
  | escrowEntry => EscrowEntry
  | uploadOutcome => UploadOutcome
  | contractRegistry => ContractRegistry
  | minipoolField => MinipoolField
  | contractRead => ContractRead
  | readValue => ReadValue
  | transactor => Transactor
  | contractCall => ContractCall
  | transactionRequest => TransactionRequest
  | gasEstimate => GasEstimate
  | feeEstimate => FeeEstimate
  | feeSettings => FeeSettings

def codec : (form : Form) → Codec form.Value
  | minipoolStatus => MinipoolStatus.codec
  | beaconState => BeaconState.codec
  | beaconStatus => BeaconStatus.codec
  | minipoolRecord => MinipoolRecord.codec
  | blockHeader => BlockHeader.codec
  | networkSettings => NetworkSettings.codec
  | networkSnapshot => NetworkSnapshot.codec
  | beaconConfig => BeaconConfig.codec
  | chainHead => ChainHead.codec
  | domainType => DomainType.codec
  | voluntaryExit => VoluntaryExit.codec
  | signedVoluntaryExit => SignedVoluntaryExit.codec
  | depositMessage => DepositMessage.codec
  | depositData => DepositData.codec
  | exitUpload => ExitUpload.codec
  | escrowEntry => EscrowEntry.codec
  | uploadOutcome => UploadOutcome.codec
  | contractRegistry => ContractRegistry.codec
  | minipoolField => MinipoolField.codec
  | contractRead => ContractRead.codec
  | readValue => ReadValue.codec
  | transactor => Transactor.codec
  | contractCall => ContractCall.codec
  | transactionRequest => TransactionRequest.codec
  | gasEstimate => GasEstimate.codec
  | feeEstimate => FeeEstimate.codec
  | feeSettings => FeeSettings.codec

/-- Whether no instant in a value is before the epoch. -/
def Dated : (form : Form) → form.Value → Prop
  | minipoolRecord, r => Instant.epoch ≤ MinipoolRecord.statusTime r
  | networkSnapshot, s => ∀ r ∈ NetworkSnapshot.validators s, Instant.epoch ≤ r.statusTime
  | _, _ => True

theorem codec_faithful (form : Form) : form.codec.Faithful form.Dated := by
  cases form with
  | minipoolRecord => exact MinipoolRecord.codec_faithful
  | networkSnapshot => exact NetworkSnapshot.codec_faithful
  | _ =>
    dsimp only [codec]
    exact Lossless.faithful

end Form

/-- Exactly the values without an instant before the epoch are written as texts that they are read
from, so that a snapshot names the same candidates afterwards; and what any accepted text is written
as again stays as it is. -/
theorem forms_round_trip :
    (∀ (form : Form) (v : form.Value), form.Dated v ↔
      ∃ text, form.codec.write? v = some text ∧ form.codec.read? text = some v) ∧
    (∀ s : NetworkSnapshot, Form.networkSnapshot.Dated s →
      ∃ text read, NetworkSnapshot.codec.write? s = some text ∧
        NetworkSnapshot.codec.read? text = some read ∧
        read.stakeCandidates? = s.stakeCandidates?) ∧
    ∀ (form : Form) (text : String) (v : form.Value), form.codec.read? text = some v →
      ∃ written, form.codec.normalize? text = some written ∧
        form.codec.normalize? written = some written := by
  refine ⟨fun form v => ⟨form.codec_faithful.read_write, ?_⟩, fun s hs => ?_,
    fun form text v hv => ?_⟩
  · rintro ⟨text, _, hread⟩
    exact form.codec_faithful.property_of_read hread
  · obtain ⟨text, hwrite, hread⟩ := NetworkSnapshot.codec_faithful.read_write hs
    exact ⟨text, s, hwrite, hread, rfl⟩
  · exact form.codec_faithful.normalize hv

/-- A record with the largest numbers and the last instant. -/
def lastRecord : MinipoolRecord where
  node := Bytes.zero 20
  address := Bytes.zero 20
  known := true
  status := .prelaunch
  statusTime := ⟨0x8000000000000000 * 1000000000 - 1, by decide, by decide⟩
  pubkey := Bytes.zero 48
  credentials := Bytes.zero 32
  beacon := some ⟨some 0xffffffffffffffff, 0xffffffffffffffff, .pendingQueued⟩

/-- A snapshot with the largest numbers and spans. -/
def lastSnapshot : NetworkSnapshot where
  header := ⟨0xffffffffffffffff, Bytes.zero 32, 0xffffffffffffffff⟩
  settings :=
    { scrubPeriod := ⟨0x10000000000000000 * 1000000000 - 1, by decide⟩
      launchTimeout := .zero
      minimumStake := ⟨Uint256.limit - 1, by decide⟩ }
  node := Bytes.zero 20
  activeCount := 0xffffffffffffffff
  validators := [lastRecord]

theorem forms_round_trip_last :
    Form.networkSnapshot.Dated lastSnapshot ∧
    (∃ text read, NetworkSnapshot.codec.write? lastSnapshot = some text ∧
      NetworkSnapshot.codec.read? text = some read ∧
      read.stakeCandidates? = lastSnapshot.stakeCandidates?) ∧
    ChainHead.codec.read? " [1 , 18446744073709551615] " = some ⟨1, 0xffffffffffffffff⟩ ∧
    ∃ written, ChainHead.codec.normalize? " [1 , 18446744073709551615] " = some written ∧
      ChainHead.codec.normalize? written = some written := by
  have hdated : Form.networkSnapshot.Dated lastSnapshot := by
    intro r hr
    rw [List.mem_singleton.1 hr]
    decide
  have hread : ChainHead.codec.read? " [1 , 18446744073709551615] " =
      some ⟨1, 0xffffffffffffffff⟩ := by decide +kernel
  exact ⟨hdated, forms_round_trip.2.1 lastSnapshot hdated, hread,
    forms_round_trip.2.2 .chainHead _ _ hread⟩

end StakeKeeper
