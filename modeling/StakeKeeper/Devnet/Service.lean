import StakeKeeper.CallError
import StakeKeeper.Escrow
import StakeKeeper.Registry

/-!
A coordination service in memory. It lists its validators in the order of their keys, and records
the uploads that it takes.
-/
namespace StakeKeeper.Devnet
set_option autoImplicit false

/-- The service, and what was asked of it so far. -/
structure Service where
  records : Registry PubKey Bool
  outcome : UploadOutcome
  /-- Validators whose uploads are taken but not recorded. -/
  dropped : List PubKey
  uploads : List (List ExitUpload)
  listings : Nat
  /-- How many listings are answered before the service times out. -/
  listingLimit : Option UInt64

namespace Service

def new : Service := ⟨.empty, ⟨false, false⟩, [], [], 0, none⟩

/-- The validators, in the order of their keys. -/
def entries (s : Service) : List EscrowEntry :=
  (s.records.entries.mergeSort fun a b => Bytes.le a.1 b.1).map fun e => ⟨e.1, e.2⟩

def answersListing (s : Service) : Bool :=
  match s.listingLimit with
  | none => true
  | some limit => s.listings < limit.toNat

def list (s : Service) : Except CallError (List EscrowEntry) × Service :=
  (if s.answersListing then .ok s.entries
    else .error (.network "coordination service timed out"),
   { s with listings := s.listings + 1 })

/-- The records after an upload that was taken. -/
def record (s : Service) (exits : List ExitUpload) : Registry PubKey Bool :=
  (exits.filter fun e => !s.dropped.contains e.pubkey).foldl
    (fun records e => records.insert e.pubkey true) s.records

def upload (s : Service) (exits : List ExitUpload) : UploadOutcome × Service :=
  (s.outcome,
   { s with
     uploads := s.uploads ++ [exits]
     records := if s.outcome.isAccepted then s.record exits else s.records })

end Service

end StakeKeeper.Devnet
