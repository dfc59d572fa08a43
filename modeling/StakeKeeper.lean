import StakeKeeper.Devnet.Scenario
import StakeKeeper.Wire.Records
import StakeKeeper.Proofs.Query.Paging
import StakeKeeper.Proofs.Query.Faults
import StakeKeeper.Proofs.Query.Storing
import StakeKeeper.Proofs.Stake.Agreement
import StakeKeeper.Proofs.Stake.Authenticity
import StakeKeeper.Proofs.Stake.Review
import StakeKeeper.Proofs.Stake.Urgency
import StakeKeeper.Proofs.Stake.Fees
import StakeKeeper.Proofs.Exit.Batch
import StakeKeeper.Proofs.Exit.Ownership
import StakeKeeper.Proofs.Exit.Listings
import StakeKeeper.Proofs.Loop.Schedule
import StakeKeeper.Proofs.Devnet.StakeOnce
import StakeKeeper.Proofs.Devnet.Repetition
import StakeKeeper.Proofs.Devnet.Independence
import StakeKeeper.Proofs.Signing.Binding
import StakeKeeper.Proofs.KeyStore
import StakeKeeper.Proofs.Slots
import StakeKeeper.Proofs.Environment
import StakeKeeper.Proofs.Wire.RoundTrip
