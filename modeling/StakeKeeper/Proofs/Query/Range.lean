import StakeKeeper.Proofs.Conduct
import StakeKeeper.Proofs.Query.Sources
import StakeKeeper.Query.Snapshot

/-!
Queries whose answers hold no time that is out of range. Main statement: `QueryRunner.run_inRange`
(such a query does not crash, and its output is put together from values in range).
-/
namespace StakeKeeper
set_option autoImplicit false

/-! ## Answers in range -/

/-- The first second after the epoch that no instant holds. -/
def secondsBound : Nat := 0x8000000000000000

/-- Whether the value of a read is in range, where no status is newer than a second and at most
`width` addresses are read at once. A value that is not a 64-bit number is refused wherever a number
is needed, so it is in range. The number of minipools may be any for whose first batch of addresses
a list has room, as long as no address is answered that it has no room for. -/
def ContractRead.InRange (latest width : Nat) (read : ContractRead) (v : ReadValue) : Prop :=
  match read with
  | minipool _ .statusTime => ∀ n, v.asUint64 = .ok n → n.toNat ≤ latest
  | scrubPeriod => ∀ n, v.asUint64 = .ok n → latest + n.toNat < secondsBound
  | minipoolCount _ => ∀ n, v.asUint64 = .ok n → min n.toNat width ≤ maxAddresses
  | minipoolAt _ index => index.toNat < maxAddresses
  | _ => True

/-- Whether an answer is in range. -/
def Request.InRange (latest width : Nat) : (q : Request) → Except CallError q.Reply → Prop
  | header _, .ok (h : BlockHeader) => h.timestamp.toNat < secondsBound
  | multicall reads _, .ok (values : List ReadValue) =>
    ∀ p ∈ reads.zip values, p.1.InRange latest width p.2
  | _, _ => True

def Step.InRange (latest width : Nat) : Step → Prop
  | asked q answer => q.InRange latest width answer
  | noted _ => True

/-- Any calls, but no crash while the answers are in range. -/
def inRange (latest width : Nat) : Conduct := ⟨fun _ => True, Request.InRange latest width, False⟩

section
-- The range of instants is never computed with below.
seal Instant.ofNanos?

/-! ## Times -/

theorem Instant.ofSecs?_eq_some {s : UInt64} (h : s.toNat < secondsBound) :
    ∃ t, Instant.ofSecs? s = some t ∧ t.nanos = s.toNat * 1000000000 := by
  unfold secondsBound at h
  have lower : -0x8000000000000000 * 1000000000 ≤ (s.toNat * 1000000000 : Int) := by omega
  have upper : (s.toNat * 1000000000 : Int) < 0x8000000000000000 * 1000000000 := by omega
  exact ⟨⟨_, lower, upper⟩, Instant.ofNanos?_eq_some_iff.2 rfl, rfl⟩

theorem Instant.ofSecs?_eq_none {s : UInt64} (h : secondsBound ≤ s.toNat) :
    Instant.ofSecs? s = none := by
  unfold secondsBound at h
  cases ht : Instant.ofSecs? s with
  | none => rfl
  | some t =>
    have hnanos : (s.toNat * 1000000000 : Int) = t.nanos := Instant.ofNanos?_eq_some_iff.1 ht
    have hupper := t.upper
    omega

theorem BlockHeader.time?_ne_none {header : BlockHeader}
    (h : header.timestamp.toNat < secondsBound) : header.time? ≠ none := by
  obtain ⟨t, ht, _⟩ := Instant.ofSecs?_eq_some h
  intro hnone
  rw [BlockHeader.time?, ht] at hnone
  cases hnone

namespace MinipoolRecord

def ChangedBy (latest : Nat) (r : MinipoolRecord) : Prop :=
  r.statusTime.nanos ≤ latest * 1000000000

theorem empty_changedBy (latest : Nat) (node address : Address) :
    (empty node address).ChangedBy latest := by
  have h : (empty node address).statusTime.nanos = 0 := rfl
  unfold ChangedBy
  omega

theorem reviewEnd?_eq_some {latest : Nat} {r : MinipoolRecord} {scrub : UInt64}
    (h : r.ChangedBy latest) (hscrub : latest + scrub.toNat < secondsBound) :
    ∃ e, r.reviewEnd? (.ofSecs scrub) = some e := by
  unfold secondsBound at hscrub
  unfold ChangedBy at h
  have hlower := r.statusTime.lower
  have hspan : (Duration.ofSecs scrub).nanos = scrub.toNat * 1000000000 := rfl
  let nanos : Int := r.statusTime.nanos + (Duration.ofSecs scrub).nanos
  have lower : -0x8000000000000000 * 1000000000 ≤ nanos := by omega
  have upper : nanos < 0x8000000000000000 * 1000000000 := by omega
  exact ⟨⟨nanos, lower, upper⟩, Instant.add?_eq_some_iff.2 rfl⟩

end MinipoolRecord

/-! ## Outcomes -/

section
variable {ε α β : Type}

theorem ok_of_bind_ok {x : Except ε α} {f : α → Except ε β} {b : β} (h : (x >>= f) = .ok b) :
    ∃ a, x = .ok a ∧ f a = .ok b := by
  cases x with
  | error e => cases h
  | ok a => exact ⟨a, rfl, h⟩

theorem ok_of_mapError_ok {δ : Type} {x : Except ε α} {f : ε → δ} {a : α}
    (h : x.mapError f = .ok a) : x = .ok a := by
  cases x with
  | error e => cases h
  | ok b =>
    cases h
    rfl

theorem length_of_mapM_ok {f : α → Except ε β} {items : List α} {found : List β}
    (h : items.mapM f = .ok found) : found.length = items.length := by
  have hvalues := toOption_mapM f items
  rw [h] at hvalues
  exact length_of_mapM hvalues.symm

end

/-! ## Decoding -/

namespace Decoding
variable {α β : Type} {post : α → Prop}

/-- Whether decoding has an outcome, which is an error or meets a condition. -/
def Ends (post : α → Prop) (d : Decoding α) : Prop :=
  ∃ r, d.run = some r ∧ ∀ a, r = .ok a → post a

theorem ends_pure {a : α} (h : post a) : Ends post (pure a) := by
  refine ⟨.ok a, rfl, ?_⟩
  rintro _ ⟨⟩
  exact h

theorem ends_throw {e : QueryError} : Ends post (throw e) := ⟨.error e, rfl, by rintro _ ⟨⟩⟩

theorem Ends.bind {d : Decoding α} {f : α → Decoding β} {last : β → Prop} (h : Ends post d)
    (hf : ∀ a, post a → Ends last (f a)) : Ends last (d >>= f) := by
  obtain ⟨r, hr, hpost⟩ := h
  unfold Ends
  rw [ExceptT.run_bind, hr]
  cases r with
  | error e => exact ⟨.error e, rfl, by rintro _ ⟨⟩⟩
  | ok a => exact hf a (hpost a rfl)

end Decoding

namespace MinipoolRecord
variable {latest width : Nat} {r : MinipoolRecord} {a : Address}

theorem setField_ends (hlatest : latest < secondsBound) (hr : r.ChangedBy latest)
    {field : MinipoolField} {v : ReadValue}
    (hv : (ContractRead.minipool a field).InRange latest width v) :
    Decoding.Ends (ChangedBy latest) (r.setField field v) := by
  -- Only a new status time can break the bound.
  have keep {β : Type} {taken : Except CallError β} {next : β → MinipoolRecord}
      (hfield : r.withField field v = taken.map fun b => some (next b))
      (hnext : ∀ b, (next b).statusTime = r.statusTime) :
      Decoding.Ends (ChangedBy latest) (r.setField field v) := by
    unfold setField
    rw [hfield]
    cases taken with
    | error e => exact Decoding.ends_throw
    | ok b =>
      apply Decoding.ends_pure
      unfold ChangedBy
      rw [hnext]
      exact hr
  cases field with
  | known => exact keep rfl fun _ => rfl
  | status => exact keep rfl fun _ => rfl
  | pubkey => exact keep rfl fun _ => rfl
  | credentials => exact keep rfl fun _ => rfl
  | statusTime =>
    unfold setField withField
    cases hsecs : v.asUint64 with
    | error e => exact Decoding.ends_throw
    | ok secs =>
      have hle : secs.toNat ≤ latest := hv secs hsecs
      obtain ⟨t, ht, hnanos⟩ := Instant.ofSecs?_eq_some (Nat.lt_of_le_of_lt hle hlatest)
      simp only [Except.map, ht, Option.map_some]
      apply Decoding.ends_pure
      show t.nanos ≤ _
      omega

theorem setFields_ends (hlatest : latest < secondsBound)
    {steps : List (MinipoolField × ReadValue)}
    (hsteps : ∀ p ∈ steps, (ContractRead.minipool a p.1).InRange latest width p.2)
    (hr : r.ChangedBy latest) : Decoding.Ends (ChangedBy latest) (r.setFields steps) := by
  induction steps generalizing r with
  | nil => exact Decoding.ends_pure hr
  | cons step rest ih =>
    have hfirst := setField_ends hlatest hr (hsteps step List.mem_cons_self)
    refine hfirst.bind fun updated hupdated => ?_
    exact ih (fun p hp => hsteps p (List.mem_cons_of_mem step hp)) hupdated

end MinipoolRecord

theorem zip_append_take {α β : Type} (first second : List α) (l : List β) :
    (first ++ second).zip l =
      first.zip (l.take first.length) ++ second.zip (l.drop first.length) := by
  induction first generalizing l with
  | nil => simp
  | cons a first ih =>
    cases l with
    | nil => simp
    | cons b l => simp [ih]

theorem recordsOf_ends {latest width : Nat} (hlatest : latest < secondsBound) (node : Address)
    (fields : List MinipoolField) {addresses : List Address} {values : List ReadValue}
    (hvalues : ∀ p ∈ (detailReads fields addresses).zip values, p.1.InRange latest width p.2) :
    Decoding.Ends (fun records => ∀ r ∈ records, r.ChangedBy latest)
      (recordsOf node fields addresses values) := by
  induction addresses generalizing values with
  | nil =>
    apply Decoding.ends_pure
    intro r hr
    cases hr
  | cons a rest ih =>
    -- The values are cut where the reads of the first minipool end.
    have hsplit : (detailReads fields (a :: rest)).zip values =
        (fields.map (.minipool a)).zip (values.take fields.length) ++
          (detailReads fields rest).zip (values.drop fields.length) := by
      have h := zip_append_take (fields.map (.minipool a)) (detailReads fields rest) values
      rwa [List.length_map] at h
    rw [hsplit] at hvalues
    have hsteps : ∀ p ∈ fields.zip (values.take fields.length),
        (ContractRead.minipool a p.1).InRange latest width p.2 := by
      intro p hp
      refine hvalues (.minipool a p.1, p.2) (List.mem_append_left _ ?_)
      rw [List.zip_map_left]
      exact List.mem_map_of_mem hp
    have hempty := MinipoolRecord.empty_changedBy latest node a
    refine (MinipoolRecord.setFields_ends hlatest hsteps hempty).bind fun record hrecord => ?_
    refine (ih fun p hp => hvalues p (List.mem_append_right _ hp)).bind fun records hrecords => ?_
    apply Decoding.ends_pure
    intro r hr
    rcases List.mem_cons.1 hr with rfl | hrest
    · exact hrecord
    · exact hrecords r hrest

/-! ## Reading -/

section
variable {latest width : Nat}

theorem QueryRoutine.ofDecoding_keeps {α : Type} {k : Conduct} {post : α → Prop} {d : Decoding α}
    (h : d.Ends post) : (QueryRoutine.ofDecoding d).Keeps k post := by
  obtain ⟨r, hr, hpost⟩ := h
  unfold QueryRoutine.ofDecoding
  rw [hr]
  exact hpost

theorem QueryRoutine.multicall_inRange (reads : List ContractRead) (block : UInt64) :
    (QueryRoutine.multicall reads block).Keeps (inRange latest width) fun values =>
      values.length = reads.length ∧ ∀ p ∈ reads.zip values, p.1.InRange latest width p.2 := by
  have hcall : (FailingRoutine.call (.multicall reads block) : QueryRoutine (List ReadValue)).Keeps
      (inRange latest width) fun values => ∀ p ∈ reads.zip values, p.1.InRange latest width p.2 :=
    FailingRoutine.keeps_call trivial
  refine hcall.bind fun values hvalues => ?_
  by_cases hlength : values.length = reads.length
  · rw [if_pos hlength]
    exact FailingRoutine.keeps_pure ⟨hlength, hvalues⟩
  · rw [if_neg hlength]
    exact FailingRoutine.keeps_throw

theorem FailingRoutine.keeps_require {ε : Type} {k : Conduct} {c : Crash} {b : Bool}
    (h : b = true) :
    (ofRoutine (Routine.require b c) : FailingRoutine ε Unit).Keeps k fun _ => True := by
  subst h
  exact fun _ _ => trivial

theorem QueryRoutine.taking_keeps {α : Type} {k : Conduct} {post : α → Prop}
    {r : Except CallError α} (h : ∀ a, r = .ok a → post a) :
    (QueryRoutine.taking r).Keeps k post :=
  FailingRoutine.keeps_ofExcept fun a ha => h a (ok_of_mapError_ok ha)

/-- Where the last of some addresses was answered, a list has room for all of them. -/
theorem room_of_answered {node : Address} {start stop : Nat} {values : List ReadValue}
    (hlt : start < stop) (hstop : stop < UInt64.size)
    (hlength : values.length = (addressReads node start stop).length)
    (hvalues : ∀ p ∈ (addressReads node start stop).zip values, p.1.InRange latest width p.2) :
    stop ≤ maxAddresses := by
  have hlast : .minipoolAt node (UInt64.ofNat (stop - 1)) ∈ addressReads node start stop :=
    List.mem_map.2 ⟨stop - 1, List.mem_range'_1.2 (by omega), rfl⟩
  obtain ⟨i, hi, hread⟩ := List.mem_iff_getElem.1 hlast
  have hpair : i < ((addressReads node start stop).zip values).length := by
    rw [List.length_zip, hlength, Nat.min_self]
    exact hi
  have hanswered := hvalues _ (List.getElem_mem hpair)
  rw [List.getElem_zip, hread] at hanswered
  have hindex : (UInt64.ofNat (stop - 1)).toNat < maxAddresses := hanswered
  rw [UInt64.toNat_ofNat_of_lt' (by omega)] at hindex
  omega

theorem addressesFrom_inRange (node : Address) (block : UInt64) (page start : Nat) {count : Nat}
    (hcount : count < UInt64.size) :
    (addressesFrom node block page count start).Keeps (inRange latest width) fun found =>
      found.length = count - start ∧ (start < count → count ≤ maxAddresses) := by
  induction start using addressesFrom.induct page count with
  | case1 start hlt stop ih =>
    rw [addressesFrom, if_pos hlt]
    refine (QueryRoutine.multicall_inRange _ block).bind fun values hvalues => ?_
    obtain ⟨hlength, hvalues⟩ := hvalues
    have hreads : (addressReads node start stop).length = stop - start := by simp [addressReads]
    have hstop : start < stop ∧ stop ≤ count := by omega
    have hroom : stop ≤ maxAddresses := room_of_answered hstop.1 (by omega) hlength hvalues
    have htaken : (QueryRoutine.taking (values.mapM ReadValue.asAddress)).Keeps
        (inRange latest width) fun found => found.length = stop - start := by
      refine QueryRoutine.taking_keeps fun found hfound => ?_
      rw [length_of_mapM_ok hfound, hlength, hreads]
    refine htaken.bind fun found hfound => ih.bind fun rest hrest => ?_
    obtain ⟨hrest, hmore⟩ := hrest
    apply FailingRoutine.keeps_pure
    refine ⟨?_, fun _ => ?_⟩
    · rw [List.length_append, hfound, hrest]
      omega
    · rcases Nat.lt_or_ge stop count with hlater | hdone
      · exact hmore hlater
      · omega
  | case2 start hge =>
    rw [addressesFrom, if_neg hge]
    apply FailingRoutine.keeps_pure
    refine ⟨?_, fun hlt => absurd hlt hge⟩
    simp only [List.length_nil]
    omega

theorem detailsOf_inRange (hlatest : latest < secondsBound) (node : Address) (block : UInt64)
    (fields : List MinipoolField) (pages : List (List Address)) :
    (detailsOf node block fields pages).Keeps (inRange latest width) fun records =>
      ∀ r ∈ records, r.ChangedBy latest := by
  induction pages with
  | nil =>
    apply FailingRoutine.keeps_pure
    intro r hr
    cases hr
  | cons page rest ih =>
    refine (QueryRoutine.multicall_inRange _ block).bind fun values hvalues => ?_
    have hrecords := recordsOf_ends hlatest node fields hvalues.2
    refine (QueryRoutine.ofDecoding_keeps hrecords).bind fun records hfirst => ?_
    refine ih.bind fun more hmore => ?_
    apply FailingRoutine.keeps_pure
    intro r hr
    exact (List.mem_append.1 hr).elim (hfirst r) (hmore r)

namespace QueryRunner
variable (runner : QueryRunner)

theorem addresses_inRange (hwidth : runner.pages.addresses.toNat ≤ width) (block : UInt64)
    {count : UInt64} (hcount : min count.toNat width ≤ maxAddresses) :
    (runner.addresses block count).Keeps (inRange latest width) fun _ => True := by
  have hone : 1 ≤ maxAddresses := by decide
  have hpage : min count.toNat (max runner.pages.addresses.toNat 1) ≤ maxAddresses := by omega
  refine (FailingRoutine.keeps_require (decide_eq_true hpage)).bind fun _ _ => ?_
  refine (addressesFrom_inRange runner.node block _ 0 count.toNat_lt).bind fun found hfound => ?_
  have hfits : found.length ≤ maxAddresses := by omega
  refine (FailingRoutine.keeps_require (decide_eq_true hfits)).bind fun _ _ => ?_
  exact FailingRoutine.keeps_pure trivial

theorem details_inRange (hlatest : latest < secondsBound) (block : UInt64)
    (fields : List MinipoolField) (addresses : List Address) :
    (runner.details block fields addresses).Keeps (inRange latest width) fun records =>
      ∀ r ∈ records, r.ChangedBy latest := by
  unfold details
  split
  · apply FailingRoutine.keeps_pure
    intro r hr
    obtain ⟨a, _, rfl⟩ := List.mem_map.1 hr
    exact MinipoolRecord.empty_changedBy latest runner.node a
  · exact detailsOf_inRange hlatest runner.node block fields _

end QueryRunner

/-- What an output was put together from: values of the query's own reads, a header and records, all
in range. -/
structure NodeQuery.Supports {σ ω : Type} (query : NodeQuery σ ω) (latest width : Nat)
    (values : List ReadValue) (own : σ) (gathered : Gathered) (output : ω) : Prop where
  read : ∀ p ∈ (query.ownReads gathered.node).zip values, p.1.InRange latest width p.2
  decoded : query.decodeOwn values = .ok own
  timed : gathered.header.timestamp.toNat < secondsBound
  changed : ∀ r ∈ gathered.validators, r.ChangedBy latest
  finished : query.finish own gathered = .ok output

namespace QueryRunner
variable {σ ω : Type} (runner : QueryRunner) (query : NodeQuery σ ω)

theorem gather_inRange (hlatest : latest < secondsBound)
    (hwidth : runner.pages.addresses.toNat ≤ width) {header : BlockHeader}
    (hheader : header.timestamp.toNat < secondsBound) (transactor : Option Transactor) :
    (runner.gather query header transactor).Keeps (inRange latest width) fun output =>
      ∃ values own gathered, query.Supports latest width values own gathered output := by
  refine (QueryRoutine.multicall_inRange _ header.number).bind fun values hvalues => ?_
  obtain ⟨_, hvalues⟩ := hvalues
  cases values with
  | nil => exact FailingRoutine.keeps_throw
  | cons countValue ownValues =>
    rw [List.zip_cons_cons] at hvalues
    have hcount : (QueryRoutine.taking countValue.asUint64).Keeps (inRange latest width)
        fun count => min count.toNat width ≤ maxAddresses :=
      QueryRoutine.taking_keeps
        (hvalues (.minipoolCount runner.node, countValue) List.mem_cons_self)
    have hown : ∀ p ∈ (query.ownReads runner.node).zip ownValues, p.1.InRange latest width p.2 :=
      fun p hp => hvalues p (List.mem_cons_of_mem _ hp)
    refine hcount.bind fun count hfits => ?_
    have hdecoded : (FailingRoutine.ofExcept (query.decodeOwn ownValues)).Keeps
        (inRange latest width) fun own => query.decodeOwn ownValues = .ok own :=
      FailingRoutine.keeps_ofExcept fun _ h => h
    refine hdecoded.bind fun own hdecode => ?_
    refine (runner.addresses_inRange hwidth header.number hfits).bind fun addresses _ => ?_
    have finishing {validators : List MinipoolRecord} (h : ∀ r ∈ validators, r.ChangedBy latest) :
        (FailingRoutine.ofExcept (query.finish own
          ⟨header, runner.node, addresses, validators, transactor⟩)).Keeps (inRange latest width)
            fun output => ∃ values own gathered,
              query.Supports latest width values own gathered output :=
      FailingRoutine.keeps_ofExcept fun output houtput =>
        ⟨ownValues, own, _, hown, hdecode, hheader, h, houtput⟩
    by_cases hwants : query.wantsDetails addresses = true
    · rw [if_pos hwants]
      refine (runner.details_inRange hlatest header.number query.fields addresses).bind
        fun validators hvalidators => ?_
      exact FailingRoutine.keeps_note.bind fun _ _ => finishing hvalidators
    · rw [if_neg hwants]
      refine FailingRoutine.keeps_note.bind fun _ _ => finishing ?_
      intro r hr
      cases hr

/-- A query whose answers are in range does not crash, and a list has room for what it reads. -/
theorem run_inRange (hlatest : latest < secondsBound)
    (hwidth : runner.pages.addresses.toNat ≤ width)
    (hprepare : query.prepare.Keeps (inRange latest width) fun _ => True) :
    (runner.run query).Keeps (inRange latest width) fun outcome =>
      ∀ output, outcome = .ready output →
        ∃ values own gathered, query.Supports latest width values own gathered output := by
  have hcall : (FailingRoutine.call (.header none) : QueryRoutine BlockHeader).Keeps
      (inRange latest width) fun header => header.timestamp.toNat < secondsBound :=
    FailingRoutine.keeps_call trivial
  refine hcall.bind fun header hheader => hprepare.bind fun readiness _ => ?_
  cases readiness with
  | notReady reason =>
    refine FailingRoutine.keeps_note.bind fun _ _ => FailingRoutine.keeps_pure ?_
    rintro _ ⟨⟩
  | ready transactor =>
    have hgather := runner.gather_inRange query hlatest hwidth hheader transactor
    refine hgather.bind fun output houtput => FailingRoutine.keeps_pure ?_
    rintro _ ⟨⟩
    exact houtput

end QueryRunner

/-! ## The daemon's queries -/

theorem refreshRegistries_inRange :
    refreshRegistries.Keeps (inRange latest width) fun _ => True := by
  have hrefresh (registry : ContractRegistry) :
      (FailingRoutine.call (.refresh registry) : QueryRoutine Unit).Keeps (inRange latest width)
        fun _ => True :=
    FailingRoutine.keeps_call (k := inRange latest width) (q := .refresh registry) trivial
  exact (hrefresh .execution).bind fun _ _ => hrefresh .protocol

theorem decodeSettings_inRange {values : List ReadValue} {settings : NetworkSettings}
    (hvalues : ∀ p ∈ settingsReads.zip values, p.1.InRange latest width p.2)
    (h : decodeSettings values = .ok settings) :
    ∃ scrub : UInt64, settings.scrubPeriod = .ofSecs scrub ∧
      latest + scrub.toNat < secondsBound := by
  rcases values with _ | ⟨scrub, _ | ⟨timeout, _ | ⟨stake, _ | ⟨_, _⟩⟩⟩⟩
  · cases h
  · cases h
  · cases h
  · obtain ⟨secs, hsecs, h⟩ := ok_of_bind_ok (ok_of_mapError_ok h)
    obtain ⟨_, _, h⟩ := ok_of_bind_ok h
    obtain ⟨_, _, h⟩ := ok_of_bind_ok h
    cases h
    exact ⟨secs, rfl, hvalues (.scrubPeriod, scrub) List.mem_cons_self secs hsecs⟩
  · cases h

theorem snapshotQuery_prepare_inRange :
    snapshotQuery.prepare.Keeps (inRange latest width) fun _ => True :=
  refreshRegistries_inRange.bind fun _ _ => FailingRoutine.keeps_pure trivial

theorem QueryRunner.collect_keeps {k : Conduct} {post : NetworkSnapshot → Prop}
    {runner : QueryRunner} (h : (runner.run snapshotQuery).Keeps k fun outcome =>
      ∀ snapshot, outcome = .ready snapshot → post snapshot) : runner.collect.Keeps k post := by
  refine h.bind fun outcome houtcome => ?_
  cases outcome with
  | notReady reason => exact FailingRoutine.keeps_throw
  | ready snapshot =>
    have hnoted : FailingRoutine.Keeps k post (do
        FailingRoutine.note (.snapshotCollected snapshot.node snapshot.header.number
          snapshot.validators.length snapshot.activeCount)
        pure snapshot : QueryRoutine NetworkSnapshot) :=
      FailingRoutine.keeps_note.bind fun _ _ => FailingRoutine.keeps_pure (houtcome snapshot rfl)
    dsimp only
    split
    · exact FailingRoutine.keeps_note.bind fun _ _ => hnoted
    · exact hnoted

theorem QueryRunner.collect_inRange (hlatest : latest < secondsBound) {runner : QueryRunner}
    (hwidth : runner.pages.addresses.toNat ≤ width) :
    runner.collect.Keeps (inRange latest width) fun snapshot =>
      snapshot.header.timestamp.toNat < secondsBound := by
  apply QueryRunner.collect_keeps
  refine (runner.run_inRange snapshotQuery hlatest hwidth snapshotQuery_prepare_inRange).mono ?_
  intro outcome houtcome snapshot hready
  obtain ⟨_, _, gathered, supports⟩ := houtcome snapshot hready
  have hfinish := supports.finished
  cases hfinish
  exact supports.timed

end

end

end StakeKeeper
