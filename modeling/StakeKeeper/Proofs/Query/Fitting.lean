import StakeKeeper.Proofs.Query.Batches
import StakeKeeper.Proofs.Query.Range
import StakeKeeper.Stake.Task

/-!
Which values may answer a read, and what decoding makes of the values of a batch: it has a result
where all of them fit, and else it ends with the error of the first one that does not. Main
statements: `takeAddresses_checks`, `recordsOf_checks` and `QueryRunner.takeFirst_checks`.
-/
namespace StakeKeeper
set_option autoImplicit false

/-! ## Kinds of values -/

/-- What a value has to be, with a bound on numbers and the length of bytes. -/
inductive ValueKind where
  | bool
  | uint (limit : Nat)
  | address
  | bytes (length : Nat)
  deriving DecidableEq

def ValueKind.Holds : ValueKind → ReadValue → Prop
  | bool, .bool _ => True
  | uint limit, .uint n => n.val < limit
  | address, .address _ => True
  | bytes length, .bytes l => l.length = length
  | _, _ => False

/-- The values of a field. There are five statuses. -/
def MinipoolField.kind : MinipoolField → ValueKind
  | known => .bool
  | status => .uint 5
  | statusTime => .uint UInt64.size
  | pubkey => .bytes 48
  | credentials => .bytes 32

namespace ContractRead

def kind : ContractRead → ValueKind
  | activeCount _ | minipoolCount _ | scrubPeriod | launchTimeout => .uint UInt64.size
  | minimumStake => .uint Uint256.limit
  | minipoolAt _ _ => .address
  | minipool _ field => field.kind

def Fits (read : ContractRead) (v : ReadValue) : Prop := read.kind.Holds v

/-- The errors for values that do not fit. Those of a minipool's field name the minipool and the
field, all others are errors of the client. -/
def RefusedAs : ContractRead → QueryError → Prop
  | minipool a field, e => ∃ reason, e = .decode a field reason
  | _, e => ∃ text, e = .call (.decode text)

/-- Whether a value holds no status time that is a 64-bit number but no instant. -/
def Timely (read : ContractRead) (v : ReadValue) : Prop :=
  ∀ a n, read = .minipool a .statusTime → v.asUint64 = .ok n → n.toNat < secondsBound

end ContractRead

/-- Whether an error is that of the first value that does not fit its read. -/
def FirstUnfit (pairs : List (ContractRead × ReadValue)) (e : QueryError) : Prop :=
  ∃ before read v after, pairs = before ++ (read, v) :: after ∧ (∀ p ∈ before, p.1.Fits p.2) ∧
    ¬ read.Fits v ∧ read.RefusedAs e

/-! ## Taking values -/

/-- Whether an outcome of taking a value is a result just where the value is of a kind, and else an
error that is allowed. -/
def ValueKind.Judges {α : Type} (kind : ValueKind) (allowed : CallError → Prop) (v : ReadValue) :
    Except CallError α → Prop
  | .ok _ => kind.Holds v
  | .error e => ¬ kind.Holds v ∧ allowed e

def CallError.IsDecode (e : CallError) : Prop := ∃ text, e = .decode text

namespace ValueKind
variable {α : Type} {allowed : CallError → Prop} {v : ReadValue}

theorem Judges.any {kind : ValueKind} {r : Except CallError α} (h : kind.Judges allowed v r) :
    kind.Judges (fun _ => True) v r := by
  cases r with
  | ok a => exact h
  | error e => exact ⟨h.1, trivial⟩

end ValueKind

namespace ReadValue
variable (v : ReadValue)

theorem asBool_judged : ValueKind.bool.Judges CallError.IsDecode v v.asBool := by
  cases v with
  | bool b => trivial
  | _ => exact ⟨id, _, rfl⟩

theorem asUint_judged : (ValueKind.uint Uint256.limit).Judges CallError.IsDecode v v.asUint := by
  cases v with
  | uint n => exact n.val_lt
  | _ => exact ⟨id, _, rfl⟩

theorem asAddress_judged : ValueKind.address.Judges CallError.IsDecode v v.asAddress := by
  cases v with
  | address a => trivial
  | _ => exact ⟨id, _, rfl⟩

theorem asUint64_judged : (ValueKind.uint UInt64.size).Judges CallError.IsDecode v v.asUint64 := by
  cases v with
  | uint n =>
    show ValueKind.Judges _ _ _ (if n.val < UInt64.size then _ else _)
    split
    · assumption
    · exact ⟨‹_›, _, rfl⟩
  | _ => exact ⟨id, _, rfl⟩

theorem sized_judged {length : Nat} {l : List UInt8} {r : Except CallError (Bytes length)}
    (hsome : ∀ b, Bytes.ofList? length l = some b → r = .ok b)
    (hnone : Bytes.ofList? length l = none → ∃ text, r = .error (.decode text)) :
    (ValueKind.bytes length).Judges CallError.IsDecode (.bytes l) r := by
  have hfits : (Bytes.ofList? length l).isSome ↔ l.length = length := Bytes.ofList?_isSome_iff
  cases hread : Bytes.ofList? length l with
  | some b =>
    rw [hsome b hread]
    exact hfits.1 (hread ▸ rfl)
  | none =>
    obtain ⟨text, rfl⟩ := hnone hread
    rw [hread] at hfits
    exact ⟨fun h => (nomatch hfits.2 h), text, rfl⟩

theorem asRoot_judged : (ValueKind.bytes 32).Judges CallError.IsDecode v v.asRoot := by
  cases v with
  | bytes l =>
    refine sized_judged (fun b hb => ?_) fun hb => ⟨s!"expected 32 bytes, got {l.length}", ?_⟩
    all_goals
      simp only [asRoot, asBytes, bind, Except.bind, hb]
      rfl
  | _ => exact ⟨id, _, rfl⟩

theorem asPubKey_judged : (ValueKind.bytes 48).Judges CallError.IsDecode v v.asPubKey := by
  cases v with
  | bytes l =>
    refine sized_judged (fun b hb => ?_) fun hb => ⟨s!"expected 48-byte pubkey, got {l.length}", ?_⟩
    all_goals
      simp only [asPubKey, asBytes, bind, Except.bind, hb]
      rfl
  | _ => exact ⟨id, _, rfl⟩

end ReadValue

theorem MinipoolStatus.ofCode?_isSome_iff {n : UInt8} :
    (MinipoolStatus.ofCode? n).isSome ↔ n.toNat < 5 := by
  unfold ofCode?
  split <;> simp_all
  omega

theorem MinipoolRecord.decodeStatus_judged (v : ReadValue) :
    (ValueKind.uint 5).Judges (fun _ => True) v (decodeStatus v) := by
  cases v with
  | uint n =>
    by_cases hsmall : n.val < UInt8.size
    · have htaken : (ReadValue.uint n).asUint8 = .ok (UInt8.ofNat n.val) := if_pos hsmall
      have hcode : (MinipoolStatus.ofCode? (UInt8.ofNat n.val)).isSome ↔ n.val < 5 := by
        rw [MinipoolStatus.ofCode?_isSome_iff, UInt8.toNat_ofNat_of_lt' hsmall]
      simp only [decodeStatus, htaken, bind, Except.bind]
      cases hstatus : MinipoolStatus.ofCode? (UInt8.ofNat n.val) with
      | some status =>
        rw [hstatus] at hcode
        exact hcode.1 rfl
      | none =>
        rw [hstatus] at hcode
        exact ⟨fun h => (nomatch hcode.2 h), trivial⟩
    · have hrefused : (ReadValue.uint n).asUint8 = .error _ := if_neg hsmall
      simp only [decodeStatus, hrefused, bind, Except.bind]
      exact ⟨fun h => hsmall (Nat.lt_trans h (by decide)), trivial⟩
  | _ => exact ⟨id, trivial⟩

/-! ## Decoding -/

namespace Decoding
variable {α β : Type} {post : α → Prop} {pairs rest : List (ContractRead × ReadValue)}

/-- Whether decoding has a result that meets a condition if all values fit their reads, and else
ends with the error of the first one that does not. -/
def Checks (post : α → Prop) (pairs : List (ContractRead × ReadValue)) (d : Decoding α) : Prop :=
  ∃ r, d.run = some r ∧
    match r with
    | .ok a => post a ∧ ∀ p ∈ pairs, p.1.Fits p.2
    | .error e => FirstUnfit pairs e

theorem checks_pure {a : α} (h : post a) : Checks post [] (pure a) :=
  ⟨.ok a, rfl, h, fun _ hp => nomatch hp⟩

/-- What is decoded later is told of the values that come later. -/
theorem Checks.bind {d : Decoding α} {f : α → Decoding β} {last : β → Prop}
    (h : d.Checks post pairs) (hf : ∀ a, post a → (f a).Checks last rest) :
    (d >>= f).Checks last (pairs ++ rest) := by
  obtain ⟨r, hr, h⟩ := h
  unfold Checks
  rw [ExceptT.run_bind, hr]
  cases r with
  | error e =>
    obtain ⟨before, read, v, after, rfl, hbefore, hunfit⟩ := h
    exact ⟨.error e, rfl, before, read, v, after ++ rest, by simp, hbefore, hunfit⟩
  | ok a =>
    obtain ⟨r', hr', h'⟩ := hf a h.1
    refine ⟨r', hr', ?_⟩
    cases r' with
    | ok b =>
      refine ⟨h'.1, fun p hp => ?_⟩
      exact (List.mem_append.1 hp).elim (h.2 p) (h'.2 p)
    | error e =>
      obtain ⟨before, read, v, after, rfl, hbefore, hunfit⟩ := h'
      refine ⟨pairs ++ before, read, v, after, by simp, fun p hp => ?_, hunfit⟩
      exact (List.mem_append.1 hp).elim (h.2 p) (hbefore p)

theorem Checks.bind_cons {d : Decoding α} {f : α → Decoding β} {last : β → Prop}
    {first : ContractRead × ReadValue} (h : d.Checks post [first])
    (hf : ∀ a, post a → (f a).Checks last rest) : (d >>= f).Checks last (first :: rest) := h.bind hf

theorem Checks.bind_pure {d : Decoding α} {f : α → β} {last : β → Prop}
    (h : d.Checks post pairs) (hf : ∀ a, post a → last (f a)) :
    (d >>= fun a => pure (f a)).Checks last pairs := by
  have hall := h.bind fun a ha => checks_pure (hf a ha)
  rwa [List.append_nil] at hall

def taken (r : Except CallError α) : Decoding α := ExceptT.mk (some (r.mapError .call))

theorem checks_taken (read : ContractRead) {v : ReadValue} {r : Except CallError α}
    (h : read.kind.Judges CallError.IsDecode v r)
    (hread : ∀ text, read.RefusedAs (.call (.decode text))) :
    (taken r).Checks (fun a => r = .ok a) [(read, v)] := by
  cases r with
  | ok a =>
    refine ⟨.ok a, rfl, rfl, ?_⟩
    rintro p hp
    rw [List.mem_singleton.1 hp]
    exact h
  | error e =>
    obtain ⟨hunfit, text, rfl⟩ := h
    exact ⟨_, rfl, [], read, v, [], rfl, (fun _ hp => nomatch hp), hunfit, hread text⟩

end Decoding

/-! ## Addresses -/

theorem takeAddresses_cons (v : ReadValue) (values : List ReadValue) :
    takeAddresses (v :: values) = (do
      let a ← Decoding.taken v.asAddress
      let rest ← takeAddresses values
      pure (a :: rest)) := by
  unfold takeAddresses
  rw [List.mapM_cons]
  cases v.asAddress with
  | error e => rfl
  | ok a => cases values.mapM ReadValue.asAddress <;> rfl

theorem takeAddresses_checks {reads : List ContractRead} {values : List ReadValue}
    (hreads : ∀ read ∈ reads, ∃ node index, read = .minipoolAt node index)
    (hlength : values.length = reads.length) :
    (takeAddresses values).Checks (fun found => found.length = reads.length)
      (reads.zip values) := by
  induction reads generalizing values with
  | nil =>
    rw [List.eq_nil_of_length_eq_zero hlength]
    exact Decoding.checks_pure rfl
  | cons read reads ih =>
    obtain ⟨node, index, rfl⟩ := hreads read List.mem_cons_self
    cases values with
    | nil => cases hlength
    | cons v values =>
      rw [takeAddresses_cons]
      have hfirst := Decoding.checks_taken (.minipoolAt node index)
        v.asAddress_judged fun text => ⟨text, rfl⟩
      refine hfirst.bind_cons fun a _ => ?_
      have hrest := ih (fun r hr => hreads r (List.mem_cons_of_mem _ hr)) (Nat.succ.inj hlength)
      exact hrest.bind_pure fun found hfound => congrArg (· + 1) hfound

/-! ## Records -/

namespace MinipoolRecord
variable {r : MinipoolRecord} {a : Address}

theorem setField_checks (haddress : r.address = a) {field : MinipoolField} {v : ReadValue}
    (hv : (ContractRead.minipool a field).Timely v) :
    (r.setField field v).Checks (fun updated => updated.address = a) [(.minipool a field, v)] := by
  have store {β : Type} {taken : Except CallError β} {next : β → Option MinipoolRecord}
      (hfield : r.withField field v = taken.map next)
      (hjudged : field.kind.Judges (fun _ => True) v taken)
      (hnext : ∀ b, taken = .ok b → ∃ updated, next b = some updated ∧ updated.address = a) :
      (r.setField field v).Checks (fun updated => updated.address = a)
        [(.minipool a field, v)] := by
    unfold setField
    rw [hfield]
    cases taken with
    | error e =>
      refine ⟨_, rfl, [], _, v, [], rfl, (fun _ hp => nomatch hp), hjudged.1, e, ?_⟩
      rw [haddress]
    | ok b =>
      obtain ⟨updated, hupdated, hsame⟩ := hnext b rfl
      simp only [Except.map, hupdated]
      refine ⟨.ok updated, rfl, hsame, fun p hp => ?_⟩
      rw [List.mem_singleton.1 hp]
      exact hjudged
  cases field with
  | known => exact store rfl v.asBool_judged.any fun b _ => ⟨_, rfl, haddress⟩
  | status => exact store rfl (decodeStatus_judged v) fun s _ => ⟨_, rfl, haddress⟩
  | pubkey => exact store rfl v.asPubKey_judged.any fun k _ => ⟨_, rfl, haddress⟩
  | credentials => exact store rfl v.asRoot_judged.any fun c _ => ⟨_, rfl, haddress⟩
  | statusTime =>
    refine store rfl v.asUint64_judged.any fun secs hsecs => ?_
    obtain ⟨t, ht, _⟩ := Instant.ofSecs?_eq_some (hv a secs rfl hsecs)
    exact ⟨{ r with statusTime := t }, congrArg _ ht, haddress⟩

theorem setFields_checks (haddress : r.address = a) {steps : List (MinipoolField × ReadValue)}
    (hsteps : ∀ p ∈ steps, (ContractRead.minipool a p.1).Timely p.2) :
    (r.setFields steps).Checks (fun updated => updated.address = a)
      (steps.map fun p => (.minipool a p.1, p.2)) := by
  induction steps generalizing r with
  | nil => exact Decoding.checks_pure haddress
  | cons step rest ih =>
    have hfirst := setField_checks haddress (hsteps step List.mem_cons_self)
    exact hfirst.bind fun updated hupdated =>
      ih hupdated fun p hp => hsteps p (List.mem_cons_of_mem step hp)

end MinipoolRecord

theorem detailReads_zip (fields : List MinipoolField) (a : Address) (rest : List Address)
    (values : List ReadValue) : (detailReads fields (a :: rest)).zip values =
      ((fields.zip (values.take fields.length)).map fun p => (.minipool a p.1, p.2)) ++
        (detailReads fields rest).zip (values.drop fields.length) := by
  have h := zip_append_take (fields.map (.minipool a)) (detailReads fields rest) values
  rw [List.length_map, List.zip_map_left] at h
  exact h

theorem recordsOf_checks (node : Address) (fields : List MinipoolField) {addresses : List Address}
    {values : List ReadValue}
    (hvalues : ∀ p ∈ (detailReads fields addresses).zip values, p.1.Timely p.2) :
    (recordsOf node fields addresses values).Checks (fun _ => True)
      ((detailReads fields addresses).zip values) := by
  induction addresses generalizing values with
  | nil => exact Decoding.checks_pure trivial
  | cons a rest ih =>
    rw [detailReads_zip] at hvalues ⊢
    have hrecord : ((MinipoolRecord.empty node a).setFields _).Checks _ _ :=
      MinipoolRecord.setFields_checks rfl fun p hp =>
        hvalues _ (List.mem_append_left _ (List.mem_map_of_mem hp))
    refine hrecord.bind fun record _ => ?_
    exact (ih fun p hp => hvalues p (List.mem_append_right _ hp)).bind_pure fun _ _ => trivial

/-! ## First batches -/

/-- Whether a query takes the values of its own reads where all fit, and else tells the first one
that does not. -/
def NodeQuery.ChecksOwn {σ ω : Type} (query : NodeQuery σ ω) (node : Address) : Prop :=
  ∀ values, values.length = (query.ownReads node).length →
    Decoding.Checks (fun _ => True) ((query.ownReads node).zip values)
      (ExceptT.mk (some (query.decodeOwn values)))

theorem QueryRunner.takeFirst_checks {σ ω : Type} {runner : QueryRunner} {query : NodeQuery σ ω}
    (hown : query.ChecksOwn runner.node) {values : List ReadValue}
    (hlength : values.length = (runner.firstReads query).length) :
    (runner.takeFirst query values).Checks (fun _ => True)
      ((runner.firstReads query).zip values) := by
  cases values with
  | nil => cases hlength
  | cons countValue ownValues =>
    have hcount := Decoding.checks_taken (.minipoolCount runner.node)
      countValue.asUint64_judged fun text => ⟨text, rfl⟩
    refine hcount.bind_cons fun count _ => ?_
    exact (hown ownValues (Nat.succ.inj hlength)).bind_pure fun _ _ => trivial

theorem decodeSettings_eq (scrub timeout stake : ReadValue) :
    (ExceptT.mk (some (decodeSettings [scrub, timeout, stake])) : Decoding NetworkSettings) =
      (do
        let scrub ← Decoding.taken scrub.asUint64
        let timeout ← Decoding.taken timeout.asUint64
        let stake ← Decoding.taken stake.asUint
        pure ⟨.ofSecs scrub, .ofSecs timeout, stake⟩) := by
  dsimp only [decodeSettings]
  cases scrub.asUint64 with
  | error e => rfl
  | ok scrub =>
    cases timeout.asUint64 with
    | error e => rfl
    | ok timeout => cases stake.asUint <;> rfl

theorem decodeSettings_checks {values : List ReadValue}
    (hlength : values.length = settingsReads.length) :
    Decoding.Checks (fun _ => True) (settingsReads.zip values)
      (ExceptT.mk (some (decodeSettings values))) := by
  match values, hlength with
  | [scrub, timeout, stake], _ =>
    rw [decodeSettings_eq]
    have hscrub := Decoding.checks_taken .scrubPeriod scrub.asUint64_judged
      fun text => ⟨text, rfl⟩
    have htimeout := Decoding.checks_taken .launchTimeout timeout.asUint64_judged
      fun text => ⟨text, rfl⟩
    have hstake := Decoding.checks_taken .minimumStake stake.asUint_judged
      fun text => ⟨text, rfl⟩
    refine hscrub.bind_cons fun _ _ => ?_
    refine htimeout.bind_cons fun _ _ => ?_
    exact hstake.bind_pure fun _ _ => trivial

theorem stakeQuery_checksOwn (node : Address) : stakeQuery.ChecksOwn node :=
  fun _ hlength => decodeSettings_checks hlength

theorem snapshotQuery_checksOwn (node : Address) : snapshotQuery.ChecksOwn node := by
  intro values hlength
  cases values with
  | nil => cases hlength
  | cons active settings =>
    have hsplit : (ExceptT.mk (some (snapshotQuery.decodeOwn (active :: settings))) :
        Decoding (UInt64 × NetworkSettings)) = (do
          let active ← Decoding.taken active.asUint64
          let settings ← ExceptT.mk (some (decodeSettings settings))
          pure (active, settings)) := by
      show ExceptT.mk (some (do
        let active ← Except.mapError .call active.asUint64
        let settings ← decodeSettings settings
        pure (active, settings))) = _
      cases active.asUint64 with
      | error e => rfl
      | ok active => cases decodeSettings settings <;> rfl
    rw [hsplit]
    have hactive := Decoding.checks_taken (.activeCount node) active.asUint64_judged
      fun text => ⟨text, rfl⟩
    refine hactive.bind_cons fun _ _ => ?_
    exact (decodeSettings_checks (Nat.succ.inj hlength)).bind_pure fun _ _ => trivial

end StakeKeeper
