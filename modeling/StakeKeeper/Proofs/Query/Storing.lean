import StakeKeeper.Proofs.Query.Fitting
import StakeKeeper.Proofs.Query.Sequence

/-!
Values stored in a record one after the other, in place, where a step that fails does not stop the
ones behind it. Main statements: `InPlace.store_run_eq` (storing in place is `setField`, and nothing
was assigned where it fails), `storeAll_run` (what steps make of a record) and `storing_exact` (a
step changes its own field to what the value means or nothing, so a field holds what its last
fitting step stored, and steps on different fields can be exchanged).
-/
namespace StakeKeeper
set_option autoImplicit false

/-! ## What a field holds -/

abbrev MinipoolField.Content : MinipoolField → Type
  | known => Bool
  | status => MinipoolStatus
  | statusTime => Instant
  | pubkey => PubKey
  | credentials => Root

namespace MinipoolRecord
variable (r : MinipoolRecord) {f g : MinipoolField}

def content : (f : MinipoolField) → f.Content
  | .known => r.known
  | .status => r.status
  | .statusTime => r.statusTime
  | .pubkey => r.pubkey
  | .credentials => r.credentials

def put : (f : MinipoolField) → f.Content → MinipoolRecord
  | .known, b => { r with known := b }
  | .status, s => { r with status := s }
  | .statusTime, t => { r with statusTime := t }
  | .pubkey, k => { r with pubkey := k }
  | .credentials, c => { r with credentials := c }

theorem content_put (x : f.Content) : (r.put f x).content f = x := by cases f <;> rfl

theorem content_put_ne (h : g ≠ f) (x : f.Content) : (r.put f x).content g = r.content g := by
  cases f <;> cases g <;> first | rfl | exact absurd rfl h

theorem put_comm (h : f ≠ g) (x : f.Content) (y : g.Content) :
    (r.put f x).put g y = (r.put g y).put f x := by
  cases f <;> cases g <;> first | rfl | exact absurd rfl h

theorem put_node (x : f.Content) : (r.put f x).node = r.node := by cases f <;> rfl

theorem put_address (x : f.Content) : (r.put f x).address = r.address := by cases f <;> rfl

theorem put_beacon (x : f.Content) : (r.put f x).beacon = r.beacon := by cases f <;> rfl

end MinipoolRecord

/-! ## What a value means -/

namespace MinipoolField

/-- Whether a value fits a field. -/
def Fits : MinipoolField → ReadValue → Prop
  | known, .bool _ => True
  | status, .uint n => n.val ≤ 4
  | statusTime, .uint n => n.val < 0x8000000000000000
  | pubkey, .bytes l => l.length = 48
  | credentials, .bytes l => l.length = 32
  | _, _ => False

/-- What a field holds that a value was stored in. -/
def Means : (f : MinipoolField) → f.Content → ReadValue → Prop
  | known, b, .bool c => b = c
  | status, s, .uint n => s.code.toNat = n.val
  | statusTime, t, .uint n => t.nanos = n.val * 1000000000
  | pubkey, k, .bytes l => k.toList = l
  | credentials, c, .bytes l => c.toList = l
  | _, _, _ => False

/-- Whether a value is no status time that is a 64-bit number but no instant. -/
def Timely : MinipoolField → ReadValue → Prop
  | statusTime, .uint n => n.val < 0x8000000000000000 ∨ 0x10000000000000000 ≤ n.val
  | _, _ => True

/-- A value taken as what a field holds; none if it is a time out of range. -/
def decoded : (f : MinipoolField) → ReadValue → Except CallError (Option f.Content)
  | known, v => v.asBool.map some
  | status, v => (MinipoolRecord.decodeStatus v).map some
  | statusTime, v => v.asUint64.map Instant.ofSecs?
  | pubkey, v => v.asPubKey.map some
  | credentials, v => v.asRoot.map some

end MinipoolField

/-! ## Values that were taken -/

theorem MinipoolStatus.ofCode?_eq_some_iff {n : UInt8} {s : MinipoolStatus} :
    ofCode? n = some s ↔ s.code = n := by
  constructor
  · intro h
    unfold ofCode? at h
    apply UInt8.toNat_inj.1
    split at h <;> cases h <;> symm <;> assumption
  · rintro rfl
    exact ofCode?_code s

theorem ReadValue.eq_of_sized {n : Nat} {v : ReadValue} {b : Bytes n}
    {take : ReadValue → Except CallError (Bytes n)}
    (hjudged : (ValueKind.bytes n).Judges CallError.IsDecode v (take v))
    (htake : ∀ b : Bytes n, take (.bytes b.toList) = .ok b) (h : take v = .ok b) :
    v = .bytes b.toList := by
  rw [h] at hjudged
  cases v with
  | bytes l =>
    obtain ⟨c, hc⟩ := Option.isSome_iff_exists.1 (Bytes.ofList?_isSome_iff.2 hjudged)
    cases Bytes.ofList?_eq_some_iff.1 hc
    cases (htake c).symm.trans h
    rfl
  | _ => cases hjudged

theorem MinipoolRecord.eq_of_decodeStatus {v : ReadValue} {s : MinipoolStatus}
    (h : decodeStatus v = .ok s) : ∃ n, v = .uint n ∧ s.code.toNat = n.val := by
  cases v with
  | uint n =>
    by_cases hsmall : n.val < UInt8.size
    · have htaken : (ReadValue.uint n).asUint8 = .ok (UInt8.ofNat n.val) := if_pos hsmall
      simp only [decodeStatus, htaken, bind, Except.bind] at h
      cases hstatus : MinipoolStatus.ofCode? (UInt8.ofNat n.val) with
      | none =>
        rw [hstatus] at h
        cases h
      | some status =>
        rw [hstatus] at h
        cases h
        refine ⟨n, rfl, ?_⟩
        rw [MinipoolStatus.ofCode?_eq_some_iff.1 hstatus, UInt8.toNat_ofNat_of_lt' hsmall]
    · have hrefused : (ReadValue.uint n).asUint8 = .error _ := if_neg hsmall
      simp only [decodeStatus, hrefused, bind, Except.bind] at h
      cases h
  | _ => cases h

namespace MinipoolField
variable {f : MinipoolField} {v : ReadValue}

theorem Fits.holds (h : f.Fits v) : f.kind.Holds v := by
  cases f with
  | status =>
    cases v with
    | uint n => exact Nat.lt_succ_of_le h
    | _ => exact h
  | statusTime =>
    cases v with
    | uint n => exact Nat.lt_trans (show n.val < 0x8000000000000000 from h) (by decide)
    | _ => exact h
  | known | pubkey | credentials => cases v <;> exact h

theorem Means.fits {x : f.Content} (h : f.Means x v) : f.Fits v := by
  cases f with
  | known => cases v <;> trivial
  | status =>
    cases v with
    | uint n =>
      have hcode : x.code.toNat ≤ 4 := by cases x <;> decide
      exact Nat.le_trans (Nat.le_of_eq (Eq.symm h)) hcode
    | _ => exact h
  | statusTime =>
    cases v with
    | uint n =>
      have hnanos : x.nanos = n.val * 1000000000 := h
      have hupper := x.upper
      show n.val < 0x8000000000000000
      omega
    | _ => exact h
  | pubkey | credentials =>
    cases v with
    | bytes l => exact (show x.toList = l from h) ▸ Vector.length_toList
    | _ => exact h

theorem decoded_of_judged {x : Except CallError f.Content} (hdecoded : f.decoded v = x.map some)
    (hjudged : f.kind.Judges (fun _ => True) v x) (hmeans : ∀ a, x = .ok a → f.Means a v) :
    (∃ a, f.decoded v = .ok (some a) ∧ f.Means a v) ∨
      ∃ reason, f.decoded v = .error reason ∧ ¬ f.Fits v := by
  rw [hdecoded]
  cases x with
  | ok a => exact .inl ⟨a, rfl, hmeans a rfl⟩
  | error reason => exact .inr ⟨reason, rfl, fun hfits => hjudged.1 hfits.holds⟩

/-- A value that fits is taken as what it means, any other is an error. -/
theorem decoded_spec (h : f.Timely v) :
    (∃ x, f.decoded v = .ok (some x) ∧ f.Means x v) ∨
      ∃ reason, f.decoded v = .error reason ∧ ¬ f.Fits v := by
  cases f with
  | known =>
    refine decoded_of_judged rfl v.asBool_judged.any fun b hb => ?_
    rw [ReadValue.asBool_eq_ok_iff.1 hb]
    rfl
  | status =>
    refine decoded_of_judged rfl (MinipoolRecord.decodeStatus_judged v) fun s hs => ?_
    obtain ⟨n, rfl, hcode⟩ := MinipoolRecord.eq_of_decodeStatus hs
    exact hcode
  | pubkey =>
    refine decoded_of_judged rfl v.asPubKey_judged.any fun k hk => ?_
    rw [ReadValue.eq_of_sized v.asPubKey_judged ReadValue.asPubKey_toList hk]
    rfl
  | credentials =>
    refine decoded_of_judged rfl v.asRoot_judged.any fun c hc => ?_
    rw [ReadValue.eq_of_sized v.asRoot_judged ReadValue.asRoot_toList hc]
    rfl
  | statusTime =>
    have hjudged := v.asUint64_judged
    dsimp only [decoded]
    cases hsecs : v.asUint64 with
    | error reason =>
      rw [hsecs] at hjudged
      exact .inr ⟨reason, rfl, fun hfits => hjudged.1 hfits.holds⟩
    | ok secs =>
      cases ReadValue.eq_of_asUint64 hsecs
      have hlt : secs.toNat < secondsBound := Or.resolve_right h (Nat.not_le.2 secs.toNat_lt)
      obtain ⟨t, ht, hnanos⟩ := Instant.ofSecs?_eq_some hlt
      exact .inl ⟨t, congrArg Except.ok ht, hnanos⟩

end MinipoolField

/-! ## Storing in place -/

/-- Storing in a record that is assigned to: what was assigned before a failure stays. -/
abbrev InPlace (α : Type) := ExceptT QueryError (StateT MinipoolRecord Option) α

namespace InPlace

def take {α : Type} (minipool : Address) (field : MinipoolField) : Except CallError α → InPlace α
  | .ok a => pure a
  | .error reason => throw (.decode minipool field reason)

def assign (field : MinipoolField) (x : field.Content) : InPlace Unit :=
  modify fun r => r.put field x

/-- The time after a number of seconds, which may have no outcome. -/
def afterEpoch (secs : UInt64) : InPlace Instant :=
  ExceptT.mk fun r => (Instant.ofSecs? secs).map fun t => (.ok t, r)

def statusOf (code : UInt8) : Except CallError MinipoolStatus :=
  match MinipoolStatus.ofCode? code with
  | some s => pure s
  | none => throw (.value (.unknownStatus code))

/-- Stores a value in a field of the record. A status is taken in two stages. -/
def store (field : MinipoolField) (v : ReadValue) : InPlace Unit := do
  let minipool := (← get).address
  match field with
  | .known => assign .known (← take minipool .known v.asBool)
  | .status =>
    let code ← take minipool .status v.asUint8
    assign .status (← take minipool .status (statusOf code))
  | .statusTime =>
    let secs ← take minipool .statusTime v.asUint64
    assign .statusTime (← afterEpoch secs)
  | .pubkey => assign .pubkey (← take minipool .pubkey v.asPubKey)
  | .credentials => assign .credentials (← take minipool .credentials v.asRoot)

section
variable (minipool : Address) (field : MinipoolField)

theorem get_bind_run {α : Type} (next : MinipoolRecord → InPlace α) (r : MinipoolRecord) :
    (get >>= next : InPlace α).run.run r = (next r).run.run r := rfl

theorem take_bind {α β : Type} (x : Except CallError α) (next : α → Except CallError β) :
    (take minipool field x >>= fun a => take minipool field (next a)) =
      take minipool field (x >>= next) := by
  cases x <;> rfl

theorem take_assign_run (x : Except CallError field.Content) (r : MinipoolRecord) :
    (take minipool field x >>= assign field).run.run r =
      match x with
      | .ok a => some (.ok (), r.put field a)
      | .error reason => some (.error (.decode minipool field reason), r) := by
  cases x <;> rfl

theorem afterEpoch_assign_run (secs : UInt64) (r : MinipoolRecord) :
    (afterEpoch secs >>= assign .statusTime).run.run r =
      (Instant.ofSecs? secs).map fun t => (.ok (), r.put .statusTime t) := by
  unfold afterEpoch
  cases Instant.ofSecs? secs <;> rfl

end

/-- The result of a step and the record after it; none if the step has no outcome. -/
def outcome (field : MinipoolField) (v : ReadValue) (r : MinipoolRecord) :
    Option (Except QueryError Unit × MinipoolRecord) :=
  match field.decoded v with
  | .ok (some x) => some (.ok (), r.put field x)
  | .ok none => none
  | .error reason => some (.error (.decode r.address field reason), r)

theorem store_run (field : MinipoolField) (v : ReadValue) (r : MinipoolRecord) :
    (store field v).run.run r = outcome field v r := by
  have taken {x : Except CallError field.Content} (hdecoded : field.decoded v = x.map some)
      (hstore : (store field v).run.run r = (take r.address field x >>= assign field).run.run r) :
      (store field v).run.run r = outcome field v r := by
    rw [hstore, outcome, hdecoded, take_assign_run]
    cases x <;> rfl
  cases field with
  | known => exact taken rfl rfl
  | pubkey => exact taken rfl rfl
  | credentials => exact taken rfl rfl
  | status =>
    refine taken (x := v.asUint8 >>= statusOf) rfl ?_
    rw [← take_bind]
    show ((take r.address .status v.asUint8 >>= fun code =>
      take r.address .status (statusOf code) >>= assign .status).run.run r) = _
    rw [bind_assoc]
  | statusTime =>
    rw [store, get_bind_run, outcome]
    dsimp only [MinipoolField.decoded]
    cases v.asUint64 with
    | error reason => rfl
    | ok secs =>
      rw [take, pure_bind, afterEpoch_assign_run]
      dsimp only [Except.map]
      cases Instant.ofSecs? secs <;> rfl

end InPlace

namespace MinipoolRecord
variable (r : MinipoolRecord) (f : MinipoolField) (v : ReadValue)

theorem withField_eq : r.withField f v = (f.decoded v).map (Option.map (r.put f)) := by
  have taken {α : Type} (x : Except CallError α) (next : α → Option f.Content) :
      (x.map next).map (Option.map (r.put f)) = x.map fun a => (next a).map (r.put f) := by
    cases x <;> rfl
  cases f with
  | known => exact (taken v.asBool some).symm
  | status => exact (taken (decodeStatus v) some).symm
  | statusTime => exact (taken v.asUint64 Instant.ofSecs?).symm
  | pubkey => exact (taken v.asPubKey some).symm
  | credentials => exact (taken v.asRoot some).symm

theorem setField_eq : r.setField f v =
    match f.decoded v with
    | .ok x => ExceptT.lift (x.map (r.put f))
    | .error reason => throw (.decode r.address f reason) := by
  rw [setField, withField_eq]
  cases f.decoded v <;> rfl

end MinipoolRecord

/-- Storing in place is storing in a copy that takes the record's place where nothing failed. -/
theorem InPlace.store_run_eq (f : MinipoolField) (v : ReadValue) (r : MinipoolRecord) :
    (store f v).run.run r = (r.setField f v).run.map fun
      | .ok updated => (.ok (), updated)
      | .error e => (.error e, r) := by
  rw [store_run, outcome, MinipoolRecord.setField_eq]
  rcases f.decoded v with reason | _ | x <;> rfl

/-! ## Steps -/

abbrev StoreStep := MinipoolField × ReadValue

namespace StoreStep

def Fits (s : StoreStep) : Prop := s.1.Fits s.2

def Timely (s : StoreStep) : Prop := s.1.Timely s.2

def result (minipool : Address) (s : StoreStep) : Except QueryError Unit :=
  match s.1.decoded s.2 with
  | .ok _ => .ok ()
  | .error reason => .error (.decode minipool s.1 reason)

def after (r : MinipoolRecord) (s : StoreStep) : MinipoolRecord :=
  match s.1.decoded s.2 with
  | .ok (some x) => r.put s.1 x
  | _ => r

/-- What changes where a step stores its value: its own field. -/
structure Stores (s : StoreStep) (r updated : MinipoolRecord) : Prop where
  own : s.1.Means (updated.content s.1) s.2
  others : ∀ g, g ≠ s.1 → updated.content g = r.content g
  node : updated.node = r.node
  address : updated.address = r.address
  beacon : updated.beacon = r.beacon

/-- Whether a result tells if a step stored its value. -/
def Tells (minipool : Address) (s : StoreStep) (result : Except QueryError Unit) : Prop :=
  (s.Fits ∧ result = .ok ()) ∨
    (¬ s.Fits ∧ ∃ reason, result = .error (.decode minipool s.1 reason))

section
variable {r : MinipoolRecord} {s t : StoreStep} {minipool : Address}

theorem run_eq (h : s.Timely) :
    (InPlace.store s.1 s.2).run.run r = some (s.result r.address, s.after r) := by
  rw [InPlace.store_run, InPlace.outcome, result, after]
  obtain ⟨x, hx, -⟩ | ⟨reason, hreason, -⟩ := MinipoolField.decoded_spec h
  · rw [hx]
  · rw [hreason]

theorem tells_result (h : s.Timely) : s.Tells minipool (s.result minipool) := by
  rw [result]
  obtain ⟨x, hx, hmeans⟩ | ⟨reason, hreason, hunfit⟩ := MinipoolField.decoded_spec h
  · rw [hx]
    exact .inl ⟨hmeans.fits, rfl⟩
  · rw [hreason]
    exact .inr ⟨hunfit, reason, rfl⟩

theorem stores_put {x : s.1.Content} (hmeans : s.1.Means x s.2) : s.Stores r (r.put s.1 x) where
  own := (r.content_put x).symm ▸ hmeans
  others _ hg := r.content_put_ne hg x
  node := r.put_node x
  address := r.put_address x
  beacon := r.put_beacon x

theorem stores_after (h : s.Timely) (hfits : s.Fits) : s.Stores r (s.after r) := by
  obtain ⟨x, hx, hmeans⟩ | ⟨_, -, hunfit⟩ := MinipoolField.decoded_spec h
  · rw [after, hx]
    exact stores_put hmeans
  · exact absurd hfits hunfit

theorem after_of_not_fits (h : s.Timely) (hunfit : ¬ s.Fits) : s.after r = r := by
  obtain ⟨x, -, hmeans⟩ | ⟨_, hreason, -⟩ := MinipoolField.decoded_spec h
  · exact absurd hmeans.fits hunfit
  · rw [after, hreason]

theorem after_comm (h : s.1 ≠ t.1) : t.after (s.after r) = s.after (t.after r) := by
  unfold after
  split <;> split <;> first | rfl | exact r.put_comm h _ _

end

end StoreStep

/-! ## Runs -/

/-- Stores values in fields of the record, in order, with the result of each step. -/
def storeAll : List StoreStep → StateT MinipoolRecord Option (List (Except QueryError Unit))
  | [] => pure []
  | s :: rest => do
    let result ← (InPlace.store s.1 s.2).run
    let results ← storeAll rest
    pure (result :: results)

def afterAll (r : MinipoolRecord) (steps : List StoreStep) : MinipoolRecord :=
  steps.foldl (fun r s => s.after r) r

section
variable {r : MinipoolRecord} {steps : List StoreStep}

theorem StoreStep.frame (s : StoreStep) : (s.after r).node = r.node ∧
    (s.after r).address = r.address ∧ (s.after r).beacon = r.beacon := by
  unfold after
  split
  · exact ⟨r.put_node _, r.put_address _, r.put_beacon _⟩
  · exact ⟨rfl, rfl, rfl⟩

theorem afterAll_frame : (afterAll r steps).node = r.node ∧
    (afterAll r steps).address = r.address ∧ (afterAll r steps).beacon = r.beacon := by
  induction steps generalizing r with
  | nil => exact ⟨rfl, rfl, rfl⟩
  | cons s rest ih =>
    obtain ⟨hnode, haddress, hbeacon⟩ := s.frame (r := r)
    obtain ⟨hnode', haddress', hbeacon'⟩ := ih (r := s.after r)
    exact ⟨hnode'.trans hnode, haddress'.trans haddress, hbeacon'.trans hbeacon⟩

/-- Steps in a row do what the same steps do one after another, and none stops the others. -/
theorem storeAll_run (h : ∀ s ∈ steps, s.Timely) :
    (storeAll steps).run r = some (steps.map (StoreStep.result r.address), afterAll r steps) := by
  induction steps generalizing r with
  | nil => rfl
  | cons s rest ih =>
    have hrest := ih (r := s.after r) fun t ht => h t (List.mem_cons_of_mem s ht)
    rw [(s.frame (r := r)).2.1] at hrest
    rw [storeAll, StateT.run_bind, StoreStep.run_eq (h s List.mem_cons_self)]
    show ((storeAll rest).run (s.after r)).bind _ = _
    rw [hrest]
    rfl

/-- Whether a field holds what the last fitting step on it stored, or what it held before. -/
def HoldsLast (r : MinipoolRecord) (steps : List StoreStep) (last : MinipoolRecord)
    (g : MinipoolField) : Prop :=
  (∃ (before : List StoreStep) (v : ReadValue) (rest : List StoreStep),
    steps = before ++ (g, v) :: rest ∧ g.Means (last.content g) v ∧
      ∀ s ∈ rest, s.1 = g → ¬ s.Fits) ∨
  ((∀ s ∈ steps, s.1 = g → ¬ s.Fits) ∧ last.content g = r.content g)

theorem StoreStep.after_other {s : StoreStep} {g : MinipoolField} (h : s.Timely)
    (hother : s.1 = g → ¬ s.Fits) : (s.after r).content g = r.content g := by
  by_cases hfits : s.Fits
  · exact (stores_after h hfits).others g fun hg => hother hg.symm hfits
  · rw [after_of_not_fits h hfits]

theorem afterAll_holdsLast (h : ∀ s ∈ steps, s.Timely) (g : MinipoolField) :
    HoldsLast r steps (afterAll r steps) g := by
  induction steps generalizing r with
  | nil => exact .inr ⟨(fun _ hs => nomatch hs), rfl⟩
  | cons s rest ih =>
    have hs : s.Timely := h s List.mem_cons_self
    have hlast : HoldsLast (s.after r) rest (afterAll (s.after r) rest) g :=
      ih fun t ht => h t (List.mem_cons_of_mem s ht)
    obtain ⟨before, v, later, rfl, hmeans, hlater⟩ | ⟨hrest, hsame⟩ := hlast
    · exact .inl ⟨s :: before, v, later, rfl, hmeans, hlater⟩
    -- No later step stores in the field, so it holds what this step left in it.
    · by_cases hown : s.1 = g ∧ s.Fits
      · obtain ⟨rfl, hfits⟩ := hown
        refine .inl ⟨[], s.2, rest, rfl, ?_, hrest⟩
        show s.1.Means ((afterAll (s.after r) rest).content s.1) s.2
        rw [hsame]
        exact (StoreStep.stores_after hs hfits).own
      · have hother : s.1 = g → ¬ s.Fits := fun hg hfits => hown ⟨hg, hfits⟩
        refine .inr ⟨?_, hsame.trans (StoreStep.after_other hs hother)⟩
        intro t ht
        rcases List.mem_cons.1 ht with rfl | ht
        · exact hother
        · exact hrest t ht

/-- Steps on different fields make the same of a record in either order. -/
theorem afterAll_exchange {s t : StoreStep} (h : s.1 ≠ t.1) (before rest : List StoreStep) :
    afterAll r (before ++ s :: t :: rest) = afterAll r (before ++ t :: s :: rest) := by
  rw [afterAll, afterAll, List.foldl_append, List.foldl_append]
  show afterAll (t.after (s.after (afterAll r before))) rest =
    afterAll (s.after (t.after (afterAll r before))) rest
  rw [StoreStep.after_comm h]

end

/-! ## All together -/

/-- Whether a step is exact: in place and as `setField`, it stores its value where it fits, and else
it is the error that names the minipool and the field and leaves the record as it was. -/
structure StepExact (r : MinipoolRecord) (s : StoreStep) : Prop where
  stores : s.Fits → ∃ updated, (InPlace.store s.1 s.2).run.run r = some (.ok (), updated) ∧
    r.setField s.1 s.2 = pure updated ∧ s.Stores r updated
  refuses : ¬ s.Fits → ∃ reason,
    (InPlace.store s.1 s.2).run.run r = some (.error (.decode r.address s.1 reason), r) ∧
      r.setField s.1 s.2 = throw (.decode r.address s.1 reason)

/-- Whether steps are exact: each result tells if its step fits, and each field holds what the last
fitting step on it stored. -/
structure StepsExact (r : MinipoolRecord) (steps : List StoreStep)
    (results : List (Except QueryError Unit)) (last : MinipoolRecord) : Prop where
  run : (storeAll steps).run r = some (results, last)
  length : results.length = steps.length
  tells : ∀ p ∈ steps.zip results, p.1.Tells r.address p.2
  holds : ∀ g, HoldsLast r steps last g
  node : last.node = r.node
  address : last.address = r.address
  beacon : last.beacon = r.beacon

/-- Whether two steps can be exchanged between others. -/
def Exchangeable (r : MinipoolRecord) (before : List StoreStep) (s t : StoreStep)
    (rest : List StoreStep) : Prop :=
  ∃ first a b later last, first.length = before.length ∧
    (storeAll (before ++ s :: t :: rest)).run r = some (first ++ a :: b :: later, last) ∧
    (storeAll (before ++ t :: s :: rest)).run r = some (first ++ b :: a :: later, last)

theorem stepExact {r : MinipoolRecord} {s : StoreStep} (h : s.Timely) : StepExact r s := by
  obtain ⟨x, hx, hmeans⟩ | ⟨reason, hreason, hunfit⟩ := MinipoolField.decoded_spec h
  · have hset : r.setField s.1 s.2 = pure (r.put s.1 x) := by
      rw [MinipoolRecord.setField_eq, hx]
      rfl
    refine ⟨fun _ => ⟨r.put s.1 x, ?_, hset, StoreStep.stores_put hmeans⟩, fun hunfit =>
      absurd hmeans.fits hunfit⟩
    rw [InPlace.store_run_eq, hset]
    rfl
  · have hset : r.setField s.1 s.2 = throw (.decode r.address s.1 reason) := by
      rw [MinipoolRecord.setField_eq, hreason]
    refine ⟨fun hfits => absurd hfits hunfit, fun _ => ⟨reason, ?_, hset⟩⟩
    rw [InPlace.store_run_eq, hset]
    rfl

theorem stepsExact {r : MinipoolRecord} {steps : List StoreStep} (h : ∀ s ∈ steps, s.Timely) :
    StepsExact r steps (steps.map (StoreStep.result r.address)) (afterAll r steps) where
  run := storeAll_run h
  length := List.length_map _
  tells p hp := by
    obtain ⟨i, hi, rfl⟩ := List.mem_iff_getElem.1 hp
    rw [List.getElem_zip, List.getElem_map]
    exact StoreStep.tells_result (h _ (List.getElem_mem _))
  holds := afterAll_holdsLast h
  node := afterAll_frame.1
  address := afterAll_frame.2.1
  beacon := afterAll_frame.2.2

theorem exchangeable {r : MinipoolRecord} {before rest : List StoreStep} {s t : StoreStep}
    (h : ∀ u ∈ before ++ s :: t :: rest, u.Timely) (hne : s.1 ≠ t.1) :
    Exchangeable r before s t rest := by
  have hswapped : ∀ u ∈ before ++ t :: s :: rest, u.Timely := fun u hu =>
    h u (((List.Perm.swap s t rest).append_left before).mem_iff.1 hu)
  refine ⟨before.map (StoreStep.result r.address), s.result r.address, t.result r.address,
    rest.map (StoreStep.result r.address), afterAll r (before ++ s :: t :: rest),
    List.length_map _, ?_, ?_⟩
  · rw [storeAll_run h, List.map_append, List.map_cons, List.map_cons]
  · rw [storeAll_run hswapped, List.map_append, List.map_cons, List.map_cons,
      afterAll_exchange hne]

/-- A step stores what it means or fails and leaves the record as it was, steps in a row leave each
field with the last value that fits, and steps on different fields can change places. -/
theorem storing_exact (r : MinipoolRecord) :
    (∀ s : StoreStep, s.Timely → StepExact r s) ∧
      (∀ steps : List StoreStep, (∀ s ∈ steps, s.Timely) →
        ∃ results last, StepsExact r steps results last) ∧
      ∀ before s t rest, (∀ u ∈ before ++ s :: t :: rest, StoreStep.Timely u) → s.1 ≠ t.1 →
        Exchangeable r before s t rest :=
  ⟨fun _ => stepExact, fun _ h => ⟨_, _, stepsExact h⟩, fun _ _ _ _ => exchangeable⟩

/-- A status that was stored stays, whatever failed before and after it. -/
theorem storing_exact_amidFailures :
    let r := MinipoolRecord.empty (Bytes.zero 20) (Bytes.zero 20)
    let stored : StoreStep := (.status, .uint (.ofUInt64 1))
    let failed : StoreStep := (.status, .uint (.ofUInt64 7))
    let steps : List StoreStep :=
      [(.pubkey, .bytes []), stored, failed, (.known, .uint (.ofUInt64 1))]
    (stored.Fits ∧ StepExact r stored) ∧ (¬ failed.Fits ∧ StepExact r failed) ∧
      (∃ results last, StepsExact r steps results last ∧ last = { r with status := .prelaunch }) ∧
      Exchangeable r [] (.pubkey, .bytes []) stored [failed, (.known, .uint (.ofUInt64 1))] := by
  intro r stored failed steps
  have htimely : ∀ s ∈ steps, s.Timely := by
    simp [steps, stored, failed, StoreStep.Timely, MinipoolField.Timely]
  obtain ⟨hstep, hruns, hexchange⟩ := storing_exact r
  obtain ⟨results, last, hexact⟩ := hruns steps htimely
  have hlast : afterAll r steps = last :=
    congrArg Prod.snd (Option.some.inj ((storeAll_run htimely).symm.trans hexact.run))
  refine ⟨⟨show 1 ≤ 4 by decide, hstep stored trivial⟩, ⟨show ¬ 7 ≤ 4 by decide,
    hstep failed trivial⟩, ⟨results, last, hexact, ?_⟩, hexchange [] _ _ _ htimely (by decide)⟩
  rw [← hlast]
  rfl

end StakeKeeper
