import StakeKeeper.Proofs.Query.Batches
import StakeKeeper.Proofs.Query.Single

/-!
What a query asks for, for every page size and every count that the chain reports. Main statement:
`QueryRunner.run_asks` (one opening batch, then the addresses and the fields in pages, each index
and each field once and in order, all at one block).
-/
namespace StakeKeeper
set_option autoImplicit false
open QueryRoutine

/-! ## Requests -/

/-- The calls of a history without their answers. -/
def requests (history : List Step) : List Request :=
  history.filterMap fun
    | .asked q _ => some q
    | .noted _ => none

@[simp] theorem requests_append (first second : List Step) :
    requests (first ++ second) = requests first ++ requests second := List.filterMap_append

def multicalls (block : UInt64) (batches : List (List ContractRead)) : List Request :=
  batches.map fun reads => .multicall reads block

def answered (block : UInt64) (batches : List (List ContractRead × List ReadValue)) : List Step :=
  batches.map fun b => batchStep b.1 block (.ok b.2)

theorem requests_answered (block : UInt64) (batches : List (List ContractRead × List ReadValue)) :
    requests (answered block batches) = multicalls block (batches.map Prod.fst) := by
  induction batches with
  | nil => rfl
  | cons b rest ih => exact congrArg (.multicall b.1 block :: ·) ih

/-! ## The cursor -/

def saturatingAdd (a b : UInt64) : UInt64 := if a + b < a then 0xffffffffffffffff else a + b

theorem saturatingAdd_toNat (a b : UInt64) :
    (saturatingAdd a b).toNat = min (a.toNat + b.toNat) 0xffffffffffffffff := by
  have ha := a.toNat_lt
  have hb := b.toNat_lt
  have hmax : (0xffffffffffffffff : UInt64).toNat = 0xffffffffffffffff := rfl
  simp only [saturatingAdd, UInt64.lt_iff_toNat_lt]
  split <;> simp only [UInt64.toNat_add] at * <;> omega

/-- Where the page after the one from `start` on starts. A page of no indices acts as one of one. -/
def nextStart (page count start : UInt64) : UInt64 :=
  let stop := saturatingAdd start (if page = 0 then 1 else page)
  if stop < count then stop else count

theorem nextStart_toNat (page count start : UInt64) :
    (nextStart page count start).toNat =
      min (start.toNat + max page.toNat 1) count.toNat := by
  have hpage : (if page = 0 then 1 else page).toNat = max page.toNat 1 := by
    split
    · rename_i hzero
      rw [hzero]
      rfl
    · rename_i hzero
      have : page.toNat ≠ 0 := fun h => hzero (UInt64.toNat_inj.1 h)
      omega
  have hcount := count.toNat_lt
  have hstop := saturatingAdd_toNat start (if page = 0 then 1 else page)
  rw [hpage] at hstop
  unfold nextStart
  generalize saturatingAdd start (if page = 0 then 1 else page) = stop at hstop
  simp only [UInt64.lt_iff_toNat_lt]
  split <;> omega

def addressBatches (node : Address) (page count start : UInt64) : List (List ContractRead) :=
  if start < count then
    addressReads node start.toNat (nextStart page count start).toNat ::
      addressBatches node page count (nextStart page count start)
  else []
termination_by count.toNat - start.toNat
decreasing_by
  rename_i hlt
  rw [UInt64.lt_iff_toNat_lt] at hlt
  rw [nextStart_toNat]
  omega

theorem length_addressReads (node : Address) (start stop : Nat) :
    (addressReads node start stop).length = stop - start := by
  rw [addressReads, List.length_map, List.length_range']

theorem addressReads_split (node : Address) {start stop count : Nat} (h : start ≤ stop)
    (h' : stop ≤ count) : addressReads node start count =
      addressReads node start stop ++ addressReads node stop count := by
  have hcount : count - start = stop - start + (count - stop) := by omega
  have hstop : stop = start + (stop - start) := by omega
  rw [addressReads, hcount, ← List.range'_append_1, ← hstop, List.map_append]
  rfl

/-- They are the pages of the reads of all indices. -/
theorem addressBatches_eq (node : Address) (page count start : UInt64) :
    addressBatches node page count start =
      pages page.toNat (addressReads node start.toNat count.toNat) := by
  induction start using addressBatches.induct page count with
  | case1 start hlt ih =>
    rw [UInt64.lt_iff_toNat_lt] at hlt
    have hnext := nextStart_toNat page count start
    rw [addressBatches, if_pos (UInt64.lt_iff_toNat_lt.2 hlt), ih]
    generalize (nextStart page count start).toNat = stop at hnext
    have hle : start.toNat ≤ stop ∧ stop ≤ count.toNat := by omega
    have hsplit := addressReads_split node hle.1 hle.2
    have hlength := length_addressReads node start.toNat stop
    have hrest := length_addressReads node stop count.toNat
    rw [hsplit, pages_append]
    · exact List.ne_nil_of_length_pos (by omega)
    · omega
    · by_cases hfull : stop - start.toNat = max page.toNat 1
      · exact .inl (hlength.trans hfull)
      · exact .inr (List.eq_nil_of_length_eq_zero (by omega))
  | case2 start hge =>
    have hnone : count.toNat - start.toNat = 0 := by
      rw [UInt64.lt_iff_toNat_lt] at hge
      omega
    rw [addressBatches, if_neg hge, addressReads, hnone]
    rfl

/-! ## Addresses -/

theorem ReadValue.eq_of_asUint64 {v : ReadValue} {n : UInt64} (h : v.asUint64 = .ok n) :
    v = .uint (.ofUInt64 n) := by
  cases v with
  | uint u =>
    simp only [asUint64, asUint, bind, Except.bind] at h
    split at h
    · rename_i hlt
      cases h
      have hval : (UInt64.ofNat u.val).toNat = u.val := UInt64.toNat_ofNat_of_lt' hlt
      exact congrArg ReadValue.uint (Uint256.ext hval.symm)
    · cases h
  | _ => cases h

theorem eq_addresses_of_mapM {values : List ReadValue} {found : List Address}
    (h : values.mapM ReadValue.asAddress = .ok found) : values = found.map .address := by
  induction values generalizing found with
  | nil =>
    cases h
    rfl
  | cons v values ih =>
    rw [List.mapM_cons] at h
    cases ha : v.asAddress with
    | error e =>
      rw [ha] at h
      cases h
    | ok a =>
      rw [ha] at h
      cases hrest : values.mapM ReadValue.asAddress with
      | error e =>
        rw [hrest] at h
        cases h
      | ok rest =>
        rw [hrest] at h
        cases h
        rw [ReadValue.asAddress_eq_ok_iff.1 ha, ih hrest, List.map_cons]

theorem eq_of_takeAddresses {values : List ReadValue} {found : List Address}
    (h : (takeAddresses values).run = some (.ok found)) : values = found.map .address := by
  refine eq_addresses_of_mapM ?_
  cases hfound : values.mapM ReadValue.asAddress with
  | error e =>
    rw [takeAddresses, hfound] at h
    cases h
  | ok found' =>
    rw [takeAddresses, hfound] at h
    cases h
    rfl

/-- The steps of batches that list addresses: each read is answered with one of them. -/
def Lists (block : UInt64) (batches : List (List ContractRead)) (addresses : List Address)
    (steps : List Step) : Prop :=
  ∃ listed, steps = answered block listed ∧ listed.map Prod.fst = batches ∧
    (∀ b ∈ listed, b.2.length = b.1.length) ∧
      (listed.map Prod.snd).flatten = addresses.map .address

theorem Lists.nil (block : UInt64) : Lists block [] [] [] :=
  ⟨[], rfl, rfl, (fun _ h => nomatch h), rfl⟩

theorem Lists.cons {block : UInt64} {reads : List ContractRead} {found rest : List Address}
    {batches : List (List ContractRead)} {steps : List Step} (h : Lists block batches rest steps)
    (hlength : (found.map ReadValue.address).length = reads.length) :
    Lists block (reads :: batches) (found ++ rest)
      (batchStep reads block (.ok (found.map .address)) :: steps) := by
  obtain ⟨listed, rfl, rfl, hlengths, hanswers⟩ := h
  refine ⟨(reads, found.map .address) :: listed, rfl, rfl, ?_, ?_⟩
  · intro b hb
    rcases List.mem_cons.1 hb with rfl | hb
    · exact hlength
    · exact hlengths b hb
  · rw [List.map_cons, List.flatten_cons, hanswers, List.map_append]

theorem Lists.requests {block : UInt64} {batches : List (List ContractRead)}
    {addresses : List Address} {steps : List Step} (h : Lists block batches addresses steps) :
    requests steps = multicalls block batches := by
  obtain ⟨listed, rfl, rfl, -, -⟩ := h
  exact requests_answered block listed

theorem Lists.length {block : UInt64} {batches : List (List ContractRead)}
    {addresses : List Address} {steps : List Step} (h : Lists block batches addresses steps) :
    addresses.length = batches.flatten.length := by
  obtain ⟨listed, -, rfl, hlengths, hanswers⟩ := h
  have hsum : (listed.map Prod.snd).flatten.length = (listed.map Prod.fst).flatten.length := by
    rw [List.length_flatten, List.length_flatten, List.map_map, List.map_map]
    exact congrArg List.sum (List.map_congr_left hlengths)
  rw [← hsum, hanswers, List.length_map]

theorem addressesFrom_asks (node : Address) (block page count start : UInt64) :
    (addressesFrom node block (page.toNat - 1) count.toNat start.toNat).Follows (fun _ => True)
      (fun steps found => Lists block (addressBatches node page count start) found steps)
      fun steps _ =>
        requests steps <+: multicalls block (addressBatches node page count start) := by
  induction start using addressBatches.induct page count with
  | case1 start hlt ih =>
    have hnext : min (start.toNat + (page.toNat - 1) + 1) count.toNat =
        (nextStart page count start).toNat := by
      rw [nextStart_toNat]
      omega
    rw [addressesFrom_eq, if_pos (UInt64.lt_iff_toNat_lt.1 hlt), hnext, addressBatches, if_pos hlt]
    refine ((readBatch_follows _ block _).mono (fun _ _ h => h) ?_).bind
      fun first found hfirst => ?_
    · rintro steps stop ⟨answer, rfl, -, -⟩
      exact (List.prefix_append_right_inj [_]).2 List.nil_prefix
    obtain ⟨values, rfl, -, hlength, hvalues⟩ := hfirst
    rw [eq_of_takeAddresses hvalues] at hlength ⊢
    refine (ih.mono (fun _ _ h => h) ?_).bind
      fun second rest hrest => FailingRoutine.follows_pure ?_
    · intro steps stop hsteps
      exact (List.prefix_append_right_inj [_]).2 hsteps
    · rw [List.append_nil]
      exact hrest.cons hlength
  | case2 start hge =>
    have hlt : ¬ start.toNat < count.toNat := fun h => hge (UInt64.lt_iff_toNat_lt.2 h)
    rw [addressesFrom, if_neg hlt, addressBatches, if_neg hge]
    exact FailingRoutine.follows_pure (Lists.nil block)

/-! ## Details -/

theorem detailsOf_asks (node : Address) (block : UInt64) (fields : List MinipoolField)
    (parts : List (List Address)) :
    (detailsOf node block fields parts).Follows (fun _ => True)
      (fun steps _ => requests steps = multicalls block (parts.map (detailReads fields)))
      fun steps _ => requests steps <+: multicalls block (parts.map (detailReads fields)) := by
  induction parts with
  | nil => exact FailingRoutine.follows_pure rfl
  | cons part parts ih =>
    rw [detailsOf_cons]
    refine ((readBatch_follows _ block _).mono (fun _ _ h => h) ?_).bind
      fun first records hfirst => ?_
    · rintro steps stop ⟨answer, rfl, -, -⟩
      exact (List.prefix_append_right_inj [_]).2 List.nil_prefix
    obtain ⟨values, rfl, -, -, -⟩ := hfirst
    refine (ih.mono (fun _ _ h => h) ?_).bind
      fun second more hmore => FailingRoutine.follows_pure ?_
    · intro steps stop hsteps
      exact (List.prefix_append_right_inj [_]).2 hsteps
    · rw [List.append_nil, requests_append, hmore]
      rfl

namespace QueryRunner
variable {σ ω : Type} (runner : QueryRunner) (query : NodeQuery σ ω)

def listing (count : UInt64) : List (List ContractRead) :=
  addressBatches runner.node runner.pages.addresses count 0

def detailing (addresses : List Address) : List (List ContractRead) :=
  if query.wantsDetails addresses ∧ query.fields ≠ [] then
    (StakeKeeper.pages runner.pages.details.toNat addresses).map (detailReads query.fields)
  else []

/-- The step that opens a query on a chain with a number of minipools. -/
def Opens (block count : UInt64) (steps : List Step) : Prop :=
  ∃ values, steps =
    [batchStep (runner.firstReads query) block (.ok (.uint (.ofUInt64 count) :: values))]

/-- How far a query has got that has no outcome yet. -/
inductive Stopped (block : UInt64) (steps : List Step) : Prop
  | opening (h : requests steps = multicalls block [runner.firstReads query])
  | listing {count : UInt64} {first second : List Step} (hsteps : steps = first ++ second)
      (hfirst : runner.Opens query block count first)
      (hsecond : requests second <+: multicalls block (runner.listing count))
  | detailing {count : UInt64} {addresses : List Address} {first second third : List Step}
      (hsteps : steps = first ++ (second ++ third)) (hfirst : runner.Opens query block count first)
      (hsecond : Lists block (runner.listing count) addresses second)
      (hthird : requests third <+: multicalls block (runner.detailing query addresses))

/-- The steps of a query with an outcome. -/
inductive Completed (block : UInt64) (steps : List Step) : Prop
  | mk {count : UInt64} {addresses : List Address} {first second third : List Step}
      (hsteps : steps = first ++ (second ++ third)) (hfirst : runner.Opens query block count first)
      (hsecond : Lists block (runner.listing count) addresses second)
      (hthird : requests third = multicalls block (runner.detailing query addresses))

theorem eq_of_takeFirst {values : List ReadValue} {opened : UInt64 × σ}
    (h : (runner.takeFirst query values).run = some (.ok opened)) :
    ∃ ownValues, values = .uint (.ofUInt64 opened.1) :: ownValues ∧
      query.decodeOwn ownValues = .ok opened.2 := by
  cases values with
  | nil => cases h
  | cons countValue ownValues =>
    rcases hcount : countValue.asUint64 with e | count
    · rw [takeFirst, hcount] at h
      cases h
    · rcases hown : query.decodeOwn ownValues with e | own
      · rw [takeFirst, hcount, hown] at h
        cases h
      · rw [takeFirst, hcount, hown] at h
        cases h
        exact ⟨ownValues, by rw [ReadValue.eq_of_asUint64 hcount], hown⟩

theorem addresses_asks (block count : UInt64) :
    (runner.addresses block count).Follows (fun _ => True)
      (fun steps found => Lists block (runner.listing count) found steps)
      fun steps _ => requests steps <+: multicalls block (runner.listing count) := by
  refine (FailingRoutine.follows_require fun _ => List.nil_prefix).bind fun first _ hfirst => ?_
  subst hfirst
  refine (addressesFrom_asks runner.node block runner.pages.addresses count 0).bind
    fun second found hsecond => ?_
  refine (FailingRoutine.follows_require fun _ => ?_).bind fun third _ hthird => ?_
  · rw [List.append_nil]
    exact hsecond.requests ▸ List.prefix_rfl
  · subst hthird
    refine FailingRoutine.follows_pure ?_
    rw [List.append_nil, List.append_nil]
    exact hsecond

theorem details_asks (block : UInt64) (addresses : List Address)
    (hwants : query.wantsDetails addresses = true) :
    (runner.details block query.fields addresses).Follows (fun _ => True)
      (fun steps _ => requests steps = multicalls block (runner.detailing query addresses))
      fun steps _ => requests steps <+: multicalls block (runner.detailing query addresses) := by
  unfold details detailing
  by_cases hfields : query.fields = []
  · have hempty : query.fields.isEmpty = true := List.isEmpty_iff.2 hfields
    rw [if_pos hempty, if_neg fun h => h.2 hfields]
    exact FailingRoutine.follows_pure rfl
  · have hfull : ¬ query.fields.isEmpty = true := fun h => hfields (List.isEmpty_iff.1 h)
    rw [if_neg hfull, if_pos ⟨hwants, hfields⟩]
    exact detailsOf_asks runner.node block _ _

theorem gatherFrom_asks (header : BlockHeader) (transactor : Option Transactor) (count : UInt64)
    (own : σ) {first : List Step} (hfirst : runner.Opens query header.number count first) :
    (runner.gatherFrom query header transactor count own).Follows (fun _ => True)
      (fun second _ => runner.Completed query header.number (first ++ second))
      fun second _ => runner.Stopped query header.number (first ++ second) := by
  refine ((runner.addresses_asks header.number count).mono (fun _ _ h => h) ?_).bind
    fun second addresses hsecond => ?_
  · intro steps stop hsteps
    exact .listing rfl hfirst hsteps
  have finishing (third : List Step) (hthird : requests third =
      multicalls header.number (runner.detailing query addresses)) (event : Event)
      (result : Except QueryError ω) : FailingRoutine.Follows
        (FailingRoutine.note event >>= fun _ => FailingRoutine.ofExcept result) (fun _ => True)
        (fun last _ => runner.Completed query header.number
          (first ++ (second ++ (third ++ last))))
        fun last _ => runner.Stopped query header.number
          (first ++ (second ++ (third ++ last))) := by
    refine FailingRoutine.follows_note.bind fun noted _ hnoted => ?_
    subst hnoted
    refine FailingRoutine.follows_ofExcept (fun output _ => ?_) fun e _ => ?_
    · exact .mk rfl hfirst hsecond (by rw [List.append_nil, List.append_nil, hthird])
    · refine .detailing rfl hfirst hsecond ?_
      rw [List.append_nil, List.append_nil]
      exact hthird ▸ List.prefix_rfl
  by_cases hwants : query.wantsDetails addresses = true
  · rw [if_pos hwants]
    refine ((runner.details_asks query header.number addresses hwants).mono
      (fun _ _ h => h) ?_).bind fun third validators hthird => finishing third hthird _ _
    intro steps stop hsteps
    exact .detailing rfl hfirst hsecond hsteps
  · rw [if_neg hwants]
    refine finishing [] ?_ _ _
    rw [detailing, if_neg fun h => hwants h.1]
    rfl

theorem gather_asks (header : BlockHeader) (transactor : Option Transactor) :
    (runner.gather query header transactor).Follows (fun _ => True)
      (fun steps _ => runner.Completed query header.number steps)
      fun steps _ => runner.Stopped query header.number steps := by
  rw [gather_eq]
  refine ((readBatch_follows _ _ _).mono (fun _ _ h => h) ?_).bind fun first opened hfirst => ?_
  · rintro steps stop ⟨answer, rfl, -, -⟩
    exact .opening rfl
  obtain ⟨values, rfl, -, -, hvalues⟩ := hfirst
  obtain ⟨ownValues, rfl, -⟩ := runner.eq_of_takeFirst query hvalues
  exact runner.gatherFrom_asks query header transactor opened.1 opened.2 ⟨ownValues, rfl⟩

end QueryRunner

/-! ## Whole queries -/

/-- Whether a list is cut into parts of at most a size, none of them empty, and into no more of them
than it takes. -/
structure CutInto {α : Type} (size : Nat) (parts : List (List α)) (whole : List α) : Prop where
  count : parts.length = (whole.length + (size - 1)) / size
  bounded : ∀ part ∈ parts, part ≠ [] ∧ part.length ≤ size
  joined : parts.flatten = whole

theorem pages_cutInto {α : Type} (size : Nat) (xs : List α) :
    CutInto (max size 1) (pages size xs) xs where
  count := length_pages size xs
  bounded _ h := ⟨ne_nil_of_mem_pages h, length_le_of_mem_pages h⟩
  joined := flatten_pages size xs

/-- Whether the calls of a query are for a sequence of batches at a block, as far as they go: the
opening one, then the batches that list addresses, then those of details. What they are put together
from was answered before. -/
structure QueryRunner.AsksInOrder {σ ω : Type} (runner : QueryRunner) (query : NodeQuery σ ω)
    (block : UInt64) (steps : List Step) (finished : Prop) (count : UInt64)
    (addresses : List Address) (listing details : List (List ContractRead)) : Prop where
  asked : requests steps <+: multicalls block (runner.firstReads query :: (listing ++ details))
  whole : finished →
    requests steps = multicalls block (runner.firstReads query :: (listing ++ details))
  counted : finished ∨ 1 < (requests steps).length → ∃ values rest, steps =
    batchStep (runner.firstReads query) block (.ok (.uint (.ofUInt64 count) :: values)) :: rest
  listed : finished ∨ 1 + listing.length < (requests steps).length →
    addresses.length = count.toNat ∧ ∃ opening listed rest, steps = opening :: (listed ++ rest) ∧
      Lists block listing addresses listed

namespace QueryRunner
variable {σ ω : Type} {runner : QueryRunner} {query : NodeQuery σ ω} {block : UInt64}
  {steps : List Step}

theorem length_multicalls (block : UInt64) (batches : List (List ContractRead)) :
    (multicalls block batches).length = batches.length := List.length_map _

theorem multicalls_append (block : UInt64) (first second : List (List ContractRead)) :
    multicalls block (first ++ second) = multicalls block first ++ multicalls block second :=
  List.map_append

theorem listing_cutInto (runner : QueryRunner) (count : UInt64) :
    CutInto (max runner.pages.addresses.toNat 1) (runner.listing count)
      ((List.range count.toNat).map fun i => .minipoolAt runner.node (UInt64.ofNat i)) := by
  have hwhole : addressReads runner.node (0 : UInt64).toNat count.toNat =
      (List.range count.toNat).map fun i => .minipoolAt runner.node (UInt64.ofNat i) := by
    rw [addressReads, List.range_eq_range']
    rfl
  rw [listing, addressBatches_eq, hwhole]
  exact pages_cutInto _ _

theorem Opens.requests {count : UInt64} (h : runner.Opens query block count steps) :
    requests steps = multicalls block [runner.firstReads query] := by
  obtain ⟨values, rfl⟩ := h
  rfl

theorem asks_of_listed {finished : Prop} {count : UInt64} {addresses : List Address}
    {first second third : List Step} (hfirst : runner.Opens query block count first)
    (hsecond : Lists block (runner.listing count) addresses second)
    (hthird : requests third <+: multicalls block (runner.detailing query addresses))
    (hwhole : finished →
      requests third = multicalls block (runner.detailing query addresses)) :
    runner.AsksInOrder query block (first ++ (second ++ third)) finished count addresses
      (runner.listing count) (runner.detailing query addresses) := by
  have hlength : addresses.length = count.toNat := by
    rw [hsecond.length, (listing_cutInto runner count).joined, List.length_map,
      List.length_range]
  have hall : requests (first ++ (second ++ third)) =
      multicalls block (runner.firstReads query :: runner.listing count) ++ requests third := by
    rw [requests_append, requests_append, hfirst.requests, hsecond.requests, ← List.append_assoc,
      ← multicalls_append]
    rfl
  have hbatches : runner.firstReads query ::
      (runner.listing count ++ runner.detailing query addresses) =
        (runner.firstReads query :: runner.listing count) ++ runner.detailing query addresses := rfl
  refine ⟨?_, fun hf => ?_, fun _ => ?_, fun _ => ?_⟩
  · rw [hall, hbatches, multicalls_append]
    exact (List.prefix_append_right_inj _).2 hthird
  · rw [hall, hbatches, multicalls_append, hwhole hf]
  · obtain ⟨values, rfl⟩ := hfirst
    exact ⟨values, second ++ third, rfl⟩
  · obtain ⟨values, rfl⟩ := hfirst
    exact ⟨hlength, _, second, third, rfl, hsecond⟩

theorem Completed.asks {finished : Prop} (h : runner.Completed query block steps) :
    ∃ count addresses, runner.AsksInOrder query block steps finished count addresses
      (runner.listing count) (runner.detailing query addresses) := by
  obtain ⟨rfl, hfirst, hsecond, hthird⟩ := h
  exact ⟨_, _, asks_of_listed hfirst hsecond (hthird ▸ List.prefix_rfl) fun _ => hthird⟩

theorem Stopped.asks {finished : Prop} (unfinished : ¬ finished)
    (h : runner.Stopped query block steps) :
    ∃ count addresses, runner.AsksInOrder query block steps finished count addresses
      (runner.listing count) (runner.detailing query addresses) := by
  cases h with
  | opening hasked =>
    refine ⟨0, [], ?_, fun hf => absurd hf unfinished, fun h => ?_, fun h => ?_⟩
    · rw [hasked]
      exact (List.prefix_append_right_inj [_]).2 List.nil_prefix
    · have hlong := h.resolve_left unfinished
      rw [hasked] at hlong
      exact absurd hlong (Nat.lt_irrefl 1)
    · have hlong := h.resolve_left unfinished
      rw [hasked, length_multicalls, List.length_singleton] at hlong
      omega
  | listing hsteps hfirst hsecond =>
    rename_i count first second
    have hall : requests steps = multicalls block [runner.firstReads query] ++ requests second := by
      rw [hsteps, requests_append, hfirst.requests]
    refine ⟨count, [], ?_, fun hf => absurd hf unfinished, fun _ => ?_, fun h => ?_⟩
    · rw [hall]
      refine (List.prefix_append_right_inj [_]).2 (hsecond.trans ?_)
      rw [List.map_append]
      exact List.prefix_append _ _
    · obtain ⟨values, rfl⟩ := hfirst
      exact ⟨values, second, hsteps⟩
    · have hlong := h.resolve_left unfinished
      have hle := hsecond.length_le
      rw [hall, List.length_append, length_multicalls, List.length_singleton] at hlong
      rw [length_multicalls] at hle
      omega
  | detailing hsteps hfirst hsecond hthird =>
    subst hsteps
    exact ⟨_, _, asks_of_listed hfirst hsecond hthird fun hf => absurd hf unfinished⟩

/-- The first routine's part of a history is known: it does not fail or crash later on. -/
theorem prepared_inv {prepare : QueryRoutine Readiness} {f : Readiness → QueryRoutine ω}
    {preparing rest : List Step} {readiness : Readiness} {ending : Ending (Except QueryError ω)}
    (ready : prepare.Runs preparing (.done (.ok readiness)))
    (ran : FailingRoutine.Runs (prepare >>= f) (preparing ++ rest) ending) :
    FailingRoutine.Runs (f readiness) rest ending := by
  have alike : Alike preparing (preparing ++ rest) := by
    rintro past q answer answer' after after' rfl h
    rw [List.append_assoc] at h
    have hstep := (List.cons.inj (List.append_cancel_left h)).1
    injection hstep
  rcases FailingRoutine.runs_bind_iff.1 ran with ⟨c, _, h⟩ | ⟨e, _, h⟩ |
    ⟨other, first, second, hsplit, h, hrest⟩
  · cases (Routine.Runs.determined ready h alike).2
  · cases (Routine.Runs.determined ready h alike).2
  · obtain ⟨_, hother, rfl⟩ := Routine.Runs.done_unique ready h hsplit
    cases hother
    exact hrest

theorem flatten_detailReads (fields : List MinipoolField) (parts : List (List Address)) :
    (parts.map (detailReads fields)).flatten = detailReads fields parts.flatten := by
  induction parts with
  | nil => rfl
  | cons part parts ih =>
    rw [List.map_cons, List.flatten_cons, ih, List.flatten_cons]
    exact List.flatMap_append.symm

theorem ready_asks (header : BlockHeader) (transactor : Option Transactor) :
    FailingRoutine.Follows (do
        let output ← runner.gather query header transactor
        pure (QueryOutcome.ready output) : QueryRoutine (QueryOutcome ω)) (fun _ => True)
      (fun steps _ => runner.Completed query header.number steps)
      fun steps _ => runner.Stopped query header.number steps := by
  refine (runner.gather_asks query header transactor).bind fun steps output hsteps => ?_
  refine FailingRoutine.follows_pure ?_
  rw [List.append_nil]
  exact hsteps

theorem gathering_inv {header : BlockHeader} {transactor : Option Transactor}
    {preparing rest : List Step} {ending : Ending (Except QueryError (QueryOutcome ω))}
    (ready : query.prepare.Runs preparing (.done (.ok (.ready transactor))))
    (ran : (runner.run query).Runs (.asked (.header none) (.ok header) :: (preparing ++ rest))
      ending) :
    FailingRoutine.Runs (do
      let output ← runner.gather query header transactor
      pure (QueryOutcome.ready output) : QueryRoutine (QueryOutcome ω)) rest ending := by
  rcases FailingRoutine.runs_call_bind_iff.1 ran with ⟨e, h, _⟩ | ⟨header', rest', h, hrest⟩
  · cases h
  · obtain ⟨hstep, rfl⟩ := List.cons.inj h
    injection hstep with _ hheader
    cases hheader
    exact prepared_inv ready hrest

/-- A query that becomes ready asks for one opening batch, then for the addresses of all minipools,
then for their fields if it wants them, all at the block of the header; the batches are pages, and
nothing is left out, repeated or asked out of order. The cursor of the addresses moves up to the
count and never past it. -/
theorem run_asks (runner : QueryRunner) (query : NodeQuery σ ω) {header : BlockHeader}
    {transactor : Option Transactor} {preparing rest : List Step}
    {ending : Ending (Except QueryError (QueryOutcome ω))}
    (ready : query.prepare.Runs preparing (.done (.ok (.ready transactor))))
    (ran : (runner.run query).Runs (.asked (.header none) (.ok header) :: (preparing ++ rest))
      ending) :
    ∃ (count : UInt64) (addresses : List Address) (listing details : List (List ContractRead)),
      runner.AsksInOrder query header.number (calls rest) (∃ output, ending = .done (.ok output))
        count addresses listing details ∧
      CutInto (max runner.pages.addresses.toNat 1) listing
        ((List.range count.toNat).map fun i => .minipoolAt runner.node (UInt64.ofNat i)) ∧
      (query.wantsDetails addresses = true ∧ addresses ≠ [] ∧ query.fields ≠ [] →
        ∃ parts, CutInto (max runner.pages.details.toNat 1) parts addresses ∧
          details = parts.map (detailReads query.fields) ∧
          details.flatten =
            addresses.flatMap fun a => query.fields.map fun f => .minipool a f) ∧
      (¬ (query.wantsDetails addresses = true ∧ addresses ≠ [] ∧ query.fields ≠ []) →
        details = []) ∧
      listing = addressBatches runner.node runner.pages.addresses count 0 ∧
      ∀ start, start < count → start < nextStart runner.pages.addresses count start ∧
        (nextStart runner.pages.addresses count start).toNat =
          min (start.toNat + max runner.pages.addresses.toNat 1) count.toNat := by
  have hran := gathering_inv ready ran
  obtain ⟨count, addresses, hasks⟩ : ∃ count addresses, runner.AsksInOrder query header.number
      (calls rest) (∃ output, ending = .done (.ok output)) count addresses (runner.listing count)
        (runner.detailing query addresses) := by
    rcases ready_asks header transactor rest ending hran fun _ _ => trivial with
      ⟨output, rfl, h⟩ | ⟨stop, rfl, h⟩
    · exact h.asks
    · refine h.asks ?_
      rintro ⟨output, houtput⟩
      cases stop <;> cases houtput
  refine ⟨count, addresses, _, _, hasks, listing_cutInto runner count, ?_, ?_, rfl,
    fun start hlt => ?_⟩
  · rintro ⟨hwants, _, hfields⟩
    rw [detailing, if_pos ⟨hwants, hfields⟩]
    refine ⟨_, pages_cutInto _ addresses, rfl, ?_⟩
    rw [flatten_detailReads, flatten_pages]
    rfl
  · intro hnone
    unfold detailing
    split
    · rename_i h
      have hempty : addresses = [] := Decidable.byContradiction fun hne => hnone ⟨h.1, hne, h.2⟩
      rw [hempty]
      rfl
    · rfl
  · rw [UInt64.lt_iff_toNat_lt] at hlt ⊢
    have hnext := nextStart_toNat runner.pages.addresses count start
    exact ⟨by omega, hnext⟩

/-- A runner with pages of no address and of as many minipools as there can be. -/
def loneRunner : QueryRunner := ⟨Bytes.zero 20, ⟨0, 0xffffffffffffffff⟩⟩

/-- The steps of a stake query that finds one minipool. -/
def loneQuery : List Step :=
  singleQuery loneRunner ⟨7, Bytes.zero 32, 0⟩ ⟨Bytes.zero 20, 1⟩ 1 1 (.ofUInt64 1)
    (.empty (Bytes.zero 20) (Bytes.zero 20)) 0

theorem run_asks_lone :
    (∃ transactor, stakeQuery.prepare.Runs ((loneQuery.drop 1).take 3)
      (.done (.ok (.ready transactor)))) ∧
    (∃ view, (loneRunner.run stakeQuery).Runs loneQuery (.done (.ok (.ready view)))) ∧
      ∃ (count : UInt64) (addresses : List Address) (listing details : List (List ContractRead)),
        requests (calls (loneQuery.drop 4)) =
          multicalls 7 (loneRunner.firstReads stakeQuery :: (listing ++ details)) ∧
        addresses.length = count.toNat ∧
        CutInto 1 listing
          ((List.range count.toNat).map fun i => .minipoolAt (Bytes.zero 20) (UInt64.ofNat i)) := by
  have ready : stakeQuery.prepare.Runs ((loneQuery.drop 1).take 3)
      (.done (.ok (.ready (some ⟨Bytes.zero 20, 1⟩)))) :=
    ⟨.ok (), _, rfl, .ok (), _, rfl, .ok ⟨Bytes.zero 20, 1⟩, _, rfl, rfl, rfl⟩
  have htime : Instant.ofSecs? 0 =
      some (MinipoolRecord.empty (Bytes.zero 20) (Bytes.zero 20)).statusTime :=
    Instant.ofNanos?_eq_some_iff.2 (by decide)
  have ran : (loneRunner.run stakeQuery).Runs loneQuery _ :=
    stakeQuery_single ⟨7, Bytes.zero 32, 0⟩ ⟨Bytes.zero 20, 1⟩ 1 1 (.ofUInt64 1) rfl htime rfl
  obtain ⟨count, addresses, listing, details, hasks, hlisting, -⟩ :=
    run_asks loneRunner stakeQuery ready ran
  exact ⟨⟨_, ready⟩, ⟨_, ran⟩, count, addresses, listing, details, hasks.whole ⟨_, rfl⟩,
    (hasks.listed (.inl ⟨_, rfl⟩)).1, hlisting⟩

end QueryRunner

end StakeKeeper
