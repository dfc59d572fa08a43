import Mathlib.Data.List.Induction
import StakeKeeper.KeyStore

/-!
What a key store holds after any history of operations. Main statements: `KeyStore.get?_after_iff`
(the bytes under a public key are those of the key that was last inserted under it) and
`KeyStore.returns_last_inserted` (a load returns that key, and never fails).
-/
namespace StakeKeeper
set_option autoImplicit false

theorem keyOfBytes_toBytes (key : ValidatorKey) : keyOfBytes key.toBytes.toList = .ok key := by
  rw [keyOfBytes, Bls.SecretKey.ofBytes?_toBytes]

/-! ## Histories -/

inductive KeyOperation where
  | insert (key : ValidatorKey)
  | remove (pubkey : PubKey)
  | load (pubkey : PubKey)

/-- Whether an operation changes what is stored under a public key. -/
def KeyOperation.Changes (k : PubKey) : KeyOperation → Prop
  | insert key => key.pubkey = k
  | remove pubkey => pubkey = k
  | load _ => False

/-- Whether the last change under a public key in a history was the insertion of a key. -/
def LastInserted (ops : List KeyOperation) (k : PubKey) (key : ValidatorKey) : Prop :=
  ∃ before rest, ops = before ++ .insert key :: rest ∧ key.pubkey = k ∧
    ∀ op ∈ rest, ¬ op.Changes k

theorem not_lastInserted_nil {k : PubKey} {key : ValidatorKey} : ¬ LastInserted [] k key := by
  rintro ⟨before, rest, h, _⟩
  cases (List.append_eq_nil_iff.1 h.symm).2

theorem lastInserted_append_iff {ops : List KeyOperation} {op : KeyOperation} {k : PubKey}
    {key : ValidatorKey} : LastInserted (ops ++ [op]) k key ↔
      op = .insert key ∧ key.pubkey = k ∨ ¬ op.Changes k ∧ LastInserted ops k key := by
  constructor
  · rintro ⟨before, rest, h, hk, hrest⟩
    rcases rest.eq_nil_or_concat with rfl | ⟨init, last, rfl⟩
    · obtain ⟨_, hlast⟩ := List.append_inj' h rfl
      exact .inl ⟨(List.cons.inj hlast).1, hk⟩
    · rw [List.concat_eq_append, ← List.cons_append, ← List.append_assoc] at h
      rw [List.concat_eq_append] at hrest
      obtain ⟨rfl, hlast⟩ := List.append_inj' h rfl
      obtain rfl := (List.cons.inj hlast).1
      have hinit : ∀ op ∈ init, ¬ op.Changes k := fun op hop =>
        hrest op (List.mem_append_left _ hop)
      have hop : ¬ op.Changes k := hrest op (List.mem_append_right _ List.mem_cons_self)
      exact .inr ⟨hop, before, init, rfl, hk, hinit⟩
  · rintro (⟨rfl, hk⟩ | ⟨hop, before, rest, rfl, hk, hrest⟩)
    · exact ⟨ops, [], rfl, hk, nofun⟩
    · refine ⟨before, rest ++ [op], by rw [List.append_assoc]; rfl, hk, fun other hother => ?_⟩
      rcases List.mem_append.1 hother with hother | hother
      · exact hrest other hother
      · rwa [List.mem_singleton.1 hother]

/-! ## The store -/

namespace KeyStore

def perform (s : KeyStore) : KeyOperation → KeyStore
  | .insert key => (s.insert key).1
  | .remove pubkey => (s.remove pubkey).1
  | .load _ => s

/-- The store after operations, in order, on one that was empty. -/
def after (ops : List KeyOperation) : KeyStore :=
  ops.foldl perform .empty

theorem after_append (ops : List KeyOperation) (op : KeyOperation) :
    after (ops ++ [op]) = (after ops).perform op := by
  rw [after, List.foldl_append]
  rfl

theorem get?_perform_iff {s : KeyStore} {op : KeyOperation} {k : PubKey} {bytes : Bytes 32} :
    (s.perform op).keys.get? k = some bytes ↔
      (∃ key, op = .insert key ∧ key.pubkey = k ∧ key.toBytes = bytes) ∨
        ¬ op.Changes k ∧ s.keys.get? k = some bytes := by
  cases op with
  | insert key =>
    show (s.keys.insert key.pubkey key.toBytes).get? k = _ ↔ _
    rw [Registry.get?_insert]
    by_cases hk : key.pubkey = k
    · simp [hk, KeyOperation.Changes]
    · simp [hk, Ne.symm hk, KeyOperation.Changes]
  | remove pubkey =>
    show (s.keys.erase pubkey).get? k = _ ↔ _
    rw [Registry.get?_erase]
    by_cases hk : pubkey = k
    · simp [hk, KeyOperation.Changes]
    · simp [hk, Ne.symm hk, KeyOperation.Changes]
  | load pubkey =>
    show s.keys.get? k = _ ↔ _
    simp [KeyOperation.Changes]

theorem get?_after_iff {ops : List KeyOperation} {k : PubKey} {bytes : Bytes 32} :
    (after ops).keys.get? k = some bytes ↔ ∃ key, LastInserted ops k key ∧ key.toBytes = bytes := by
  induction ops using List.reverseRecOn with
  | nil => exact ⟨nofun, fun ⟨_, h, _⟩ => (not_lastInserted_nil h).elim⟩
  | append_singleton ops op ih =>
    rw [after_append, get?_perform_iff, ih]
    simp only [lastInserted_append_iff]
    constructor
    · rintro (⟨key, hop, hk, hbytes⟩ | ⟨hop, key, hlast, hbytes⟩)
      · exact ⟨key, .inl ⟨hop, hk⟩, hbytes⟩
      · exact ⟨key, .inr ⟨hop, hlast⟩, hbytes⟩
    · rintro ⟨key, ⟨hop, hk⟩ | ⟨hop, hlast⟩, hbytes⟩
      · exact .inl ⟨key, hop, hk, hbytes⟩
      · exact .inr ⟨hop, key, hlast, hbytes⟩

/-! ## What is returned -/

theorem load_of_get?_none {s : KeyStore} {k : PubKey} (h : s.keys.get? k = none) :
    s.load k = .ok none := by
  rw [load, h]

theorem load_of_get?_toBytes {s : KeyStore} {k : PubKey} {key : ValidatorKey}
    (h : s.keys.get? k = some key.toBytes) : s.load k = .ok (some key) := by
  rw [load, h]
  show ((keyOfBytes key.toBytes.toList).mapError _).map _ = _
  rw [keyOfBytes_toBytes]
  rfl

theorem get?_after_isSome_iff {ops : List KeyOperation} {k : PubKey} :
    ((after ops).keys.get? k).isSome ↔ ∃ key, LastInserted ops k key := by
  rw [Option.isSome_iff_exists]
  constructor
  · rintro ⟨bytes, h⟩
    obtain ⟨key, hkey, _⟩ := get?_after_iff.1 h
    exact ⟨key, hkey⟩
  · rintro ⟨key, hkey⟩
    exact ⟨key.toBytes, get?_after_iff.2 ⟨key, hkey, rfl⟩⟩

/-- Whether a store answers as one should that went through a history: a load never fails, it finds
a key if and only if the last change under the public key was an insertion, and that key is the one
that was inserted. -/
structure Answers (s : KeyStore) (ops : List KeyOperation) : Prop where
  load_ok : ∀ k, ∃ found, s.load k = .ok found
  found_iff : ∀ k, (∃ key, s.load k = .ok (some key)) ↔ ∃ inserted, LastInserted ops k inserted
  found_last : ∀ k key inserted, s.load k = .ok (some key) → LastInserted ops k inserted →
    key.toBytes = inserted.toBytes ∧ key.pubkey = k
  insert_pubkey : ∀ key, (s.insert key).2 = key.pubkey
  remove_iff : ∀ k, (s.remove k).2 = true ↔ ∃ inserted, LastInserted ops k inserted
  size_present : ∃ present : List PubKey, present.Nodup ∧
    (∀ k, k ∈ present ↔ ∃ inserted, LastInserted ops k inserted) ∧ s.size = present.length

theorem load_after {ops : List KeyOperation} {k : PubKey} {key : ValidatorKey}
    (h : LastInserted ops k key) : (after ops).load k = .ok (some key) :=
  load_of_get?_toBytes (get?_after_iff.2 ⟨key, h, rfl⟩)

theorem load_after_cases (ops : List KeyOperation) (k : PubKey) :
    (∃ key, LastInserted ops k key) ∨ (after ops).load k = .ok none := by
  cases h : (after ops).keys.get? k with
  | none => exact .inr (load_of_get?_none h)
  | some bytes => exact .inl (get?_after_isSome_iff.1 (by rw [h]; rfl))

/-- After every history a store returns the keys that were inserted last. -/
theorem returns_last_inserted (ops : List KeyOperation) : (after ops).Answers ops where
  load_ok k := by
    rcases load_after_cases ops k with ⟨key, hkey⟩ | hnone
    · exact ⟨some key, load_after hkey⟩
    · exact ⟨none, hnone⟩
  found_iff k := by
    refine ⟨fun ⟨key, hload⟩ => ?_, fun ⟨key, hkey⟩ => ⟨key, load_after hkey⟩⟩
    rcases load_after_cases ops k with hkey | hnone
    · exact hkey
    · rw [hnone] at hload
      cases hload
  found_last k key inserted hload hlast := by
    rw [load_after hlast] at hload
    cases hload
    obtain ⟨_, _, _, hk, _⟩ := hlast
    exact ⟨rfl, hk⟩
  insert_pubkey _ := rfl
  remove_iff k := get?_after_isSome_iff
  size_present := by
    refine ⟨(after ops).keys.keys, (after ops).keys.distinct, fun k => ?_, ?_⟩
    · rw [Registry.mem_keys_iff, get?_after_isSome_iff]
    · exact (Registry.length_keys _).symm

end KeyStore

end StakeKeeper
