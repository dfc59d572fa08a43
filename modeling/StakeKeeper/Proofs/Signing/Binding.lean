import Mathlib.Algebra.Group.Nat.Defs
import Mathlib.Data.List.Nodup
import StakeKeeper.Signing

/-!
What a signed root binds. Equal roots of two computations of one shape come from equal chunks,
unless two different blocks that they hash have the same digest. Main statements: `Tree.eq_of_root_eq` (a
root binds its tree), `ofBytes_injective` and `ofNumber_injective` (a tree binds the bytes or the
number it is built from) and `roots_bind` (signing roots bind message and domain, deposit roots bind
deposits, and no deposit is signed under the root of an exit).
-/
namespace StakeKeeper
set_option autoImplicit false

/-! ## Little-endian numbers -/

namespace Bytes

theorem toList_ofNatLittleEndian_succ (n v : Nat) :
    (ofNatLittleEndian (n + 1) v).toList =
      UInt8.ofNat v :: (ofNatLittleEndian n (v / 256)).toList := by
  unfold ofNatLittleEndian
  rw [Vector.toList_ofFn, Vector.toList_ofFn, List.ofFn_succ]
  congr 2
  funext i
  rw [Fin.val_succ, Nat.mul_add, Nat.mul_one, Nat.add_comm, Nat.shiftRight_add,
    Nat.shiftRight_eq_div_pow v 8]

/-- Bytes that are equal stand for numbers that are equal, as far as the bytes reach. -/
theorem mod_eq_of_ofNatLittleEndian {n v w : Nat}
    (same : (ofNatLittleEndian n v).toList = (ofNatLittleEndian n w).toList) :
    v % 256 ^ n = w % 256 ^ n := by
  induction n generalizing v w with
  | zero => rw [Nat.pow_zero, Nat.mod_one, Nat.mod_one]
  | succ n ih =>
    rw [toList_ofNatLittleEndian_succ, toList_ofNatLittleEndian_succ, List.cons.injEq] at same
    obtain ⟨hfirst, hrest⟩ := same
    have hlow : v % 256 = w % 256 := by simpa using congrArg UInt8.toNat hfirst
    rw [Nat.pow_succ', Nat.mod_mul, Nat.mod_mul, hlow, ih hrest]

end Bytes

namespace Merkle.Tree

/-! ## Roots bind trees -/

/-- Whether no two different blocks that are hashed in two computations have the same digest. -/
def CollisionFree (s t : Tree) : Prop :=
  ∀ b ∈ s.blocks ++ t.blocks, ∀ c ∈ s.blocks ++ t.blocks,
    Sha256.hash (b.1.toList ++ b.2.toList) = Sha256.hash (c.1.toList ++ c.2.toList) → b = c

/-- The tree with zeros in place of its chunks: how it branches. -/
def shape : Tree → Tree
  | leaf _ => leaf (Bytes.zero 32)
  | node l r => node l.shape r.shape

@[simp] theorem shape_leaf (c : Root) : (leaf c).shape = leaf (Bytes.zero 32) := rfl

@[simp] theorem shape_ofNumber (v : UInt64) : (ofNumber v).shape = leaf (Bytes.zero 32) := rfl

section
variable {l r l' r' : Tree}

theorem CollisionFree.roots_eq (free : CollisionFree (node l r) (node l' r'))
    (same : (node l r).root = (node l' r').root) : l.root = l'.root ∧ r.root = r'.root := by
  have hpair := free (l.root, r.root) (by simp [blocks]) (l'.root, r'.root) (by simp [blocks]) same
  exact Prod.mk.inj hpair

theorem CollisionFree.mono {s t : Tree} (free : CollisionFree s t) {s' t' : Tree}
    (hs : s'.blocks ⊆ s.blocks) (ht : t'.blocks ⊆ t.blocks) : CollisionFree s' t' := by
  have hsub : s'.blocks ++ t'.blocks ⊆ s.blocks ++ t.blocks :=
    List.append_subset.2 ⟨List.subset_append_of_subset_left _ hs,
      List.subset_append_of_subset_right _ ht⟩
  exact fun b hb c hc => free b (hsub hb) c (hsub hc)

theorem CollisionFree.left (free : CollisionFree (node l r) (node l' r')) : CollisionFree l l' :=
  free.mono (fun _ hb => List.mem_cons_of_mem _ (List.mem_append_left _ hb))
    fun _ hb => List.mem_cons_of_mem _ (List.mem_append_left _ hb)

theorem CollisionFree.right (free : CollisionFree (node l r) (node l' r')) : CollisionFree r r' :=
  free.mono (fun _ hb => List.mem_cons_of_mem _ (List.mem_append_right _ hb))
    fun _ hb => List.mem_cons_of_mem _ (List.mem_append_right _ hb)

end

/-- A root binds its tree among those that branch alike. -/
theorem eq_of_root_eq {s t : Tree} (alike : s.shape = t.shape) (free : CollisionFree s t)
    (same : s.root = t.root) : s = t := by
  induction s generalizing t with
  | leaf chunk =>
    cases t with
    | leaf other => exact congrArg leaf same
    | node l r => cases alike
  | node l r ihl ihr =>
    cases t with
    | leaf other => cases alike
    | node l' r' =>
      obtain ⟨halike, halike'⟩ := node.inj alike
      obtain ⟨hl, hr⟩ := free.roots_eq same
      rw [ihl halike free.left hl, ihr halike' free.right hr]

def digestHead (b : Root × Root) : UInt8 := (Sha256.hash (b.1.toList ++ b.2.toList))[0]

/-- Digests that differ in their first bytes already are free of collisions. -/
theorem CollisionFree.of_digestHead {s t : Tree} {hashed : List (Root × Root)} {heads : List UInt8}
    (hheads : hashed.map digestHead = heads) (distinct : heads.Nodup) (hs : s.blocks ⊆ hashed)
    (ht : t.blocks ⊆ hashed) : CollisionFree s t := by
  intro b hb c hc same
  have hsub : s.blocks ++ t.blocks ⊆ hashed := List.append_subset.2 ⟨hs, ht⟩
  have hhead : digestHead b = digestHead c := by unfold digestHead; rw [same]
  rw [← hheads] at distinct
  exact List.inj_on_of_nodup_map distinct (hsub hb) (hsub hc) hhead

/-! ## Trees bind what they are built from -/

theorem shape_ofParts (depth : Nat) (parts : List Tree) :
    (ofParts depth parts).shape = ofParts depth (parts.map shape) := by
  induction depth generalizing parts with
  | zero => cases parts <;> rfl
  | succ depth ih => simp only [ofParts, shape, ih, List.map_take, List.map_drop]

theorem shape_ofBytes {depth : Nat} {l m : List UInt8} (hlength : l.length = m.length) :
    (ofBytes depth l).shape = (ofBytes depth m).shape := by
  have hblank (k : List UInt8) : ((pages 32 k).map fun page => leaf (chunk page)).map shape =
      List.replicate (pages 32 k).length (leaf (Bytes.zero 32)) := by
    rw [List.map_map]
    exact List.map_const' ..
  rw [ofBytes, ofBytes, shape_ofParts, shape_ofParts, hblank, hblank, length_pages, length_pages,
    hlength]

theorem ofParts_injective (depth : Nat) {parts others : List Tree}
    (same : ofParts depth parts = ofParts depth others) (hlength : parts.length = others.length)
    (hfits : parts.length ≤ 2 ^ depth) : parts = others := by
  induction depth generalizing parts others with
  | zero =>
    rcases parts with _ | ⟨a, _ | ⟨_, _⟩⟩ <;> rcases others with _ | ⟨b, _ | ⟨_, _⟩⟩ <;>
      simp at hlength hfits
    · rfl
    · exact congrArg (fun part => [part]) same
  | succ depth ih =>
    simp only [ofParts, Nat.one_shiftLeft, node.injEq] at same
    rw [Nat.pow_succ] at hfits
    have htake : parts.take (2 ^ depth) = others.take (2 ^ depth) :=
      ih same.1 (by simp [hlength]) (by rw [List.length_take]; omega)
    have hdrop : parts.drop (2 ^ depth) = others.drop (2 ^ depth) :=
      ih same.2 (by simp [hlength]) (by rw [List.length_drop]; omega)
    rw [← List.take_append_drop (2 ^ depth) parts, htake, hdrop, List.take_append_drop]

theorem chunk_injective {l m : List UInt8} (hlength : l.length = m.length) (hfits : l.length ≤ 32)
    (same : chunk l = chunk m) : l = m := by
  refine List.ext_getElem hlength fun i hl hm => ?_
  have hi : i < 32 := by omega
  have hbyte : (chunk l)[i] = (chunk m)[i] := by rw [same]
  simpa [chunk, hl, hm] using hbyte

/-- Zeros behind the last byte are the same for strings of one length. -/
theorem chunks_injective {l m : List UInt8} (hlength : l.length = m.length)
    (same : (pages 32 l).map (fun page => leaf (chunk page)) =
      (pages 32 m).map fun page => leaf (chunk page)) : l = m := by
  generalize hn : l.length = n
  induction n using Nat.strongRecOn generalizing l m with
  | ind n ih =>
    cases l with
    | nil => exact (List.length_eq_zero_iff.1 hlength.symm).symm
    | cons a l =>
      cases m with
      | nil => cases hlength
      | cons b m =>
        rw [pages_eq, pages_eq, List.map_cons, List.map_cons, List.cons.injEq, leaf.injEq] at same
        obtain ⟨hfirst, hrest⟩ := same
        have htake := chunk_injective (by rw [List.length_take, List.length_take, hlength])
          (by rw [List.length_take]; omega) hfirst
        have hshorter : ((a :: l).drop (max 32 1)).length < n := by
          rw [List.length_drop, hn]
          have : 0 < n := by rw [← hn]; simp
          omega
        have hdrop := ih _ hshorter (by rw [List.length_drop, List.length_drop, hlength]) hrest rfl
        rw [← List.take_append_drop (max 32 1) (a :: l), htake, hdrop, List.take_append_drop]

theorem ofBytes_injective {depth : Nat} {l m : List UInt8} (hlength : l.length = m.length)
    (hfits : (pages 32 l).length ≤ 2 ^ depth) (same : ofBytes depth l = ofBytes depth m) :
    l = m := by
  refine chunks_injective hlength (ofParts_injective depth same ?_ ?_)
  · rw [List.length_map, List.length_map, length_pages, length_pages, hlength]
  · rwa [List.length_map]

theorem ofNumber_injective {v w : UInt64} (same : ofNumber v = ofNumber w) : v = w := by
  have hbytes := chunk_injective (by simp) (by simp) (leaf.inj same)
  have hmod := Bytes.mod_eq_of_ofNatLittleEndian hbytes
  have hsize : 256 ^ 8 = 2 ^ 64 := by decide
  rw [hsize, Nat.mod_eq_of_lt v.toNat_lt, Nat.mod_eq_of_lt w.toNat_lt] at hmod
  exact UInt64.toNat_inj.1 hmod

end Merkle.Tree

open Merkle Tree

/-! ## Messages -/

theorem VoluntaryExit.tree_injective {e e' : VoluntaryExit} (same : e.tree = e'.tree) : e = e' := by
  unfold tree at same
  have hparts := ofParts_injective 1 same (by simp) (by simp)
  simp only [List.cons.injEq, and_true] at hparts
  cases e
  cases e'
  rw [VoluntaryExit.mk.injEq]
  exact ⟨ofNumber_injective hparts.1, ofNumber_injective hparts.2⟩

theorem VoluntaryExit.shape_tree (e e' : VoluntaryExit) : e.tree.shape = e'.tree.shape := by
  simp only [tree, shape_ofParts, List.map_cons, List.map_nil, shape_ofNumber]

theorem ofBytes_toList_injective {n depth : Nat} {b c : Bytes n}
    (hfits : (n + 31) / 32 ≤ 2 ^ depth) (same : ofBytes depth b.toList = ofBytes depth c.toList) :
    b = c := by
  refine Vector.toList_inj.1 (ofBytes_injective ?_ ?_ same)
  · rw [Vector.length_toList, Vector.length_toList]
  · rwa [length_pages, Vector.length_toList]

theorem shape_ofBytes_toList {n : Nat} (depth : Nat) (b c : Bytes n) :
    (ofBytes depth b.toList).shape = (ofBytes depth c.toList).shape :=
  shape_ofBytes (by rw [Vector.length_toList, Vector.length_toList])

theorem DepositMessage.tree_injective {m m' : DepositMessage} (same : m.tree = m'.tree) :
    m = m' := by
  unfold tree at same
  have hparts := ofParts_injective 2 same (by simp) (by simp)
  simp only [List.cons.injEq, leaf.injEq, and_true] at hparts
  obtain ⟨hpubkey, hcredentials, hamount⟩ := hparts
  cases m
  cases m'
  rw [DepositMessage.mk.injEq]
  exact ⟨ofBytes_toList_injective (by decide) hpubkey, hcredentials, ofNumber_injective hamount⟩

theorem DepositMessage.shape_tree (m m' : DepositMessage) : m.tree.shape = m'.tree.shape := by
  simp only [tree, shape_ofParts, List.map_cons, List.map_nil, shape_leaf, shape_ofNumber,
    shape_ofBytes_toList 1 m.pubkey m'.pubkey]

theorem DepositData.tree_injective {d d' : DepositData} (same : d.tree = d'.tree) : d = d' := by
  unfold tree at same
  have hparts := ofParts_injective 2 same (by simp) (by simp)
  simp only [List.cons.injEq, leaf.injEq, and_true] at hparts
  obtain ⟨hpubkey, hcredentials, hamount, hsignature⟩ := hparts
  cases d
  cases d'
  rw [DepositData.mk.injEq]
  exact ⟨ofBytes_toList_injective (by decide) hpubkey, hcredentials, ofNumber_injective hamount,
    ofBytes_toList_injective (by decide) hsignature⟩

theorem DepositData.shape_tree (d d' : DepositData) : d.tree.shape = d'.tree.shape := by
  simp only [tree, shape_ofParts, List.map_cons, List.map_nil, shape_leaf, shape_ofNumber,
    shape_ofBytes_toList 1 d.pubkey d'.pubkey, shape_ofBytes_toList 2 d.signature d'.signature]

/-! ## Signing roots -/

/-- A signing root binds the tree of the message and the domain. -/
theorem signingTree_bind {t t' : Tree} {domain domain' : Root} (alike : t.shape = t'.shape)
    (free : CollisionFree (signingTree t domain) (signingTree t' domain'))
    (same : (signingTree t domain).root = (signingTree t' domain').root) :
    t = t' ∧ domain = domain' := by
  have hshape : (signingTree t domain).shape = (signingTree t' domain').shape :=
    congrArg (node · (leaf (Bytes.zero 32))) alike
  obtain ⟨htree, hdomain⟩ := node.inj (eq_of_root_eq hshape free same)
  exact ⟨htree, leaf.inj hdomain⟩

theorem computeDomain_head (type : DomainType) (fork : ForkVersion) (validatorsRoot : Root) :
    (computeDomain type fork validatorsRoot)[0] = type.bytes.headD 0 := by
  cases type <;> simp [computeDomain, chunk, DomainType.bytes]

theorem computeDomain_ne (fork fork' : ForkVersion) (validatorsRoot validatorsRoot' : Root) :
    computeDomain .deposit fork validatorsRoot ≠
      computeDomain .voluntaryExit fork' validatorsRoot' := by
  intro same
  have hhead := computeDomain_head .deposit fork validatorsRoot
  rw [same, computeDomain_head] at hhead
  exact absurd hhead (by decide)

/-- Where no two different blocks that are hashed have the same digest, a signing root binds every
field of the message and the domain, a deposit root binds every field of the deposit, and the root
that is signed for a deposit is that of no exit. -/
theorem roots_bind :
    (∀ (m m' : DepositMessage) (domain domain' : Root),
      CollisionFree (signingTree m.tree domain) (signingTree m'.tree domain') →
        m.signingRoot domain = m'.signingRoot domain' → m = m' ∧ domain = domain') ∧
    (∀ (e e' : VoluntaryExit) (domain domain' : Root),
      CollisionFree (signingTree e.tree domain) (signingTree e'.tree domain') →
        e.signingRoot domain = e'.signingRoot domain' → e = e' ∧ domain = domain') ∧
    (∀ d d' : DepositData, CollisionFree d.tree d'.tree → d.tree.root = d'.tree.root → d = d') ∧
    ∀ (m : DepositMessage) (e : VoluntaryExit) (fork fork' : ForkVersion)
      (validatorsRoot validatorsRoot' : Root),
      CollisionFree (signingTree m.tree (computeDomain .deposit fork validatorsRoot))
          (signingTree e.tree (computeDomain .voluntaryExit fork' validatorsRoot')) →
        m.signingRoot (computeDomain .deposit fork validatorsRoot) ≠
          e.signingRoot (computeDomain .voluntaryExit fork' validatorsRoot') := by
  refine ⟨fun m m' domain domain' free same => ?_, fun e e' domain domain' free same => ?_,
    fun d d' free same => ?_, fun m e fork fork' validatorsRoot validatorsRoot' free same => ?_⟩
  · obtain ⟨htree, hdomain⟩ := signingTree_bind (DepositMessage.shape_tree m m') free same
    exact ⟨DepositMessage.tree_injective htree, hdomain⟩
  · obtain ⟨htree, hdomain⟩ := signingTree_bind (VoluntaryExit.shape_tree e e') free same
    exact ⟨VoluntaryExit.tree_injective htree, hdomain⟩
  · exact DepositData.tree_injective (eq_of_root_eq (DepositData.shape_tree d d') free same)
  · -- The two trees do not branch alike, but their topmost blocks already differ in the domain.
    exact computeDomain_ne fork fork' validatorsRoot validatorsRoot' (free.roots_eq same).2

def plainDeposit : DepositData :=
  ⟨Vector.replicate 48 0x11, Vector.replicate 32 0x22, 32000000000, Vector.replicate 96 0x33⟩

def plainExit : VoluntaryExit := ⟨12, 345⟩

theorem roots_bind_plain :
    let domain := computeDomain .deposit (Bytes.zero 4) (Bytes.zero 32)
    let exitDomain := computeDomain .voluntaryExit (Bytes.zero 4) (Bytes.zero 32)
    let message := plainDeposit.message
    let deposit := signingTree message.tree domain
    let exit := signingTree plainExit.tree exitDomain
    (CollisionFree deposit deposit ∧ message = message ∧ domain = domain) ∧
      (CollisionFree exit exit ∧ plainExit = plainExit ∧ exitDomain = exitDomain) ∧
      (CollisionFree plainDeposit.tree plainDeposit.tree ∧ plainDeposit = plainDeposit) ∧
      CollisionFree deposit exit ∧ message.signingRoot domain ≠ plainExit.signingRoot exitDomain := by
  intro domain exitDomain message deposit exit
  have hsigned : (deposit.blocks ++ exit.blocks).map digestHead = [61, 164, 247, 54, 25, 29, 7] := by
    decide +kernel
  have hdata : plainDeposit.tree.blocks.map digestHead = [203, 247, 54, 28, 42, 121, 245] := by
    decide +kernel
  have hdeposit : CollisionFree deposit deposit :=
    .of_digestHead hsigned (by decide) (List.subset_append_left ..) (List.subset_append_left ..)
  have hexit : CollisionFree exit exit :=
    .of_digestHead hsigned (by decide) (List.subset_append_right ..) (List.subset_append_right ..)
  have htree : CollisionFree plainDeposit.tree plainDeposit.tree :=
    .of_digestHead hdata (by decide) (List.Subset.refl _) (List.Subset.refl _)
  have hboth : CollisionFree deposit exit :=
    .of_digestHead hsigned (by decide) (List.subset_append_left ..) (List.subset_append_right ..)
  exact ⟨⟨hdeposit, roots_bind.1 _ _ _ _ hdeposit rfl⟩, ⟨hexit, roots_bind.2.1 _ _ _ _ hexit rfl⟩,
    ⟨htree, roots_bind.2.2.1 _ _ htree rfl⟩, hboth, roots_bind.2.2.2 _ _ _ _ _ _ hboth⟩

end StakeKeeper
