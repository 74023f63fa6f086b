import HootChain.Evo.MnList
import HootChain.Foundation.MerkleTree
import Mathlib.Data.List.Sort

/-!
# The Simplified Masternode List (`evo/simplifiedmns.h`)

What light clients see of the masternode list: an entry for each masternode, in the
order of the registrations' hashes. The coinbase of a block commits to the merkle root
of the entries' hashes.
-/

namespace HootChain.Evo

open Primitives Foundation List Function

/-! ## Entries -/

/-- The hash functions behind the root. -/
structure MerkleHashes where
  /-- `CHashWriter` over the fields of an entry, all of them of fixed width. -/
  hash : List Nat → Uint256
  /-- `SHA256D64` on a pair. -/
  node : Uint256 → Uint256 → Uint256
  /-- The bytes of a point or of an unset key, in the legacy scheme or not. -/
  keyBytes : Bool → Option Nat → Nat

/-- No two entries and no two pairs of nodes have one hash. -/
structure MerkleHashes.NoCollision (hashes : MerkleHashes) : Prop where
  hash : Function.Injective hashes.hash
  node : CollisionFree hashes.node

def MnType.toUnderlying : MnType → Nat
  | .regular => 0
  | .evo => 1
  | .invalid raw => raw

structure CSimplifiedMNListEntry where
  proRegTxHash : Uint256
  confirmedHash : Uint256
  service : CService
  pubKeyOperator : CBLSLazyPublicKey
  keyIDVoting : CKeyID
  isValid : Bool
  platformHTTPPort : Nat
  platformNodeID : Nat
  scriptPayout : CScript
  scriptOperatorPayout : CScript
  nVersion : Nat
  nType : MnType

namespace CSimplifiedMNListEntry

/-- `CSimplifiedMNListEntry(dmn)`. -/
def ofMN (dmn : CDeterministicMN) : CSimplifiedMNListEntry where
  proRegTxHash := dmn.proTxHash
  confirmedHash := dmn.pdmnState.confirmedHash
  service := dmn.pdmnState.addr
  pubKeyOperator := dmn.pdmnState.pubKeyOperator
  keyIDVoting := dmn.pdmnState.keyIDVoting
  isValid := !dmn.pdmnState.isBanned
  platformHTTPPort := dmn.pdmnState.platformHTTPPort
  platformNodeID := dmn.pdmnState.platformNodeID
  scriptPayout := dmn.pdmnState.scriptPayout
  scriptOperatorPayout := dmn.pdmnState.scriptOperatorPayout
  nVersion :=
    if dmn.pdmnState.nVersion = legacyBlsVersion then legacyBlsVersion else basicBlsVersion
  nType := dmn.nType

/-- `operator==`, which leaves out the scripts. -/
def same (left right : CSimplifiedMNListEntry) : Bool :=
  left.proRegTxHash == right.proRegTxHash && left.confirmedHash == right.confirmedHash &&
    left.service == right.service && left.pubKeyOperator.same right.pubKeyOperator &&
    left.keyIDVoting == right.keyIDVoting && left.isValid == right.isValid &&
    left.nVersion == right.nVersion && left.nType == right.nType &&
    left.platformHTTPPort == right.platformHTTPPort &&
    left.platformNodeID == right.platformNodeID

variable (hashes : MerkleHashes)

/-- `SERIALIZE_METHODS` with `SER_GETHASH`. -/
def serialize (e : CSimplifiedMNListEntry) : List Nat :=
  [e.proRegTxHash, e.confirmedHash, e.service.ip, e.service.port,
    hashes.keyBytes (e.nVersion == legacyBlsVersion) e.pubKeyOperator.get, e.keyIDVoting,
    e.isValid.toNat] ++
  if e.nVersion = basicBlsVersion then [e.nType.toUnderlying] else []

def calcHash (e : CSimplifiedMNListEntry) : Uint256 := hashes.hash (e.serialize hashes)

lemma calcHash_eq_of_same {left right : CSimplifiedMNListEntry}
    (h : left.same right = true) : left.calcHash hashes = right.calcHash hashes := by
  simp only [same, CBLSLazyPublicKey.same, Bool.and_eq_true, beq_iff_eq] at h
  simp [calcHash, serialize, h]

variable {hashes}

lemma calcHash_setValid (hfree : hashes.NoCollision) (e : CSimplifiedMNListEntry) (valid : Bool) :
    calcHash hashes { e with isValid := valid } = e.calcHash hashes ↔ valid = e.isValid := by
  constructor
  · intro heq
    have hserialize := hfree.hash heq
    simp only [serialize, cons_append, nil_append, cons.injEq, true_and, and_true] at hserialize
    cases valid <;> cases hvalid : e.isValid <;> simp [hvalid] at hserialize ⊢
  · rintro rfl
    rfl

end CSimplifiedMNListEntry

/-! ## Lists -/

abbrev CSimplifiedMNList := List CSimplifiedMNListEntry

namespace CSimplifiedMNList

open CSimplifiedMNListEntry

/-- `CSimplifiedMNList(dmnList)`. No two hashes are equal, so every sort gives this order. -/
def ofList (dmnList : CDeterministicMNList) : CSimplifiedMNList :=
  (dmnList.mns.map ofMN).insertionSort fun a b => ¬ Uint256.less b.proRegTxHash a.proRegTxHash

/-- `operator==`. -/
def same (left right : CSimplifiedMNList) : Bool :=
  left.length == right.length && (left.zip right).all fun p => CSimplifiedMNListEntry.same p.1 p.2

variable (hashes : MerkleHashes)

/-- `CalcMerkleRoot`, with the flag for `pmutated`. -/
def calcMerkleRoot (sml : CSimplifiedMNList) : Uint256 × Bool :=
  merkleRoot hashes.node 0 (sml.map (calcHash hashes))

/-- Lists that `operator==` takes for equal have one root. -/
lemma calcMerkleRoot_eq_of_same {left right : CSimplifiedMNList}
    (h : left.same right = true) : left.calcMerkleRoot hashes = right.calcMerkleRoot hashes := by
  unfold calcMerkleRoot
  congr 1
  unfold same at h
  induction left generalizing right with
  | nil => cases right <;> simp_all
  | cons e left ih =>
    cases right with
    | nil => simp at h
    | cons e' right =>
      simp only [length_cons, zip_cons_cons, all_cons, Bool.and_eq_true,
        beq_iff_eq, Nat.add_right_cancel_iff] at h
      have hrest : (left.length == right.length &&
          (left.zip right).all fun p => p.1.same p.2) = true := by
        simp [h]
      rw [map_cons, map_cons, calcHash_eq_of_same hashes h.2.1, ih hrest]

/-- The masternodes in the order of their entries. -/
def sortedMNs (l : CDeterministicMNList) : List CDeterministicMN :=
  l.mns.insertionSort fun a b => ¬ Uint256.less b.proTxHash a.proTxHash

lemma ofList_eq (l : CDeterministicMNList) : ofList l = (sortedMNs l).map ofMN := by
  refine (map_insertionSort _ _ ofMN _ fun a _ b _ => ?_).symm
  exact Iff.rfl

lemma sortedMNs_map {l l' : CDeterministicMNList}
    {change : CDeterministicMN → CDeterministicMN} (hmns : l'.mns = l.mns.map change)
    (hhash : ∀ dmn ∈ l.mns, (change dmn).proTxHash = dmn.proTxHash) :
    sortedMNs l' = (sortedMNs l).map change := by
  unfold sortedMNs
  rw [hmns]
  refine (map_insertionSort _ _ _ _ fun a ha b hb => ?_).symm
  rw [hhash a ha, hhash b hb]

variable {hashes}

/-- **Bans show.** If a list is changed in nothing but who is banned, the roots are equal
exactly if no one is banned or revived. -/
theorem calcMerkleRoot_eq_iff (hfree : hashes.NoCollision) {l l' : CDeterministicMNList}
    {change : CDeterministicMN → CDeterministicMN} (hmns : l'.mns = l.mns.map change)
    (hrest : ∀ dmn ∈ l.mns,
      ofMN (change dmn) = { ofMN dmn with isValid := !(change dmn).isPoSeBanned }) :
    (calcMerkleRoot hashes (ofList l')).1 = (calcMerkleRoot hashes (ofList l)).1 ↔
      ∀ dmn ∈ l.mns, (change dmn).isPoSeBanned = dmn.isPoSeBanned := by
  have hhash : ∀ dmn ∈ l.mns, (change dmn).proTxHash = dmn.proTxHash := fun dmn hmem =>
    congrArg proRegTxHash (hrest dmn hmem)
  rw [ofList_eq, ofList_eq, sortedMNs_map hmns hhash]
  unfold calcMerkleRoot
  rw [map_map, map_map, map_map]
  constructor
  · intro hroot dmn hmem
    -- equal roots are roots of equal leaves
    have hleaves := merkleRoot_injective hfree.node (by simp) hroot
    have hleaf := map_inj_left.mp hleaves dmn ((mem_insertionSort _).mpr hmem)
    simp only [comp, hrest dmn hmem, calcHash_setValid hfree] at hleaf
    exact Bool.not_inj hleaf
  · intro hbans
    congr 2
    refine map_congr_left fun dmn hmem => ?_
    have hmem := (mem_insertionSort _).mp hmem
    simp only [comp, hrest dmn hmem, hbans dmn hmem]
    rfl

end CSimplifiedMNList

end HootChain.Evo
