import HootChain.Evo.MnState
import HootChain.Foundation.ExceptRuns
import HootChain.Foundation.UniqueIndex

/-!
# The Deterministic Masternode List (`evo/deterministicmns.h`)

A list keeps its masternodes in a map from the hash of their registration, and two
more maps over it: from internal ids, and from the properties that no two
masternodes share. All changes go through `AddMN`, `UpdateMN` and `RemoveMN`, which
throw when the three maps do not fit together.

Maps are kept by content, so that lists with equal entries are equal. The keys of the
property map are the properties themselves in place of their `SerializeHash`; an operator key
has one for each scheme. `UpdateMN` compares points, so an update of the scheme alone does not
reach the property map.
-/

namespace HootChain.Evo

open Primitives Foundation UniqueIndex Option Except Std.ExtTreeMap

/-- A failed operation: an exception, or the reason for which a block is invalid. -/
inductive MnFailure where
  | runtimeError (what : String)
  | invalid (reason : String)
  deriving DecidableEq

/-- A lookup that throws. -/
def orThrow {α : Type} (what : String) : Option α → Except MnFailure α
  | none => .error (.runtimeError what)
  | some a => .ok a

/-! ## Masternodes -/

structure CDeterministicMN where
  internalId : Nat
  proTxHash : Uint256
  collateralOutpoint : COutPoint
  nOperatorReward : Nat
  nType : MnType
  pdmnState : CDeterministicMNState
  deriving DecidableEq

open CDeterministicMN

/-- A value that `GetUniquePropertyHash` is called with; it hashes a key in its own scheme. -/
inductive UniqueProperty where
  | collateral (outpoint : COutPoint)
  | addr (service : CService)
  | owner (keyID : CKeyID)
  | operator (pubKey : CBLSLazyPublicKey)
  deriving DecidableEq

open UniqueProperty

/-- `v == nullValue`. -/
def UniqueProperty.isNull : UniqueProperty → Bool
  | .collateral outpoint => outpoint == ⟨0, 2 ^ 32 - 1⟩
  | .addr service => service == .null
  | .owner keyID => keyID == 0
  | .operator pubKey => !pubKey.isValid

/-- `oldValue == newValue`. -/
def UniqueProperty.same : UniqueProperty → UniqueProperty → Bool
  | .operator a, .operator b => a.same b
  | a, b => a == b

/-- `AddUniqueProperty` and `DeleteUniqueProperty`, which return false in place of `none`. -/
abbrev PropertyOp := UniqueIndex UniqueProperty Uint256 → Uint256 → UniqueProperty →
  Option (UniqueIndex UniqueProperty Uint256)

def addUniqueProperty : PropertyOp := claim isNull

def deleteUniqueProperty : PropertyOp := release isNull

def updateUniqueProperty (m : UniqueIndex UniqueProperty Uint256) (proTxHash : Uint256)
    (oldValue newValue : UniqueProperty) : Option (UniqueIndex UniqueProperty Uint256) :=
  m.exchange isNull UniqueProperty.same proTxHash oldValue newValue

namespace CDeterministicMN

section

variable (dmn : CDeterministicMN)

/-- `IsMNPoSeBanned`. -/
def isPoSeBanned : Bool := dmn.pdmnState.isBanned

/-- A copy with another state. -/
def withState (state : CDeterministicMNState) : CDeterministicMN := { dmn with pdmnState := state }

/-- The properties `AddMN` enters, in its order. -/
def properties : List UniqueProperty :=
  .collateral dmn.collateralOutpoint ::
    ((if dmn.pdmnState.addr = .null then [] else [.addr dmn.pdmnState.addr]) ++
      .owner dmn.pdmnState.keyIDOwner ::
      (if dmn.pdmnState.pubKeyOperator.isValid then [.operator dmn.pdmnState.pubKeyOperator]
        else []))

end

end CDeterministicMN

/-! ## Lists -/

structure CDeterministicMNList where
  blockHash : Uint256
  nHeight : Int
  nTotalRegisteredCount : Nat
  mnMap : Std.ExtTreeMap Uint256 CDeterministicMN
  mnInternalIdMap : Std.ExtTreeMap Nat Uint256
  mnUniquePropertyMap : UniqueIndex UniqueProperty Uint256

/-- The list that an operation leaves, or why it failed. -/
abbrev ListResult := Except MnFailure CDeterministicMNList

namespace CDeterministicMNList

def initial (blockHash : Uint256) (height : Int) : CDeterministicMNList :=
  { blockHash := blockHash, nHeight := height, nTotalRegisteredCount := 0, mnMap := ∅
    mnInternalIdMap := ∅, mnUniquePropertyMap := fun _ => none }

section

variable (l : CDeterministicMNList) (proTxHash : Uint256)

def getMN : Option CDeterministicMN := l.mnMap[proTxHash]?

def hasMN : Bool := (l.getMN proTxHash).isSome

def getAllMNsCount : Nat := l.mnMap.size

/-- The masternodes in the order of `ForEachMN`. -/
def mns : List CDeterministicMN := l.mnMap.toList.map Prod.snd

/-- The masternodes of `ForEachMN` with `onlyValid`. -/
def validMNs : List CDeterministicMN := l.mns.filter fun dmn => !dmn.isPoSeBanned

def hasUniqueProperty (v : UniqueProperty) : Bool := (l.mnUniquePropertyMap v).isSome

def getUniquePropertyMN (v : UniqueProperty) : Option CDeterministicMN :=
  (l.mnUniquePropertyMap v).bind fun p => l.getMN p.1

def getMNByCollateral (collateralOutpoint : COutPoint) : Option CDeterministicMN :=
  l.getUniquePropertyMN (.collateral collateralOutpoint)

def getMNByService (service : CService) : Option CDeterministicMN :=
  l.getUniquePropertyMN (.addr service)

def getMNByInternalId (internalId : Nat) : Option CDeterministicMN :=
  l.mnInternalIdMap[internalId]?.bind l.getMN

/-- One step of `AddMN` or `RemoveMN` on the property map, made under a condition. -/
def propertyIf (op : PropertyOp) (condition : Bool) (what : String) (proTxHash : Uint256)
    (v : UniqueProperty) (m : UniqueIndex UniqueProperty Uint256) :
    Except MnFailure (UniqueIndex UniqueProperty Uint256) :=
  if condition then orThrow what (op m proTxHash v) else .ok m

/-- The steps of `AddMN` and `RemoveMN` on the property map; `what` starts their messages. -/
def forEachProperty (op : PropertyOp) (what : String) (dmn : CDeterministicMN)
    (m : UniqueIndex UniqueProperty Uint256) :
    Except MnFailure (UniqueIndex UniqueProperty Uint256) := do
  let state := dmn.pdmnState
  let m ← propertyIf op true (what ++ "collateralOutpoint") dmn.proTxHash
    (.collateral dmn.collateralOutpoint) m
  let m ← propertyIf op (state.addr != .null) (what ++ "address") dmn.proTxHash (.addr state.addr) m
  let m ← propertyIf op true (what ++ "keyIDOwner") dmn.proTxHash (.owner state.keyIDOwner) m
  propertyIf op state.pubKeyOperator.isValid (what ++ "pubKeyOperator") dmn.proTxHash
    (.operator state.pubKeyOperator) m

def addMN (dmn : CDeterministicMN) (fBumpTotalCount : Bool) : ListResult :=
  if l.hasMN dmn.proTxHash then
    .error (.runtimeError "AddMN: Can't add a masternode with a duplicate proTxHash")
  else if l.mnInternalIdMap[dmn.internalId]?.isSome then
    .error (.runtimeError "AddMN: Can't add a masternode with a duplicate internalId")
  else do
    let m ← forEachProperty addUniqueProperty
      "AddMN: Can't add a masternode with a duplicate " dmn l.mnUniquePropertyMap
    .ok { l with
      mnMap := l.mnMap.insert dmn.proTxHash dmn
      mnInternalIdMap := l.mnInternalIdMap.insert dmn.internalId dmn.proTxHash
      mnUniquePropertyMap := m
      -- the maximum is taken in 64 bits and stored in 32
      nTotalRegisteredCount :=
        if fBumpTotalCount then max (dmn.internalId + 1) l.nTotalRegisteredCount % 2 ^ 32
        else l.nTotalRegisteredCount }

/-- The steps of `UpdateMN` on the property map. -/
def updateProperties (proTxHash : Uint256) (oldState newState : CDeterministicMNState)
    (m : UniqueIndex UniqueProperty Uint256) :
    Except MnFailure (UniqueIndex UniqueProperty Uint256) := do
  let m ← orThrow "UpdateMN: Can't update a masternode with a duplicate address"
    (updateUniqueProperty m proTxHash (.addr oldState.addr) (.addr newState.addr))
  let m ← orThrow "UpdateMN: Can't update a masternode with a duplicate keyIDOwner"
    (updateUniqueProperty m proTxHash (.owner oldState.keyIDOwner) (.owner newState.keyIDOwner))
  orThrow "UpdateMN: Can't update a masternode with a duplicate pubKeyOperator"
    (updateUniqueProperty m proTxHash (.operator oldState.pubKeyOperator)
      (.operator newState.pubKeyOperator))

def updateMN (oldDmn : CDeterministicMN) (pdmnState : CDeterministicMNState) : ListResult := do
  let m ← updateProperties oldDmn.proTxHash oldDmn.pdmnState pdmnState l.mnUniquePropertyMap
  .ok { l with
    mnMap := l.mnMap.insert oldDmn.proTxHash (oldDmn.withState pdmnState)
    mnUniquePropertyMap := m }

/-- `UpdateMN(proTxHash, pdmnState)`. -/
def updateMNByHash (pdmnState : CDeterministicMNState) : ListResult :=
  match l.getMN proTxHash with
  | none => .error (.runtimeError "UpdateMN: Can't find a masternode")
  | some oldDmn => l.updateMN oldDmn pdmnState

/-- `UpdateMN(oldDmn, stateDiff)`. -/
def updateMNByDiff (oldDmn : CDeterministicMN) (stateDiff : CDeterministicMNStateDiff) :
    ListResult :=
  l.updateMN oldDmn (stateDiff.applyToState oldDmn.pdmnState)

def removeMN : ListResult :=
  match l.getMN proTxHash with
  | none => .error (.runtimeError "RemoveMN: Can't find a masternode")
  | some dmn => do
    let m ← forEachProperty deleteUniqueProperty
      "RemoveMN: Can't delete a masternode with a " dmn l.mnUniquePropertyMap
    .ok { l with
      mnMap := l.mnMap.erase proTxHash
      mnInternalIdMap := l.mnInternalIdMap.erase dmn.internalId
      mnUniquePropertyMap := m }

end

end CDeterministicMNList

/-! ## Properties of a masternode -/

lemma orThrow_eq_ok {α : Type} {what : String} {x : Option α} {a : α} :
    orThrow what x = .ok a ↔ x = some a := by
  cases x <;> simp [orThrow]

namespace CDeterministicMN

variable {dmn : CDeterministicMN}

@[simp] lemma collateral_mem_properties {outpoint : COutPoint} :
    .collateral outpoint ∈ dmn.properties ↔ outpoint = dmn.collateralOutpoint := by
  unfold properties
  split <;> split <;> simp

@[simp] lemma addr_mem_properties {service : CService} :
    .addr service ∈ dmn.properties ↔ service = dmn.pdmnState.addr ∧ service ≠ .null := by
  unfold properties
  split
  · next hnull =>
    rw [hnull]
    split <;> simp
  · next hnull => split <;> simp <;> rintro rfl <;> exact hnull

@[simp] lemma owner_mem_properties {keyID : CKeyID} :
    .owner keyID ∈ dmn.properties ↔ keyID = dmn.pdmnState.keyIDOwner := by
  unfold properties
  split <;> split <;> simp

@[simp] lemma operator_mem_properties {pubKey : CBLSLazyPublicKey} :
    .operator pubKey ∈ dmn.properties ↔
      pubKey = dmn.pdmnState.pubKeyOperator ∧ pubKey.isValid = true := by
  cases hvalid : dmn.pdmnState.pubKeyOperator.isValid with
  | false =>
    have hnot : .operator pubKey ∉ dmn.properties := by
      simp only [properties, hvalid]
      split <;> simp
    simp only [hnot, false_iff, not_and]
    rintro rfl
    simp [hvalid]
  | true =>
    simp only [properties, hvalid]
    split <;> simp <;> rintro rfl <;> exact hvalid

section

variable (state : CDeterministicMNState)

@[simp] lemma withState_pdmnState : (dmn.withState state).pdmnState = state := rfl

@[simp] lemma withState_internalId : (dmn.withState state).internalId = dmn.internalId := rfl

@[simp] lemma withState_proTxHash : (dmn.withState state).proTxHash = dmn.proTxHash := rfl

@[simp] lemma withState_collateralOutpoint :
    (dmn.withState state).collateralOutpoint = dmn.collateralOutpoint := rfl

end

lemma nodup_properties : dmn.properties.Nodup := by
  unfold properties
  split <;> split <;> simp

/-- The keys a masternode must have: the checks of a registration see to it. -/
structure KeysValid (dmn : CDeterministicMN) : Prop where
  collateral : (collateral dmn.collateralOutpoint).isNull = false
  owner : dmn.pdmnState.keyIDOwner ≠ 0

lemma KeysValid.isNull_eq_false (h : dmn.KeysValid) {p : UniqueProperty}
    (hp : p ∈ dmn.properties) : p.isNull = false := by
  cases p with
  | collateral outpoint =>
    rw [collateral_mem_properties] at hp
    exact hp ▸ h.collateral
  | addr service =>
    rw [addr_mem_properties] at hp
    simpa [isNull] using hp.2
  | owner keyID =>
    rw [owner_mem_properties] at hp
    simpa [isNull, hp] using h.owner
  | operator pubKey =>
    rw [operator_mem_properties] at hp
    simpa [isNull] using hp.2

end CDeterministicMN

/-! ## Lists whose maps fit together -/

namespace CDeterministicMNList

section

variable (l : CDeterministicMNList)

/-- The block a list is for. -/
def stamp : Uint256 × Int := (l.blockHash, l.nHeight)

/-- The masternode registered by `proTxHash` has the property. -/
def Holds (proTxHash : Uint256) (p : UniqueProperty) : Prop :=
  ∃ dmn, l.getMN proTxHash = some dmn ∧ p ∈ dmn.properties

/-- The three maps of a list fit together, and its masternodes have their keys. -/
structure WellIndexed (l : CDeterministicMNList) : Prop where
  proTxHash_eq : ∀ {h dmn}, l.getMN h = some dmn → dmn.proTxHash = h
  internalIds : ∀ i h, l.mnInternalIdMap[i]? = some h ↔
    ∃ dmn, l.getMN h = some dmn ∧ dmn.internalId = i
  properties : l.mnUniquePropertyMap.Indexes l.Holds
  keys : ∀ {h dmn}, l.getMN h = some dmn → dmn.KeysValid

/-- A property of the masternode that is not null, which is what is entered. -/
def Keeps (proTxHash : Uint256) (p : UniqueProperty) : Prop :=
  l.Holds proTxHash p ∧ p.isNull = false

end

/-- The three maps of a list fit together. `UpdateMN` can make the owner key null, and it is
then not entered. -/
structure Indexed (l : CDeterministicMNList) : Prop where
  proTxHash_eq : ∀ {h dmn}, l.getMN h = some dmn → dmn.proTxHash = h
  internalIds : ∀ i h, l.mnInternalIdMap[i]? = some h ↔
    ∃ dmn, l.getMN h = some dmn ∧ dmn.internalId = i
  properties : l.mnUniquePropertyMap.Indexes l.Keeps
  collateral : ∀ {h dmn}, l.getMN h = some dmn →
    (collateral dmn.collateralOutpoint).isNull = false

section Maps

variable {β : Type} {h' : Uint256} {p : UniqueProperty} {dmn' : CDeterministicMN}

lemma getElem?_insert_nat (t : Std.ExtTreeMap Nat β) (k a : Nat) (v : β) :
    (t.insert k v)[a]? = if a = k then some v else t[a]? := by
  simp only [getElem?_insert, Nat.compare_eq_eq, @eq_comm _ a]

lemma getElem?_erase_nat (t : Std.ExtTreeMap Nat β) (k a : Nat) :
    (t.erase k)[a]? = if a = k then none else t[a]? := by
  simp only [getElem?_erase, Nat.compare_eq_eq, @eq_comm _ a]

variable {l l' : CDeterministicMNList} {h : Uint256} {dmn : CDeterministicMN}

/-- Every masternode is filed under its hash. -/
def Keyed (l : CDeterministicMNList) : Prop := ∀ {h dmn}, l.getMN h = some dmn → dmn.proTxHash = h

lemma mem_mns : dmn ∈ l.mns ↔ ∃ h, l.getMN h = some dmn := by
  simp [mns, getMN]

lemma Indexed.mem_mns_iff (hl : l.Indexed) : dmn ∈ l.mns ↔ l.getMN dmn.proTxHash = some dmn := by
  rw [mem_mns]
  constructor
  · intro ⟨h, hget⟩
    rw [hl.proTxHash_eq hget]
    exact hget
  · exact fun hget => ⟨_, hget⟩

/-- What an operation on one entry must show of all entries. -/
lemma forall_getMN_of_set {P : Uint256 → CDeterministicMN → Prop} {new : Option CDeterministicMN}
    (hset : ∀ h', l'.getMN h' = if h' = h then new else l.getMN h')
    (hnew : ∀ {mn}, new = some mn → P h mn) (hold : ∀ {h' mn}, l.getMN h' = some mn → P h' mn)
    {mn : CDeterministicMN} (hmn : l'.getMN h' = some mn) : P h' mn := by
  rw [hset] at hmn
  split at hmn
  · next heq => exact heq ▸ hnew hmn
  · exact hold hmn

lemma holds_of_mem (hget : l.getMN h = some dmn) (hp : p ∈ dmn.properties) : l.Holds h p :=
  ⟨dmn, hget, hp⟩

lemma holds_congr (hget : ∀ h, l.getMN h = l'.getMN h) (p : UniqueProperty) :
    l.Holds h p ↔ l'.Holds h p := by
  rw [Holds, Holds, hget]

lemma holds_iff_of_getMN (hget : l.getMN h = some dmn) (p : UniqueProperty) :
    l.Holds h p ↔ p ∈ dmn.properties := by
  simp [Holds, hget]

lemma Indexed.wellIndexed (hl : l.Indexed)
    (howner : ∀ {h dmn}, l.getMN h = some dmn → dmn.pdmnState.keyIDOwner ≠ 0) :
    l.WellIndexed where
  proTxHash_eq := hl.proTxHash_eq
  internalIds := hl.internalIds
  properties := by
    refine indexes_congr hl.properties fun h p => ⟨fun hp => hp.1, fun hp => ⟨hp, ?_⟩⟩
    obtain ⟨dmn, hget, hmem⟩ := hp
    exact CDeterministicMN.KeysValid.isNull_eq_false
      ⟨hl.collateral hget, howner hget⟩ hmem
  keys := fun hget => ⟨hl.collateral hget, howner hget⟩

lemma WellIndexed.initial (blockHash : Uint256) (height : Int) :
    (CDeterministicMNList.initial blockHash height).WellIndexed := by
  constructor <;> simp [CDeterministicMNList.initial, getMN, Holds, Indexes]

lemma Indexed.internalId_inj (hl : l.Indexed) (hget : l.getMN h = some dmn)
    (hget' : l.getMN h' = some dmn') (hid : dmn.internalId = dmn'.internalId) : h = h' := by
  have hfind := (hl.internalIds dmn.internalId h).mpr ⟨dmn, hget, rfl⟩
  rw [(hl.internalIds dmn.internalId h').mpr ⟨dmn', hget', hid.symm⟩] at hfind
  exact (some.inj hfind).symm

variable (hl : l.WellIndexed)

include hl

/-- The maps do not depend on the block of the list. -/
lemma WellIndexed.stamped (blockHash : Uint256) (nHeight : Int) :
    WellIndexed { l with blockHash, nHeight } :=
  ⟨hl.proTxHash_eq, hl.internalIds, hl.properties, hl.keys⟩

lemma WellIndexed.indexed : l.Indexed where
  proTxHash_eq := hl.proTxHash_eq
  internalIds := hl.internalIds
  properties := by
    refine indexes_congr hl.properties fun h p => ⟨fun hp => ⟨hp, ?_⟩, fun hp => hp.1⟩
    obtain ⟨dmn, hget, hmem⟩ := hp
    exact (hl.keys hget).isNull_eq_false hmem
  collateral := fun hget => (hl.keys hget).collateral

lemma WellIndexed.mem_mns_iff : dmn ∈ l.mns ↔ l.getMN dmn.proTxHash = some dmn :=
  hl.indexed.mem_mns_iff

lemma WellIndexed.getMNByInternalId (hget : l.getMN h = some dmn) :
    l.getMNByInternalId dmn.internalId = some dmn := by
  have hid := (hl.internalIds dmn.internalId h).mpr ⟨dmn, hget, rfl⟩
  rw [CDeterministicMNList.getMNByInternalId, hid]
  exact hget

lemma WellIndexed.getUniquePropertyMN (hget : l.getMN h = some dmn)
    (hp : p ∈ dmn.properties) : l.getUniquePropertyMN p = some dmn := by
  rw [CDeterministicMNList.getUniquePropertyMN, hl.properties.get (holds_of_mem hget hp)]
  exact hget

lemma WellIndexed.hasUniqueProperty_iff : l.hasUniqueProperty p = true ↔ ∃ h, l.Holds h p := by
  rw [hasUniqueProperty, isSome_iff_ne_none, ne_eq, hl.properties.get_eq_none]
  simp

lemma WellIndexed.internalId_inj (hget : l.getMN h = some dmn)
    (hget' : l.getMN h' = some dmn') (hid : dmn.internalId = dmn'.internalId) : h = h' :=
  hl.indexed.internalId_inj hget hget' hid

/-- The entries determine the two index maps. -/
lemma WellIndexed.maps_eq (hl' : l'.WellIndexed) (hget : ∀ h, l.getMN h = l'.getMN h) :
    l.mnMap = l'.mnMap ∧ l.mnInternalIdMap = l'.mnInternalIdMap ∧
      l.mnUniquePropertyMap = l'.mnUniquePropertyMap := by
  refine ⟨ext_getElem? hget, ext_getElem? fun i => ?_, ?_⟩
  · apply ext
    intro h
    rw [hl.internalIds, hl'.internalIds, hget]
  · apply hl.properties.eq
    exact indexes_congr hl'.properties fun h p => (holds_congr hget p).symm

end Maps

/-! ## Additions and removals -/

section AddRemove

variable {l l' : CDeterministicMNList} {h : Uint256} {dmn : CDeterministicMN} {bump : Bool}
  {m m' : UniqueIndex UniqueProperty Uint256}

lemma forEachProperty_eq_ok {op : PropertyOp} {what : String} :
    forEachProperty op what dmn m = .ok m' ↔
      dmn.properties.foldlM (op · dmn.proTxHash) m = some m' := by
  unfold forEachProperty propertyIf properties
  by_cases haddr : dmn.pdmnState.addr = .null <;>
    cases hvalid : dmn.pdmnState.pubKeyOperator.isValid <;>
    simp [haddr, hvalid, bind_eq_ok, orThrow_eq_ok, bind_eq_some_iff]

lemma addMN_eq_ok : l.addMN dmn bump = .ok l' ↔
    l.getMN dmn.proTxHash = none ∧ l.mnInternalIdMap[dmn.internalId]? = none ∧
    ∃ m, dmn.properties.foldlM (addUniqueProperty · dmn.proTxHash)
        l.mnUniquePropertyMap = some m ∧
      l' = { l with
        mnMap := l.mnMap.insert dmn.proTxHash dmn
        mnInternalIdMap := l.mnInternalIdMap.insert dmn.internalId dmn.proTxHash
        mnUniquePropertyMap := m
        nTotalRegisteredCount :=
          if bump then max (dmn.internalId + 1) l.nTotalRegisteredCount % 2 ^ 32
          else l.nTotalRegisteredCount } := by
  unfold addMN hasMN
  cases hget : l.getMN dmn.proTxHash with
  | some old => simp
  | none =>
    cases hid : l.mnInternalIdMap[dmn.internalId]? with
    | some h => simp
    | none =>
      simp only [isSome_none, Bool.false_eq_true, if_false, true_and, bind_eq_ok,
        forEachProperty_eq_ok, ok.injEq, @eq_comm _ l']

section

variable (hrun : l.addMN dmn bump = .ok l')

include hrun

lemma stamp_addMN : l'.stamp = l.stamp := by
  obtain ⟨-, -, m, -, rfl⟩ := addMN_eq_ok.mp hrun
  rfl

lemma getMN_addMN (h : Uint256) :
    l'.getMN h = if h = dmn.proTxHash then some dmn else l.getMN h := by
  obtain ⟨-, -, m, -, rfl⟩ := addMN_eq_ok.mp hrun
  exact getElem?_insert_nat ..

lemma isNull_of_addMN : ∀ p ∈ dmn.properties, p.isNull = false := by
  obtain ⟨-, -, m, hclaim, -⟩ := addMN_eq_ok.mp hrun
  exact isNull_of_foldlM _ (fun _ _ _ => isNull_of_claim) hclaim

end

/-- The three maps stay in step; a removal and an update keep them so, too. -/
lemma Indexed.addMN (hl : l.Indexed) (hrun : l.addMN dmn bump = .ok l') : l'.Indexed := by
  have hget' := getMN_addMN hrun
  have hnull := isNull_of_addMN hrun
  obtain ⟨hnone, hid, m, hclaim, rfl⟩ := addMN_eq_ok.mp hrun
  have hnew : ∀ p ∈ dmn.properties, ¬ l.Keeps dmn.proTxHash p := by
    intro p _ hheld
    simp [Keeps, Holds, hnone] at hheld
  obtain ⟨hindex, -⟩ := indexes_claimAll hl.properties nodup_properties hnew hclaim
  refine ⟨forall_getMN_of_set hget' (by rintro _ ⟨⟩; rfl) hl.proTxHash_eq, ?_, ?_,
    forall_getMN_of_set hget' (by rintro _ ⟨⟩; exact hnull _ (by simp)) hl.collateral⟩
  · intro i h
    rw [getElem?_insert_nat, hget']
    by_cases hi : i = dmn.internalId
    · -- the id was free, so that no older entry has it
      have hold : ¬ ∃ mn, l.getMN h = some mn ∧ mn.internalId = i := by
        rw [← hl.internalIds, hi, hid]
        simp
      rw [if_pos hi]
      by_cases hh : h = dmn.proTxHash
      · simp [hi, hh]
      · rw [if_neg hh, iff_false_right hold]
        exact fun heq => hh (some.inj heq).symm
    · rw [if_neg hi, hl.internalIds]
      by_cases hh : h = dmn.proTxHash
      · simp [hh, hnone, Ne.symm hi]
      · simp [hh]
  · refine indexes_congr hindex fun h p => ?_
    rw [Keeps, Holds, hget', withClaims]
    by_cases hh : h = dmn.proTxHash
    · simpa [hh, Keeps, Holds, hnone] using hnull p
    · simp [hh, Keeps, Holds]

lemma WellIndexed.addMN (hl : l.WellIndexed) (hrun : l.addMN dmn bump = .ok l') :
    l'.WellIndexed := by
  have howner : dmn.pdmnState.keyIDOwner ≠ 0 := by
    simpa [isNull] using
      isNull_of_addMN hrun (.owner dmn.pdmnState.keyIDOwner) (by simp)
  exact (hl.indexed.addMN hrun).wellIndexed <|
    forall_getMN_of_set (getMN_addMN hrun) (by rintro _ ⟨⟩; exact howner) fun h => (hl.keys h).owner

/-- `AddMN` goes through if the id and the properties are free. -/
lemma exists_addMN (hl : l.WellIndexed) (hkeys : dmn.KeysValid)
    (hnone : l.getMN dmn.proTxHash = none)
    (hid : ∀ h mn, l.getMN h = some mn → mn.internalId ≠ dmn.internalId)
    (hfree : ∀ p ∈ dmn.properties, ∀ h, ¬ l.Holds h p) : ∃ l', l.addMN dmn bump = .ok l' := by
  obtain ⟨m, hclaim⟩ := exists_claimAll hl.properties (o := dmn.proTxHash)
    nodup_properties fun p hp => ⟨hkeys.isNull_eq_false hp, hfree p hp⟩
  refine ⟨_, addMN_eq_ok.mpr ⟨hnone, ?_, m, hclaim, rfl⟩⟩
  cases hfind : l.mnInternalIdMap[dmn.internalId]? with
  | none => rfl
  | some h =>
    obtain ⟨mn, hmn, heq⟩ := (hl.internalIds _ _).mp hfind
    exact absurd heq (hid h mn hmn)

lemma removeMN_eq_ok (hget : l.getMN h = some dmn) : l.removeMN h = .ok l' ↔
    ∃ m, dmn.properties.foldlM (deleteUniqueProperty · dmn.proTxHash)
        l.mnUniquePropertyMap = some m ∧
      l' = { l with
        mnMap := l.mnMap.erase h
        mnInternalIdMap := l.mnInternalIdMap.erase dmn.internalId
        mnUniquePropertyMap := m } := by
  simp [removeMN, hget, bind_eq_ok, forEachProperty_eq_ok, @eq_comm _ l']

lemma stamp_removeMN (hrun : l.removeMN h = .ok l') : l'.stamp = l.stamp := by
  cases hget : l.getMN h with
  | none => simp [removeMN, hget] at hrun
  | some dmn =>
    obtain ⟨m, -, rfl⟩ := (removeMN_eq_ok hget).mp hrun
    rfl

lemma getMN_removeMN (hget : l.getMN h = some dmn) (hrun : l.removeMN h = .ok l')
    (h' : Uint256) : l'.getMN h' = if h' = h then none else l.getMN h' := by
  obtain ⟨m, -, rfl⟩ := (removeMN_eq_ok hget).mp hrun
  exact getElem?_erase_nat ..

lemma Indexed.removeMN (hl : l.Indexed) (hrun : l.removeMN h = .ok l') : l'.Indexed := by
  cases hget : l.getMN h with
  | none => simp [CDeterministicMNList.removeMN, hget] at hrun
  | some dmn =>
    have hget' := getMN_removeMN hget hrun
    have hh := hl.proTxHash_eq hget
    obtain ⟨m, hrelease, rfl⟩ := (removeMN_eq_ok hget).mp hrun
    -- the removal went through, so that no property was null, and all were held
    have hnull : ∀ p ∈ dmn.properties, p.isNull = false :=
      isNull_of_foldlM _ (fun _ _ _ => isNull_of_release) hrelease
    have hheld : ∀ p ∈ dmn.properties, p.isNull = false ∧ l.Keeps dmn.proTxHash p :=
      fun p hp => ⟨hnull p hp, holds_of_mem (hh ▸ hget) hp, hnull p hp⟩
    obtain ⟨m', hrelease', hindex⟩ :=
      exists_releaseAll hl.properties nodup_properties hheld
    obtain rfl : m' = m := some.inj (hrelease'.symm.trans hrelease)
    refine ⟨forall_getMN_of_set hget' nofun hl.proTxHash_eq, ?_, ?_,
      forall_getMN_of_set hget' nofun hl.collateral⟩
    · intro i h'
      rw [getElem?_erase_nat, hget']
      by_cases hi : i = dmn.internalId
      · rw [if_pos hi]
        by_cases hh' : h' = h
        · simp [hh']
        · -- another entry with the id of `dmn` would be `dmn`
          simp only [hh', if_false, reduceCtorEq, false_iff, not_exists, not_and]
          intro mn hmn hid
          exact hh' (hl.internalId_inj hmn hget (hid.trans hi))
      · rw [if_neg hi, hl.internalIds]
        by_cases hh' : h' = h
        · simp [hh', hget, Ne.symm hi]
        · simp [hh']
    · refine indexes_congr hindex fun h' p => ?_
      rw [Keeps, Holds, hget', withoutClaims, hh]
      by_cases hh' : h' = h
      · simp only [hh', Keeps, holds_iff_of_getMN hget]
        tauto
      · simp [hh', Keeps, Holds]

/-- **Removals go through.** `RemoveMN` of a masternode of the list does not throw. -/
theorem exists_removeMN (hl : l.WellIndexed) (hget : l.getMN h = some dmn) :
    ∃ l', l.removeMN h = .ok l' ∧ l'.WellIndexed := by
  have hh := hl.proTxHash_eq hget
  have hheld : ∀ p ∈ dmn.properties, p.isNull = false ∧ l.Holds dmn.proTxHash p :=
    fun p hp => ⟨(hl.keys hget).isNull_eq_false hp, holds_of_mem (hh ▸ hget) hp⟩
  obtain ⟨m, hrelease, -⟩ := exists_releaseAll hl.properties nodup_properties hheld
  have hrun := (removeMN_eq_ok hget).mpr ⟨m, hrelease, rfl⟩
  exact ⟨_, hrun, (hl.indexed.removeMN hrun).wellIndexed <|
    forall_getMN_of_set (getMN_removeMN hget hrun) nofun fun h => (hl.keys h).owner⟩

end AddRemove

/-! ## Updates -/

section Update

variable {l l' : CDeterministicMNList} {dmn : CDeterministicMN} {state : CDeterministicMNState}

section

variable (hrun : l.updateMN dmn state = .ok l')

include hrun

lemma getMN_updateMN (h : Uint256) :
    l'.getMN h = if h = dmn.proTxHash then some (dmn.withState state) else l.getMN h := by
  obtain ⟨m, -, heq⟩ := bind_eq_ok.mp hrun
  cases heq
  exact getElem?_insert_nat ..

/-- `UpdateMN` leaves all but the entries and the property map as they are. -/
lemma mnInternalIdMap_updateMN : l'.mnInternalIdMap = l.mnInternalIdMap := by
  obtain ⟨m, -, heq⟩ := bind_eq_ok.mp hrun
  cases heq
  rfl

lemma stamp_updateMN : l'.stamp = l.stamp := by
  obtain ⟨m, -, heq⟩ := bind_eq_ok.mp hrun
  cases heq
  rfl

end

/-- The relation of the property map after the three steps of `UpdateMN`. -/
def updatedHolds (holds : Uint256 → UniqueProperty → Prop) (dmn : CDeterministicMN)
    (state : CDeterministicMNState) : Uint256 → UniqueProperty → Prop :=
  let old := dmn.pdmnState
  withExchange isNull (withExchange isNull
      (withExchange isNull holds dmn.proTxHash
        (.addr old.addr) (.addr state.addr))
      dmn.proTxHash (.owner old.keyIDOwner) (.owner state.keyIDOwner))
    dmn.proTxHash (.operator old.pubKeyOperator) (.operator state.pubKeyOperator)

variable {h : Uint256}

lemma not_keeps_of_isNull (p : UniqueProperty) (hp : p.isNull = true) : ¬ l.Keeps h p := by
  intro hkeeps
  rw [hkeeps.2] at hp
  cases hp

lemma keeps_iff_of_getMN (hget : l.getMN h = some dmn) (p : UniqueProperty) :
    l.Keeps h p ↔ p ∈ dmn.properties ∧ p.isNull = false := by
  rw [Keeps, holds_iff_of_getMN hget]

/-- After the three steps the masternode holds the properties of its new state. -/
lemma updatedHolds_iff (hget : l.getMN dmn.proTxHash = some dmn) (h : Uint256)
    (p : UniqueProperty) : updatedHolds l.Keeps dmn state h p ↔
      if h = dmn.proTxHash then p ∈ (dmn.withState state).properties ∧ p.isNull = false
      else l.Keeps h p := by
  by_cases hh : h = dmn.proTxHash
  · have hself := keeps_iff_of_getMN hget
    subst hh
    rw [updatedHolds, withExchange_self, withExchange_self, withExchange_self, hself]
    cases p with
    | collateral outpoint => simp
    | addr | owner => simp [isNull]; tauto
    | operator pubKey =>
      simp only [isNull, operator_mem_properties]
      constructor
      · rintro (⟨hmem, hne⟩ | ⟨heq, hnull⟩)
        · simp at hmem hne
          exact absurd hmem.1 hne
        · cases heq
          exact ⟨⟨rfl, by simpa using hnull⟩, hnull⟩
      · rintro ⟨⟨rfl, -⟩, hnull⟩
        exact .inr ⟨rfl, hnull⟩
  · rw [if_neg hh, updatedHolds, withExchange_of_ne hh,
      withExchange_of_ne hh, withExchange_of_ne hh]

section

variable (hget : l.getMN dmn.proTxHash = some dmn)
  (hscheme : dmn.pdmnState.pubKeyOperator.KeepsScheme state.pubKeyOperator)

include hget hscheme

/-- The relations before the three steps of `UpdateMN`: the steps concern different
kinds of properties, so that each finds its own as it was. -/
lemma slots :
    let old := dmn.pdmnState
    let holds₁ := withExchange isNull l.Keeps dmn.proTxHash
      (.addr old.addr) (.addr state.addr)
    let holds₂ := withExchange isNull holds₁ dmn.proTxHash
      (.owner old.keyIDOwner) (.owner state.keyIDOwner)
    Slot isNull UniqueProperty.same l.Keeps dmn.proTxHash (.addr old.addr) (.addr state.addr) ∧
    Slot isNull UniqueProperty.same holds₁ dmn.proTxHash (.owner old.keyIDOwner)
      (.owner state.keyIDOwner) ∧
    Slot isNull UniqueProperty.same holds₂ dmn.proTxHash (.operator old.pubKeyOperator)
      (.operator state.pubKeyOperator) := by
  intro old holds₁ holds₂
  have hself := keeps_iff_of_getMN hget
  have hnull : ∀ p, p.isNull = true → ¬ l.Keeps dmn.proTxHash p := not_keeps_of_isNull
  have hnull₁ : ∀ p, p.isNull = true → ¬ holds₁ dmn.proTxHash p := not_withExchange_of_isNull hnull
  have hkey : UniqueProperty.same (.operator old.pubKeyOperator) (.operator state.pubKeyOperator) =
      true ↔ operator old.pubKeyOperator = .operator state.pubKeyOperator := by
    rw [operator.injEq]
    exact CBLSLazyPublicKey.same_iff hscheme
  refine ⟨⟨beq_iff_eq, hnull, ?_, ?_⟩, ⟨beq_iff_eq, hnull₁, ?_, ?_⟩,
    ⟨hkey, not_withExchange_of_isNull hnull₁, ?_, ?_⟩⟩
  · simp [hself, isNull, old]
  · simp only [hself, addr_mem_properties]
    exact fun hne hmem => hne (congrArg _ hmem.1.1)
  · intro hne
    simp [holds₁, withExchange_self, hself, old, hne]
  · simp only [holds₁, withExchange_self, hself]
    simp only [owner_mem_properties, reduceCtorEq, false_and, or_false]
    exact fun hne hmem => hne (congrArg _ hmem.1.1)
  · intro hne
    have hvalid : old.pubKeyOperator.isValid = true := by simpa [isNull] using hne
    simp [holds₂, holds₁, withExchange_self, hself, old, hvalid, hne]
  · simp only [holds₂, holds₁, withExchange_self, hself]
    simp only [operator_mem_properties, reduceCtorEq, false_and, or_false]
    exact fun hne hmem => hne (congrArg _ hmem.1.1.1.1)

lemma Indexed.indexes_updateProperties (hl : l.Indexed) {m : UniqueIndex UniqueProperty Uint256}
    (hrun : updateProperties dmn.proTxHash dmn.pdmnState state l.mnUniquePropertyMap = .ok m) :
    m.Indexes (updatedHolds l.Keeps dmn state) := by
  simp only [updateProperties, bind_eq_ok, orThrow_eq_ok] at hrun
  obtain ⟨m₁, haddr, m₂, howner, hoperator⟩ := hrun
  obtain ⟨hslot, hslot₁, hslot₂⟩ := slots hget hscheme
  have hindex₁ := indexes_exchange hl.properties hslot haddr
  have hindex₂ := indexes_exchange hindex₁ hslot₁ howner
  exact indexes_exchange hindex₂ hslot₂ hoperator

lemma Indexed.updateMN (hl : l.Indexed) (hrun : l.updateMN dmn state = .ok l') : l'.Indexed:= by
  have hget' := getMN_updateMN hrun
  have hids := mnInternalIdMap_updateMN hrun
  obtain ⟨m, hprops, heq⟩ := bind_eq_ok.mp hrun
  refine ⟨forall_getMN_of_set hget' (by rintro _ ⟨⟩; rfl) hl.proTxHash_eq, ?_, ?_,
    forall_getMN_of_set hget' (by rintro _ ⟨⟩; exact (hl.collateral hget :)) hl.collateral⟩
  · intro i h
    rw [hids, hl.internalIds, hget']
    by_cases hh : h = dmn.proTxHash
    · simp [hh, hget]
    · simp [hh]
  · have hindex := hl.indexes_updateProperties hget hscheme hprops
    cases heq
    refine indexes_congr hindex fun h p => ?_
    rw [updatedHolds_iff hget]
    by_cases hh : h = dmn.proTxHash
    · rw [if_pos hh, keeps_iff_of_getMN ((hget' h).trans (if_pos hh))]
    · rw [if_neg hh, Keeps, Keeps, Holds, Holds, hget', if_neg hh]

lemma WellIndexed.updateMN (hl : l.WellIndexed) (hkeys : (dmn.withState state).KeysValid)
    (hrun : l.updateMN dmn state = .ok l') : l'.WellIndexed :=
  (hl.indexed.updateMN hget hscheme hrun).wellIndexed <|
    forall_getMN_of_set (getMN_updateMN hrun) (by rintro _ ⟨⟩; exact hkeys.owner)
      fun h => (hl.keys h).owner

/-- `UpdateMN` goes through if the properties it brings in are free. -/
lemma exists_updateMN (hl : l.WellIndexed)
    (hfree : ∀ p ∈ (dmn.withState state).properties, p ∈ dmn.properties ∨ ∀ h, ¬ l.Holds h p) :
    ∃ l', l.updateMN dmn state = .ok l' := by
  obtain ⟨hslot, hslot₁, hslot₂⟩ := slots hget hscheme
  have hindex := hl.indexed.properties
  have hunkept : ∀ {p}, (∀ h, ¬ l.Holds h p) → ∀ h, ¬ l.Keeps h p := fun hfree h hp => hfree h hp.1
  obtain ⟨m₁, haddr⟩ := exists_exchange hindex hslot (by
    intro hne
    have hmem : .addr state.addr ∈ (dmn.withState state).properties := by
      simpa [isNull] using hne
    rcases hfree _ hmem with hold | hfree
    · exact .inl (congrArg _ (addr_mem_properties.mp hold).1)
    · exact .inr (hunkept hfree))
  have hindex₁ := indexes_exchange hindex hslot haddr
  obtain ⟨m₂, howner⟩ := exists_exchange hindex₁ hslot₁ (by
    intro _
    rcases hfree (.owner state.keyIDOwner) (by simp) with hold | hfree
    · exact .inl (congrArg _ (owner_mem_properties.mp hold))
    · simpa [withExchange] using .inr (hunkept hfree))
  have hindex₂ := indexes_exchange hindex₁ hslot₁ howner
  obtain ⟨m₃, hoperator⟩ := exists_exchange hindex₂ hslot₂ (by
    intro hne
    rcases hfree (.operator state.pubKeyOperator) (by simpa [isNull] using hne) with hold | hfree
    · exact .inl (congrArg _ (operator_mem_properties.mp hold).1)
    · simpa [withExchange] using .inr (hunkept hfree))
  have hprops : updateProperties dmn.proTxHash dmn.pdmnState state l.mnUniquePropertyMap =
      .ok m₃ := by
    simp only [updateProperties, bind_eq_ok, orThrow_eq_ok]
    exact ⟨m₁, haddr, m₂, howner, hoperator⟩
  exact ⟨_, bind_eq_ok.mpr ⟨m₃, hprops, rfl⟩⟩

end

end Update

end CDeterministicMNList

end HootChain.Evo
