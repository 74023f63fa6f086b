import HootChain.Governance.Object
import HootChain.Governance.Superblock

/-!
# Superblock Triggers (`governance/classes.cpp`)

A trigger is a governance object that schedules payments at one height. Whether a
superblock is due is read from the funding flag of its object, which
`IsSuperblockTriggered` refreshes first; which trigger is paid is decided by
counting the votes again.
-/

namespace HootChain.Governance

open Consensus Primitives Option Function CGovernanceObject

/-! ## Triggers -/

/-- `CSuperblock`. `ParsePaymentAmount` lets only amounts in the range of money through. -/
structure CSuperblock where
  nGovObjHash : Uint256
  nBlockHeight : Int
  vecPayments : List CGovernancePayment
  amounts : ∀ payment ∈ vecPayments, moneyRange payment.nAmount = true

/-- What superblocks depend on: the objects of `CGovernanceManager` and the map of
`CGovernanceTriggerManager`, in the order of its keys. -/
structure TriggerState where
  mapObjects : Uint256 → Option CGovernanceObject
  mapTrigger : List (Uint256 × Option CSuperblock)

def TriggerState.getActiveTriggers (governance : TriggerState) : List (Option CSuperblock) :=
  (governance.mapTrigger.filter fun pair => (governance.mapObjects pair.1).isSome).map Prod.snd

/-- `UpdateSentinelVariables` on the object of a trigger. -/
def TriggerState.store (governance : TriggerState) (nHash : Uint256) (obj : CGovernanceObject) :
    TriggerState :=
  { governance with mapObjects := update governance.mapObjects nHash (some obj) }

namespace CSuperblockManager

variable (params : Params) (node : NodeView)

/-- The loop of `IsSuperblockTriggered`. -/
def triggerLoop (nBlockHeight : Nat) :
    List (Option CSuperblock) → TriggerState → Bool × TriggerState
  | [], governance => (false, governance)
  | none :: vecTriggers, governance => triggerLoop nBlockHeight vecTriggers governance
  | some pSuperblock :: vecTriggers, governance =>
    match governance.mapObjects pSuperblock.nGovObjHash with
    | none => triggerLoop nBlockHeight vecTriggers governance
    | some pObj =>
      if (nBlockHeight : Int) ≠ pSuperblock.nBlockHeight then
        triggerLoop nBlockHeight vecTriggers governance
      else
        let pObj := pObj.updateSentinelVariables node
        let governance := governance.store pSuperblock.nGovObjHash pObj
        if pObj.fCachedFunding then (true, governance)
        else triggerLoop nBlockHeight vecTriggers governance

section

variable (governance : TriggerState) (nBlockHeight : Nat)

/-- `IsSuperblockTriggered`, and the state it leaves. -/
def isSuperblockTriggered : Bool × TriggerState :=
  if !isValidBlockHeight params nBlockHeight then (false, governance)
  else triggerLoop node nBlockHeight governance.getActiveTriggers governance

/-- One round of `GetBestSuperblock`: the highest count so far with its trigger. -/
def considerTrigger (best : Int × Option CSuperblock) (pSuperblock : Option CSuperblock) :
    Int × Option CSuperblock :=
  match pSuperblock with
  | none => best
  | some pSuperblock =>
    if (nBlockHeight : Int) ≠ pSuperblock.nBlockHeight then best
    else
      match governance.mapObjects pSuperblock.nGovObjHash with
      | none => best
      | some pObj =>
        let nTempYesCount := pObj.getAbsoluteYesCount node voteSignalFunding
        if nTempYesCount > best.1 then (nTempYesCount, some pSuperblock) else best

def getBestSuperblock : Option CSuperblock :=
  if !isValidBlockHeight params nBlockHeight then none
  else
    let best := governance.getActiveTriggers.foldl
      (considerTrigger node governance nBlockHeight) (0, none)
    if best.1 > 0 then best.2 else none

/-- `GetSuperblockPayments`, the outputs. -/
def getSuperblockPayments : List CTxOut :=
  match getBestSuperblock params node governance nBlockHeight with
  | none => []
  | some pSuperblock => scheduledOutputs pSuperblock.vecPayments

/-- `CSuperblockManager::IsValid`; `none` where `GetValueOut` throws. -/
def isValid (vout : List CTxOut) (nBlockHeight : Nat) (blockReward : CAmount) : Option Bool :=
  match getBestSuperblock params node governance nBlockHeight with
  | none => some false
  | some pSuperblock =>
    Governance.isValid params pSuperblock.vecPayments vout nBlockHeight blockReward

end

end CSuperblockManager

/-! ## Refreshing the flags -/

/-- What the manager reads of an object: its votes, and its flag once refreshed. -/
def CGovernanceObject.funding (node : NodeView) (obj : CGovernanceObject) : Int × Bool :=
  (obj.getAbsoluteYesCount node voteSignalFunding,
    (obj.updateSentinelVariables node).fCachedFunding)

/-- Refreshing twice is refreshing once. -/
lemma funding_updateSentinelVariables (node : NodeView) (obj : CGovernanceObject) :
    (obj.updateSentinelVariables node).funding node = obj.funding node := by
  unfold funding updateSentinelVariables
  by_cases hcount : node.validWeightedMNsCount = 0
  · simp [hcount]
  · simp only [hcount, if_false]
    rfl

/-- Two states with the same triggers, whose objects have the same votes and flags. -/
structure SameFunding (node : NodeView) (governance governance' : TriggerState) : Prop where
  mapTrigger : governance'.mapTrigger = governance.mapTrigger
  funding : ∀ h, (governance'.mapObjects h).map (funding node) =
    (governance.mapObjects h).map (funding node)

section Funding

open CSuperblockManager

variable {params : Params} {node : NodeView} {governance governance' : TriggerState}
  {nBlockHeight : Nat}

lemma SameFunding.refl (node : NodeView) (governance : TriggerState) :
    SameFunding node governance governance := ⟨rfl, fun _ => rfl⟩

lemma SameFunding.trans {governance'' : TriggerState}
    (h : SameFunding node governance governance')
    (h' : SameFunding node governance' governance'') : SameFunding node governance governance'' :=
  ⟨h'.mapTrigger.trans h.mapTrigger, fun hash => (h'.funding hash).trans (h.funding hash)⟩

lemma sameFunding_store (node : NodeView) {nHash : Uint256} {obj : CGovernanceObject}
    (hobj : governance.mapObjects nHash = some obj) :
    SameFunding node governance (governance.store nHash (obj.updateSentinelVariables node)) := by
  refine ⟨rfl, fun h => ?_⟩
  unfold TriggerState.store
  by_cases heq : h = nHash
  · subst heq
    simp [hobj, funding_updateSentinelVariables]
  · simp [update_of_ne heq]

section

variable (hsame : SameFunding node governance governance')

include hsame

lemma SameFunding.isSome_mapObjects
    (h : Uint256) : (governance'.mapObjects h).isSome = (governance.mapObjects h).isSome := by
  have := congrArg isSome (hsame.funding h)
  simpa using this

lemma SameFunding.getActiveTriggers :
    governance'.getActiveTriggers = governance.getActiveTriggers := by
  unfold TriggerState.getActiveTriggers
  rw [hsame.mapTrigger]
  congr 1
  exact List.filter_congr fun pair _ => hsame.isSome_mapObjects pair.1

/-- The trigger is for the height, and its object is funded once refreshed. -/
def isFunded (node : NodeView) (governance : TriggerState) (nBlockHeight : Nat) :
    Option CSuperblock → Bool
  | none => false
  | some pSuperblock => decide ((nBlockHeight : Int) = pSuperblock.nBlockHeight) &&
      ((governance.mapObjects pSuperblock.nGovObjHash).map
        (funding node)).any Prod.snd

lemma SameFunding.isFunded :
    isFunded node governance' nBlockHeight = isFunded node governance nBlockHeight := by
  funext pSuperblock
  cases pSuperblock with
  | none => rfl
  | some pSuperblock => simp [Governance.isFunded, hsame.funding]

end

/-- The loop finds a funded trigger if there is one, and only refreshes objects. -/
lemma triggerLoop_spec (vecTriggers : List (Option CSuperblock)) (governance : TriggerState) :
    (triggerLoop node nBlockHeight vecTriggers governance).1 =
        vecTriggers.any (isFunded node governance nBlockHeight) ∧
      SameFunding node governance (triggerLoop node nBlockHeight vecTriggers governance).2 := by
  induction vecTriggers generalizing governance with
  | nil => exact ⟨rfl, .refl node governance⟩
  | cons pSuperblock vecTriggers ih =>
    cases pSuperblock with
    | none => simpa [triggerLoop, isFunded] using ih governance
    | some pSuperblock =>
      cases hobj : governance.mapObjects pSuperblock.nGovObjHash with
      | none => simpa [triggerLoop, isFunded, hobj] using ih governance
      | some pObj =>
        by_cases hheight : (nBlockHeight : Int) = pSuperblock.nBlockHeight
        · have hstore := sameFunding_store node hobj
          cases hflag : (pObj.updateSentinelVariables node).fCachedFunding with
          | true =>
            simpa [triggerLoop, isFunded, hobj, hheight, hflag,
              funding] using hstore
          | false =>
            -- the rest is searched in the state with the object refreshed
            obtain ⟨hany, hsame⟩ := ih (governance.store pSuperblock.nGovObjHash
              (pObj.updateSentinelVariables node))
            rw [hstore.isFunded] at hany
            simpa [triggerLoop, isFunded, hobj, hheight, hflag,
              funding] using And.intro hany (hstore.trans hsame)
        · simpa [triggerLoop, isFunded, hobj, hheight] using ih governance

/-- A superblock is triggered if the height allows it and a trigger is funded. -/
lemma isSuperblockTriggered_fst :
    (isSuperblockTriggered params node governance nBlockHeight).1 =
      (isValidBlockHeight params nBlockHeight &&
        governance.getActiveTriggers.any (isFunded node governance nBlockHeight)) := by
  unfold isSuperblockTriggered
  cases isValidBlockHeight params nBlockHeight with
  | false => rfl
  | true => exact (triggerLoop_spec _ governance).1

/-- Asking whether a superblock is triggered changes no later answer. -/
lemma sameFunding_isSuperblockTriggered (params : Params) (node : NodeView)
    (governance : TriggerState) (nBlockHeight : Nat) :
    SameFunding node governance (isSuperblockTriggered params node governance nBlockHeight).2 := by
  unfold isSuperblockTriggered
  split
  · exact .refl node governance
  · exact (triggerLoop_spec _ governance).2

variable (hsame : SameFunding node governance governance')

include hsame

/-- Asked again, the manager gives the same answer. -/
lemma SameFunding.isSuperblockTriggered (params : Params) (nBlockHeight : Nat) :
    (isSuperblockTriggered params node governance' nBlockHeight).1 =
      (isSuperblockTriggered params node governance nBlockHeight).1 := by
  rw [isSuperblockTriggered_fst, isSuperblockTriggered_fst, hsame.getActiveTriggers, hsame.isFunded]

omit hsame in
lemma isValidBlockHeight_of_triggered
    (h : (isSuperblockTriggered params node governance nBlockHeight).1 = true) :
    isValidBlockHeight params nBlockHeight = true := by
  rw [isSuperblockTriggered_fst] at h
  exact (Bool.and_eq_true_iff.mp h).1

/-! ## The best trigger -/

lemma SameFunding.considerTrigger :
    considerTrigger node governance' nBlockHeight =
      considerTrigger node governance nBlockHeight := by
  funext best pSuperblock
  cases pSuperblock with
  | none => rfl
  | some pSuperblock =>
    have hfunding := hsame.funding pSuperblock.nGovObjHash
    simp only [CSuperblockManager.considerTrigger]
    cases hobj : governance.mapObjects pSuperblock.nGovObjHash with
    | none =>
      rw [hobj, map_none, map_eq_none_iff] at hfunding
      rw [hfunding]
    | some pObj =>
      rw [hobj, map_some, map_eq_some_iff] at hfunding
      obtain ⟨pObj', hobj', heq⟩ := hfunding
      have hcount : pObj'.getAbsoluteYesCount node voteSignalFunding =
          pObj.getAbsoluteYesCount node voteSignalFunding := congrArg Prod.fst heq
      simp [hobj', hcount]

lemma SameFunding.getBestSuperblock :
    getBestSuperblock params node governance' nBlockHeight =
      getBestSuperblock params node governance nBlockHeight := by
  unfold CSuperblockManager.getBestSuperblock
  rw [hsame.getActiveTriggers, hsame.considerTrigger]

end Funding

end HootChain.Governance
