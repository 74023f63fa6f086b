import HootChain.Primitives.Transaction

/-!
# Masternode States (`evo/dmnstate.h`, `evo/dmn_types.h`)

What the deterministic masternode list records of one masternode, and the diff of
two states that is written to disk in place of the new state.
-/

namespace HootChain.Evo

open Consensus Primitives Bool

/-! ## Types and keys -/

/-- `MnType`, a 16 bit number on the wire. -/
inductive MnType where
  | regular
  | evo
  | invalid (raw : Nat)
  deriving DecidableEq

/-- `GetMnType(..).voting_weight`. -/
def MnType.votingWeight : MnType → Int
  | .regular => 1
  | .evo => 4
  | .invalid _ => 0

def MnType.isValid : MnType → Bool
  | .invalid _ => false
  | _ => true

def getCollateralAmount (type : MnType) (current_height : Int) : CAmount :=
  match type with
  | .regular => if current_height < 271000 then 3000 * coin else 6000 * coin
  | .evo => if current_height < 271000 then 12000 * coin else 24000 * coin
  | .invalid _ => maxMoney

structure CService where
  ip : Nat
  port : Nat
  deriving DecidableEq

def CService.null : CService := ⟨0, 0⟩

/-- `CKeyID`, null when zero. -/
abbrev CKeyID := Nat

/-- `CBLSLazyPublicKey`: unset, which is also what `Get` makes of bytes that are no point, or a
point of the curve with the scheme in which it is written and hashed (`bufLegacyScheme`). -/
inductive CBLSLazyPublicKey where
  | null
  | key (point : Nat) (legacy : Bool)
  deriving DecidableEq

namespace CBLSLazyPublicKey

/-- `Get`, with `none` for an object that is not valid. -/
def get : CBLSLazyPublicKey → Option Nat
  | .null => none
  | .key point _ => some point

/-- `pubKey.Get().IsValid()`. -/
def isValid : CBLSLazyPublicKey → Bool
  | .null => false
  | .key .. => true

/-- `operator==`: the points are compared, whatever schemes they are in. -/
def same (a b : CBLSLazyPublicKey) : Bool := a.get == b.get

/-- `IsLegacy() == legacy`, of a key that is set. -/
def inScheme (legacy : Bool) : CBLSLazyPublicKey → Bool
  | .null => true
  | .key _ scheme => scheme == legacy

/-- If the two are one key, they are in one scheme. -/
def KeepsScheme (a b : CBLSLazyPublicKey) : Prop := a.same b = true → a = b

variable {a b : CBLSLazyPublicKey}

lemma same_iff (h : a.KeepsScheme b) : a.same b = true ↔ a = b := by
  refine ⟨h, ?_⟩
  rintro rfl
  exact beq_self_eq_true a.get

lemma keepsScheme_of_eq (h : b = a) : a.KeepsScheme b := fun _ => h.symm

lemma keepsScheme_null : a.KeepsScheme .null := by
  cases a with
  | null => exact fun _ => rfl
  | key point legacy => exact nofun

end CBLSLazyPublicKey

def legacyBlsVersion : Nat := 1

def basicBlsVersion : Nat := 2

/-! ## States -/

/-- `CDeterministicMNState`, with the values of a state just constructed. -/
structure CDeterministicMNState where
  nPoSeBanHeight : Int := -1
  nVersion : Nat := legacyBlsVersion
  nRegisteredHeight : Int := -1
  nLastPaidHeight : Int := 0
  nConsecutivePayments : Int := 0
  nPoSePenalty : Int := 0
  nPoSeRevivedHeight : Int := -1
  nRevocationReason : Nat := 0
  confirmedHash : Uint256 := 0
  confirmedHashWithProRegTxHash : Uint256 := 0
  keyIDOwner : CKeyID := 0
  pubKeyOperator : CBLSLazyPublicKey := .null
  keyIDVoting : CKeyID := 0
  addr : CService := .null
  scriptPayout : CScript := []
  scriptOperatorPayout : CScript := []
  platformNodeID : Nat := 0
  platformP2PPort : Nat := 0
  platformHTTPPort : Nat := 0
  deriving DecidableEq

namespace CDeterministicMNState

def resetOperatorFields (s : CDeterministicMNState) : CDeterministicMNState :=
  { s with
    nVersion := legacyBlsVersion, pubKeyOperator := .null, addr := .null
    scriptOperatorPayout := [], nRevocationReason := 0, platformNodeID := 0 }

def isBanned (s : CDeterministicMNState) : Bool := s.nPoSeBanHeight != -1

def banIfNotBanned (height : Int) (s : CDeterministicMNState) : CDeterministicMNState :=
  if s.isBanned then s else { s with nPoSeBanHeight := height }

def revive (nRevivedHeight : Int) (s : CDeterministicMNState) : CDeterministicMNState :=
  { s with nPoSePenalty := 0, nPoSeBanHeight := -1, nPoSeRevivedHeight := nRevivedHeight }

/-- `UpdateConfirmedHash`; `sha256` hashes the two values one after the other. -/
def updateConfirmedHash (sha256 : Uint256 → Uint256 → Uint256) (proTxHash confirmedHash : Uint256)
    (s : CDeterministicMNState) : CDeterministicMNState :=
  { s with
    confirmedHash := confirmedHash
    confirmedHashWithProRegTxHash := sha256 proTxHash confirmedHash }

/-! The fields that masternodes may not share are only changed where a test below
says so. -/

section Keys

variable (s : CDeterministicMNState) (height : Int)

@[simp] lemma banIfNotBanned_addr : (s.banIfNotBanned height).addr = s.addr := by
  unfold banIfNotBanned
  split <;> rfl

@[simp] lemma banIfNotBanned_keyIDOwner :
    (s.banIfNotBanned height).keyIDOwner = s.keyIDOwner := by
  unfold banIfNotBanned
  split <;> rfl

@[simp] lemma banIfNotBanned_pubKeyOperator :
    (s.banIfNotBanned height).pubKeyOperator = s.pubKeyOperator := by
  unfold banIfNotBanned
  split <;> rfl

end Keys

end CDeterministicMNState

/-! ## State diffs -/

/-- `CDeterministicMNStateDiff::Field`. -/
inductive StateField where
  | nRegisteredHeight
  | nLastPaidHeight
  | nPoSePenalty
  | nPoSeRevivedHeight
  | nPoSeBanHeight
  | nRevocationReason
  | confirmedHash
  | confirmedHashWithProRegTxHash
  | keyIDOwner
  | pubKeyOperator
  | keyIDVoting
  | addr
  | scriptPayout
  | scriptOperatorPayout
  | nConsecutivePayments
  | platformNodeID
  | platformP2PPort
  | platformHTTPPort
  | nVersion
  deriving DecidableEq

/-- The fields in the order of `DMN_STATE_DIFF_ALL_FIELDS`. -/
def StateField.all : List StateField :=
  [.nRegisteredHeight, .nLastPaidHeight, .nPoSePenalty, .nPoSeRevivedHeight, .nPoSeBanHeight,
    .nRevocationReason, .confirmedHash, .confirmedHashWithProRegTxHash, .keyIDOwner,
    .pubKeyOperator, .keyIDVoting, .addr, .scriptPayout, .scriptOperatorPayout,
    .nConsecutivePayments, .platformNodeID, .platformP2PPort, .platformHTTPPort, .nVersion]

/-- `CDeterministicMNStateDiff`: the set of `fields` whose values in `state` count. -/
structure CDeterministicMNStateDiff where
  fields : StateField → Bool
  state : CDeterministicMNState

namespace CDeterministicMNStateDiff

/-- `stateDiff.fields` as a condition. -/
def hasFields (d : CDeterministicMNStateDiff) : Bool := StateField.all.any d.fields

section

variable (a b : CDeterministicMNState)

/-- The fields in which two states differ. -/
def changed : StateField → Bool
  | .nRegisteredHeight => a.nRegisteredHeight != b.nRegisteredHeight
  | .nLastPaidHeight => a.nLastPaidHeight != b.nLastPaidHeight
  | .nPoSePenalty => a.nPoSePenalty != b.nPoSePenalty
  | .nPoSeRevivedHeight => a.nPoSeRevivedHeight != b.nPoSeRevivedHeight
  | .nPoSeBanHeight => a.nPoSeBanHeight != b.nPoSeBanHeight
  | .nRevocationReason => a.nRevocationReason != b.nRevocationReason
  | .confirmedHash => a.confirmedHash != b.confirmedHash
  | .confirmedHashWithProRegTxHash =>
    a.confirmedHashWithProRegTxHash != b.confirmedHashWithProRegTxHash
  | .keyIDOwner => a.keyIDOwner != b.keyIDOwner
  | .pubKeyOperator => !a.pubKeyOperator.same b.pubKeyOperator
  | .keyIDVoting => a.keyIDVoting != b.keyIDVoting
  | .addr => a.addr != b.addr
  | .scriptPayout => a.scriptPayout != b.scriptPayout
  | .scriptOperatorPayout => a.scriptOperatorPayout != b.scriptOperatorPayout
  | .nConsecutivePayments => a.nConsecutivePayments != b.nConsecutivePayments
  | .platformNodeID => a.platformNodeID != b.platformNodeID
  | .platformP2PPort => a.platformP2PPort != b.platformP2PPort
  | .platformHTTPPort => a.platformHTTPPort != b.platformHTTPPort
  | .nVersion => a.nVersion != b.nVersion

def applyToState (d : CDeterministicMNStateDiff) (target : CDeterministicMNState) :
    CDeterministicMNState where
  nRegisteredHeight :=
    if d.fields .nRegisteredHeight then d.state.nRegisteredHeight else target.nRegisteredHeight
  nLastPaidHeight :=
    if d.fields .nLastPaidHeight then d.state.nLastPaidHeight else target.nLastPaidHeight
  nPoSePenalty := if d.fields .nPoSePenalty then d.state.nPoSePenalty else target.nPoSePenalty
  nPoSeRevivedHeight :=
    if d.fields .nPoSeRevivedHeight then d.state.nPoSeRevivedHeight else target.nPoSeRevivedHeight
  nPoSeBanHeight :=
    if d.fields .nPoSeBanHeight then d.state.nPoSeBanHeight else target.nPoSeBanHeight
  nRevocationReason :=
    if d.fields .nRevocationReason then d.state.nRevocationReason else target.nRevocationReason
  confirmedHash := if d.fields .confirmedHash then d.state.confirmedHash else target.confirmedHash
  confirmedHashWithProRegTxHash :=
    if d.fields .confirmedHashWithProRegTxHash then d.state.confirmedHashWithProRegTxHash
    else target.confirmedHashWithProRegTxHash
  keyIDOwner := if d.fields .keyIDOwner then d.state.keyIDOwner else target.keyIDOwner
  pubKeyOperator :=
    if d.fields .pubKeyOperator then d.state.pubKeyOperator else target.pubKeyOperator
  keyIDVoting := if d.fields .keyIDVoting then d.state.keyIDVoting else target.keyIDVoting
  addr := if d.fields .addr then d.state.addr else target.addr
  scriptPayout := if d.fields .scriptPayout then d.state.scriptPayout else target.scriptPayout
  scriptOperatorPayout :=
    if d.fields .scriptOperatorPayout then d.state.scriptOperatorPayout
    else target.scriptOperatorPayout
  nConsecutivePayments :=
    if d.fields .nConsecutivePayments then d.state.nConsecutivePayments
    else target.nConsecutivePayments
  platformNodeID :=
    if d.fields .platformNodeID then d.state.platformNodeID else target.platformNodeID
  platformP2PPort :=
    if d.fields .platformP2PPort then d.state.platformP2PPort else target.platformP2PPort
  platformHTTPPort :=
    if d.fields .platformHTTPPort then d.state.platformHTTPPort else target.platformHTTPPort
  nVersion := if d.fields .nVersion then d.state.nVersion else target.nVersion

/-- `CDeterministicMNStateDiff(a, b)`: a changed operator key takes the version with it.
Fields that have not changed keep the value of a new state. -/
def diff : CDeterministicMNStateDiff :=
  let fields := fun
    | .nVersion => changed a b .nVersion || changed a b .pubKeyOperator
    | f => changed a b f
  { fields := fields
    state := applyToState { fields := fields, state := b } {} }

/-- One line of `ApplyToState` after the same line of the constructor. -/
lemma apply_line {α : Type} (changed : Bool) (x y d : α) (h : changed = false → x = y) :
    (if changed then (if changed then y else d) else x) = y := by
  cases changed with
  | true => rfl
  | false => exact h rfl

/-- What the diff of two states makes of the first one: the second one, with the old operator
key where `operator==` takes it for the new one. -/
def restored : CDeterministicMNState :=
  { b with pubKeyOperator :=
      if a.pubKeyOperator.same b.pubKeyOperator then a.pubKeyOperator else b.pubKeyOperator }

/-- A state diff takes the first state to the second, but for the scheme of an operator key that
stays. -/
lemma applyToState_diff : (diff a b).applyToState a = restored a b := by
  cases b
  simp only [applyToState, diff, restored, CDeterministicMNState.mk.injEq]
  refine ⟨?_, ?_, ?_, ?_, ?_, ?_, ?_, ?_, ?_, ?_, ?_, ?_, ?_, ?_, ?_, ?_, ?_, ?_, ?_⟩
  -- the version is also written when only the operator key has changed
  case refine_2 =>
    apply apply_line
    intro h
    rw [or_eq_false_iff] at h
    exact bne_eq_false_iff_eq.mp h.1
  case refine_12 =>
    simp only [changed]
    split_ifs <;> simp_all
  all_goals exact apply_line _ _ _ _ bne_eq_false_iff_eq.mp

variable {a b} in
lemma restored_eq (h : a.pubKeyOperator.KeepsScheme b.pubKeyOperator) : restored a b = b := by
  unfold restored
  split_ifs with hsame
  · rw [h hsame]
  · rfl

lemma get_restored : (restored a b).pubKeyOperator.get = b.pubKeyOperator.get := by
  unfold restored
  split_ifs with hsame
  · exact eq_of_beq hsame
  · rfl

lemma keepsScheme_restored :
    a.pubKeyOperator.KeepsScheme (restored a b).pubKeyOperator := by
  unfold restored
  split_ifs with hsame
  · exact fun _ => rfl
  · exact fun h => absurd h hsame

/-- A state diff is empty exactly when it changes nothing. -/
lemma hasFields_diff : (diff a b).hasFields = false ↔ restored a b = a := by
  constructor
  · intro h
    have hnone : ∀ f, (diff a b).fields f = false := by
      intro f
      have hall := List.any_eq_false.mp h
      cases f <;> exact not_eq_true _ ▸ hall _ (by decide)
    rw [← applyToState_diff]
    simp [applyToState, hnone]
  · intro h
    have hkey : a.pubKeyOperator.same b.pubKeyOperator = true := by
      by_contra hnot
      have hnew : b.pubKeyOperator = a.pubKeyOperator := by
        rw [← congrArg CDeterministicMNState.pubKeyOperator h, restored, if_neg hnot]
      exact hnot (hnew ▸ beq_self_eq_true _)
    obtain ⟨key, rfl⟩ : ∃ key, b = { a with pubKeyOperator := key } := by
      refine ⟨b.pubKeyOperator, ?_⟩
      rw [← h]
      rfl
    simp [hasFields, diff, changed, StateField.all, hkey]

end

end CDeterministicMNStateDiff

end HootChain.Evo
