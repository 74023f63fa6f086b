import Mathlib.Tactic

/-!
# Consensus Parameters (`consensus/params.h`, `chainparams.cpp`)

The parameters that the modelled rules read, with the values the four network
definitions give them. Amounts and times are `int64_t` in the source and are
integers here; heights are naturals.
-/

namespace HootChain.Consensus

/-! ## Amounts (`amount.h`) -/

/-- Amount in satoshis. -/
abbrev CAmount := Int

def coin : CAmount := 100000000

/-- `MAX_MONEY`: no amount larger than this is valid. -/
def maxMoney : CAmount := 9950000 * coin

def moneyRange (nValue : CAmount) : Bool := 0 ≤ nValue && nValue ≤ maxMoney

/-! ## Networks and deployments -/

def intMax : Int := 2 ^ 31 - 1

/-- The networks of `CBaseChainParams`. -/
inductive Network where
  | main
  | test
  | devnet
  | regtest
  deriving DecidableEq

inductive DeploymentPos where
  | testDummy
  | v20
  | mnRR

structure BIP9Deployment where
  bit : Nat
  nStartTime : Int
  nTimeout : Int
  nWindowSize : Nat := 0
  nThresholdStart : Int := 0
  nThresholdMin : Int := 0
  nFalloffCoeff : Int := 0
  useEHF : Bool := false

/-- `BIP9Deployment::NO_TIMEOUT`, the largest `int64_t`. -/
def noTimeout : Int := 2 ^ 63 - 1

def alwaysActive : Int := -1

/-- `Consensus::Params`, the fields read by the modelled rules. -/
structure Params where
  network : Network
  nSubsidyHalvingInterval : Nat
  nBudgetPaymentsStartBlock : Nat
  nBudgetPaymentsCycleBlocks : Nat
  nBudgetPaymentsWindowBlocks : Nat
  nSuperblockStartBlock : Nat
  nSuperblockCycle : Nat
  nRuleChangeActivationThreshold : Nat
  nMinerConfirmationWindow : Nat
  vDeployments : DeploymentPos → BIP9Deployment
  nAuxpowChainId : Int
  fStrictChainId : Bool
  nMasternodeMinimumConfirmations : Int
  dip0003Height : Nat
  dip0003EnforcementHeight : Nat
  v19Height : Nat
  evonodeHeight : Nat
  nHighSubsidyBlocks : Nat := 0
  nHighSubsidyFactor : Int := 1

/-- The `TESTDUMMY` deployment of all networks but regtest. -/
def testDummyDeployment : BIP9Deployment :=
  { bit := 28, nStartTime := 1199145601, nTimeout := 1230767999 }

def mainParams : Params where
  network := .main
  nSubsidyHalvingInterval := 129600
  nBudgetPaymentsStartBlock := 250
  nBudgetPaymentsCycleBlocks := 250
  nBudgetPaymentsWindowBlocks := 100
  nSuperblockStartBlock := 599
  nSuperblockCycle := 1440 * 60
  nRuleChangeActivationThreshold := 722
  nMinerConfirmationWindow := 1440
  vDeployments
    | .testDummy => testDummyDeployment
    | .v20 =>
      { bit := 9, nStartTime := 0, nTimeout := 1740787200, nWindowSize := 4032
        nThresholdStart := 3226, nThresholdMin := 2420, nFalloffCoeff := 5 }
    | .mnRR =>
      { bit := 10, nStartTime := 0, nTimeout := 1740787200, nWindowSize := 4032
        nThresholdStart := 3226, nThresholdMin := 2420, nFalloffCoeff := 5, useEHF := true }
  nAuxpowChainId := 0x0088
  fStrictChainId := true
  nMasternodeMinimumConfirmations := 15
  dip0003Height := 2
  dip0003EnforcementHeight := 2
  v19Height := 350
  evonodeHeight := 271000

def testNetParams : Params where
  network := .test
  nSubsidyHalvingInterval := 172800
  nBudgetPaymentsStartBlock := 250
  nBudgetPaymentsCycleBlocks := 50
  nBudgetPaymentsWindowBlocks := 10
  nSuperblockStartBlock := 599
  nSuperblockCycle := 120
  nRuleChangeActivationThreshold := 720
  nMinerConfirmationWindow := 960
  vDeployments
    | .testDummy => testDummyDeployment
    | .v20 =>
      { bit := 9, nStartTime := 0, nTimeout := noTimeout, nWindowSize := 100
        nThresholdStart := 80, nThresholdMin := 60, nFalloffCoeff := 5 }
    | .mnRR =>
      { bit := 10, nStartTime := 0, nTimeout := noTimeout, nWindowSize := 100
        nThresholdStart := 80, nThresholdMin := 60, nFalloffCoeff := 5, useEHF := true }
  nAuxpowChainId := 0x0088
  fStrictChainId := true
  nMasternodeMinimumConfirmations := 1
  dip0003Height := 2
  dip0003EnforcementHeight := 2
  v19Height := 300
  evonodeHeight := 2500

/-- `CDevNetParams`, without command line overrides. -/
def devNetParams : Params where
  network := .devnet
  nSubsidyHalvingInterval := 172800
  nBudgetPaymentsStartBlock := 4100
  nBudgetPaymentsCycleBlocks := 50
  nBudgetPaymentsWindowBlocks := 10
  nSuperblockStartBlock := 4200
  nSuperblockCycle := 24
  nRuleChangeActivationThreshold := 1512
  nMinerConfirmationWindow := 2016
  vDeployments
    | .testDummy => testDummyDeployment
    | .v20 =>
      { bit := 9, nStartTime := 0, nTimeout := noTimeout, nWindowSize := 120
        nThresholdStart := 80, nThresholdMin := 60, nFalloffCoeff := 5 }
    | .mnRR =>
      { bit := 10, nStartTime := 0, nTimeout := noTimeout, nWindowSize := 120
        nThresholdStart := 80, nThresholdMin := 60, nFalloffCoeff := 5, useEHF := true }
  nAuxpowChainId := 0x0062
  fStrictChainId := false
  nMasternodeMinimumConfirmations := 1
  dip0003Height := 2
  dip0003EnforcementHeight := 2
  v19Height := 300
  evonodeHeight := 2700

/-- `CRegTestParams`, without command line overrides. -/
def regTestParams : Params where
  network := .regtest
  nSubsidyHalvingInterval := 150
  nBudgetPaymentsStartBlock := 1000
  nBudgetPaymentsCycleBlocks := 50
  nBudgetPaymentsWindowBlocks := 10
  nSuperblockStartBlock := 1500
  nSuperblockCycle := 20
  nRuleChangeActivationThreshold := 108
  nMinerConfirmationWindow := 144
  vDeployments
    | .testDummy => { bit := 28, nStartTime := 0, nTimeout := noTimeout }
    | .v20 =>
      { bit := 9, nStartTime := 0, nTimeout := noTimeout, nWindowSize := 400
        nThresholdStart := 384, nThresholdMin := 288, nFalloffCoeff := 5 }
    | .mnRR =>
      { bit := 10, nStartTime := 0, nTimeout := noTimeout, nWindowSize := 12
        nThresholdStart := 9, nThresholdMin := 7, nFalloffCoeff := 5, useEHF := true }
  nAuxpowChainId := 0x0062
  fStrictChainId := true
  nMasternodeMinimumConfirmations := 1
  dip0003Height := 432
  dip0003EnforcementHeight := 500
  v19Height := 900
  evonodeHeight := 2700

def createChainParams : Network → Params
  | .main => mainParams
  | .test => testNetParams
  | .devnet => devNetParams
  | .regtest => regTestParams

end HootChain.Consensus
