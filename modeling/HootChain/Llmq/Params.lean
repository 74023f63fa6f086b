import Mathlib.Tactic

/-!
# LLMQ Parameters (`llmq/params.h`)

The quorum types and, of each parameter set, the fields that the modelled code reads.
-/

namespace HootChain.Llmq

inductive LLMQType where
  | none
  | llmq50_60
  | llmq400_60
  | llmq400_85
  | llmq100_67
  | llmq60_75
  | test
  | devnet
  | devnetPlatform
  | testV17
  | testDip0024
  | testInstantSend
  | testPlatform
  | devnetDip0024
  deriving DecidableEq

/-- The types in the order of a map that is keyed by them. -/
def LLMQType.all : List LLMQType :=
  [.llmq50_60, .llmq400_60, .llmq400_85, .llmq100_67, .llmq60_75, .test, .devnet, .testV17,
    .testDip0024, .testInstantSend, .devnetDip0024, .testPlatform, .devnetPlatform, .none]

structure LLMQParams where
  type : LLMQType
  useRotation : Bool
  size : Int
  minSize : Int
  threshold : Int
  dkgInterval : Int
  dkgMiningWindowStart : Int
  dkgMiningWindowEnd : Int
  signingActiveQuorumCount : Nat
  keepOldConnections : Int
  deriving DecidableEq

def llmq_test : LLMQParams :=
  { type := .test, useRotation := false, size := 3, minSize := 2, threshold := 2
    dkgInterval := 24, dkgMiningWindowStart := 10, dkgMiningWindowEnd := 18
    signingActiveQuorumCount := 2, keepOldConnections := 3 }

def llmq_test_instantsend : LLMQParams :=
  { type := .testInstantSend, useRotation := false, size := 3, minSize := 2, threshold := 2
    dkgInterval := 24, dkgMiningWindowStart := 10, dkgMiningWindowEnd := 18
    signingActiveQuorumCount := 2, keepOldConnections := 3 }

def llmq_test_v17 : LLMQParams :=
  { type := .testV17, useRotation := false, size := 3, minSize := 2, threshold := 2
    dkgInterval := 24, dkgMiningWindowStart := 10, dkgMiningWindowEnd := 18
    signingActiveQuorumCount := 2, keepOldConnections := 3 }

def llmq_test_dip0024 : LLMQParams :=
  { type := .testDip0024, useRotation := true, size := 4, minSize := 4, threshold := 3
    dkgInterval := 24, dkgMiningWindowStart := 12, dkgMiningWindowEnd := 20
    signingActiveQuorumCount := 2, keepOldConnections := 4 }

def llmq_test_platform : LLMQParams :=
  { type := .testPlatform, useRotation := false, size := 3, minSize := 2, threshold := 2
    dkgInterval := 24, dkgMiningWindowStart := 10, dkgMiningWindowEnd := 18
    signingActiveQuorumCount := 2, keepOldConnections := 4 }

def llmq_devnet : LLMQParams :=
  { type := .devnet, useRotation := false, size := 12, minSize := 7, threshold := 6
    dkgInterval := 24, dkgMiningWindowStart := 10, dkgMiningWindowEnd := 18
    signingActiveQuorumCount := 4, keepOldConnections := 5 }

def llmq_devnet_dip0024 : LLMQParams :=
  { type := .devnetDip0024, useRotation := true, size := 8, minSize := 6, threshold := 4
    dkgInterval := 48, dkgMiningWindowStart := 12, dkgMiningWindowEnd := 20
    signingActiveQuorumCount := 2, keepOldConnections := 4 }

def llmq_devnet_platform : LLMQParams :=
  { type := .devnetPlatform, useRotation := false, size := 12, minSize := 9, threshold := 8
    dkgInterval := 24, dkgMiningWindowStart := 10, dkgMiningWindowEnd := 18
    signingActiveQuorumCount := 4, keepOldConnections := 5 }

def llmq_50_60 : LLMQParams :=
  { type := .llmq50_60, useRotation := false, size := 50, minSize := 40, threshold := 30
    dkgInterval := 24, dkgMiningWindowStart := 10, dkgMiningWindowEnd := 18
    signingActiveQuorumCount := 24, keepOldConnections := 25 }

def llmq_10_60 : LLMQParams :=
  { type := .llmq50_60, useRotation := false, size := 10, minSize := 8, threshold := 7
    dkgInterval := 24, dkgMiningWindowStart := 10, dkgMiningWindowEnd := 18
    signingActiveQuorumCount := 6, keepOldConnections := 25 }

def llmq_60_75 : LLMQParams :=
  { type := .llmq60_75, useRotation := true, size := 60, minSize := 50, threshold := 45
    dkgInterval := 24 * 12, dkgMiningWindowStart := 42, dkgMiningWindowEnd := 50
    signingActiveQuorumCount := 32, keepOldConnections := 64 }

def llmq_20_75 : LLMQParams :=
  { type := .llmq60_75, useRotation := true, size := 20, minSize := 16, threshold := 15
    dkgInterval := 24 * 12, dkgMiningWindowStart := 42, dkgMiningWindowEnd := 50
    signingActiveQuorumCount := 8, keepOldConnections := 64 }

def llmq_10_75 : LLMQParams :=
  { type := .llmq60_75, useRotation := true, size := 10, minSize := 8, threshold := 7
    dkgInterval := 24 * 12, dkgMiningWindowStart := 42, dkgMiningWindowEnd := 50
    signingActiveQuorumCount := 8, keepOldConnections := 64 }

def llmq_400_60 : LLMQParams :=
  { type := .llmq400_60, useRotation := false, size := 400, minSize := 300, threshold := 240
    dkgInterval := 24 * 12, dkgMiningWindowStart := 20, dkgMiningWindowEnd := 28
    signingActiveQuorumCount := 4, keepOldConnections := 5 }

def llmq_40_60 : LLMQParams :=
  { type := .llmq400_60, useRotation := false, size := 40, minSize := 30, threshold := 24
    dkgInterval := 30 * 12, dkgMiningWindowStart := 20, dkgMiningWindowEnd := 28
    signingActiveQuorumCount := 4, keepOldConnections := 5 }

def llmq_20_60 : LLMQParams :=
  { type := .llmq400_60, useRotation := false, size := 20, minSize := 15, threshold := 12
    dkgInterval := 30 * 12, dkgMiningWindowStart := 20, dkgMiningWindowEnd := 28
    signingActiveQuorumCount := 4, keepOldConnections := 5 }

def llmq_400_85 : LLMQParams :=
  { type := .llmq400_85, useRotation := false, size := 400, minSize := 350, threshold := 340
    dkgInterval := 24 * 24, dkgMiningWindowStart := 20, dkgMiningWindowEnd := 48
    signingActiveQuorumCount := 4, keepOldConnections := 5 }

def llmq_40_85 : LLMQParams :=
  { type := .llmq400_85, useRotation := false, size := 40, minSize := 35, threshold := 34
    dkgInterval := 30 * 24, dkgMiningWindowStart := 20, dkgMiningWindowEnd := 48
    signingActiveQuorumCount := 4, keepOldConnections := 5 }

def llmq_20_85 : LLMQParams :=
  { type := .llmq400_85, useRotation := false, size := 20, minSize := 18, threshold := 17
    dkgInterval := 30 * 24, dkgMiningWindowStart := 20, dkgMiningWindowEnd := 48
    signingActiveQuorumCount := 4, keepOldConnections := 5 }

def llmq_100_67 : LLMQParams :=
  { type := .llmq100_67, useRotation := false, size := 100, minSize := 80, threshold := 67
    dkgInterval := 24, dkgMiningWindowStart := 10, dkgMiningWindowEnd := 18
    signingActiveQuorumCount := 24, keepOldConnections := 25 }

def parameterSets : List LLMQParams :=
  [llmq_test, llmq_test_instantsend, llmq_test_v17, llmq_test_dip0024, llmq_test_platform,
    llmq_devnet, llmq_devnet_dip0024, llmq_devnet_platform, llmq_50_60, llmq_10_60, llmq_60_75,
    llmq_20_75, llmq_10_75, llmq_400_60, llmq_40_60, llmq_20_60, llmq_400_85, llmq_40_85,
    llmq_20_85, llmq_100_67]

/-- The quorums of a cycle are all started before its mining window. -/
def LLMQParams.StartsBeforeMining (params : LLMQParams) : Prop :=
  1 ≤ params.dkgMiningWindowStart ∧
    (params.useRotation → params.signingActiveQuorumCount ≤ params.dkgMiningWindowStart)

instance (params : LLMQParams) : Decidable params.StartsBeforeMining :=
  inferInstanceAs (Decidable (_ ∧ _))

lemma parameterSets_startBeforeMining : ∀ params ∈ parameterSets, params.StartsBeforeMining := by
  decide

end HootChain.Llmq
