import HootChain.Primitives.Transaction
import HootChain.Serialize.VarInt

/-!
# Standard Scripts (`script/script.cpp`, `script/standard.cpp`)

A script is read opcode by opcode; `Solver` recognises the forms that wallets
use, and `ExtractDestination` gives the destination of those that pay to one
key or one script.
-/

namespace HootChain.Script

open Primitives Serialize Bool

/-! ## Opcodes -/

def opPushData1 : UInt8 := 0x4c
def opPushData2 : UInt8 := 0x4d
def opPushData4 : UInt8 := 0x4e
def op1 : UInt8 := 0x51
def op16 : UInt8 := 0x60
def opReturn : UInt8 := 0x6a
def opDup : UInt8 := 0x76
def opEqual : UInt8 := 0x87
def opEqualVerify : UInt8 := 0x88
def opHash160 : UInt8 := 0xa9
def opCheckSig : UInt8 := 0xac
def opCheckMultiSig : UInt8 := 0xae

/-- The immediate operand of a push: `nSize` bytes, if the script has that many left. -/
def readOperand (opcode : UInt8) (nSize : Nat) (pc : CScript) :
    Option (UInt8 × List UInt8 × CScript) :=
  if pc.length < nSize then none else some (opcode, pc.take nSize, pc.drop nSize)

/-- The number of length bytes behind `OP_PUSHDATA1`, `OP_PUSHDATA2` and `OP_PUSHDATA4`. -/
def sizeWidth (opcode : UInt8) : Nat :=
  if opcode = opPushData1 then 1 else if opcode = opPushData2 then 2 else 4

/-- `GetScriptOp`: the opcode, what it pushes, and the script behind it. -/
def getScriptOp : CScript → Option (UInt8 × List UInt8 × CScript)
  | [] => none
  | opcode :: pc =>
    if opcode < opPushData1 then readOperand opcode opcode.toNat pc
    else if opcode ≤ opPushData4 then
      if pc.length < sizeWidth opcode then none
      else
        readOperand opcode (fromLittleEndian (pc.take (sizeWidth opcode)))
          (pc.drop (sizeWidth opcode))
    else some (opcode, [], pc)

variable {op : UInt8} {rest script : CScript} {data : List UInt8}

lemma length_readOperand {opcode : UInt8} {nSize : Nat} {pc : CScript}
    (h : readOperand opcode nSize pc = some (op, data, rest)) : rest.length ≤ pc.length := by
  unfold readOperand at h
  split at h
  · cases h
  · cases h
    simp

/-- Every opcode takes at least one byte. -/
lemma length_getScriptOp (h : getScriptOp script = some (op, data, rest)) :
    rest.length < script.length := by
  cases script with
  | nil => cases h
  | cons opcode pc =>
    rw [getScriptOp] at h
    apply Nat.lt_succ_of_le
    split_ifs at h
    · exact length_readOperand h
    · exact (length_readOperand h).trans (by simp)
    · cases h
      exact le_rfl

def isPushOnly (script : CScript) : Bool :=
  if script = [] then true
  else
    match h : getScriptOp script with
    | none => false
    | some (opcode, _, rest) =>
      have : rest.length < script.length := length_getScriptOp h
      if opcode > op16 then false else isPushOnly rest
termination_by script.length

section

variable (script : CScript)

def isPayToPublicKeyHash : Bool :=
  script.length == 25 && script[0]? == some opDup && script[1]? == some opHash160 &&
    script[2]? == some 0x14 && script[23]? == some opEqualVerify && script[24]? == some opCheckSig

def isPayToScriptHash : Bool :=
  script.length == 23 && script[0]? == some opHash160 && script[1]? == some 0x14 &&
    script[22]? == some opEqual

/-! ## `Solver` -/

inductive TxoutType where
  | nonstandard
  | pubkey
  | pubkeyhash
  | scripthash
  | multisig
  | nullData

/-- `CPubKey::GetLen`. -/
def pubKeyLength (chHeader : UInt8) : Nat :=
  if chHeader = 2 ∨ chHeader = 3 then 33
  else if chHeader = 4 ∨ chHeader = 6 ∨ chHeader = 7 then 65
  else 0

def validSize (vch : List UInt8) : Bool :=
  match vch with
  | [] => false
  | chHeader :: _ => pubKeyLength chHeader == vch.length

/-- `MatchPayToPubkey`: a key of `size` bytes between its length and `OP_CHECKSIG`. -/
def matchKeyOfSize (size : Nat) (script : CScript) : Option (List UInt8) :=
  if script.length = size + 2 ∧ script[0]? = some (UInt8.ofNat size) ∧
      script.getLast? = some opCheckSig then
    some ((script.drop 1).take size)
  else none

def matchPayToPubkey : Option (List UInt8) :=
  ((matchKeyOfSize 65 script).or (matchKeyOfSize 33 script)).filter validSize

def matchPayToPubkeyHash : Option (List UInt8) :=
  if isPayToPublicKeyHash script then some ((script.drop 3).take 20) else none

def isSmallInteger (opcode : UInt8) : Bool := op1 ≤ opcode && opcode ≤ op16

/-- `CScript::DecodeOP_N` of a small integer. -/
def decodeOpN (opcode : UInt8) : Nat := opcode.toNat - (op1.toNat - 1)

/-- The loop of `MatchMultisig` over the keys: the keys, the opcode that ended it and the
script behind that opcode. -/
def multisigKeys (script : CScript) : Option (List (List UInt8) × UInt8 × CScript) :=
  match h : getScriptOp script with
  | none => none
  | some (opcode, data, rest) =>
    have : rest.length < script.length := length_getScriptOp h
    if validSize data then
      (multisigKeys rest).map fun (pubkeys, last) => (data :: pubkeys, last)
    else some ([], opcode, rest)
termination_by script.length

def matchMultisig : Option (Nat × List (List UInt8)) := do
  if script.getLast? ≠ some opCheckMultiSig then none
  let (opcode, _, rest) ← getScriptOp script
  if !isSmallInteger opcode then none
  let required := decodeOpN opcode
  let (pubkeys, opcode, rest) ← multisigKeys rest
  if !isSmallInteger opcode then none
  let keys := decodeOpN opcode
  if pubkeys.length ≠ keys ∨ keys < required then none
  if rest.length ≠ 1 then none
  return (required, pubkeys)

def solver (scriptPubKey : CScript) : TxoutType × List (List UInt8) :=
  if isPayToScriptHash scriptPubKey then (.scripthash, [(scriptPubKey.drop 2).take 20])
  else if scriptPubKey[0]? = some opReturn ∧ isPushOnly scriptPubKey.tail then (.nullData, [])
  else
    match matchPayToPubkey scriptPubKey with
    | some pubkey => (.pubkey, [pubkey])
    | none =>
      match matchPayToPubkeyHash scriptPubKey with
      | some pubkeyhash => (.pubkeyhash, [pubkeyhash])
      | none =>
        match matchMultisig scriptPubKey with
        | some (required, keys) =>
          (.multisig, [UInt8.ofNat required] :: keys ++ [[UInt8.ofNat keys.length]])
        | none => (.nonstandard, [])

/-! ## `ExtractDestination` -/

/-- `CTxDestination`; the hash of a key is represented by the key. -/
inductive CTxDestination where
  | pkHash (hash : List UInt8)
  | pkHashOf (pubKey : List UInt8)
  | scriptHash (hash : List UInt8)

def extractDestination (scriptPubKey : CScript) : Option CTxDestination :=
  match solver scriptPubKey with
  | (.pubkey, pubkey :: _) => if validSize pubkey then some (.pkHashOf pubkey) else none
  | (.pubkeyhash, hash :: _) => some (.pkHash hash)
  | (.scripthash, hash :: _) => some (.scriptHash hash)
  | _ => none

/-- The scripts that provider transactions may pay to. -/
def isPayoutScript : Bool := isPayToPublicKeyHash script || isPayToScriptHash script

end

end HootChain.Script
