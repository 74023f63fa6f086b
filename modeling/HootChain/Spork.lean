import HootChain.Consensus.Params
import HootChain.Serialize.VarInt

/-!
# Spork Signatures (`spork.cpp`, `messagesigner.cpp`)

A spork message switches a feature by a number; it is valid if it is signed by one of
the spork keys. What is signed depends on the network. On the test network it is the
fixed-width serialization of the message; elsewhere it is a text, the decimal
renderings of the three numbers one after the other, and nothing says where one ends
and the next begins.
-/

namespace HootChain.Spork

open Consensus Serialize List

/-! ## Messages -/

/-- The signed fields of `CSporkMessage`. -/
structure SporkData where
  nSporkID : Int32
  nValue : Int64
  nTimeSigned : Int64
  deriving DecidableEq

open SporkData

/-- What `CHashWriter` has been fed in `GetSignatureHash`. -/
def SporkData.serializedData (spork : SporkData) : List UInt8 :=
  toLittleEndian 4 spork.nSporkID.toUInt32.toNat ++
    (toLittleEndian 8 spork.nValue.toUInt64.toNat ++
      toLittleEndian 8 spork.nTimeSigned.toUInt64.toNat)

/-- `ToString` of an integer. -/
def toText : Int → List Char
  | .ofNat n => Nat.toDigits 10 n
  | .negSucc n => '-' :: Nat.toDigits 10 (n + 1)

/-- `strMessage`. -/
def SporkData.messageText (spork : SporkData) : List Char :=
  toText spork.nSporkID.toInt ++ (toText spork.nValue.toInt ++ toText spork.nTimeSigned.toInt)

/-- The bytes of an ASCII text. -/
def textBytes (text : List Char) : List UInt8 := text.map fun c => UInt8.ofNat c.toNat

def messageMagic : List UInt8 := textBytes "DarkCoin Signed Message:\n".toList

/-- The bytes that are hashed and signed. -/
def SporkData.signedBytes (network : Network) (spork : SporkData) : List UInt8 :=
  if network = .test then spork.serializedData
  else writeString messageMagic ++ writeString (textBytes spork.messageText)

/-! ## Signatures -/

/-- Keys, hashes and compact signatures. -/
structure SignatureScheme (Hash Key KeyID Sig : Type) where
  /-- `CHashWriter::GetHash`. -/
  hash : List UInt8 → Hash
  /-- `GetPubKey().GetID()`. -/
  keyID : Key → KeyID
  isValid : Key → Bool
  signCompact : Hash → Key → Sig
  /-- `CPubKey::RecoverCompact`, the id of the key that it recovers. -/
  recoverCompact : Hash → Sig → Option KeyID

/-- The hash has no collisions, and from a signature for one hash no key is recovered for
another. -/
structure SignatureScheme.Ideal {Hash Key KeyID Sig : Type}
    (scheme : SignatureScheme Hash Key KeyID Sig) : Prop where
  hash_injective : Function.Injective scheme.hash
  hash_eq : ∀ {h h' key key'},
    scheme.recoverCompact h' (scheme.signCompact h key) = some (scheme.keyID key') → h = h'

structure CSporkMessage (Sig : Type) extends SporkData where
  vchSig : Sig
  deriving DecidableEq

section Signing

variable {Hash Key KeyID Sig : Type} [DecidableEq KeyID]
  (scheme : SignatureScheme Hash Key KeyID Sig) (network : Network)

def verifyHash (hash : Hash) (keyID : KeyID) (vchSig : Sig) : Bool :=
  scheme.recoverCompact hash vchSig = some keyID

def SporkData.sign (spork : SporkData) (key : Key) : Option (CSporkMessage Sig) :=
  if scheme.isValid key then
    let hash := scheme.hash (spork.signedBytes network)
    let vchSig := scheme.signCompact hash key
    if verifyHash scheme hash (scheme.keyID key) vchSig then some { spork with vchSig } else none
  else
    none

def CSporkMessage.checkSignature (spork : CSporkMessage Sig) (pubKeyId : KeyID) : Bool :=
  verifyHash scheme (scheme.hash (spork.signedBytes network)) pubKeyId spork.vchSig

def CSporkMessage.getSignerKeyID (spork : CSporkMessage Sig) : Option KeyID :=
  scheme.recoverCompact (scheme.hash (spork.signedBytes network)) spork.vchSig

/-- `CSporkManager`: the keys it accepts and the latest spork for each id and key. -/
structure CSporkManager (KeyID Sig : Type) where
  setSporkPubKeyIDs : List KeyID
  mapSporksActive : Int32 → KeyID → Option (CSporkMessage Sig)

/-- `mapSporksActive[spork.nSporkID][keyIDSigner] = spork`. -/
def CSporkManager.store (manager : CSporkManager KeyID Sig) (keyIDSigner : KeyID)
    (spork : CSporkMessage Sig) : CSporkManager KeyID Sig :=
  { manager with
    mapSporksActive := fun id key =>
      if id = spork.nSporkID ∧ key = keyIDSigner then some spork else manager.mapSporksActive id key }

/-- `ProcessSpork` with a tip, at the given adjusted time; an error is the peer's ban score. -/
def CSporkManager.processSpork (manager : CSporkManager KeyID Sig) (adjustedTime : Int)
    (spork : CSporkMessage Sig) : Except Nat (CSporkManager KeyID Sig) :=
  if spork.nTimeSigned.toInt > adjustedTime + 2 * 60 * 60 then
    .error 100
  else
    match spork.getSignerKeyID scheme network with
    | none => .error 100
    | some keyIDSigner =>
      if keyIDSigner ∉ manager.setSporkPubKeyIDs then
        .error 100
      else
        match manager.mapSporksActive spork.nSporkID keyIDSigner with
        | some active =>
          if active.nTimeSigned.toInt ≥ spork.nTimeSigned.toInt then .ok manager
          else .ok (manager.store keyIDSigner spork)
        | none => .ok (manager.store keyIDSigner spork)

end Signing

/-! ## What is signed -/

lemma toUInt32_injective : Function.Injective Int32.toUInt32 := by
  rintro ⟨a⟩ ⟨b⟩ h
  exact congrArg Int32.ofUInt32 h

lemma toUInt64_injective : Function.Injective Int64.toUInt64 := by
  rintro ⟨a⟩ ⟨b⟩ h
  exact congrArg Int64.ofUInt64 h

/-- Different messages are serialized differently. -/
lemma serializedData_injective : Function.Injective serializedData := by
  intro a b h
  obtain ⟨hid, hrest⟩ := append_inj h (by rw [length_toLittleEndian, length_toLittleEndian])
  obtain ⟨hvalue, htime⟩ := append_inj hrest (by rw [length_toLittleEndian, length_toLittleEndian])
  have hid' : a.nSporkID = b.nSporkID := toUInt32_injective
    (UInt32.toNat_inj.mp (toLittleEndian_inj (UInt32.toNat_lt _) (UInt32.toNat_lt _) hid))
  have hword {x y : Int64} (hxy : toLittleEndian 8 x.toUInt64.toNat =
      toLittleEndian 8 y.toUInt64.toNat) : x = y := toUInt64_injective
    (UInt64.toNat_inj.mp (toLittleEndian_inj (UInt64.toNat_lt _) (UInt64.toNat_lt _) hxy))
  exact mk.injEq .. ▸ ⟨hid', hword hvalue, hword htime⟩

/-- "10001", "1" and "1700000000" are as one with "10001", "11" and "700000000". -/
lemma messageText_ambiguous :
    (mk 10001 1 1700000000).messageText = (mk 10001 11 700000000).messageText :=
  by decide +kernel

/-! ## Signatures for one message only -/

section Separate

variable {Hash Key KeyID Sig : Type} [DecidableEq KeyID]
  (scheme : SignatureScheme Hash Key KeyID Sig)

/-- A signature for one message is no signature for another: what is signed differs, the check
against any key fails, and `ProcessSpork` rejects the message. -/
def SignaturesSeparate (network : Network) : Prop :=
  ∀ spork other : SporkData, spork ≠ other →
    spork.signedBytes network ≠ other.signedBytes network ∧
    ∀ key signed, spork.sign scheme network key = some signed →
      let forged : CSporkMessage Sig := { other with vchSig := signed.vchSig }
      (∀ key', forged.checkSignature scheme network (scheme.keyID key') = false) ∧
      ∀ (manager : CSporkManager KeyID Sig) (adjustedTime : Int),
        (∀ id ∈ manager.setSporkPubKeyIDs, ∃ key', scheme.keyID key' = id) →
        manager.processSpork scheme network adjustedTime forged = .error 100

variable {scheme} {network : Network}

lemma vchSig_sign {spork : SporkData} {key : Key} {signed : CSporkMessage Sig}
    (h : spork.sign scheme network key = some signed) :
    signed.vchSig = scheme.signCompact (scheme.hash (spork.signedBytes network)) key := by
  simp only [sign] at h
  split at h
  · split at h
    · cases h
      rfl
    · cases h
  · cases h

/-- With ideal signatures all depends on the bytes that are signed. -/
lemma signaturesSeparate_of_injective (hideal : scheme.Ideal)
    (hinj : Function.Injective (signedBytes network)) :
    SignaturesSeparate scheme network := by
  intro spork other hne
  have hbytes := hinj.ne hne
  refine ⟨hbytes, fun key signed hsigned => ?_⟩
  intro forged
  have hrecover : ∀ key', forged.getSignerKeyID scheme network ≠ some (scheme.keyID key') := by
    intro key' hkey
    rw [CSporkMessage.getSignerKeyID, vchSig_sign hsigned] at hkey
    exact hbytes (hideal.hash_injective (hideal.hash_eq hkey))
  refine ⟨fun key' => decide_eq_false (hrecover key'), fun manager adjustedTime hkeys => ?_⟩
  unfold CSporkManager.processSpork
  split
  · rfl
  · split
    · rfl
    · next keyIDSigner hsigner =>
      have hunknown : keyIDSigner ∉ manager.setSporkPubKeyIDs := by
        intro hmem
        obtain ⟨key', rfl⟩ := hkeys _ hmem
        exact hrecover key' hsigner
      rw [if_pos hunknown]

variable (network) in
/-- **Spork signatures.** Every signature is for one message only exactly on the test network:
on the others different messages have one text. -/
theorem signatures_separate_iff (hideal : scheme.Ideal) :
    SignaturesSeparate scheme network ↔ network = .test := by
  constructor
  · intro hseparate
    by_contra hnet
    refine (hseparate ⟨10001, 1, 1700000000⟩ ⟨10001, 11, 700000000⟩ (by decide)).1 ?_
    rw [signedBytes, signedBytes, if_neg hnet, if_neg hnet,
      messageText_ambiguous]
  · rintro rfl
    apply signaturesSeparate_of_injective hideal
    intro a b h
    rw [signedBytes, signedBytes, if_pos rfl, if_pos rfl] at h
    exact serializedData_injective h

end Separate

/-! ## A forged spork -/

/-- Signatures that name the signed bytes and the key. -/
def plainScheme : SignatureScheme (List UInt8) Nat Nat (List UInt8 × Nat) where
  hash := id
  keyID := id
  isValid := fun _ => true
  signCompact := fun hash key => (hash, key)
  recoverCompact := fun hash vchSig => if vchSig.1 = hash then some vchSig.2 else none

lemma plainScheme_ideal : plainScheme.Ideal where
  hash_injective := fun _ _ h => h
  hash_eq := by
    intro h h' key key' hrecover
    by_contra hne
    have hnone : plainScheme.recoverCompact h' (plainScheme.signCompact h key) = none := if_neg hne
    rw [hnone] at hrecover
    cases hrecover

theorem signatures_separate_iff_plainScheme : SignaturesSeparate plainScheme .test :=
  (signatures_separate_iff .test plainScheme_ideal).mpr rfl

/-- On the main network a key signs value 1 for spork 10001, and a node that knows the key and
no spork yet takes the signature for one of value 11. -/
theorem processSpork_accepts_forged :
    let spork : SporkData := ⟨10001, 1, 1700000000⟩
    let other : SporkData := ⟨10001, 11, 700000000⟩
    let manager : CSporkManager Nat (List UInt8 × Nat) := ⟨[7], fun _ _ => none⟩
    spork ≠ other ∧ spork.signedBytes .main = other.signedBytes .main ∧
    ∃ signed, spork.sign plainScheme .main 7 = some signed ∧
      ∃ manager', manager.processSpork plainScheme .main 1700000000
          { other with vchSig := signed.vchSig } = .ok manager' ∧
        (manager'.mapSporksActive 10001 7).map CSporkMessage.toSporkData = some other := by
  intro spork other manager
  have hbytes : spork.signedBytes .main = other.signedBytes .main := by decide +kernel
  have hsigner : CSporkMessage.getSignerKeyID plainScheme .main
      { other with vchSig := (spork.signedBytes .main, 7) } = some 7 := if_pos hbytes
  refine ⟨by decide, hbytes, ⟨spork, (spork.signedBytes .main, 7)⟩, by decide +kernel,
    manager.store 7 ⟨other, (spork.signedBytes .main, 7)⟩, ?_, rfl⟩
  rw [CSporkManager.processSpork, hsigner]
  rfl

end HootChain.Spork
