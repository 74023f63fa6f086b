import HootChain.AuxPow
import HootChain.Foundation.MoveToFront

/-!
# Header Sync (`primitives/block.cpp`, `net_processing.cpp`, `chain.cpp`)

A `HEADERS2` message leaves out of a header what the receiver can reconstruct from the
header before: the hash of the previous block, a time close to the last one, equal
target bits, and a version among the last seven. The receiver keeps the same table
of versions as the sender.

The auxpow of a merge-mined block is not part of the message at all. It is not part of the
block index either: the header of such a block is read from the block files.
-/

namespace HootChain.Net

open Consensus Primitives Foundation List UInt32

/-! ## Headers and their proof of work -/

structure BlockHeader extends CPureBlockHeader where
  auxpow : Option AuxPow.CAuxPow := none
  deriving DecidableEq

open BlockHeader

/-- The functions that the header rules call. -/
structure HeaderEnv where
  params : Params
  hash : BaseBlob → BaseBlob → BaseBlob
  /-- `GetHash`, which is `GetPoWHash`. -/
  getHash : CPureBlockHeader → BaseBlob
  /-- `CheckProofOfWork(hash, nBits, params)`. -/
  meetsTarget : BaseBlob → UInt32 → Bool

/-- The outcomes of the checks that a header's proof of work consists of. -/
def HeaderEnv.outcomes (env : HeaderEnv) (block : BlockHeader) : CBlockHeader where
  nVersion := block.nVersion
  nTime := block.nTime
  proofOfWork := env.meetsTarget (env.getHash block.toCPureBlockHeader) block.nBits
  auxpow := block.auxpow.map fun auxpow =>
    { check := (auxpow.check env.hash env.params (env.getHash block.toCPureBlockHeader)
        (getChainId block.nVersion)).isOk
      parentProofOfWork := env.meetsTarget (env.getHash auxpow.parentBlock) block.nBits }

def HeaderEnv.checkProofOfWork (env : HeaderEnv) (block : BlockHeader) : Bool :=
  Primitives.checkProofOfWork env.params (env.outcomes block)

/-! ## Compression -/

/-- `CompressedHeaderBitField`. A flag says that the field is *not* compressed. -/
structure CompressedHeaderBitField where
  versionOffset : Nat := 0
  prevBlockHash : Bool := false
  timestamp : Bool := false
  nBits : Bool := false

open CompressedHeaderBitField

namespace CompressedHeaderBitField

def isVersionCompressed (bitField : CompressedHeaderBitField) : Bool := bitField.versionOffset ≠ 0

/-- `SetVersionOffset`, a field of three bits. -/
def setVersionOffset (bitField : CompressedHeaderBitField) (version : Nat) :
    CompressedHeaderBitField :=
  { bitField with versionOffset := version % 8 }

end CompressedHeaderBitField

structure CompressibleBlockHeader extends BlockHeader where
  bitField : CompressedHeaderBitField := {}
  timeOffset : Int16 := 0

open CompressibleBlockHeader

/-- `CompressibleBlockHeader(CBlockHeader&&)`: nothing is compressed. -/
def CompressibleBlockHeader.ofHeader (block : BlockHeader) : CompressibleBlockHeader where
  toBlockHeader := block
  bitField := { prevBlockHash := true, timestamp := true, nBits := true }

/-- The versions seen last, the latest first. -/
abbrev Versions := List (BitVec 32)

def maxBackwardsLookUps : Nat := 7

def saveVersionAsMostRecent (lastUniqueVersions : Versions) (version : BitVec 32) : Versions :=
  saveFront maxBackwardsLookUps lastUniqueVersions version

def markVersionAsMostRecent (lastUniqueVersions : Versions) (place : Nat) : Versions :=
  toFront lastUniqueVersions place

namespace CompressibleBlockHeader

section

variable (block : CompressibleBlockHeader)

/-- The part of `Compress` about the version. -/
def compressVersion (lastUniqueVersions : Versions) : CompressedHeaderBitField × Versions :=
  match lastUniqueVersions.idxOf? block.nVersion with
  | some place =>
    (block.bitField.setVersionOffset (place + 1), markVersionAsMostRecent lastUniqueVersions place)
  | none => (block.bitField, saveVersionAsMostRecent lastUniqueVersions block.nVersion)

/-- `time_diff`: the subtraction is one of `uint32_t`. -/
def timeDiff (lastBlock : CompressibleBlockHeader) : Int := (block.nTime - lastBlock.nTime).toNat

def compress (previousBlocks : List CompressibleBlockHeader) (lastUniqueVersions : Versions) :
    CompressibleBlockHeader × Versions :=
  match previousBlocks.getLast? with
  | none => (block, saveVersionAsMostRecent lastUniqueVersions block.nVersion)
  | some lastBlock =>
    let (bitField, versions) := block.compressVersion lastUniqueVersions
    let diff := block.timeDiff lastBlock
    let small := decide (diff ≤ 32767 ∧ -32768 ≤ diff)
    ({ block with
        timeOffset := if small then Int16.ofInt diff else block.timeOffset
        bitField :=
          { bitField with
            prevBlockHash := false
            timestamp := if small then false else bitField.timestamp
            nBits := if block.nBits = lastBlock.nBits then false else bitField.nBits } }, versions)

/-- Serialization followed by deserialization into a new header: the fields that are not
written keep their defaults. -/
def transmit : CompressibleBlockHeader where
  auxpow := none
  bitField := block.bitField
  nVersion := if block.bitField.isVersionCompressed then 0 else block.nVersion
  hashPrevBlock := if block.bitField.prevBlockHash then block.hashPrevBlock else .null
  hashMerkleRoot := block.hashMerkleRoot
  nTime := if block.bitField.timestamp then block.nTime else 0
  timeOffset := if block.bitField.timestamp then 0 else block.timeOffset
  nBits := if block.bitField.nBits then block.nBits else 0
  nNonce := block.nNonce

/-- The part of `Uncompress` about the version. -/
def uncompressVersion (lastUniqueVersions : Versions) : BitVec 32 × Versions :=
  if block.bitField.isVersionCompressed then
    match lastUniqueVersions[block.bitField.versionOffset - 1]? with
    | some version =>
      (version, markVersionAsMostRecent lastUniqueVersions (block.bitField.versionOffset - 1))
    | none => (block.nVersion, lastUniqueVersions)
  else
    (block.nVersion, saveVersionAsMostRecent lastUniqueVersions block.nVersion)

end

def uncompress (env : HeaderEnv) (block : CompressibleBlockHeader)
    (previousBlocks : List BlockHeader) (lastUniqueVersions : Versions) :
    CompressibleBlockHeader × Versions :=
  match previousBlocks.getLast? with
  | none => (block, saveVersionAsMostRecent lastUniqueVersions block.nVersion)
  | some lastBlock =>
    let (nVersion, versions) := block.uncompressVersion lastUniqueVersions
    ({ block with
        nVersion
        hashPrevBlock :=
          if block.bitField.prevBlockHash then block.hashPrevBlock
          else env.getHash lastBlock.toCPureBlockHeader
        nTime :=
          if block.bitField.timestamp then block.nTime
          else lastBlock.nTime + ofInt block.timeOffset.toInt
        nBits := if block.bitField.nBits then block.nBits else lastBlock.nBits }, versions)

end CompressibleBlockHeader

/-! ## Messages -/

def maxHeadersResults : Nat := 2000

/-- The two places that build a `HEADERS2` message: the answer to `GETHEADERS2`, which does not
compress the first header, and the announcement in `SendMessages`, which does. -/
inductive Sender where
  | getHeaders2
  | sendMessages
  deriving DecidableEq

open Sender

/-- One turn of the loop of the sender. -/
def Sender.push (sender : Sender) (state : List CompressibleBlockHeader × Versions)
    (block : BlockHeader) : List CompressibleBlockHeader × Versions :=
  let compressible := ofHeader block
  if sender = .getHeaders2 ∧ state.1 = [] then
    (state.1 ++ [compressible], state.2)
  else
    let (compressed, versions) := compressible.compress state.1 state.2
    (state.1 ++ [compressed], versions)

/-- The message for the given headers, of which there are at most 2000. -/
def Sender.send (sender : Sender) (blocks : List BlockHeader) : List CompressibleBlockHeader :=
  ((blocks.take maxHeadersResults).foldl sender.push ([], [])).1

/-- One turn of the loop of the receiver; the header is stored without what only the
compression needs. -/
def receiveOne (env : HeaderEnv) (state : List BlockHeader × Versions)
    (compressed : CompressibleBlockHeader) : List BlockHeader × Versions :=
  let received := compressed.transmit.uncompress env state.1 state.2
  (state.1 ++ [received.1.toBlockHeader], received.2)

/-- The headers read from a message, `none` if there are too many. -/
def receive (env : HeaderEnv) (message : List CompressibleBlockHeader) :
    Option (List BlockHeader) :=
  if message.length > maxHeadersResults then none
  else some (message.foldl (receiveOne env) ([], [])).1

/-! ## One header -/

/-- The header without its auxpow. -/
def BlockHeader.withoutAuxpow (block : BlockHeader) : BlockHeader := { block with auxpow := none }

section OneHeader

variable {env : HeaderEnv} {block : BlockHeader} {versions versions' : Versions}

open CompressibleBlockHeader

/-- A time difference that fits in an `int16_t` comes back from one. -/
lemma ofInt_toInt_ofInt {diff : UInt32} (h : (diff.toNat : Int) ≤ 32767) :
    ofInt (Int16.ofInt diff.toNat).toInt = diff := by
  have htoInt : (Int16.ofInt diff.toNat).toInt = diff.toNat :=
    Int16.toInt_ofInt_of_le (by omega) (by omega)
  apply UInt32.toNat_inj.mp
  simp only [UInt32.ofInt, UInt32.toNat_ofNat']
  omega

/-- A version in the table is sent as its place, which fits in the three bits. -/
lemma compressVersion_of_idxOf? {compressible : CompressibleBlockHeader} {place : Nat}
    (h : Tracks maxBackwardsLookUps versions versions')
    (hfind : versions.idxOf? compressible.nVersion = some place) :
    versions[place]? = some compressible.nVersion ∧
      compressible.compressVersion versions =
        ({ compressible.bitField with versionOffset := place + 1 },
          markVersionAsMostRecent versions place) := by
  obtain ⟨hlt, hat, -⟩ := idxOf?_eq_some_iff.mp hfind
  have hle := h.front.length_le
  have hseven : versions'.length ≤ 7 := h.length_le
  refine ⟨by rw [getElem?_eq_getElem hlt, hat], ?_⟩
  simp only [compressVersion, hfind, setVersionOffset]
  rw [Nat.mod_eq_of_lt (by omega)]

section

variable (compressible : CompressibleBlockHeader)

/-- A place that the sender names is one of the receiver's table, with the same version. -/
lemma getElem?_versionOffset (h : Tracks maxBackwardsLookUps versions versions')
    (hplain : compressible.bitField.versionOffset = 0)
    (hcompressed : (compressible.compressVersion versions).1.isVersionCompressed = true) :
    versions'[(compressible.compressVersion versions).1.versionOffset - 1]? =
      some compressible.nVersion := by
  cases hfind : versions.idxOf? compressible.nVersion with
  | some place =>
    obtain ⟨hplace, heq⟩ := compressVersion_of_idxOf? h hfind
    simp [heq, h.getElem? hplace]
  | none =>
    simp [compressVersion, hfind, isVersionCompressed, hplain]
      at hcompressed

/-- The table names a version that the receiver has, or the version is sent. -/
lemma uncompressVersion_compressVersion (received : CompressibleBlockHeader)
    (h : Tracks maxBackwardsLookUps versions versions')
    (hplain : compressible.bitField.versionOffset = 0)
    (hoffset : received.bitField.versionOffset =
      (compressible.compressVersion versions).1.versionOffset)
    (hversion : received.bitField.isVersionCompressed = false →
      received.nVersion = compressible.nVersion) :
    (received.uncompressVersion versions').1 = compressible.nVersion ∧
      Tracks maxBackwardsLookUps (compressible.compressVersion versions).2
        (received.uncompressVersion versions').2 := by
  cases hfind : versions.idxOf? compressible.nVersion with
  | some place =>
    obtain ⟨hplace, heq⟩ := compressVersion_of_idxOf? h hfind
    simp only [heq] at hoffset ⊢
    have hcompressed : received.bitField.isVersionCompressed = true := by
      simp [isVersionCompressed, hoffset]
    simp only [uncompressVersion, hcompressed, if_true, hoffset, Nat.add_sub_cancel,
      h.getElem? hplace]
    exact ⟨trivial, h.toFront hplace⟩
  | none =>
    simp only [compressVersion, hfind] at hoffset ⊢
    have hcompressed : received.bitField.isVersionCompressed = false := by
      simp [isVersionCompressed, hoffset, hplain]
    simp only [uncompressVersion, hcompressed, hversion hcompressed]
    exact ⟨rfl, h.save _⟩

/-- The version leaves the other flags as they are. -/
lemma compressVersion_flags :
    (compressible.compressVersion versions).1.timestamp = compressible.bitField.timestamp ∧
      (compressible.compressVersion versions).1.nBits = compressible.bitField.nBits := by
  unfold compressVersion
  split <;> exact ⟨rfl, rfl⟩

/-- Compression only sets the bit field and the time offset. -/
lemma toBlockHeader_compress (sent : List CompressibleBlockHeader) :
    (compressible.compress sent versions).1.toBlockHeader = compressible.toBlockHeader := by
  unfold compress
  split <;> rfl

end

section Last

variable {sent : List CompressibleBlockHeader} {lastSent : CompressibleBlockHeader}
  (hsent : sent.getLast? = some lastSent)

include hsent

lemma time_compress {nTime : UInt32} (htime : nTime = lastSent.nTime) :
    let compressed := ((ofHeader block).compress sent versions).1
    (if compressed.bitField.timestamp then block.nTime
      else nTime + ofInt compressed.timeOffset.toInt) = block.nTime := by
  intro compressed
  by_cases hsmall : (ofHeader block).timeDiff lastSent ≤ 32767 ∧
      -32768 ≤ (ofHeader block).timeDiff lastSent
  · have hoffset : compressed.timeOffset = Int16.ofInt ((ofHeader block).timeDiff lastSent) := by
      simp [compressed, compress, hsent, hsmall]
    have hflag : compressed.bitField.timestamp = false := by
      simp [compressed, compress, hsent, hsmall]
    rw [hflag, hoffset, timeDiff, ofInt_toInt_ofInt hsmall.1, htime, UInt32.add_comm]
    exact UInt32.sub_add_cancel ..
  · have hflag : compressed.bitField.timestamp = true := by
      simp only [compressed, compress, hsent, hsmall, decide_false, Bool.false_eq_true, if_false,
        compressVersion_flags]
      rfl
    rw [hflag, if_pos rfl]

lemma bits_compress {nBits : UInt32} (hbits : nBits = lastSent.nBits) :
    (if ((ofHeader block).compress sent versions).1.bitField.nBits then block.nBits else nBits) =
      block.nBits := by
  simp only [compress, hsent, compressVersion_flags]
  by_cases heq : (ofHeader block).nBits = lastSent.nBits
  · rw [if_pos heq, hbits, ← heq]
    rfl
  · rw [if_neg heq]
    rfl

/-- **One header.** It is compressed against the last one sent and reconstructed from the last
one received, and only its auxpow is lost. -/
theorem uncompress_compress {headers : List BlockHeader} {lastReceived : BlockHeader}
    (hreceived : headers.getLast? = some lastReceived)
    (htime : lastReceived.nTime = lastSent.nTime) (hbits : lastReceived.nBits = lastSent.nBits)
    (hprev : block.hashPrevBlock = env.getHash lastReceived.toCPureBlockHeader)
    (h : Tracks maxBackwardsLookUps versions versions') :
    let compressed := (ofHeader block).compress sent versions
    let received := compressed.1.transmit.uncompress env headers versions'
    received.1.toBlockHeader = block.withoutAuxpow ∧
      Tracks maxBackwardsLookUps compressed.2 received.2 := by
  intro compressed received
  have hheader : compressed.1.toBlockHeader = block := toBlockHeader_compress ..
  have hoffset : compressed.1.transmit.bitField.versionOffset =
      ((ofHeader block).compressVersion versions).1.versionOffset := by
    simp [compressed, transmit, compress, hsent]
  have hplain : compressed.1.transmit.bitField.isVersionCompressed = false →
      compressed.1.transmit.nVersion = block.nVersion := by
    intro hplain
    have hversion : compressed.1.transmit.nVersion = compressed.1.nVersion := if_neg (by
      intro hcompressed
      exact absurd (hcompressed.symm.trans hplain) (by decide))
    rw [hversion, hheader]
  -- the version goes through the tables, the other fields through the last header
  obtain ⟨hversion, htracks⟩ := uncompressVersion_compressVersion (ofHeader block)
    compressed.1.transmit h rfl hoffset hplain
  have hcompressed : compressed.2 = ((ofHeader block).compressVersion versions).2 := by
    simp [compressed, compress, hsent]
  have hversions : received.2 = (compressed.1.transmit.uncompressVersion versions').2 := by
    simp [received, uncompress, hreceived]
  refine ⟨?_, by rw [hcompressed, hversions]; exact htracks⟩
  have hprevHash : compressed.1.bitField.prevBlockHash = false := by
    simp [compressed, compress, hsent]
  have hfields : received.1.toBlockHeader =
      { nVersion := (compressed.1.transmit.uncompressVersion versions').1
        hashPrevBlock := env.getHash lastReceived.toCPureBlockHeader
        hashMerkleRoot := compressed.1.hashMerkleRoot
        nTime := if compressed.1.bitField.timestamp then compressed.1.nTime
          else lastReceived.nTime + ofInt compressed.1.timeOffset.toInt
        nBits := if compressed.1.bitField.nBits then compressed.1.nBits else lastReceived.nBits
        nNonce := compressed.1.nNonce
        auxpow := none } := by
    simp only [received, uncompress, hreceived, transmit, hprevHash]
    cases compressed.1.bitField.timestamp <;> cases compressed.1.bitField.nBits <;> rfl
  rw [hfields, hheader, hversion, ← hprev, time_compress hsent htime, bits_compress hsent hbits]
  rfl

end Last

end OneHeader

/-! ## A whole message -/

section Message

variable {env : HeaderEnv} {sender : Sender} {blocks : List BlockHeader} {block : BlockHeader}

/-- Each header names the one before it. -/
def Consecutive (env : HeaderEnv) (blocks : List BlockHeader) : Prop :=
  blocks.IsChain fun prev block => block.hashPrevBlock = env.getHash prev.toCPureBlockHeader

/-- Sender and receiver after the headers `blocks`. -/
structure Synced (env : HeaderEnv) (sent : List CompressibleBlockHeader × Versions)
    (received : List BlockHeader × Versions) (blocks : List BlockHeader) : Prop where
  sent_eq : sent.1.map toBlockHeader = blocks
  received_eq : received.1 = blocks.map withoutAuxpow
  versions : Tracks maxBackwardsLookUps sent.2 received.2

/-- The first header goes uncompressed, whether or not the sender notes its version. -/
lemma Synced.push_first (block : BlockHeader) :
    let sent := sender.push ([], []) block
    Synced env sent (sent.1.foldl (receiveOne env) ([], [])) [block] := by
  cases sender with
  | getHeaders2 => exact ⟨rfl, rfl, ⟨⟨_, rfl⟩, (by decide : 1 ≤ 7)⟩⟩
  | sendMessages => exact ⟨rfl, rfl, ⟨prefix_rfl, (by decide : 1 ≤ 7)⟩⟩

variable (sender) in
lemma Synced.push {sent : List CompressibleBlockHeader × Versions}
    {received : List BlockHeader × Versions} (h : Synced env sent received blocks)
    (hne : blocks ≠ []) (hchain : Consecutive env (blocks ++ [block])) :
    ∃ compressed, (sender.push sent block).1 = sent.1 ++ [compressed] ∧
      Synced env (sender.push sent block) (receiveOne env received compressed)
        (blocks ++ [block]) := by
  obtain ⟨lastSent, hlast⟩ : ∃ lastSent, sent.1.getLast? = some lastSent := by
    apply Option.ne_none_iff_exists'.mp
    intro hnone
    rw [← h.sent_eq, getLast?_eq_none_iff.mp hnone] at hne
    exact hne rfl
  have hlastBlock : blocks.getLast? = some lastSent.toBlockHeader := by
    rw [← h.sent_eq, getLast?_map, hlast]
    rfl
  have hlastReceived : received.1.getLast? = some lastSent.toBlockHeader.withoutAuxpow := by
    rw [h.received_eq, getLast?_map, hlastBlock]
    rfl
  have hprev : block.hashPrevBlock = env.getHash lastSent.toCPureBlockHeader :=
    (isChain_append.mp hchain).2.2 _ hlastBlock _ rfl
  have hnonempty : sent.1 ≠ [] := by
    intro hnil
    rw [hnil] at hlast
    cases hlast
  have hpush : sender.push sent block =
      (sent.1 ++ [((ofHeader block).compress sent.1 sent.2).1],
        ((ofHeader block).compress sent.1 sent.2).2) := by
    simp [Sender.push, hnonempty]
  obtain ⟨hheader, htracks⟩ := uncompress_compress hlast hlastReceived rfl rfl hprev h.versions
  refine ⟨_, by rw [hpush], ?_, ?_, ?_⟩
  · rw [hpush, map_append, h.sent_eq, map_singleton, toBlockHeader_compress]
    rfl
  · rw [receiveOne, h.received_eq, map_append, map_singleton, ← h.received_eq, hheader]
  · rw [hpush]
    exact htracks

variable (sender) in
/-- The receiver keeps up with the sender. -/
lemma synced_foldl (hchain : Consecutive env blocks) :
    let sent := blocks.foldl sender.push ([], [])
    Synced env sent (sent.1.foldl (receiveOne env) ([], [])) blocks := by
  induction blocks using reverseRecOn with
  | nil => exact ⟨rfl, rfl, ⟨⟨_, rfl⟩, Nat.zero_le _⟩⟩
  | append_singleton blocks block ih =>
    have hsynced := ih (isChain_append.mp hchain).1
    simp only [foldl_append, foldl_cons, foldl_nil]
    by_cases hne : blocks = []
    · rw [hne]
      exact Synced.push_first block
    · obtain ⟨compressed, hsent, hnext⟩ := hsynced.push sender hne hchain
      rw [hsent, foldl_append]
      exact hnext

/-- What the sender appends, and the version that the receiver's table has for it. -/
lemma exists_push (sender : Sender) (block : BlockHeader) {versions' : Versions}
    {sent : List CompressibleBlockHeader × Versions}
    (h : Tracks maxBackwardsLookUps sent.2 versions') :
    ∃ compressed, (sender.push sent block).1 = sent.1 ++ [compressed] ∧
      (compressed.bitField.isVersionCompressed = true →
        versions'[compressed.bitField.versionOffset - 1]? = some block.nVersion) := by
  unfold push
  split
  · exact ⟨_, rfl, nofun⟩
  · refine ⟨_, rfl, ?_⟩
    unfold compress
    split
    · exact nofun
    · exact getElem?_versionOffset (.ofHeader block) h rfl

/-- **Any number of headers.** The loops of sender and receiver restore every field but the
auxpow, and each version offset that is sent denotes the version of its header in the table
that the receiver has at that moment. -/
theorem receive_foldl_push (sender : Sender) (hchain : Consecutive env blocks) :
    let message := (blocks.foldl sender.push ([], [])).1
    (message.foldl (receiveOne env) ([], [])).1.map toCPureBlockHeader =
        blocks.map toCPureBlockHeader ∧
      ∀ k compressed, message[k]? = some compressed →
        compressed.bitField.isVersionCompressed = true →
        ∃ block, blocks[k]? = some block ∧
          ((message.take k).foldl (receiveOne env) ([], [])).2[
            compressed.bitField.versionOffset - 1]? = some block.nVersion := by
  refine ⟨by rw [(synced_foldl sender hchain).received_eq, map_map]; rfl, ?_⟩
  induction blocks using List.reverseRecOn with
  | nil => exact nofun
  | append_singleton blocks block ih =>
    have hbefore := (isChain_append.mp hchain).1
    have hsynced := synced_foldl sender hbefore
    have hlength := congrArg List.length hsynced.sent_eq
    rw [length_map] at hlength
    obtain ⟨last, hlast, hoffset⟩ := exists_push sender block hsynced.versions
    simp only [foldl_append, foldl_cons, foldl_nil, hlast]
    intro k compressed hk hcompressed
    rcases lt_or_ge k blocks.length with hlt | hge
    · rw [List.getElem?_append_left (hlength ▸ hlt)] at hk
      rw [List.getElem?_append_left hlt, take_append_of_le_length (hlength ▸ hlt.le)]
      exact ih hbefore k compressed hk hcompressed
    · obtain rfl : k = blocks.length := by
        have hbound := (List.getElem?_eq_some_iff.mp hk).1
        rw [length_append, length_singleton] at hbound
        omega
      rw [← hlength, List.getElem?_concat_length] at hk
      cases hk
      refine ⟨block, List.getElem?_concat_length .., ?_⟩
      rw [← hlength, take_left]
      exact hoffset hcompressed

/-- **A message.** Consecutive headers come out of a message as they went in, without their
auxpows. -/
theorem receive_send (hchain : Consecutive env blocks) :
    receive env (sender.send blocks) =
      some ((blocks.take maxHeadersResults).map withoutAuxpow) := by
  have hsynced := synced_foldl sender (hchain.take maxHeadersResults)
  have hlength : (sender.send blocks).length ≤ maxHeadersResults := by
    rw [← length_map (f := toBlockHeader), send, hsynced.sent_eq]
    exact length_take_le ..
  rw [receive, if_neg (not_lt.mpr hlength), send, hsynced.received_eq]

end Message

/-! ## Proof of work -/

section ProofOfWork

variable {env : HeaderEnv} {block : BlockHeader}

lemma checkProofOfWork_withoutAuxpow (h : env.checkProofOfWork block = true) :
    env.checkProofOfWork block.withoutAuxpow = true ↔ isAuxpow block.nVersion = false := by
  refine ⟨checkProofOfWork_isAuxpow, fun hversion => ?_⟩
  have hauxpow : block.auxpow = none := by
    have hisSome := checkProofOfWork_isAuxpow h
    rw [HeaderEnv.outcomes, hversion, Option.isSome_map] at hisSome
    exact Option.isSome_eq_false_iff.mp hisSome.symm |> Option.isNone_iff_eq_none.mp
  have hsame : block.withoutAuxpow = block := by
    rw [withoutAuxpow, ← hauxpow]
  rw [hsame]
  exact h

variable (env) in
/-- **Compressed header sync.** For consecutive headers with valid proofs of work: those that
the receiver reconstructs all pass the check exactly if none that was sent is merge-mined. -/
theorem headers2_iff (sender : Sender) (blocks : List BlockHeader)
    (hchain : Consecutive env blocks)
    (hpow : ∀ block ∈ blocks, env.checkProofOfWork block = true) :
    (∃ received, receive env (sender.send blocks) = some received ∧
        ∀ block ∈ received, env.checkProofOfWork block = true) ↔
      ∀ block ∈ blocks.take maxHeadersResults, isAuxpow block.nVersion = false := by
  rw [receive_send hchain]
  have hcheck : ∀ block ∈ blocks.take maxHeadersResults,
      (env.checkProofOfWork block.withoutAuxpow = true ↔ isAuxpow block.nVersion = false) :=
    fun block hblock => checkProofOfWork_withoutAuxpow (hpow block (mem_of_mem_take hblock))
  refine ⟨?_, fun hversions => ⟨_, rfl, ?_⟩⟩
  · rintro ⟨received, hreceived, hall⟩ block hblock
    cases hreceived
    exact (hcheck block hblock).mp (hall _ (mem_map_of_mem hblock))
  · intro received hreceived
    obtain ⟨block, hblock, rfl⟩ := mem_map.mp hreceived
    exact (hcheck block hblock).mpr (hversions block hblock)

end ProofOfWork

/-- The main network with stand-ins for its hashes: every header has the hash `7…7` and meets
every target. -/
def easyEnv : HeaderEnv where
  params := mainParams
  hash := AuxPow.leftHash
  getHash := fun _ => Vector.replicate 32 7
  meetsTarget := fun _ _ => true

/-- A header without auxpow. -/
def plainHeader : BlockHeader where
  nVersion := 0x00880004#32
  nTime := 1700000000

/-- A merge-mined header after it, two minutes later. -/
def minedHeader : BlockHeader where
  nVersion := 0x00880104#32
  hashPrevBlock := Vector.replicate 32 7
  nTime := 1700000120
  auxpow := some (AuxPow.minedAuxPow (Vector.replicate 32 7) [])

lemma checkProofOfWork_mixed :
    ∀ block ∈ [plainHeader, minedHeader], easyEnv.checkProofOfWork block = true := by
  decide +kernel

lemma consecutive_mixed : Consecutive easyEnv [plainHeader, minedHeader] := by
  unfold Consecutive
  decide +kernel

theorem headers2_iff_mixed :
    ¬ ∃ received, receive easyEnv (getHeaders2.send [plainHeader, minedHeader]) =
        some received ∧ ∀ block ∈ received, easyEnv.checkProofOfWork block = true := by
  rw [headers2_iff easyEnv .getHeaders2 _ consecutive_mixed checkProofOfWork_mixed]
  decide +kernel

theorem receive_foldl_push_mixed :
    Consecutive easyEnv [plainHeader, minedHeader] ∧
      (((([plainHeader, minedHeader].foldl getHeaders2.push ([], [])).1).foldl
        (receiveOne easyEnv) ([], [])).1.map toCPureBlockHeader =
          [plainHeader.toCPureBlockHeader, minedHeader.toCPureBlockHeader]) := by
  exact ⟨consecutive_mixed, (receive_foldl_push .getHeaders2 consecutive_mixed).1⟩

/-- The merge-mined header is a valid one, and it arrives without what makes it valid. -/
theorem headers2_loses_auxpow :
    Consecutive easyEnv [plainHeader, minedHeader] ∧
    (∀ block ∈ [plainHeader, minedHeader], easyEnv.checkProofOfWork block = true) ∧
    receive easyEnv (getHeaders2.send [plainHeader, minedHeader]) =
      some [plainHeader, minedHeader.withoutAuxpow] ∧
    easyEnv.checkProofOfWork minedHeader.withoutAuxpow = false := by
  refine ⟨consecutive_mixed, checkProofOfWork_mixed, ?_, by decide +kernel⟩
  decide +kernel

/-! ## Headers from the block index -/

/-- An entry of the block index: the header that was accepted, without its auxpow. -/
structure BlockIndexEntry where
  nVersion : BitVec 32
  /-- The hash of `pprev`. -/
  pprevHash : Option BaseBlob
  hashMerkleRoot : BaseBlob
  nTime : UInt32
  nBits : UInt32
  nNonce : UInt32

def BlockIndexEntry.header (entry : BlockIndexEntry) : CPureBlockHeader where
  nVersion := entry.nVersion
  hashPrevBlock := entry.pprevHash.getD .null
  hashMerkleRoot := entry.hashMerkleRoot
  nTime := entry.nTime
  nBits := entry.nBits
  nNonce := entry.nNonce

/-- What there is at the position of an entry in the block files. -/
inductive BlockFile where
  /-- No file can be opened: the block was pruned, or has never been received. -/
  | missing
  /-- The file ends in the header, with `left` in the fields that are being read. -/
  | cut (left : CPureBlockHeader)
  /-- A header; if it has an auxpow, what can be read of it. -/
  | stored (header : CPureBlockHeader) (auxpow : AuxPow.CAuxPow)

/-- What `ReadBlockHeaderFromDisk` leaves in its argument, which it has reset before. The checks
of the header that follow only decide what it returns. -/
def readBlockHeaderFromDisk : BlockFile → BlockHeader
  | .missing => {}
  | .cut left => { toCPureBlockHeader := left }
  | .stored header auxpow =>
    { toCPureBlockHeader := header, auxpow := if isAuxpow header.nVersion then some auxpow else none }

/-- `GetBlockHeader`, which does not look at what the read returns. -/
def BlockIndexEntry.getBlockHeader (entry : BlockIndexEntry) (file : BlockFile) : BlockHeader :=
  if isAuxpow entry.nVersion then readBlockHeaderFromDisk file
  else { toCPureBlockHeader := entry.header }

/-- **Headers from the index**: a header with the hash of the entry, and with an auxpow where
the serialization asserts one, exactly if the entry has no auxpow or its block is stored. -/
theorem getBlockHeader_iff {env : HeaderEnv} {entry : BlockIndexEntry} (file : BlockFile)
    (hunique : ∀ header, env.getHash header = env.getHash entry.header → header = entry.header) :
    (env.getHash (entry.getBlockHeader file).toCPureBlockHeader = env.getHash entry.header ∧
        (isAuxpow (entry.getBlockHeader file).nVersion = true →
          (entry.getBlockHeader file).auxpow.isSome)) ↔
      (isAuxpow entry.nVersion = true → ∃ auxpow, file = .stored entry.header auxpow) := by
  cases hversion : isAuxpow entry.nVersion with
  | false => simp [BlockIndexEntry.getBlockHeader, BlockIndexEntry.header, hversion]
  | true =>
    simp only [BlockIndexEntry.getBlockHeader, if_pos hversion, true_implies]
    constructor
    · rintro ⟨hhash, hauxpow⟩
      have hheader := hunique _ hhash
      have hnVersion := congrArg CPureBlockHeader.nVersion hheader
      cases file with
      | missing =>
        rw [show entry.nVersion = 0 from hnVersion.symm] at hversion
        cases hversion
      | cut left =>
        rw [hheader] at hauxpow
        cases hauxpow hversion
      | stored header auxpow => exact ⟨auxpow, congrArg (BlockFile.stored · auxpow) hheader⟩
    · rintro ⟨auxpow, rfl⟩
      refine ⟨rfl, fun h => ?_⟩
      simp [readBlockHeaderFromDisk, show isAuxpow entry.header.nVersion = true from h]

/-- The entry of a merge-mined block. -/
def minedEntry : BlockIndexEntry where
  nVersion := 0x00880104#32
  pprevHash := some (Vector.replicate 32 7)
  hashMerkleRoot := .null
  nTime := 1700000120
  nBits := 0
  nNonce := 0

/-- Hashes that tell this block from all others. -/
def tellingEnv : HeaderEnv :=
  { easyEnv with getHash := fun header =>
      if header = minedEntry.header then Vector.replicate 32 7 else .null }

theorem getBlockHeader_iff_minedEntry :
    tellingEnv.getHash (minedEntry.getBlockHeader (.stored minedEntry.header
        (AuxPow.minedAuxPow (Vector.replicate 32 7) []))).toCPureBlockHeader =
      tellingEnv.getHash minedEntry.header := by
  refine ((getBlockHeader_iff _ fun header hhash => ?_).mpr fun _ => ⟨_, rfl⟩).1
  by_contra hne
  have hhash : Vector.replicate 32 7 = BaseBlob.null := by
    simpa [tellingEnv, hne] using hhash.symm
  revert hhash
  decide

/-- Once the block is pruned, the index gives the null header for it. -/
theorem getBlockHeader_pruned :
    minedEntry.getBlockHeader .missing = {} ∧
      tellingEnv.getHash (minedEntry.getBlockHeader .missing).toCPureBlockHeader ≠
        tellingEnv.getHash minedEntry.header := by
  decide +kernel

end HootChain.Net
