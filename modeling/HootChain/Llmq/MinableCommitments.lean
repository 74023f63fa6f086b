import HootChain.Llmq.CommitmentBounds
import HootChain.Llmq.QuorumManager

/-!
# Mineable Commitments (`llmq/blockprocessor.cpp`)

A node keeps one commitment for each quorum that is not mined yet, and takes it when it
makes a block. `AddMineableCommitment` replaces a commitment by one with more signers.
`ProcessMessage`, which receives commitments from peers, looks at the commitment that it
holds before it verifies a new one, and drops the new one if the held one has *at most*
as many signers.
-/

namespace HootChain.Llmq.BlockProcessor

open Llmq.CommitmentBounds Primitives Function List Option Bool

/-! ## The two maps -/

/-- `::SerializeHash` of a commitment. -/
structure CommitmentHasher where
  hash : CFinalCommitment → Uint256
  injective : Function.Injective hash

def keyOf (qc : CFinalCommitment) : MinedKey := (qc.llmqType, qc.quorumHash)

/-- `minableCommitmentsByQuorum` and `minableCommitments`. -/
structure Minable where
  byQuorum : MinedKey → Option Uint256 := fun _ => none
  commitments : Uint256 → Option CFinalCommitment := fun _ => none

namespace Minable

variable (s : Minable)

/-- The commitment that the node would mine for a quorum. -/
def held (key : MinedKey) : Option CFinalCommitment := (s.byQuorum key).bind s.commitments

def emplace (hash : Uint256) (qc : CFinalCommitment) : Minable :=
  match s.commitments hash with
  | some _ => s
  | none => { s with commitments := update s.commitments hash (some qc) }

/-- `minableCommitmentsByQuorum[key] = hash`. -/
def point (key : MinedKey) (hash : Uint256) : Minable :=
  { s with byQuorum := update s.byQuorum key (some hash) }

def erase (hash : Uint256) : Minable := { s with commitments := update s.commitments hash none }

variable (hasher : CommitmentHasher)

/-- `AddMineableCommitment`; with whether the commitment is relayed. -/
def addMineableCommitment (fqc : CFinalCommitment) : Except Fault (Minable × Bool) :=
  let commitmentHash := hasher.hash fqc
  match s.byQuorum (keyOf fqc) with
  | none => .ok ((s.point (keyOf fqc) commitmentHash).emplace commitmentHash fqc, true)
  | some oldHash =>
    match s.commitments oldHash with
    | none => .error .outOfRange
    | some oldFqc =>
      if fqc.countSigners > oldFqc.countSigners then
        -- it is the new hash that is erased: the old commitment stays in the map
        .ok (((s.point (keyOf fqc) commitmentHash).erase commitmentHash).emplace commitmentHash fqc,
          true)
      else .ok (s, false)

/-- The test of `ProcessMessage` that precedes the verification. -/
def alreadyGotBetter (qc : CFinalCommitment) : Bool :=
  match s.byQuorum (keyOf qc) with
  | none => false
  | some hash =>
    match s.commitments hash with
    | none => false
    | some heldQc => heldQc.countSigners ≤ qc.countSigners

end Minable

/-! ## Messages -/

/-- A commitment from a peer, with what the node sees when it arrives. -/
structure CommitmentMessage where
  qc : CFinalCommitment
  env : CheckEnv
  chain : QChain
  /-- `HasMinedCommitment`. -/
  hasMined : MinedKey → Bool

namespace CommitmentMessage

/-- The checks of `ProcessMessage` on the type and the base block: the height of the base block, or
what the function returns (a penalty for the peer). -/
def baseHeight (m : CommitmentMessage) : Except (Option Nat) Int :=
  if m.qc.isNull then .error (some 100)
  else
    match m.env.llmqs m.qc.llmqType with
    | none => .error (some 100)
    | some params =>
      match lookupBlockIndex m.chain m.qc.quorumHash with
      | none => .error none
      | some nHeight =>
        if nHeight - nHeight.tmod params.dkgInterval + m.qc.quorumIndex ≠ nHeight then
          .error (some 100)
        else if nHeight < QChain.height m.chain - params.dkgInterval then .error none
        else if m.hasMined (keyOf m.qc) then .error none
        else .ok nHeight

variable (c : QuorumConsensus) (hasher : CommitmentHasher)

def process (s : Minable) (m : CommitmentMessage) : Except Fault (Option Nat × Minable) :=
  match m.baseHeight with
  | .error ret => .ok (ret, s)
  | .ok nHeight =>
    if s.alreadyGotBetter m.qc then .ok (none, s)
    else do
      if ← verify c m.env m.qc m.qc.quorumHash nHeight true then
        let (s, _) ← s.addMineableCommitment hasher m.qc
        return (none, s)
      else return (some 100, s)

/-- The state after a message; an exception leaves the maps alone. -/
def receive (s : Minable) (m : CommitmentMessage) : Minable :=
  match m.process c hasher s with
  | .error _ => s
  | .ok (_, s') => s'

/-- The commitment is valid: it passes all checks on it alone. -/
def valid (m : CommitmentMessage) : Bool :=
  match m.baseHeight with
  | .error _ => false
  | .ok nHeight =>
    match verify c m.env m.qc m.qc.quorumHash nHeight true with
    | .ok verified => verified
    | .error _ => false

/-- The message has a valid commitment for the quorum. -/
def validFor (key : MinedKey) (m : CommitmentMessage) : Bool := m.valid c && keyOf m.qc = key

end CommitmentMessage

namespace Minable

variable (c : QuorumConsensus) (hasher : CommitmentHasher)

/-- The state after any messages. -/
def run (messages : List CommitmentMessage) : Minable :=
  messages.foldl (CommitmentMessage.receive c hasher) {}

variable {hasher} {s : Minable} {fqc : CFinalCommitment} {key : MinedKey}

/-! ## Adding a commitment -/

/-- Every entry by quorum leads to a commitment of the quorum, filed under its hash. -/
structure Filed (hasher : CommitmentHasher) (s : Minable) : Prop where
  quorum : ∀ {key hash}, s.byQuorum key = some hash →
    ∃ qc, s.commitments hash = some qc ∧ keyOf qc = key
  hashed : ∀ {hash qc}, s.commitments hash = some qc → hasher.hash qc = hash

lemma filed_empty : Filed hasher {} := ⟨fun h => (by cases h), fun h => (by cases h)⟩

/-- The maps are in bijection: every entry leads to a stored commitment of its quorum, and to
every stored commitment leads exactly one entry. -/
structure Paired (s : Minable) : Prop where
  quorum : ∀ key hash, s.byQuorum key = some hash →
    ∃ qc, s.commitments hash = some qc ∧ keyOf qc = key
  stored : ∀ hash qc, s.commitments hash = some qc → ∃! key, s.byQuorum key = some hash

lemma Filed.paired_iff (h : Filed hasher s) : Paired s ↔
    ∀ hash qc, s.commitments hash = some qc → s.byQuorum (keyOf qc) = some hash := by
  have hkeyOf : ∀ {key hash qc}, s.byQuorum key = some hash → s.commitments hash = some qc →
      key = keyOf qc := by
    intro key hash qc hkey hqc
    obtain ⟨qc', hqc', rfl⟩ := h.quorum hkey
    rw [some.inj (hqc.symm.trans hqc')]
  constructor
  · intro hs hash qc hqc
    obtain ⟨key, hkey, -⟩ := hs.stored hash qc hqc
    exact hkeyOf hkey hqc ▸ hkey
  · exact fun hs => ⟨fun _ _ => h.quorum, fun hash qc hqc =>
      ⟨keyOf qc, hs hash qc hqc, fun key hkey => hkeyOf hkey hqc⟩⟩

/-- The commitment filed under the hash of another one is the same. -/
lemma Filed.commitments_hash (h : Filed hasher s) {qc : CFinalCommitment}
    (hqc : s.commitments (hasher.hash fqc) = some qc) : qc = fqc :=
  hasher.injective (h.hashed hqc)

/-- The maps with a commitment put in its place. -/
def put (s : Minable) (hash : Uint256) (fqc : CFinalCommitment) : Minable where
  byQuorum := update s.byQuorum (keyOf fqc) (some hash)
  commitments := update s.commitments hash (some fqc)

section

variable {s' : Minable} {qc : CFinalCommitment} {o : Option CFinalCommitment}
  (hquorum : s'.byQuorum = update s.byQuorum (keyOf qc) (o.map hasher.hash))
  (hstored : s'.commitments = update s.commitments (hasher.hash qc) o) (ho : ∀ x ∈ o, x = qc)

include hquorum hstored ho

/-- A commitment is put in its place, or both its entries are erased. -/
lemma Filed.of_update (h : Filed hasher s) : Filed hasher s' where
  quorum {key hash} hkey := by
    rw [hquorum] at hkey
    rw [hstored]
    by_cases hne : key = keyOf qc
    · rw [hne, update_self] at hkey
      obtain ⟨x, hx, rfl⟩ := map_eq_some_iff.mp hkey
      obtain rfl := ho x hx
      exact ⟨x, by rw [update_self, hx], hne.symm⟩
    · -- another quorum does not name the hash of the commitment
      rw [update_of_ne hne] at hkey
      obtain ⟨old, hold, rfl⟩ := h.quorum hkey
      have hhash : hash ≠ hasher.hash qc := by
        rintro rfl
        exact hne (congrArg keyOf (h.commitments_hash hold))
      exact ⟨old, by rw [update_of_ne hhash, hold], rfl⟩
  hashed {hash x} hx := by
    rw [hstored] at hx
    by_cases hhash : hash = hasher.hash qc
    · rw [hhash, update_self] at hx
      rw [ho x hx, hhash]
    · rw [update_of_ne hhash] at hx
      exact h.hashed hx

/-- It is the only commitment of its quorum then, unless another one was held. -/
lemma Filed.paired_update (h : Filed hasher s) (hs : Paired s) :
    Paired s' ↔ ∀ old, s.held (keyOf qc) = some old → old = qc := by
  rw [(h.of_update hquorum hstored ho).paired_iff, hquorum, hstored]
  rw [h.paired_iff] at hs
  constructor
  · intro hall old hheld
    obtain ⟨hash, hkey, hold⟩ := bind_eq_some_iff.mp hheld
    by_contra hne
    -- the held commitment is still stored, but its quorum no longer leads to it
    have hhash : hash ≠ hasher.hash qc := fun heq => hne (h.commitments_hash (heq ▸ hold))
    obtain ⟨old', hold', hquorum⟩ := h.quorum hkey
    obtain rfl := some.inj (hold.symm.trans hold')
    have hentry := hall hash old (by rw [update_of_ne hhash, hold])
    rw [hquorum, update_self] at hentry
    obtain ⟨x, hx, rfl⟩ := map_eq_some_iff.mp hentry
    exact hhash (congrArg _ (ho x hx))
  · intro hheld hash x hx
    by_cases hhash : hash = hasher.hash qc
    · rw [hhash, update_self] at hx
      obtain rfl := ho x hx
      rw [update_self, hx, hhash, map_some]
    · rw [update_of_ne hhash] at hx
      have hentry := hs hash x hx
      have hne : keyOf x ≠ keyOf qc := by
        intro heq
        obtain rfl := hheld x (by rw [held, ← heq, hentry, bind_some, hx])
        exact hhash (h.hashed hx).symm
      rw [update_of_ne hne, hentry]

end

section

variable (h : Filed hasher s) (fqc : CFinalCommitment)

include h

lemma Filed.put :
    Filed hasher (s.put (hasher.hash fqc) fqc) :=
  h.of_update (o := some fqc) rfl rfl (by simp)

/-- Nothing is emplaced over another commitment. -/
lemma emplace_point :
    (s.point (keyOf fqc) (hasher.hash fqc)).emplace (hasher.hash fqc) fqc =
      s.put (hasher.hash fqc) fqc := by
  simp only [emplace, point, put]
  split
  · rename_i qc hqc
    rw [h.commitments_hash hqc] at hqc
    have hsame : update s.commitments (hasher.hash fqc) (some fqc) = s.commitments :=
      update_eq_self_iff.mpr hqc.symm
    rw [hsame]
  · rfl

lemma held_put (key : MinedKey) :
    (s.put (hasher.hash fqc) fqc).held key =
      if key = keyOf fqc then some fqc else s.held key := by
  by_cases hkey : key = keyOf fqc
  · simp [held, Minable.put, hkey]
  · simp only [held, Minable.put, update_of_ne hkey, if_neg hkey]
    cases hq : s.byQuorum key with
    | none => rfl
    | some hash =>
      -- another quorum does not name the hash of the new commitment
      obtain ⟨qc, hqc, hquorum⟩ := h.quorum hq
      have hne : hash ≠ hasher.hash fqc := by
        rintro rfl
        exact hkey (hquorum.symm.trans (congrArg keyOf (h.commitments_hash hqc)))
      rw [bind_some, bind_some, update_of_ne hne]

/-- **Adding a commitment** puts it in place if its quorum has none or one with fewer signers. -/
theorem addMineableCommitment_eq :
    s.addMineableCommitment hasher fqc =
      if (s.held (keyOf fqc)).all (fun old => old.countSigners < fqc.countSigners) then
        .ok (s.put (hasher.hash fqc) fqc, true)
      else .ok (s, false) := by
  unfold addMineableCommitment
  cases hkey : s.byQuorum (keyOf fqc) with
  | none => simp [held, hkey, emplace_point h]
  | some hash =>
    obtain ⟨old, hold, -⟩ := h.quorum hkey
    have hnew : ((s.point (keyOf fqc) (hasher.hash fqc)).erase (hasher.hash fqc)).emplace
        (hasher.hash fqc) fqc = s.put (hasher.hash fqc) fqc := by
      simp [emplace, erase, point, put]
    simp [held, hkey, hold, hnew]

end

/-! ## Messages -/

lemma alreadyGotBetter_eq (s : Minable) (qc : CFinalCommitment) :
    s.alreadyGotBetter qc = (s.held (keyOf qc)).any fun old =>
      old.countSigners ≤ qc.countSigners := by
  unfold alreadyGotBetter held
  cases s.byQuorum (keyOf qc) with
  | none => rfl
  | some hash =>
    cases hold : s.commitments hash <;> simp [hold]

variable {m : CommitmentMessage}

variable {c}

open CommitmentMessage

section

variable (h : Filed hasher s)

include h

lemma receive_eq : m.receive c hasher s =
      if m.valid c && !s.alreadyGotBetter m.qc &&
        (s.held (keyOf m.qc)).all (fun old => old.countSigners < m.qc.countSigners) then
        s.put (hasher.hash m.qc) m.qc
      else s := by
  unfold receive process valid
  rw [addMineableCommitment_eq h]
  cases m.baseHeight with
  | error ret => rfl
  | ok nHeight =>
    cases hverify : verify c m.env m.qc m.qc.quorumHash nHeight true with
    | error fault =>
      simp only [hverify]
      cases s.alreadyGotBetter m.qc <;> rfl
    | ok verified =>
      simp only [hverify]
      cases s.alreadyGotBetter m.qc <;> cases verified <;>
        cases (s.held (keyOf m.qc)).all fun old => old.countSigners < m.qc.countSigners <;> rfl

/-- A valid commitment of a quorum for which nothing is held is put in place. -/
lemma receive_of_held_eq_none (hheld : s.held (keyOf m.qc) = none) :
    m.receive c hasher s = if m.valid c then s.put (hasher.hash m.qc) m.qc else s := by
  simp [receive_eq h, alreadyGotBetter_eq, hheld]

/-- **Once a commitment is held, it stays.** One with at least as many signers is dropped before it
is verified, and one with fewer does not replace it. -/
theorem receive_of_held_eq_some {old : CFinalCommitment}
    (hheld : s.held (keyOf m.qc) = some old) : m.receive c hasher s = s := by
  rw [receive_eq h, alreadyGotBetter_eq, hheld]
  refine if_neg fun hput => ?_
  simp only [any_some, all_some, and_eq_true, not_eq_true', decide_eq_false_iff_not,
    decide_eq_true_eq] at hput
  omega

/-- What is held for a quorum after one message. -/
lemma held_receive (c : QuorumConsensus) (m : CommitmentMessage) (key : MinedKey) :
    Filed hasher (m.receive c hasher s) ∧
      (m.receive c hasher s).held key =
        (s.held key).or (if m.validFor c key then some m.qc else none) := by
  cases hheld : s.held (keyOf m.qc) with
  | some old =>
    rw [receive_of_held_eq_some h hheld]
    refine ⟨h, ?_⟩
    by_cases hkey : keyOf m.qc = key
    · simp [← hkey, hheld]
    · simp [validFor, hkey]
  | none =>
    rw [receive_of_held_eq_none h hheld]
    cases hvalid : m.valid c with
    | false => simp [h, validFor, hvalid]
    | true =>
      refine ⟨h.put m.qc, ?_⟩
      by_cases hkey : key = keyOf m.qc
      · subst hkey
        simp [held_put h, hheld, validFor, hvalid]
      · simp [held_put h, hkey, validFor, Ne.symm hkey]

end

/-- **The first one stays.** After any messages the node holds the first valid commitment that it
has received for a quorum. -/
theorem held_run (c : QuorumConsensus) (hasher : CommitmentHasher)
    (messages : List CommitmentMessage) (key : MinedKey) :
    (run c hasher messages).held key = (messages.find? (validFor c key)).map qc := by
  -- over all states, what is held already comes first
  have hrun : ∀ s, Filed hasher s →
      (messages.foldl (receive c hasher) s).held key = (s.held key).or
          ((messages.find? (validFor c key)).map qc) := by
    induction messages with
    | nil => simp
    | cons m messages ih =>
      intro s hs
      obtain ⟨hfiled, hheld⟩ := held_receive hs c m key
      rw [foldl_cons, ih _ hfiled, hheld, find?_cons]
      cases m.validFor c key <;> simp
  rw [run, hrun {} filed_empty]
  rfl

/-- **The most signers.** In every sequence of messages, after each of them the node holds for a
quorum a commitment with at least as many signers as all valid ones received so far, exactly if
no valid one has more signers than the first. -/
theorem most_signers_iff (c : QuorumConsensus) (hasher : CommitmentHasher)
    (messages : List CommitmentMessage) (key : MinedKey) :
    (∀ received, received <+: messages → ∀ m ∈ received, m.validFor c key = true →
      ∃ best, (run c hasher received).held key = some best ∧
        m.qc.countSigners ≤ best.countSigners) ↔
    ∀ first later, messages.filter (CommitmentMessage.validFor c key) = first :: later →
      ∀ m ∈ later, m.qc.countSigners ≤ first.qc.countSigners := by
  simp only [held_run]
  constructor
  · intro h first later hfilter m hm
    have hmem : m ∈ messages ∧ m.validFor c key = true := by
      rw [← mem_filter, hfilter]
      exact mem_cons_of_mem _ hm
    obtain ⟨best, hbest, hle⟩ := h messages prefix_rfl m hmem.1 hmem.2
    rw [← head?_filter, hfilter] at hbest
    simp only [head?_cons, map_some, some.injEq] at hbest
    rwa [hbest]
  · rintro h received ⟨rest, rfl⟩ m hm hvalid
    have hmem : m ∈ received.filter (validFor c key) := mem_filter.mpr ⟨hm, hvalid⟩
    cases hfilter : received.filter (validFor c key) with
    | nil => simp [hfilter] at hmem
    | cons first later =>
      refine ⟨first.qc, by simp [← head?_filter, hfilter], ?_⟩
      rw [hfilter] at hmem
      rcases mem_cons.mp hmem with rfl | hlater
      · exact le_rfl
      · refine h first (later ++ rest.filter (validFor c key)) ?_ m (mem_append_left _ hlater)
        rw [filter_append, hfilter, cons_append]

/-! ## The maps over runs -/

/-- What happens to the maps: a commitment arrives, one is added by the node's own session or
by `UndoBlock`, or one is mined. -/
inductive MinableEvent where
  | received (m : CommitmentMessage)
  | added (fqc : CFinalCommitment)
  | mined (qc : CFinalCommitment)

/-- One event; `ProcessCommitment` erases what is mined from both maps. -/
def step (c : QuorumConsensus) (hasher : CommitmentHasher) (s : Minable) : MinableEvent → Minable
  | .received m => m.receive c hasher s
  | .added fqc =>
    match s.addMineableCommitment hasher fqc with
    | .ok (s', _) => s'
    | .error _ => s
  | .mined qc => { s.erase (hasher.hash qc) with byQuorum := update s.byQuorum (keyOf qc) none }

/-- The commitment held for the quorum is not replaced, and is the one that is mined. -/
def KeepsPairs (s : Minable) : MinableEvent → Prop
  | .received _ => True
  | .added fqc => ∀ old, s.held (keyOf fqc) = some old → fqc.countSigners ≤ old.countSigners
  | .mined qc => ∀ old, s.held (keyOf qc) = some old → old = qc

variable (c) in
lemma step_added (h : Filed hasher s) (fqc : CFinalCommitment) :
    s.step c hasher (.added fqc) =
      if (s.held (keyOf fqc)).all (fun old => old.countSigners < fqc.countSigners) then
        s.put (hasher.hash fqc) fqc
      else s := by
  rw [step, addMineableCommitment_eq h]
  cases (s.held (keyOf fqc)).all fun old => old.countSigners < fqc.countSigners <;> rfl

lemma filed_step (h : Filed hasher s) (event : MinableEvent) :
    Filed hasher (s.step c hasher event) := by
  cases event with
  | received m => exact (held_receive h c m (keyOf m.qc)).1
  | added fqc =>
    rw [step_added c h]
    split
    · exact h.put fqc
    · exact h
  | mined qc => exact h.of_update rfl rfl nofun

lemma paired_step_iff (h : Filed hasher s) (hs : Paired s) (event : MinableEvent) :
    Paired (s.step c hasher event) ↔ s.KeepsPairs event := by
  have hput : ∀ fqc, Paired (s.put (hasher.hash fqc) fqc) ↔
      ∀ old, s.held (keyOf fqc) = some old → old = fqc :=
    fun fqc => h.paired_update (o := some fqc) rfl rfl (by simp) hs
  cases event with
  | received m =>
    refine iff_of_true ?_ trivial
    cases hheld : s.held (keyOf m.qc) with
    | some old =>
      rw [step, receive_of_held_eq_some h hheld]
      exact hs
    | none =>
      rw [step, receive_of_held_eq_none h hheld]
      split
      · exact (hput m.qc).mpr (by simp [hheld])
      · exact hs
  | added fqc =>
    rw [step_added c h, KeepsPairs]
    cases hheld : s.held (keyOf fqc) with
    | none => simp [hput, hheld]
    | some old =>
      by_cases hmore : old.countSigners < fqc.countSigners
      · have hne : old ≠ fqc := fun heq => absurd hmore (heq ▸ lt_irrefl _)
        simp [hput, hheld, hmore, hne]
      · simp [hmore, hs, not_lt.mp hmore]
  | mined qc => exact h.paired_update rfl rfl nofun hs

lemma paired_empty : Paired {} := ⟨nofun, nofun⟩

/-- **The two maps.** They are in bijection in all states of a run exactly if no commitment
that is held is replaced by one with more signers, and none is held for a quorum when another
one is mined for it. -/
theorem paired_run_iff (c : QuorumConsensus) (hasher : CommitmentHasher)
    (events : List MinableEvent) :
    (∀ before, before <+: events → Paired (before.foldl (step c hasher) {})) ↔
      ∀ before event, before ++ [event] <+: events →
        KeepsPairs (before.foldl (step c hasher) {}) event :=
  @Foundation.forall_prefix_iff _ _ (step c hasher) (Filed hasher) Paired KeepsPairs
    (fun _ event h => filed_step h event) (fun _ event h hs => paired_step_iff h hs event) {}
    filed_empty paired_empty events

/-! ## A better commitment that is dropped -/

/-- The fields of a commitment as one number. -/
def encodeCommitment (qc : CFinalCommitment) : Nat :=
  Encodable.encode (qc.nVersion, LLMQType.all.idxOf qc.llmqType, qc.quorumHash, qc.quorumIndex,
    qc.signers, qc.validMembers, qc.quorumPublicKey, qc.quorumVvecHash, qc.quorumSig, qc.membersSig)

lemma encodeCommitment_injective : Injective encodeCommitment := by
  intro a b h
  have htype : Injective fun llmqType => LLMQType.all.idxOf llmqType := by
    intro t t' heq
    revert heq
    cases t <;> cases t' <;> decide
  have hfields := Encodable.encode_injective h
  simp only [Prod.mk.injEq] at hfields
  obtain ⟨hversion, hllmqType, hrest⟩ := hfields
  cases a
  cases b
  simp only [CFinalCommitment.mk.injEq]
  exact ⟨hversion, htype hllmqType, hrest⟩

/-- A node of the test network with ten masternodes and ten blocks, and the quorum of
`signedCommitment`. -/
def messageOf (signers : Nat) : CommitmentMessage where
  qc := { QuorumState.signedCommitment with
    signers := replicate signers true ++ replicate (10 - signers) false }
  env :=
    { logging := false
      llmqs := writeLLMQs .test 0 initialLLMQs
      llmqs_size := size_writeLLMQs .test 0
      members := range 10
      membersSigVerifies := fun _ _ => true
      quorumSigVerifies := fun _ => true }
  chain := (range 10).map fun i => { hash := i + 1, hash_ne := Nat.succ_ne_zero i }
  hasMined _ := false

/-- A commitment with eight signers is received, then one with ten; both are valid. The node goes
on to hold the first. -/
theorem drops_more_signers :
    let messages := [messageOf 8, messageOf 10]
    let key : MinedKey := (.llmq50_60, 1)
    messages.map (CommitmentMessage.validFor testNetQuorumConsensus key) = [true, true] ∧
      messages.map (fun m => m.qc.countSigners) = [8, 10] ∧
      ((run testNetQuorumConsensus ⟨encodeCommitment, encodeCommitment_injective⟩ messages).held
        key).map CFinalCommitment.countSigners = some 8 := by
  decide +kernel

/-- The node holds a commitment with eight signers when its own session adds one with ten, or
when that one is mined: the first stays, and no quorum leads to it. -/
theorem replaced_stays :
    let qc := (messageOf 10).qc
    ∀ event ∈ [MinableEvent.added qc, MinableEvent.mined qc],
      ¬ Paired ([.received (messageOf 8), event].foldl (step testNetQuorumConsensus
        ⟨encodeCommitment, encodeCommitment_injective⟩) {}) := by
  intro qc event hevent h
  have hkeeps := (paired_step_iff (filed_step filed_empty _)
    ((paired_step_iff filed_empty paired_empty (.received _)).mpr trivial) event).mp h
  have hheld : (step testNetQuorumConsensus ⟨encodeCommitment, encodeCommitment_injective⟩ {}
      (.received (messageOf 8))).held (keyOf qc) = some (messageOf 8).qc := by
    decide +kernel
  rcases mem_pair.mp hevent with rfl | rfl
  · exact absurd (hkeeps _ hheld) (by decide +kernel)
  · exact absurd (hkeeps _ hheld) (by decide +kernel)

end Minable

end HootChain.Llmq.BlockProcessor
