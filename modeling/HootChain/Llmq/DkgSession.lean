import HootChain.Foundation.ExceptRuns
import HootChain.Primitives.Transaction

/-!
# DKG Justifications (`llmq/dkgsession.cpp`)

The justification phase of a distributed key generation session. A member that
others complained about answers with a justification that lists, by member
index, the secret key shares it owes. `PreVerifyMessage` makes the cheap checks
before the signature is verified, `ReceiveMessage` then processes the message.

Containers of the session are indexed through the unchecked `operator[]`, and
verification vectors are held through pointers that are null until the
contribution arrives. The model makes every such access explicit: it either
yields the element or ends in a `MemoryFault`. A session of `n` members has all
its containers of length `n`, as `Init` leaves them.
-/

namespace HootChain.Llmq

open Foundation Primitives Nat Option

/-! ## Messages and state -/

/-- Secret key shares, member ids and verification vectors (of public keys) are numbers
here; only the oracle below gives them meaning. -/
abbrev CBLSSecretKey := Nat
abbrev CBLSId := Nat
abbrev BLSVerificationVector := List Nat

structure Contribution where
  index : Nat
  key : CBLSSecretKey
  deriving DecidableEq

structure CDKGJustification where
  llmqType : Nat
  quorumHash : Uint256
  proTxHash : Uint256
  contributions : List Contribution
  sig : List UInt8
  deriving DecidableEq

/-- `CDKGMember`. Message hashes are taken to be collision-free, so the set of hashes of
the justifications received is the set of the justifications. -/
structure CDKGMember where
  proTxHash : Uint256
  id : CBLSId
  justifications : List CDKGJustification := []
  complaintsFromOthers : List Uint256 := []
  bad : Bool := false
  weComplain : Bool := false
  someoneComplain : Bool := false

/-- `CDKGSession` with `n` members. -/
structure CDKGSession (n : Nat) where
  quorumHash : Uint256
  members : Vector CDKGMember n
  membersMap : Uint256 → Option (Fin n)
  receivedVvecs : Vector (Option BLSVerificationVector) n
  receivedSkContributions : Vector CBLSSecretKey n
  /-- Null (zero) for an observer. -/
  myProTxHash : Uint256 := 0
  myId : CBLSId := 0
  justifications : List CDKGJustification := []
  /-- Justifications announced to the other participants. -/
  relayedJustifications : List CDKGJustification := []
  /-- `CDKGSessionManager::WriteVerifiedSkContribution`. -/
  verifiedSkContributions : List (Uint256 × CBLSSecretKey) := []

open CDKGSession

/-- The BLS operations of the two functions. Ids are built from a hash and always valid. -/
structure BlsWorker where
  secretKeyIsValid : CBLSSecretKey → Bool
  verifyContributionShare : CBLSId → BLSVerificationVector → CBLSSecretKey → Bool

/-- An access that the C++ code makes outside of a container or through a null pointer. -/
inductive MemoryFault where
  | membersOutOfRange (index : Nat)
  | nullVerificationVector (idx : Nat)
  deriving DecidableEq

namespace CDKGSession

variable {n : Nat}

/-- `CDKGSession::Init`: one slot per masternode in every container. -/
def init (quorumHash : Uint256) (mns : Vector Uint256 n) (myProTxHash : Uint256) :
    CDKGSession n where
  quorumHash := quorumHash
  members := mns.map fun proTxHash => { proTxHash := proTxHash, id := proTxHash }
  membersMap := fun proTxHash => (List.finRange n).find? fun i => mns[i] == proTxHash
  receivedVvecs := Vector.replicate n none
  receivedSkContributions := Vector.replicate n 0
  myProTxHash := if mns.toList.contains myProTxHash then myProTxHash else 0
  myId := if mns.toList.contains myProTxHash then myProTxHash else 0

section

variable (session : CDKGSession n)

/-- `GetMember`, as the index of the member. -/
def getMember (proTxHash : Uint256) : Option (Fin n) := session.membersMap proTxHash

def areWeMember : Bool := session.myProTxHash != 0

/-- `members[index]`. -/
def memberAt (index : Nat) : Except MemoryFault CDKGMember :=
  if h : index < n then .ok session.members[index] else .error (.membersOutOfRange index)

/-- A write through a `CDKGMember` pointer. -/
def modifyMember (idx : Fin n) (f : CDKGMember → CDKGMember) : CDKGSession n :=
  { session with members := session.members.set idx (f session.members[idx]) }

def markBadMember (idx : Fin n) : CDKGSession n :=
  if session.members[idx].bad then session
  else session.modifyMember idx fun member => { member with bad := true }

end

end CDKGSession

/-! ## `PreVerifyMessage` -/

/-- Why `PreVerifyMessage` rejects a justification. -/
inductive PreVerifyFailure where
  | wrongQuorum
  | notMember
  | noContributions
  | invalidIndex
  | duplicateIndex
  | invalidContribution
  | tooManyJustifications
  deriving DecidableEq

variable {n : Nat}

/-- The loop over the contributions; `contributionsSet` holds the indices seen. -/
def preVerifyContributions (bls : BlsWorker) (size : Nat) :
    List Contribution → List Nat → Except PreVerifyFailure Unit
  | [], _ => .ok ()
  | p :: rest, contributionsSet =>
    if p.index > size then .error .invalidIndex
    else if p.index ∈ contributionsSet then .error .duplicateIndex
    else if !bls.secretKeyIsValid p.key then .error .invalidContribution
    else preVerifyContributions bls size rest (p.index :: contributionsSet)

section

variable (bls : BlsWorker)

def preVerifyMessage (session : CDKGSession n) (qj : CDKGJustification) :
    Except PreVerifyFailure Unit :=
  if qj.quorumHash ≠ session.quorumHash then .error .wrongQuorum
  else
    match session.getMember qj.proTxHash with
    | none => .error .notMember
    | some idx =>
      if qj.contributions.isEmpty then .error .noContributions
      else
        match preVerifyContributions bls n qj.contributions [] with
        | .error failure => .error failure
        | .ok _ =>
          if session.members[idx].justifications.length ≥ 2 then .error .tooManyJustifications
          else .ok ()

/-! ## `ReceiveMessage` -/

/-- One contribution in the first loop: whoever is justified for must have complained. -/
def checkComplaint (idx : Fin n) (session : CDKGSession n) (p : Contribution) :
    Except MemoryFault (CDKGSession n) := do
  let member2 ← session.memberAt p.index
  if member2.proTxHash ∈ session.members[idx].complaintsFromOthers then
    return session
  else
    return session.markBadMember idx

/-- One contribution in the second loop: `AsyncVerifyContributionShare` dereferences the
verification vector of the sender. -/
def verifyShare (idx : Fin n) (session : CDKGSession n) (p : Contribution) :
    Except MemoryFault Bool := do
  let member2 ← session.memberAt p.index
  match session.receivedVvecs[idx] with
  | none => throw (.nullVerificationVector idx)
  | some vvec => return bls.verifyContributionShare member2.id vvec p.key

/-- One contribution in the third loop, with the result of its verification. -/
def settleComplaint (idx : Fin n) (session : CDKGSession n) (p : Contribution × Bool) :
    Except MemoryFault (CDKGSession n) := do
  let member2 ← session.memberAt p.1.index
  if !p.2 then
    return session.markBadMember idx
  else
    let session :=
      if session.areWeMember && member2.id == session.myId then
        { session.modifyMember idx (fun member => { member with weComplain := false }) with
          receivedSkContributions := session.receivedSkContributions.set idx p.1.key
          verifiedSkContributions :=
            session.verifiedSkContributions ++ [(session.members[idx].proTxHash, p.1.key)] }
      else
        session
    return session.modifyMember idx fun member =>
      { member with complaintsFromOthers := member.complaintsFromOthers.erase member2.proTxHash }

/-- `ReceiveMessage` once the message is recorded and its sender is in good standing. -/
def processContributions (idx : Fin n) (qj : CDKGJustification) (session : CDKGSession n) :
    Except MemoryFault (CDKGSession n) := do
  let session ← qj.contributions.foldlM (checkComplaint idx) session
  if session.members[idx].bad then
    return session
  let results ← qj.contributions.mapM (verifyShare bls idx session)
  (qj.contributions.zip results).foldlM (settleComplaint idx) session

/-- `CDKGSession::ReceiveMessage(const CDKGJustification&)`, for the sender `idx`. -/
def receiveMessageFrom (idx : Fin n) (qj : CDKGJustification) (session : CDKGSession n) :
    Except MemoryFault (CDKGSession n) :=
  if session.members[idx].justifications.length ≥ 2 then .ok session
  else
    let session := { session with
      justifications := session.justifications.insert qj
      relayedJustifications := session.relayedJustifications ++ [qj] }
    let session := session.modifyMember idx fun member =>
      { member with justifications := member.justifications.insert qj }
    if session.members[idx].justifications.length > 1 then .ok (session.markBadMember idx)
    else if session.members[idx].bad then .ok session
    else processContributions bls idx qj session

/-- `CDKGSession::ReceiveMessage(const CDKGJustification&)`; `none` if the sender is not a
member, which `PreVerifyMessage` excludes. -/
def receiveMessage (session : CDKGSession n) (qj : CDKGJustification) :
    Option (Except MemoryFault (CDKGSession n)) :=
  (session.getMember qj.proTxHash).map fun idx => receiveMessageFrom bls idx qj session

end

/-! ## The three loops -/

section ReceiveLoops

variable {bls : BlsWorker} {idx : Fin n} {session : CDKGSession n} {qj : CDKGJustification}
  {index : Nat} {p : Contribution} {l : List Contribution}

lemma memberAt_of_lt (h : index < n) : session.memberAt index = .ok session.members[index] := by
  rw [memberAt, dif_pos h]

lemma memberAt_of_not_lt (h : ¬ index < n) :
    session.memberAt index = .error (.membersOutOfRange index) := by
  rw [memberAt, dif_neg h]

/-- Someone justified for by `p` has not complained about the sender. -/
def Uncomplained (idx : Fin n) (session : CDKGSession n) (p : Contribution) : Prop :=
  ∃ h : p.index < n, session.members[p.index].proTxHash ∉ session.members[idx].complaintsFromOthers

lemma bad_markBadMember : (session.markBadMember idx).members[idx].bad = true := by
  unfold markBadMember modifyMember
  split
  · next hbad => exact hbad
  · simp

lemma receivedVvecs_markBadMember :
    (session.markBadMember idx).receivedVvecs = session.receivedVvecs := by
  unfold markBadMember
  split <;> rfl

lemma checkComplaint_eq (hp : p.index < n) :
    checkComplaint idx session p =
      if session.members[p.index].proTxHash ∈ session.members[idx].complaintsFromOthers then
        .ok session
      else .ok (session.markBadMember idx) := by
  rw [checkComplaint, memberAt_of_lt hp]
  rfl

section

variable (idx : Fin n) (session : CDKGSession n)

/-- The first loop within range: the sender is bad afterwards if it was before or somebody
justified for has not complained, and the verification vectors are as before. -/
lemma checkComplaints_spec (l : List Contribution) (hrange : ∀ p ∈ l, p.index < n) :
    ∃ session', l.foldlM (checkComplaint idx) session = .ok session' ∧
      session'.receivedVvecs = session.receivedVvecs ∧
      (session'.members[idx].bad = true ↔
        session.members[idx].bad = true ∨ ∃ p ∈ l, Uncomplained idx session p) := by
  induction l generalizing session with
  | nil => exact ⟨session, rfl, rfl, by simp⟩
  | cons p l ih =>
    have hp : p.index < n := hrange p (List.mem_cons_self ..)
    have hl : ∀ q ∈ l, q.index < n := fun q hq => hrange q (List.mem_cons_of_mem _ hq)
    rw [List.foldlM_cons, checkComplaint_eq hp]
    by_cases hc : session.members[p.index].proTxHash ∈ session.members[idx].complaintsFromOthers
    · have hun : ¬ Uncomplained idx session p := fun ⟨_, h⟩ => h hc
      obtain ⟨session', hrun, hvvecs, hbad⟩ := ih session hl
      refine ⟨session', ?_, hvvecs, ?_⟩
      · rw [if_pos hc]
        exact hrun
      · rw [hbad]
        simp [hun]
    · have hun : Uncomplained idx session p := ⟨hp, hc⟩
      obtain ⟨session', hrun, hvvecs, hbad⟩ := ih (session.markBadMember idx) hl
      refine ⟨session', ?_, hvvecs.trans receivedVvecs_markBadMember, ?_⟩
      · rw [if_neg hc]
        exact hrun
      · exact ⟨fun _ => .inr ⟨p, List.mem_cons_self .., hun⟩,
          fun _ => hbad.mpr (.inl bad_markBadMember)⟩

/-- The first loop faults on an index out of range wherever it stands in the message. -/
lemma checkComplaints_fault (hp : p ∈ l) (hrange : ¬ p.index < n) :
    (l.foldlM (checkComplaint idx) session).isOk = false := by
  refine not_isOk_foldlM hp (fun s => ?_) session
  rw [checkComplaint, memberAt_of_not_lt hrange]
  rfl

lemma verifyShares_isOk (bls : BlsWorker) (hrange : ∀ p ∈ l, p.index < n) (hne : l ≠ []) :
    (l.mapM (verifyShare bls idx session)).isOk = true ↔ session.receivedVvecs[idx] ≠ none := by
  rw [isOk_mapM]
  have hshare : ∀ p ∈ l, (verifyShare bls idx session p).isOk = true ↔
      session.receivedVvecs[idx] ≠ none := by
    intro p hp
    rw [verifyShare, memberAt_of_lt (hrange p hp)]
    cases hv : session.receivedVvecs[idx] <;>
      simp [Bind.bind, Except.bind, pure, Except.pure, throw, throwThe, MonadExceptOf.throw]
  obtain ⟨p, hp⟩ := List.exists_mem_of_ne_nil l hne
  exact ⟨fun h => (hshare p hp).mp (h p hp), fun h q hq => (hshare q hq).mpr h⟩

end

lemma settleComplaints_isOk {l : List (Contribution × Bool)}
    (hrange : ∀ p ∈ l, p.1.index < n) (s : CDKGSession n) :
    (l.foldlM (settleComplaint idx) s).isOk = true := by
  refine isOk_foldlM (fun s p hp => ?_) s
  rw [settleComplaint, memberAt_of_lt (hrange p hp)]
  split <;> rfl

/-- The three loops are safe exactly when all indices are in range and either the sender's
verification vector is there or the first loop already condemns the sender. -/
lemma processContributions_isOk (bls : BlsWorker) (hne : qj.contributions ≠ [])
    (hgood : session.members[idx].bad = false) :
    (processContributions bls idx qj session).isOk = true ↔
      (∀ p ∈ qj.contributions, p.index < n) ∧
      (session.receivedVvecs[idx] ≠ none ∨ ∃ p ∈ qj.contributions, Uncomplained idx session p) := by
  rw [processContributions, isOk_bind]
  by_cases hrange : ∀ p ∈ qj.contributions, p.index < n
  · obtain ⟨session', hrun, hvvecs, hbad⟩ :=
      checkComplaints_spec idx session qj.contributions hrange
    rw [hgood] at hbad
    simp only [Bool.false_eq_true, false_or] at hbad
    simp only [hrun, Except.ok.injEq, exists_eq_left']
    by_cases hun : ∃ p ∈ qj.contributions, Uncomplained idx session p
    · rw [if_pos (hbad.mpr hun)]
      exact iff_of_true rfl ⟨hrange, .inr hun⟩
    · rw [if_neg (fun h => hun (hbad.mp h)), isOk_bind]
      constructor
      · rintro ⟨results, hresults, -⟩
        have hvvec := (verifyShares_isOk idx session' bls hrange hne).mp (by rw [hresults]; rfl)
        rw [hvvecs] at hvvec
        exact ⟨hrange, .inl hvvec⟩
      · rintro ⟨-, hvvec⟩
        have hvvec := hvvec.resolve_right hun
        rw [← hvvecs] at hvvec
        cases hresults : qj.contributions.mapM (verifyShare bls idx session') with
        | error e =>
          have hok := (verifyShares_isOk idx session' bls hrange hne).mpr hvvec
          rw [hresults] at hok
          cases hok
        | ok results =>
          exact ⟨results, rfl, settleComplaints_isOk
            (fun p hp => hrange p.1 (List.of_mem_zip hp).1) session'⟩
  · push Not at hrange
    obtain ⟨p, hp, hout⟩ := hrange
    have hfault := checkComplaints_fault idx session hp (not_lt.mpr hout)
    constructor
    · rintro ⟨session', hrun, -⟩
      rw [hrun] at hfault
      cases hfault
    · rintro ⟨hrange, -⟩
      exact absurd (hrange p hp) (not_lt.mpr hout)

end ReceiveLoops

/-! ## What `PreVerifyMessage` promises -/

variable {bls : BlsWorker}

lemma preVerifyContributions_index_le {size : Nat} {l : List Contribution} {seen : List Nat}
    (h : preVerifyContributions bls size l seen = .ok ()) : ∀ p ∈ l, p.index ≤ size := by
  induction l generalizing seen with
  | nil => simp
  | cons p l ih =>
    rw [preVerifyContributions] at h
    split at h
    · cases h
    · next hle =>
      split at h
      · cases h
      · split at h
        · cases h
        · exact List.forall_mem_cons.mpr ⟨not_lt.mp hle, ih h⟩

/-- A justification that passes comes from a member with fewer than two justifications, is
not empty, and its indices are at most the number of members. -/
lemma preVerifyMessage_index_le {session : CDKGSession n} {qj : CDKGJustification}
    (h : preVerifyMessage bls session qj = .ok ()) :
    ∃ idx, session.getMember qj.proTxHash = some idx ∧ qj.contributions ≠ [] ∧
      (∀ p ∈ qj.contributions, p.index ≤ n) ∧
      session.members[idx].justifications.length < 2 := by
  unfold preVerifyMessage at h
  split at h
  · cases h
  · cases hmember : session.getMember qj.proTxHash with
    | none => simp [hmember] at h
    | some idx =>
      simp only [hmember] at h
      split at h
      · cases h
      · next hempty =>
        cases hloop : preVerifyContributions bls n qj.contributions [] with
        | error e => simp [hloop] at h
        | ok u =>
          simp only [hloop] at h
          split at h
          · cases h
          · next hcount =>
            exact ⟨idx, rfl, by simpa using hempty, preVerifyContributions_index_le hloop,
              not_le.mp hcount⟩

/-! ## Safety of `ReceiveMessage` -/

/-- The sender already sent a different justification, or is bad, or no contribution is for
the index one past the end and the sender's verification vector is there unless somebody
justified for has not complained. -/
def SafelyReceivable (session : CDKGSession n) (idx : Fin n) (qj : CDKGJustification) : Prop :=
  (∃ other ∈ session.members[idx].justifications, other ≠ qj) ∨
  session.members[idx].bad = true ∨
  ((∀ p ∈ qj.contributions, p.index ≠ n) ∧
    (session.receivedVvecs[idx] ≠ none ∨ ∃ p ∈ qj.contributions, Uncomplained idx session p))

def recordJustification (session : CDKGSession n) (idx : Fin n) (qj : CDKGJustification) :
    CDKGSession n :=
  { session with
    justifications := session.justifications.insert qj
    relayedJustifications := session.relayedJustifications ++ [qj] }.modifyMember idx fun member =>
      { member with justifications := member.justifications.insert qj }

section Record

variable (session : CDKGSession n) (idx : Fin n) (qj : CDKGJustification)

lemma members_recordJustification (i : Nat) (hi : i < n) :
    (recordJustification session idx qj).members[i].proTxHash = session.members[i].proTxHash ∧
    (recordJustification session idx qj).members[i].complaintsFromOthers =
      session.members[i].complaintsFromOthers ∧
    (recordJustification session idx qj).members[i].bad = session.members[i].bad := by
  unfold recordJustification modifyMember
  simp only [Vector.getElem_set]
  split
  · next heq => subst heq; exact ⟨rfl, rfl, rfl⟩
  · exact ⟨rfl, rfl, rfl⟩

lemma justifications_recordJustification :
    (recordJustification session idx qj).members[idx].justifications =
      session.members[idx].justifications.insert qj := by
  simp [recordJustification, modifyMember]

lemma uncomplained_recordJustification {p : Contribution} :
    Uncomplained idx (recordJustification session idx qj) p ↔ Uncomplained idx session p := by
  refine exists_congr fun h => ?_
  rw [(members_recordJustification session idx qj p.index h).1, Fin.getElem_fin,
    (members_recordJustification session idx qj idx.1 idx.2).2.1, Fin.getElem_fin]

/-- With fewer than two justifications on record, one more makes two exactly when there is a
different one. -/
lemma one_lt_length_insert {l : List CDKGJustification} (h : l.length < 2) :
    1 < (l.insert qj).length ↔ ∃ other ∈ l, other ≠ qj := by
  match l, h with
  | [], _ => simp
  | [other], _ =>
    by_cases heq : other = qj
    · simp [heq]
    · simp [List.insert, Ne.symm heq, heq]

/-- `ReceiveMessage` on a message of a member with fewer than two justifications. -/
lemma receiveMessageFrom_isOk (bls : BlsWorker) (hne : qj.contributions ≠ [])
    (hcount : session.members[idx].justifications.length < 2) :
    (receiveMessageFrom bls idx qj session).isOk = true ↔
      (∃ other ∈ session.members[idx].justifications, other ≠ qj) ∨
      session.members[idx].bad = true ∨
      ((∀ p ∈ qj.contributions, p.index < n) ∧
        (session.receivedVvecs[idx] ≠ none ∨
          ∃ p ∈ qj.contributions, Uncomplained idx session p)) := by
  have hbad : (recordJustification session idx qj).members[idx].bad = session.members[idx].bad :=
    (members_recordJustification session idx qj idx.1 idx.2).2.2
  have hrecord : receiveMessageFrom bls idx qj session =
      if (recordJustification session idx qj).members[idx].justifications.length > 1 then
        .ok ((recordJustification session idx qj).markBadMember idx)
      else if (recordJustification session idx qj).members[idx].bad then
        .ok (recordJustification session idx qj)
      else processContributions bls idx qj (recordJustification session idx qj) :=
    if_neg (not_le.mpr hcount)
  rw [hrecord, justifications_recordJustification, hbad]
  by_cases hother : ∃ other ∈ session.members[idx].justifications, other ≠ qj
  · rw [if_pos ((one_lt_length_insert qj hcount).mpr hother)]
    exact iff_of_true rfl (.inl hother)
  · rw [if_neg (fun h => hother ((one_lt_length_insert qj hcount).mp h))]
    cases hgood : session.members[idx].bad with
    | true => exact iff_of_true rfl (.inr (.inl rfl))
    | false =>
      have hloops := processContributions_isOk bls hne (hbad.trans hgood)
      simp only [uncomplained_recordJustification] at hloops
      rw [if_neg Bool.false_ne_true, hloops]
      simp only [hother, Bool.false_eq_true, false_or]
      rfl

end Record

/-- **Memory safety of justifications.** After a successful `PreVerifyMessage`,
`ReceiveMessage` runs without an access out of range or through a null pointer exactly when
the message is safely receivable. -/
theorem receiveMessage_safe_iff (bls : BlsWorker) (session : CDKGSession n)
    (qj : CDKGJustification) (hpre : preVerifyMessage bls session qj = .ok ()) :
    (∃ session', receiveMessage bls session qj = some (.ok session')) ↔
      ∃ idx, session.getMember qj.proTxHash = some idx ∧ SafelyReceivable session idx qj := by
  obtain ⟨idx, hmember, hne, hle, hcount⟩ := preVerifyMessage_index_le hpre
  have hrange : (∀ p ∈ qj.contributions, p.index < n) ↔ ∀ p ∈ qj.contributions, p.index ≠ n :=
    ⟨fun h p hp => (h p hp).ne, fun h p hp => lt_of_le_of_ne (hle p hp) (h p hp)⟩
  have hsafe : (receiveMessageFrom bls idx qj session).isOk = true ↔
      SafelyReceivable session idx qj := by
    rw [receiveMessageFrom_isOk session idx qj bls hne hcount, hrange, SafelyReceivable]
  simp only [receiveMessage, hmember, map_some, some.injEq, exists_eq_left']
  rw [← hsafe]
  cases receiveMessageFrom bls idx qj session <;> simp

/-! ## Runs of two members -/

/-- Every key is valid and every share verifies. -/
def acceptingBls : BlsWorker where
  secretKeyIsValid _ := true
  verifyContributionShare _ _ _ := true

/-- A session of the members 1 and 2, in which member 2 has complained about member 1, with
the verification vector of member 1 if its contribution arrived. -/
def complainedSession (vvec : Option BLSVerificationVector) : CDKGSession 2 :=
  let session := init 9 #v[1, 2] 0
  { session.modifyMember 0 (fun member => { member with complaintsFromOthers := [2] }) with
    receivedVvecs := #v[vvec, some [6]] }

/-- A justification of member 1 with one share. -/
def justificationFor (index : Nat) : CDKGJustification :=
  { llmqType := 1, quorumHash := 9, proTxHash := 1, contributions := [⟨index, 77⟩], sig := [] }

/-- The fault a run ends in. -/
def faultOf (result : Option (Except MemoryFault (CDKGSession n))) : Option MemoryFault :=
  match result with
  | some (.error fault) => some fault
  | _ => none

/-- Member 1 justifies for member 2 (index 1). -/
theorem receiveMessage_safe_answer :
    preVerifyMessage acceptingBls (complainedSession (some [5])) (justificationFor 1) = .ok () ∧
      ∃ session', receiveMessage acceptingBls (complainedSession (some [5])) (justificationFor 1) =
        some (.ok session') := by
  have hpre : preVerifyMessage acceptingBls (complainedSession (some [5]))
      (justificationFor 1) = .ok () := by
    decide +kernel
  refine ⟨hpre, (receiveMessage_safe_iff _ _ _ hpre).mpr ⟨0, by decide +kernel, ?_⟩⟩
  exact .inr (.inr ⟨by decide +kernel, .inl (by decide +kernel)⟩)

/-- In a quorum of two, a share for index 2 passes `PreVerifyMessage` and makes
`ReceiveMessage` read `members[2]`; without the sender's verification vector even a share
for index 1 dereferences a null pointer. -/
theorem receiveMessage_reads_past_end :
    preVerifyMessage acceptingBls (complainedSession (some [5])) (justificationFor 2) = .ok () ∧
    faultOf (receiveMessage acceptingBls (complainedSession (some [5])) (justificationFor 2)) =
      some (.membersOutOfRange 2) ∧
    preVerifyMessage acceptingBls (complainedSession none) (justificationFor 1) = .ok () ∧
    faultOf (receiveMessage acceptingBls (complainedSession none) (justificationFor 1)) =
      some (.nullVerificationVector 0) := by
  decide +kernel

end HootChain.Llmq
