import HootChain.Foundation.EventRuns
import HootChain.Llmq.InstantSend

/-!
# Pending Signature Shares (`llmq/signing_shares.cpp`)

`ProcessPendingSigShares` verifies a batch of shares that came from several nodes. A
first loop pushes the shares to a batch verifier: it skips those whose signature has
been recovered and leaves a node at its first share that does not decode. A second
loop over the same batch hands *all* shares of a node to `ProcessSigShare`, unless the
verifier has found the node to be bad.

So a share can be handed over that the first loop did not push, or pushed under the
key of another node's share, of which the verifier keeps the first.
-/

namespace HootChain.Llmq

open Bls Primitives List Function

/-! ## Shares -/

structure CSigShare (Sig : Type) where
  llmqType : LLMQType
  quorumHash : Uint256
  quorumMember : Nat
  id : Uint256
  msgHash : Uint256
  sigShare : Sig
  deriving DecidableEq

/-- `SigShareKey`: sign hash and member. -/
abbrev SigShareKey := Uint256 × Nat

variable {Sig PubKey : Type}

/-- What the functions read besides the shares. The public key share of a member is valid:
`PreVerifyBatchedSigShares` sees to it, and the source asserts it. -/
structure SharesEnv (bls : BlsScheme Sig PubKey) where
  buildSignHash : LLMQType → Uint256 → Uint256 → Uint256 → Uint256
  getPubKeyShare : LLMQType → Uint256 → Nat → PubKey
  pubKeyShare_isValid : ∀ llmqType quorumHash member,
    bls.pubKeyIsValid (getPubKeyShare llmqType quorumHash member) = true
  isAllMembersConnectedEnabled : LLMQType → Bool
  threshold : LLMQType → Nat

/-- The pending shares by node, in the order of the map and of the vectors in it. -/
abbrev PendingShares (Sig : Type) := List (NodeId × List (CSigShare Sig))

section Shares

variable {bls : BlsScheme Sig PubKey} (env : SharesEnv bls)

section

variable (s : CSigShare Sig)

def SharesEnv.getSignHash : Uint256 := env.buildSignHash s.llmqType s.quorumHash s.id s.msgHash

def SharesEnv.getKey : SigShareKey := (env.getSignHash s, s.quorumMember)

/-- The public key share of the member that the share is from. -/
def SharesEnv.pubKeyShare : PubKey := env.getPubKeyShare s.llmqType s.quorumHash s.quorumMember

/-- The share verifies against the public key share of its member. -/
def SharesEnv.authentic : Bool :=
  bls.verifyInsecure s.sigShare (env.pubKeyShare s) (env.getSignHash s)

/-! ## The first loop -/

/-- What is pushed for a share that decodes. -/
def SharesEnv.message (h : bls.isValid s.sigShare = true) : Message bls SigShareKey where
  msgId := env.getKey s
  msgHash := env.getSignHash s
  sig := s.sigShare
  pubKey := env.pubKeyShare s
  sig_isValid := h
  pubKey_isValid := env.pubKeyShare_isValid ..

end

/-- The shares of one node; `recovered` is what `HasRecoveredSigForId` returns when the loop
comes to a share. The node is banned where the loop is left. -/
def pushShares (recovered : CSigShare Sig → Bool) (nodeId : NodeId) :
    List (CSigShare Sig) → CBLSBatchVerifier bls NodeId SigShareKey →
      CBLSBatchVerifier bls NodeId SigShareKey
  | [], batchVerifier => batchVerifier
  | s :: rest, batchVerifier =>
    if recovered s then pushShares recovered nodeId rest batchVerifier
    else if h : bls.isValid s.sigShare = true then
      pushShares recovered nodeId rest (batchVerifier.pushMessage nodeId (env.message s h))
    else batchVerifier

variable (recovered : NodeId → CSigShare Sig → Bool) (pending : PendingShares Sig)

/-- The verifier after the first loop. -/
def pushPending : CBLSBatchVerifier bls NodeId SigShareKey :=
  pending.foldl (fun batchVerifier p => pushShares env (recovered p.1) p.1 p.2 batchVerifier)
    { secureVerification := false, perMessageFallback := true }

/-- The shares that are handed to `ProcessSigShare`, with the nodes they came from. -/
def handedOver : List (NodeId × CSigShare Sig) :=
  (pending.filter fun p => p.1 ∉ (pushPending env recovered pending).verify.badSources).flatMap
    fun p => p.2.map fun s => (p.1, s)

/-! ## The second loop -/

/-- The shares that the manager has, those it announces, and the signatures it has tried to
recover. -/
structure SharesState (Sig : Type) where
  sigShares : List (CSigShare Sig) := []
  sigSharesQueuedToAnnounce : List SigShareKey := []
  tryRecoverSig : List (Uint256 × Uint256) := []

/-- `ProcessSigShare`, for a share whose `HasRecoveredSigForId` returns `recovered`. -/
def processSigShare (recovered : Bool) (s : CSigShare Sig) (state : SharesState Sig) :
    SharesState Sig :=
  if recovered then state
  else if state.sigShares.any fun s' => env.getKey s' = env.getKey s then state
  else
    let sigShares := state.sigShares ++ [s]
    let sigShareCount := sigShares.countP fun s' => env.getSignHash s' = env.getSignHash s
    { sigShares
      sigSharesQueuedToAnnounce :=
        if env.isAllMembersConnectedEnabled s.llmqType then state.sigSharesQueuedToAnnounce
        else state.sigSharesQueuedToAnnounce ++ [env.getKey s]
      tryRecoverSig :=
        if sigShareCount ≥ env.threshold s.llmqType then state.tryRecoverSig ++ [(s.id, s.msgHash)]
        else state.tryRecoverSig }

/-- `ProcessPendingSigShares`. `recovered` and `recovered'` are what `HasRecoveredSigForId`
returns in the first loop and in `ProcessSigShare`. -/
def processPendingSigShares (recovered recovered' : NodeId → CSigShare Sig → Bool)
    (pending : PendingShares Sig) (state : SharesState Sig) : SharesState Sig :=
  (handedOver env recovered pending).foldl
    (fun state p => processSigShare env (recovered' p.1 p.2) p.2 state) state

/-! ## What has been checked -/

/-- The shares of a node that the first loop pushes: not recovered, and before the first that
does not decode. -/
def checkedShares (bls : BlsScheme Sig PubKey) (recovered : CSigShare Sig → Bool) :
    List (CSigShare Sig) → List (CSigShare Sig)
  | [] => []
  | s :: rest =>
    if recovered s then checkedShares bls recovered rest
    else if bls.isValid s.sigShare then s :: checkedShares bls recovered rest
    else []

/-- All shares that the first loop pushes. -/
def checkedPending (bls : BlsScheme Sig PubKey) (recovered : NodeId → CSigShare Sig → Bool)
    (pending : PendingShares Sig) : List (NodeId × CSigShare Sig) :=
  pending.flatMap fun p => (checkedShares bls (recovered p.1) p.2).map fun s => (p.1, s)

/-- The first share that is pushed under a key. -/
def firstChecked (key : SigShareKey) : Option (CSigShare Sig) :=
  ((checkedPending bls recovered pending).find? fun p => env.getKey p.2 = key).map Prod.snd

/-- The node has pushed a share under a key for which the first share is not authentic. -/
def Caught (nodeId : NodeId) : Prop :=
  ∃ s, (nodeId, s) ∈ checkedPending bls recovered pending ∧
    ∃ first, firstChecked env recovered pending (env.getKey s) = some first ∧
      env.authentic first = false

end Shares

/-! ## The nodes that are found to be bad -/

section Verdict

variable {bls : BlsScheme Sig PubKey} {env : SharesEnv bls}
  {recovered : NodeId → CSigShare Sig → Bool} {pending : PendingShares Sig} {nodeId : NodeId}

/-- What the verdict on a node depends on: nodes, keys and whether the share verifies. -/
abbrev Verdict := NodeId × SigShareKey × Bool

/-- The node has an entry under a key for which the first entry is bad. -/
def Condemned (entries : List Verdict) (nodeId : NodeId) : Prop :=
  ∃ entry ∈ entries, entry.1 = nodeId ∧
    ∃ first, entries.find? (fun e => e.2.1 = entry.2.1) = some first ∧ first.2.2 = false

/-- The verdict on entries that are computed from what the nodes sent. -/
lemma condemned_map {α : Type} {l : List (NodeId × α)} {key : α → SigShareKey} {ok : α → Bool} :
    Condemned (l.map fun p => (p.1, key p.2, ok p.2)) nodeId ↔ ∃ a, (nodeId, a) ∈ l ∧
      ∃ first, (l.find? fun p => key p.2 = key a).map Prod.snd = some first ∧ ok first = false := by
  simp only [Condemned, mem_map, find?_map, Option.map_eq_some_iff,
    exists_exists_and_eq_and, comp_def]
  constructor
  · rintro ⟨⟨node, a⟩, hmem, rfl, first, hfirst, hbad⟩
    exact ⟨a, hmem, first, hfirst, hbad⟩
  · rintro ⟨a, hmem, first, hfirst, hbad⟩
    exact ⟨(nodeId, a), hmem, rfl, first, hfirst, hbad⟩

def pushEntry (p : NodeId × Message bls SigShareKey) : Verdict :=
  (p.1, p.2.msgId, p.2.verifyInsecure)

variable (env) in
def shareEntry (p : NodeId × CSigShare Sig) : Verdict :=
  (p.1, env.getKey p.2, env.authentic p.2)

/-- The verifier holds the messages of the given shares. -/
def Holding (env : SharesEnv bls) (batchVerifier : CBLSBatchVerifier bls NodeId SigShareKey)
    (shares : List (NodeId × CSigShare Sig)) : Prop :=
  ∃ pushes, batchVerifier.Collected pushes ∧ pushes.map pushEntry = shares.map (shareEntry env)

lemma Holding.pushShares {batchVerifier : CBLSBatchVerifier bls NodeId SigShareKey}
    {shares : List (NodeId × CSigShare Sig)} (h : Holding env batchVerifier shares)
    (recovered : CSigShare Sig → Bool) (nodeId : NodeId) (own : List (CSigShare Sig)) :
    Holding env (pushShares env recovered nodeId own batchVerifier)
      (shares ++ (checkedShares bls recovered own).map fun s => (nodeId, s)) := by
  induction own generalizing batchVerifier shares with
  | nil => simpa [checkedShares, Llmq.pushShares] using h
  | cons s rest ih =>
    rw [Llmq.pushShares, checkedShares]
    split
    · exact ih h
    · split
      · next hvalid =>
        obtain ⟨pushes, hcollected, hentries⟩ := h
        have hstep : Holding env (batchVerifier.pushMessage nodeId (env.message s hvalid))
            (shares ++ [(nodeId, s)]) :=
          ⟨_, hcollected.pushMessage nodeId (env.message s hvalid), by
            rw [map_append, hentries, map_append]
            rfl⟩
        rw [map_cons, append_cons]
        exact ih hstep
      · simpa using h

variable (env recovered pending) in
lemma holding_pushPending : Holding env (pushPending env recovered pending)
    (checkedPending bls recovered pending) := by
  suffices hfold : ∀ batchVerifier shares, Holding env batchVerifier shares →
      Holding env (pending.foldl
        (fun batchVerifier p => pushShares env (recovered p.1) p.1 p.2 batchVerifier) batchVerifier)
        (shares ++ checkedPending bls recovered pending) from
    hfold _ [] ⟨[], CBLSBatchVerifier.collected_nil false true, rfl⟩
  intro batchVerifier shares h
  induction pending generalizing batchVerifier shares with
  | nil => simpa [checkedPending] using h
  | cons p pending ih =>
    rw [foldl_cons, checkedPending, flatMap_cons, ← append_assoc]
    exact ih _ _ (h.pushShares (recovered p.1) p.1 p.2)

/-- **The nodes that are found to be bad** are those that pushed a key for which the first share
is not authentic. -/
theorem mem_badSources_iff : nodeId ∈ (pushPending env recovered pending).verify.badSources ↔
    Caught env recovered pending nodeId := by
  obtain ⟨pushes, hcollected, hentries⟩ := holding_pushPending env recovered pending
  calc nodeId ∈ (pushPending env recovered pending).verify.badSources
      ↔ Condemned (pushes.map pushEntry) nodeId :=
        hcollected.mem_badSources_verify.trans condemned_map.symm
    _ ↔ Condemned ((checkedPending bls recovered pending).map (shareEntry env)) nodeId := by
        rw [hentries]
    _ ↔ Caught env recovered pending nodeId := condemned_map

end Verdict

/-! ## What is handed over -/

section HandedOver

variable {bls : BlsScheme Sig PubKey} {env : SharesEnv bls}
  {recovered recovered' : NodeId → CSigShare Sig → Bool} {pending : PendingShares Sig}

lemma mem_handedOver {nodeId : NodeId} {s : CSigShare Sig} :
    (nodeId, s) ∈ handedOver env recovered pending ↔
      ¬ Caught env recovered pending nodeId ∧ ∃ shares, (nodeId, shares) ∈ pending ∧ s ∈ shares := by
  simp only [handedOver, mem_flatMap, mem_filter, decide_eq_true_eq, mem_badSources_iff,
    mem_map, Prod.mk.injEq, Prod.exists]
  constructor
  · rintro ⟨node, shares, ⟨hmem, hfree⟩, s', hs', rfl, rfl⟩
    exact ⟨hfree, shares, hmem, hs'⟩
  · rintro ⟨hfree, shares, hmem, hs⟩
    exact ⟨nodeId, shares, ⟨hmem, hfree⟩, s, hs, rfl, rfl⟩

variable (env recovered recovered' pending) in
/-- **The shares that are handed over.** Each is authentic, or its signature has been recovered,
exactly if every node with a share of another kind has also pushed, before its first share that
does not decode, a key for which the first share pushed is not authentic. -/
theorem handedOver_authentic_iff :
    (∀ p ∈ handedOver env recovered pending,
      env.authentic p.2 = true ∨ recovered' p.1 p.2 = true) ↔
    ∀ p ∈ pending, (∃ s ∈ p.2, env.authentic s = false ∧ recovered' p.1 s = false) →
      Caught env recovered pending p.1 := by
  constructor
  · rintro h ⟨nodeId, shares⟩ hmem ⟨s, hs, hbad, hopen⟩
    by_contra hfree
    have hgood := h (nodeId, s) (mem_handedOver.mpr ⟨hfree, shares, hmem, hs⟩)
    simp only [hbad, hopen, Bool.false_eq_true, or_self] at hgood
  · rintro h ⟨nodeId, s⟩ hmem
    obtain ⟨hfree, shares, hpending, hs⟩ := mem_handedOver.mp hmem
    by_contra hbad
    simp only [not_or, Bool.not_eq_true] at hbad
    exact hfree (h (nodeId, shares) hpending ⟨s, hs, hbad⟩)

end HandedOver

/-! ## Shares that are not verified -/

/-- Signatures are numbers of which 0 does not decode and only 1 verifies. -/
def numberScheme : BlsScheme Nat Unit where
  isValid := fun sig => sig != 0
  pubKeyIsValid := fun _ => true
  pairing := fun sig _ _ => sig == 1

/-- Sign hashes are the ids. -/
def numberEnv : SharesEnv numberScheme where
  buildSignHash := fun _ _ id _ => id
  getPubKeyShare := fun _ _ _ => ()
  pubKeyShare_isValid := fun _ _ _ => rfl
  isAllMembersConnectedEnabled := fun _ => false
  threshold := fun _ => 2

/-- The share of a member for the given id. -/
def numberShare (id : Uint256) (quorumMember sigShare : Nat) : CSigShare Nat :=
  ⟨.llmq50_60, 100, quorumMember, id, 7, sigShare⟩

/-- A share that does not decode is stored and announced. So is one that fails to verify, if
another node has sent an authentic share under the same key and is banned for something else. -/
theorem processPendingSigShares_stores_invalid :
    (numberEnv.authentic (numberShare 5 0 0) = false ∧
      numberShare 5 0 0 ∈ (processPendingSigShares numberEnv (fun _ _ => false) (fun _ _ => false)
        [(1, [numberShare 5 0 0])] {}).sigShares) ∧
    (numberEnv.authentic (numberShare 5 0 2) = false ∧
      numberShare 5 0 2 ∈ (processPendingSigShares numberEnv (fun _ _ => false) (fun _ _ => false)
        [(1, [numberShare 5 0 1, numberShare 5 1 3]), (2, [numberShare 5 0 2])] {}).sigShares) := by
  decide +kernel

/-! ## Sessions -/

/-- `UNINITIALIZED_SESSION_ID`. -/
def uninitializedSessionId : Nat := 2 ^ 32 - 1

/-- `CSigSharesNodeState`: the `recvSessionId` of each session, and the session that an id leads
to, as sign hashes. A history variable has the session announced last under an id, until that
session is removed. -/
structure CSigSharesNodeState where
  sessions : Uint256 → Option Nat := fun _ => none
  sessionByRecvId : Nat → Option Uint256 := fun _ => none
  lastAnnounced : Nat → Option Uint256 := fun _ => none

/-- What happens to the sessions of a node. -/
inductive SessionEvent where
  | sigSesAnn (signHash : Uint256) (sessionId : Nat)
  | getOrCreateSessionFromShare (signHash : Uint256)
  | removeSession (signHash : Uint256)

namespace CSigSharesNodeState

variable (s : CSigSharesNodeState)

def getSessionByRecvId (sessionId : Nat) : Option Uint256 := s.sessionByRecvId sessionId

/-- The id of a session, which is created if there is none. -/
def recvSessionId (signHash : Uint256) : Nat := (s.sessions signHash).getD uninitializedSessionId

def step : SessionEvent → CSigSharesNodeState
  | .sigSesAnn signHash sessionId =>
    if sessionId = uninitializedSessionId then s
    else
      let erased := update (update s.sessionByRecvId (s.recvSessionId signHash) none) sessionId none
      { sessions := update s.sessions signHash (some sessionId)
        sessionByRecvId := update erased sessionId (some signHash)
        lastAnnounced := update s.lastAnnounced sessionId (some signHash) }
  | .getOrCreateSessionFromShare signHash =>
    { s with sessions := update s.sessions signHash (some (s.recvSessionId signHash)) }
  | .removeSession signHash =>
    match s.sessions signHash with
    | none => s
    | some recvSessionId =>
      { sessions := update s.sessions signHash none
        sessionByRecvId := update s.sessionByRecvId recvSessionId none
        lastAnnounced := fun id =>
          if s.lastAnnounced id = some signHash then none else s.lastAnnounced id }

/-- The sessions of a node that has just connected. -/
def run (events : List SessionEvent) : CSigSharesNodeState := events.foldl step {}

/-- Every id leads to the session announced last under it. -/
def Exact : Prop := ∀ id, s.getSessionByRecvId id = s.lastAnnounced id

/-- A session gives up its id only if the id does not lead to another one, and if it is
announced under another id, only if it leads to none. -/
def GivesUpOwn : SessionEvent → Prop
  | .sigSesAnn signHash sessionId => sessionId ≠ uninitializedSessionId →
    s.recvSessionId signHash ≠ sessionId → s.sessionByRecvId (s.recvSessionId signHash) = none
  | .getOrCreateSessionFromShare _ => True
  | .removeSession signHash => ∀ id, s.sessions signHash = some id →
    ∀ other, s.sessionByRecvId id = some other → other = signHash

/-- No id leads to a removed session. -/
structure Live (s : CSigSharesNodeState) : Prop where
  recvId : ∀ {id signHash}, s.sessionByRecvId id = some signHash → s.sessions signHash = some id
  uninitialized : s.sessionByRecvId uninitializedSessionId = none

variable {s}

lemma Live.recvSessionId_eq (h : s.Live) {id : Nat} {signHash : Uint256}
    (hid : s.sessionByRecvId id = some signHash) : s.recvSessionId signHash = id := by
  simp [recvSessionId, h.recvId hid]

lemma Live.step (h : s.Live) (event : SessionEvent) : (s.step event).Live := by
  have hown := @h.recvSessionId_eq
  obtain ⟨hrecv, hun⟩ := h
  fun_cases CSigSharesNodeState.step
  case case1 | case4 => exact ⟨hrecv, hun⟩
  all_goals
    refine ⟨fun {id other} hid => ?_, ?_⟩
    all_goals simp only [update_apply] at *; grind

lemma exact_step_iff (hlive : s.Live) (h : s.Exact) (event : SessionEvent) :
    (s.step event).Exact ↔ s.GivesUpOwn event := by
  have hown := @hlive.recvSessionId_eq
  obtain ⟨hrecv, hun⟩ := hlive
  simp only [Exact, getSessionByRecvId] at h ⊢
  fun_cases CSigSharesNodeState.step
  case case2 signHash sessionId hid _ =>
    simp only [GivesUpOwn, update_apply, ← h]
    exact ⟨fun hexact _ hne => by grind, fun hnone id => by grind⟩
  case case5 signHash id hid =>
    simp only [GivesUpOwn, update_apply, ← h]
    exact ⟨fun hexact j hj other => by grind, fun hother j => by
      cases hj : s.sessionByRecvId j <;> grind⟩
  all_goals exact iff_of_true h (by simp [*, GivesUpOwn])

/-- **Sessions.** Every id leads to the session announced last under it, in all states of a run,
exactly if sessions give up their own ids only. -/
theorem getSessionByRecvId_run_iff (events : List SessionEvent) :
    (∀ before, before <+: events → (run before).Exact) ↔
      ∀ before event, before ++ [event] <+: events → (run before).GivesUpOwn event :=
  @Foundation.forall_prefix_iff _ _ step Live Exact GivesUpOwn (fun _ event h => h.step event)
    (fun _ event hlive h => exact_step_iff hlive h event) {} ⟨nofun, rfl⟩ (fun _ => rfl) events

/-- A session announced under an id and then a second one: the removal of the first takes the id
away from the second. -/
theorem not_exact_run : ¬ (run [.sigSesAnn 1 7, .sigSesAnn 2 7, .removeSession 1]).Exact := by
  intro h
  exact absurd (h 7) (by decide)

end CSigSharesNodeState

end HootChain.Llmq
