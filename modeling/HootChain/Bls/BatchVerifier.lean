import HootChain.Foundation.Buckets
import HootChain.Primitives.Transaction

/-!
# BLS Batch Verification (`bls/bls_batchverifier.h`)

`CBLSBatchVerifier` collects signed messages from several sources and verifies them
together. If the whole batch fails, it verifies the messages of each source
together, and if those fail, it marks the source as bad and, with the per-message
fallback, finds out which of its messages are bad. With a sub-batch size it does
so whenever that many messages have come together.

Verification of an aggregate is ideal: it succeeds exactly when every signature
that was aggregated verifies by itself.
-/

namespace HootChain.Bls

open Foundation Primitives Buckets List Nat

/-! ## Signatures -/

/-- A BLS scheme: which signatures and keys are valid curve points, and the pairing check. -/
structure BlsScheme (Sig PubKey : Type) where
  isValid : Sig → Bool
  pubKeyIsValid : PubKey → Bool
  pairing : Sig → PubKey → Uint256 → Bool

variable {Sig PubKey : Type}

def BlsScheme.verifyInsecure (bls : BlsScheme Sig PubKey) (sig : Sig) (pubKey : PubKey)
    (hash : Uint256) : Bool :=
  bls.isValid sig && bls.pubKeyIsValid pubKey && bls.pairing sig pubKey hash

/-- `CBLSBatchVerifier::Message`, with what `PushMessage` asserts. -/
structure Message (bls : BlsScheme Sig PubKey) (MessageId : Type) where
  msgId : MessageId
  msgHash : Uint256
  sig : Sig
  pubKey : PubKey
  sig_isValid : bls.isValid sig = true
  pubKey_isValid : bls.pubKeyIsValid pubKey = true

open Message

section Batch

variable {bls : BlsScheme Sig PubKey} {MessageId : Type}

def Message.verifyInsecure (msg : Message bls MessageId) : Bool :=
  bls.verifyInsecure msg.sig msg.pubKey msg.msgHash

/-- `VerifyInsecureAggregated` of the aggregate of the messages' signatures. -/
def verifyInsecureAggregated (aggregated : List (Message bls MessageId)) : Bool :=
  aggregated.all verifyInsecure

variable [DecidableEq MessageId]

/-- The messages whose id is not in `dups` and not that of an earlier message. -/
def withoutDups (dups : List MessageId) :
    List (Message bls MessageId) → List (Message bls MessageId)
  | [] => []
  | msg :: msgs =>
    if msg.msgId ∈ dups then withoutDups dups msgs
    else msg :: withoutDups (msg.msgId :: dups) msgs

/-- `VerifyBatchInsecure`: one aggregate of all messages. -/
def verifyBatchInsecure (byMessageHash : Buckets Uint256 (Message bls MessageId)) : Bool :=
  let aggregated := withoutDups [] byMessageHash.items
  aggregated.isEmpty || verifyInsecureAggregated aggregated

/-- `VerifyBatchSecure`: an aggregate never has two messages of one hash, so each step takes
the last message of every hash. -/
def verifyBatchSecure (byMessageHash : Buckets Uint256 (Message bls MessageId)) : Bool :=
  if _h : byMessageHash = [] then true
  else if verifyInsecureAggregated (withoutDups [] byMessageHash.lasts) then
    verifyBatchSecure byMessageHash.dropLasts
  else false
termination_by byMessageHash.size
decreasing_by exact Buckets.size_dropLasts_lt _h

/-- Equal ids mean equal messages, as they do for entries of one `std::map`. -/
def IdsDetermine (msgs : List (Message bls MessageId)) : Prop :=
  ∀ msg ∈ msgs, ∀ msg' ∈ msgs, msg.msgId = msg'.msgId → msg = msg'

variable {msgs : List (Message bls MessageId)} {b : Buckets Uint256 (Message bls MessageId)}

omit [DecidableEq MessageId] in
lemma IdsDetermine.mono {msgs' : List (Message bls MessageId)} (h : IdsDetermine msgs)
    (hsub : ∀ msg ∈ msgs', msg ∈ msgs) : IdsDetermine msgs' :=
  fun msg hmem msg' hmem' => h msg (hsub msg hmem) msg' (hsub msg' hmem')

lemma withoutDups_subset (dups : List MessageId) (msgs : List (Message bls MessageId)) :
    withoutDups dups msgs ⊆ msgs := by
  induction msgs generalizing dups with
  | nil => exact nil_subset _
  | cons msg msgs ih =>
    rw [withoutDups]
    split
    · exact subset_cons_of_subset _ (ih dups)
    · exact cons_subset_cons _ (ih _)

/-- Only repetitions are left out. -/
lemma exists_mem_withoutDups (dups : List MessageId) {msg : Message bls MessageId}
    (hmem : msg ∈ msgs) (hnew : msg.msgId ∉ dups) :
    ∃ msg' ∈ withoutDups dups msgs, msg'.msgId = msg.msgId := by
  induction msgs generalizing dups with
  | nil => cases hmem
  | cons first msgs ih =>
    rw [withoutDups]
    by_cases hid : msg.msgId = first.msgId
    · rw [if_neg (hid ▸ hnew)]
      exact ⟨first, mem_cons_self .., hid.symm⟩
    · have hrest : msg ∈ msgs := (mem_cons.mp hmem).resolve_left fun h => hid (h ▸ rfl)
      split
      · exact ih dups hrest hnew
      · obtain ⟨msg', hmem', hid'⟩ := ih (first.msgId :: dups) hrest (by simp [hid, hnew])
        exact ⟨msg', mem_cons_of_mem _ hmem', hid'⟩

lemma all_withoutDups_iff (h : IdsDetermine msgs) :
    verifyInsecureAggregated (withoutDups [] msgs) = true ↔
      ∀ msg ∈ msgs, msg.verifyInsecure = true := by
  rw [verifyInsecureAggregated, all_eq_true]
  constructor
  · intro hall msg hmem
    obtain ⟨msg', hmem', hid⟩ := exists_mem_withoutDups [] hmem (by simp)
    rw [← h msg' (withoutDups_subset _ _ hmem') msg hmem hid]
    exact hall msg' hmem'
  · exact fun hall msg hmem => hall msg (withoutDups_subset _ _ hmem)

variable (h : IdsDetermine b.items)

include h

lemma verifyBatchInsecure_iff :
    verifyBatchInsecure b = true ↔ ∀ msg ∈ b.items, msg.verifyInsecure = true := by
  rw [verifyBatchInsecure, Bool.or_eq_true, all_withoutDups_iff h, List.isEmpty_iff]
  refine or_iff_right_of_imp fun hempty msg hmem => ?_
  obtain ⟨msg', hmem', -⟩ := exists_mem_withoutDups [] hmem (by simp)
  rw [hempty] at hmem'
  cases hmem'

omit [DecidableEq MessageId] in
lemma IdsDetermine.lasts : IdsDetermine b.lasts :=
  h.mono fun _ hmem => mem_items_iff_lasts.mpr (.inl hmem)

lemma verifyBatchSecure_iff :
    verifyBatchSecure b = true ↔ ∀ msg ∈ b.items, msg.verifyInsecure = true := by
  fun_induction verifyBatchSecure b with
  | case1 => simp [items]
  | case2 b hne hstep ih =>
    have hrest : IdsDetermine b.dropLasts.items :=
      h.mono fun msg hmem => mem_items_iff_lasts.mpr (.inr hmem)
    rw [ih hrest]
    simp only [mem_items_iff_lasts (b := b), or_imp, forall_and]
    exact (and_iff_right ((all_withoutDups_iff h.lasts).mp hstep)).symm
  | case3 b hne hstep =>
    rw [all_withoutDups_iff h.lasts] at hstep
    refine iff_of_false Bool.false_ne_true fun hall => hstep fun msg hmem => ?_
    exact hall msg (mem_items_iff_lasts.mpr (.inl hmem))

end Batch

/-! ## The verifier -/

/-- `CBLSBatchVerifier`. The maps of messages are lists in the order of insertion, and an
iterator into `messages` is the message it points to. -/
structure CBLSBatchVerifier (bls : BlsScheme Sig PubKey) (SourceId MessageId : Type) where
  secureVerification : Bool
  perMessageFallback : Bool
  subBatchSize : Nat := 0
  messages : List (Message bls MessageId) := []
  messagesBySource : Buckets SourceId (Message bls MessageId) := []
  badSources : Finset SourceId := ∅
  badMessages : Finset MessageId := ∅

namespace CBLSBatchVerifier

variable {bls : BlsScheme Sig PubKey} {SourceId MessageId : Type} [DecidableEq SourceId]
  [DecidableEq MessageId]

section

variable (v : CBLSBatchVerifier bls SourceId MessageId)

def verifyBatch (byMessageHash : Buckets Uint256 (Message bls MessageId)) : Bool :=
  if v.secureVerification then verifyBatchSecure byMessageHash
  else verifyBatchInsecure byMessageHash

/-- The per-message verification of a source: what it adds to `badMessages`. -/
def verifyMessage (badMessages : Finset MessageId) (msg : Message bls MessageId) :
    Finset MessageId :=
  if msg.msgId ∈ badMessages then badMessages
  else if !msg.verifyInsecure then insert msg.msgId badMessages
  else badMessages

/-- The round of `Verify` for one source, on `badSources` and `badMessages`. -/
def verifySource (bad : Finset SourceId × Finset MessageId)
    (p : SourceId × List (Message bls MessageId)) : Finset SourceId × Finset MessageId :=
  -- with one source, the batch that just failed was the batch of that source
  let batchValid := v.messagesBySource.length != 1 &&
    v.verifyBatch (Buckets.groupBy msgHash p.2)
  if batchValid then bad
  else
    (insert p.1 bad.1,
      if v.perMessageFallback then
        match p.2 with
        | [msg] => insert msg.msgId bad.2
        | msgs => msgs.foldl verifyMessage bad.2
      else bad.2)

def verify : CBLSBatchVerifier bls SourceId MessageId :=
  if v.verifyBatch (Buckets.groupBy msgHash v.messages) then v
  else
    let bad := v.messagesBySource.foldl v.verifySource (v.badSources, v.badMessages)
    { v with badSources := bad.1, badMessages := bad.2 }

def clearMessages : CBLSBatchVerifier bls SourceId MessageId :=
  { v with messages := [], messagesBySource := [] }

end

/-- `messages.emplace`, which keeps an entry that is there already, and the push to the
messages of the source. -/
def insertMessage (sourceId : SourceId) (msg : Message bls MessageId)
    (v : CBLSBatchVerifier bls SourceId MessageId) : CBLSBatchVerifier bls SourceId MessageId :=
  match v.messages.find? (·.msgId = msg.msgId) with
  | some stored => { v with messagesBySource := v.messagesBySource.push sourceId stored }
  | none =>
    { v with
      messages := v.messages ++ [msg]
      messagesBySource := v.messagesBySource.push sourceId msg }

def pushMessage (sourceId : SourceId) (msg : Message bls MessageId)
    (v : CBLSBatchVerifier bls SourceId MessageId) : CBLSBatchVerifier bls SourceId MessageId :=
  let v := v.insertMessage sourceId msg
  if v.subBatchSize ≠ 0 ∧ v.messages.length ≥ v.subBatchSize then v.verify.clearMessages
  else v

/-! ## What `Verify` finds -/

/-- The maps agree: ids are unique, and the messages of the sources are the stored ones. -/
structure Consistent (v : CBLSBatchVerifier bls SourceId MessageId) : Prop where
  ids : IdsDetermine v.messages
  stored : ∀ source msg, v.messagesBySource.Holds source msg → msg ∈ v.messages
  sourced : ∀ msg ∈ v.messages, ∃ source, v.messagesBySource.Holds source msg

section Verify

variable {v : CBLSBatchVerifier bls SourceId MessageId} {msgs : List (Message bls MessageId)}
  {p : SourceId × List (Message bls MessageId)}

omit [DecidableEq SourceId] in
/-- Both ways of aggregating verify all messages of the batch. -/
lemma verifyBatch_iff (h : IdsDetermine msgs) :
    v.verifyBatch (groupBy msgHash msgs) = true ↔
      ∀ msg ∈ msgs, msg.verifyInsecure = true := by
  have hitems : IdsDetermine (items (groupBy msgHash msgs)) :=
    h.mono fun msg hmem => mem_items_groupBy.mp hmem
  rw [verifyBatch]
  split
  · rw [verifyBatchSecure_iff hitems]
    simp [mem_items_groupBy]
  · rw [verifyBatchInsecure_iff hitems]
    simp [mem_items_groupBy]

omit [DecidableEq SourceId] in
lemma mem_foldl_verifyMessage {bad : Finset MessageId} {x : MessageId} :
    x ∈ msgs.foldl verifyMessage bad ↔
      x ∈ bad ∨ ∃ msg ∈ msgs, msg.msgId = x ∧ msg.verifyInsecure = false := by
  induction msgs generalizing bad with
  | nil => simp
  | cons msg msgs ih =>
    rw [foldl_cons, ih, verifyMessage]
    by_cases hbad : msg.msgId ∈ bad
    · rw [if_pos hbad]
      have : msg.msgId = x → x ∈ bad := fun h => h ▸ hbad
      simp only [exists_mem_cons_iff]
      tauto
    · rw [if_neg hbad]
      cases hverify : msg.verifyInsecure
      · simp only [Bool.not_false, if_true, Finset.mem_insert, exists_mem_cons_iff, hverify,
          and_true, @eq_comm _ x]
        tauto
      · simp [hverify]

/-- The round for a source whose messages are all valid changes nothing; otherwise the source
is bad, and its invalid messages are. -/
lemma mem_verifySource (bad : Finset SourceId × Finset MessageId) (hids : IdsDetermine p.2)
    (hsingle : v.messagesBySource.length = 1 → ∃ msg ∈ p.2, msg.verifyInsecure = false) :
    (∀ source, source ∈ (v.verifySource bad p).1 ↔
      source ∈ bad.1 ∨ source = p.1 ∧ ∃ msg ∈ p.2, msg.verifyInsecure = false) ∧
    (v.perMessageFallback = true → ∀ x, x ∈ (v.verifySource bad p).2 ↔
      x ∈ bad.2 ∨ ∃ msg ∈ p.2, msg.msgId = x ∧ msg.verifyInsecure = false) := by
  by_cases hsome : ∃ msg ∈ p.2, msg.verifyInsecure = false
  swap
  · have hvalid : (v.messagesBySource.length != 1 &&
        v.verifyBatch (groupBy msgHash p.2)) = true := by
      rw [Bool.and_eq_true, verifyBatch_iff hids, bne_iff_ne]
      exact ⟨fun hlen => hsome (hsingle hlen), by simpa using hsome⟩
    rw [verifySource, if_pos hvalid]
    refine ⟨fun source => by simp only [hsome, and_false, or_false], fun _ x => ?_⟩
    refine (or_iff_left ?_).symm
    rintro ⟨msg, hmem, -, hbad⟩
    exact hsome ⟨msg, hmem, hbad⟩
  · have hinvalid : ¬ (v.messagesBySource.length != 1 &&
        v.verifyBatch (groupBy msgHash p.2)) = true := by
      rw [Bool.and_eq_true, verifyBatch_iff hids]
      simpa using fun _ => hsome
    rw [verifySource, if_neg hinvalid]
    refine ⟨fun source => ?_, fun hfallback x => ?_⟩
    · simp only [hsome, and_true, Finset.mem_insert]
      tauto
    · simp only [hfallback, if_true]
      split
      · next msg hp =>
        -- the only message of a bad source is not verified again
        obtain ⟨msg', hmem, hbad⟩ := hsome
        rw [hp, mem_singleton] at hmem
        subst hmem
        simp only [hp, mem_singleton, exists_eq_left, hbad, and_true, Finset.mem_insert,
          @eq_comm _ x]
        tauto
      · exact mem_foldl_verifyMessage

lemma mem_foldl_verifySource {l : Buckets SourceId (Message bls MessageId)}
    (bad : Finset SourceId × Finset MessageId) (hids : ∀ p ∈ l, IdsDetermine p.2)
    (hsingle : v.messagesBySource.length = 1 → ∀ p ∈ l, ∃ msg ∈ p.2, msg.verifyInsecure = false) :
    (∀ source, source ∈ (l.foldl v.verifySource bad).1 ↔
      source ∈ bad.1 ∨ ∃ msg, l.Holds source msg ∧ msg.verifyInsecure = false) ∧
    (v.perMessageFallback = true → ∀ x, x ∈ (l.foldl v.verifySource bad).2 ↔
      x ∈ bad.2 ∨ ∃ msg ∈ l.items, msg.msgId = x ∧ msg.verifyInsecure = false) := by
  induction l generalizing bad with
  | nil => simp [Holds, items]
  | cons p l ih =>
    obtain ⟨hsources, hmessages⟩ := ih (v.verifySource bad p)
      (fun q hq => hids q (mem_cons_of_mem _ hq))
      (fun hlen q hq => hsingle hlen q (mem_cons_of_mem _ hq))
    obtain ⟨hsource, hmessage⟩ := mem_verifySource (v := v) bad
      (hids p mem_cons_self) (fun hlen => hsingle hlen p mem_cons_self)
    rw [foldl_cons]
    refine ⟨fun source => ?_, fun hfallback x => ?_⟩
    · rw [hsources, hsource, or_assoc]
      simp [holds_cons, or_and_right, exists_or, and_assoc]
    · rw [hmessages hfallback, hmessage hfallback, or_assoc]
      simp [items, or_and_right, exists_or]

omit [DecidableEq SourceId] [DecidableEq MessageId] in
lemma Consistent.idsDetermine_source (h : v.Consistent) (hp : p ∈ v.messagesBySource) :
    IdsDetermine p.2 :=
  h.ids.mono fun msg hmem => h.stored p.1 msg ⟨p.2, hp, hmem⟩

omit [DecidableEq SourceId] [DecidableEq MessageId] in
/-- If the whole batch fails and there is one source, that source has an invalid message. -/
lemma Consistent.exists_invalid_of_single (h : v.Consistent)
    (hfail : ¬ ∀ msg ∈ v.messages, msg.verifyInsecure = true)
    (hlen : v.messagesBySource.length = 1) (hp : p ∈ v.messagesBySource) :
    ∃ msg ∈ p.2, msg.verifyInsecure = false := by
  obtain ⟨q, hq⟩ := length_eq_one_iff.mp hlen
  push Not at hfail
  obtain ⟨msg, hmem, hbad⟩ := hfail
  obtain ⟨source, msgs, hsource, hmsg⟩ := h.sourced msg hmem
  rw [hq, mem_singleton] at hp hsource
  subst hp
  rw [← hsource]
  exact ⟨msg, hmsg, by simpa using hbad⟩

/-- **What `Verify` finds**: the sources of invalid messages come in, and with the fallback
exactly the ids of these messages. -/
theorem mem_verify (h : v.Consistent) :
    (∀ source, source ∈ v.verify.badSources ↔ source ∈ v.badSources ∨
      ∃ msg, v.messagesBySource.Holds source msg ∧ msg.verifyInsecure = false) ∧
    (v.perMessageFallback = true → ∀ x, x ∈ v.verify.badMessages ↔ x ∈ v.badMessages ∨
      ∃ msg ∈ v.messages, msg.msgId = x ∧ msg.verifyInsecure = false) := by
  rw [verify]
  split
  · next hvalid =>
    have hnone : ∀ msg ∈ v.messages, msg.verifyInsecure ≠ false := fun msg hmem => by
      simp [(verifyBatch_iff h.ids).mp hvalid msg hmem]
    refine ⟨fun source => (or_iff_left ?_).symm, fun _ x => (or_iff_left ?_).symm⟩
    · rintro ⟨msg, hholds, hbad⟩
      exact hnone msg (h.stored source msg hholds) hbad
    · rintro ⟨msg, hmem, -, hbad⟩
      exact hnone msg hmem hbad
  · next hfail =>
    rw [verifyBatch_iff h.ids] at hfail
    have hitems : ∀ msg, msg ∈ v.messagesBySource.items ↔ msg ∈ v.messages := fun msg =>
      ⟨fun hmem => (mem_items.mp hmem).elim fun source hs => h.stored source msg hs,
        fun hmem => mem_items.mpr (h.sourced msg hmem)⟩
    simpa only [hitems] using mem_foldl_verifySource (v.badSources, v.badMessages)
      (fun p hp => h.idsDetermine_source hp)
      (fun hlen p hp => h.exists_invalid_of_single hfail hlen hp)

end Verify

/-! ## Runs of pushes -/

section Blocks

variable {α : Type}

section

variable (k : Nat) (pushes : List α)

/-- The part of a list of pushes that fills whole blocks of size `k`. -/
def checked : List α := pushes.take (pushes.length / k * k)

/-- The pushes after the last whole block. -/
def waiting : List α := pushes.drop (pushes.length / k * k)

lemma checked_append_waiting :
    checked k pushes ++ waiting k pushes = pushes := take_append_drop _ _

lemma checked_map {β : Type} (f : α → β) (k : Nat) (pushes : List α) :
    checked k (pushes.map f) = (checked k pushes).map f := by
  rw [checked, checked, length_map, map_take]

lemma checked_subset_concat (a : α) : checked k pushes ⊆ checked k (pushes ++ [a]) := by
  have hle : pushes.length / k * k ≤ (pushes ++ [a]).length / k * k := by
    rw [length_append]
    exact Nat.mul_le_mul_right k (Nat.div_le_div_right (Nat.le_add_right _ _))
  have htake : checked k pushes = (pushes ++ [a]).take (pushes.length / k * k) :=
    (take_append_of_le_length (div_mul_le_self _ _)).symm
  rw [htake]
  exact (take_prefix_take_left hle).subset

lemma length_waiting : (waiting k pushes).length = pushes.length % k := by
  rw [waiting, length_drop, Nat.mul_comm, Nat.sub_eq_iff_eq_add (Nat.mul_div_le _ _),
    Nat.mod_add_div]

end

variable {k : Nat} {pushes : List α} {a : α}

/-- A push that fills a block leaves nothing waiting. -/
lemma waiting_concat_of_full (hk : k ≠ 0) (hfull : k ≤ (waiting k pushes).length + 1) :
    checked k (pushes ++ [a]) = pushes ++ [a] ∧ waiting k (pushes ++ [a]) = [] := by
  have hmod := mod_lt pushes.length (pos_of_ne_zero hk)
  have hdm := div_add_mod pushes.length k
  rw [length_waiting] at hfull
  have hdvd : k ∣ pushes.length + 1 := ⟨pushes.length / k + 1, by rw [mul_succ]; omega⟩
  have hlen : (pushes ++ [a]).length / k * k = (pushes ++ [a]).length := by
    rw [length_append, length_singleton, Nat.div_mul_cancel hdvd]
  rw [checked, waiting, hlen]
  exact ⟨take_length, drop_length⟩

/-- Any other push waits. -/
lemma waiting_concat_of_not_full (hopen : ¬ (k ≠ 0 ∧ (waiting k pushes).length + 1 ≥ k)) :
    checked k (pushes ++ [a]) = checked k pushes ∧
      waiting k (pushes ++ [a]) = waiting k pushes ++ [a] := by
  rw [length_waiting] at hopen
  have hdiv : (pushes ++ [a]).length / k * k = pushes.length / k * k := by
    rw [length_append, length_singleton]
    rcases Nat.eq_zero_or_pos k with rfl | hpos
    · simp
    · congr 1
      have hdm := div_add_mod pushes.length k
      refine Nat.div_eq_of_lt_le ?_ ?_
      · rw [Nat.mul_comm]
        omega
      · rw [succ_mul, mul_comm]
        omega
  have hle : pushes.length / k * k ≤ pushes.length := div_mul_le_self _ _
  rw [checked, waiting, hdiv]
  exact ⟨take_append_of_le_length hle, drop_append_of_le_length hle⟩

end Blocks

end CBLSBatchVerifier

namespace CBLSBatchVerifier

variable {bls : BlsScheme Sig PubKey} {SourceId MessageId : Type}

section Pushed

variable {v : CBLSBatchVerifier bls SourceId MessageId} {marked : Finset SourceId}
  {pushes : List (SourceId × Message bls MessageId)}

/-- The verifier after pushes with distinct ids, where the user has also put the sources
`marked` into `badSources`: whole blocks have been checked, the other pushes wait. -/
structure Pushed (v : CBLSBatchVerifier bls SourceId MessageId) (marked : Finset SourceId)
    (pushes : List (SourceId × Message bls MessageId)) : Prop where
  fallback : v.perMessageFallback = true
  ids : (pushes.map fun p => p.2.msgId).Nodup
  messages : v.messages = (waiting v.subBatchSize pushes).map Prod.snd
  messagesBySource : ∀ source msg, v.messagesBySource.Holds source msg ↔
    (source, msg) ∈ waiting v.subBatchSize pushes
  badSources : ∀ source, source ∈ v.badSources ↔ source ∈ marked ∨
    ∃ msg, (source, msg) ∈ checked v.subBatchSize pushes ∧ msg.verifyInsecure = false
  badMessages : ∀ x, x ∈ v.badMessages ↔
    ∃ p ∈ checked v.subBatchSize pushes, p.2.msgId = x ∧ p.2.verifyInsecure = false

lemma pushed_nil (secure : Bool) (k : Nat) :
    Pushed ({ secureVerification := secure, perMessageFallback := true, subBatchSize := k } :
      CBLSBatchVerifier bls SourceId MessageId) ∅ [] where
  fallback := rfl
  ids := nodup_nil
  messages := by simp [waiting]
  messagesBySource := by simp [Holds, waiting]
  badSources := by simp [checked]
  badMessages := by simp [checked]

lemma consistent_of_entries {entries : List (SourceId × Message bls MessageId)}
    (hids : (entries.map fun p => p.2.msgId).Nodup) (hmessages : v.messages = entries.map Prod.snd)
    (hsource : ∀ source msg, v.messagesBySource.Holds source msg ↔ (source, msg) ∈ entries) :
    v.Consistent := by
  refine ⟨?_, fun source msg hholds => ?_, fun msg hmem => ?_⟩
  · intro msg hmem msg' hmem' hid
    rw [hmessages, mem_map] at hmem hmem'
    obtain ⟨p, hp, rfl⟩ := hmem
    obtain ⟨p', hp', rfl⟩ := hmem'
    rw [inj_on_of_nodup_map hids hp hp' hid]
  · rw [hmessages]
    exact mem_map_of_mem ((hsource source msg).mp hholds)
  · rw [hmessages, mem_map] at hmem
    obtain ⟨⟨source, msg⟩, hp, rfl⟩ := hmem
    exact ⟨source, (hsource source msg).mpr hp⟩

lemma Pushed.consistent (h : v.Pushed marked pushes) : v.Consistent :=
  consistent_of_entries (h.ids.sublist ((drop_sublist _ _).map _)) h.messages h.messagesBySource

lemma Pushed.mark [DecidableEq SourceId] (h : v.Pushed marked pushes) (source : SourceId) :
    Pushed { v with badSources := insert source v.badSources } (insert source marked) pushes :=
  { h with
    badSources := fun s => by
      simp only [Finset.mem_insert, h.badSources, or_assoc] }

variable [DecidableEq SourceId] [DecidableEq MessageId]

@[simp] lemma verify_subBatchSize : v.verify.subBatchSize = v.subBatchSize := by
  rw [verify]; split <;> rfl

@[simp] lemma verify_perMessageFallback : v.verify.perMessageFallback = v.perMessageFallback := by
  rw [verify]; split <;> rfl

/-- **After the last `Verify`** the bad messages are exactly the invalid ones. -/
theorem Pushed.mem_badMessages_verify (h : v.Pushed marked pushes) {x : MessageId} :
    x ∈ v.verify.badMessages ↔ ∃ p ∈ pushes, p.2.msgId = x ∧ p.2.verifyInsecure = false := by
  rw [(mem_verify h.consistent).2 h.fallback, h.badMessages, h.messages]
  conv_rhs => rw [← checked_append_waiting v.subBatchSize pushes]
  simp only [mem_map, mem_append, or_and_right, exists_or, exists_exists_and_eq_and]

variable {source : SourceId} {msg : Message bls MessageId}

/-- **After the last `Verify`** the bad sources are those marked, and those of invalid messages. -/
theorem Pushed.mem_badSources_verify (h : v.Pushed marked pushes) :
    source ∈ v.verify.badSources ↔ source ∈ marked ∨
      ∃ msg, (source, msg) ∈ pushes ∧ msg.verifyInsecure = false := by
  rw [(mem_verify h.consistent).1, h.badSources, or_assoc]
  conv_rhs => rw [← checked_append_waiting v.subBatchSize pushes]
  simp [h.messagesBySource, or_and_right, exists_or]

/-- A message with a new id is stored and listed under its source. -/
lemma insertMessage_of_new (hnew : ∀ m ∈ v.messages, m.msgId ≠ msg.msgId) :
    v.insertMessage source msg =
      { v with
        messages := v.messages ++ [msg]
        messagesBySource := v.messagesBySource.push source msg } := by
  have hfind : v.messages.find? (·.msgId = msg.msgId) = none := by
    rw [find?_eq_none]
    intro m hm
    simpa using hnew m hm
  rw [insertMessage, hfind]

/-- **A push** with a new id keeps the account of what has been checked. -/
theorem Pushed.pushMessage (h : v.Pushed marked pushes)
    (hnew : ∀ p ∈ pushes, p.2.msgId ≠ msg.msgId) :
    (v.pushMessage source msg).Pushed marked (pushes ++ [(source, msg)]) := by
  have hids : ((pushes ++ [(source, msg)]).map fun p => p.2.msgId).Nodup := by
    simpa [nodup_append, h.ids] using fun x source msg hmem hid => hid ▸ hnew _ hmem
  have hstored : ∀ m ∈ v.messages, m.msgId ≠ msg.msgId := by
    intro m hm
    rw [h.messages] at hm
    obtain ⟨p, hp, rfl⟩ := mem_map.mp hm
    exact hnew p (mem_of_mem_drop hp)
  rw [CBLSBatchVerifier.pushMessage, insertMessage_of_new hstored]
  simp only [h.messages, length_append, length_map, length_singleton]
  have hholds : ∀ s m, (v.messagesBySource.push source msg).Holds s m ↔
      (s, m) ∈ waiting v.subBatchSize pushes ++ [(source, msg)] := fun s m => by
    rw [holds_push, h.messagesBySource, mem_append, mem_singleton, Prod.mk.injEq]
  by_cases hfull : v.subBatchSize ≠ 0 ∧ (waiting v.subBatchSize pushes).length + 1 ≥ v.subBatchSize
  · rw [if_pos hfull]
    -- the block is full: what waited has been verified together with the new message
    obtain ⟨hchecked, hwaiting⟩ := waiting_concat_of_full (a := (source, msg)) hfull.1 hfull.2
    set full : CBLSBatchVerifier bls SourceId MessageId :=
      { v with
        messages := (waiting v.subBatchSize pushes).map Prod.snd ++ [msg]
        messagesBySource := v.messagesBySource.push source msg } with hfulldef
    have hsplit : pushes ++ [(source, msg)] = checked v.subBatchSize pushes ++
        (waiting v.subBatchSize pushes ++ [(source, msg)]) := by
      rw [← append_assoc, checked_append_waiting]
    have hconsistent : full.Consistent := by
      refine consistent_of_entries (hids.sublist ?_) (by rw [map_append, map_singleton]) hholds
      rw [hsplit]
      exact (sublist_append_right _ _).map _
    have hsize : full.verify.clearMessages.subBatchSize = v.subBatchSize :=
      verify_subBatchSize (v := full)
    refine ⟨?_, hids, ?_, ?_, ?_, ?_⟩
    · exact (verify_perMessageFallback (v := full)).trans h.fallback
    · rw [hsize, hwaiting]
      rfl
    · rw [hsize, hwaiting]
      simp [clearMessages, Holds]
    · intro s
      rw [hsize, hchecked, hsplit]
      refine ((mem_verify hconsistent).1 s).trans ?_
      simp [hfulldef, hholds, h.badSources, or_and_right, exists_or, or_assoc]
    · intro x
      rw [hsize, hchecked, hsplit]
      refine ((mem_verify hconsistent).2 h.fallback x).trans ?_
      simp only [hfulldef, h.badMessages, mem_append, mem_map, mem_singleton,
        or_and_right, exists_or, exists_exists_and_eq_and, exists_eq_left]
  · rw [if_neg hfull]
    obtain ⟨hchecked, hwaiting⟩ := waiting_concat_of_not_full (a := (source, msg)) hfull
    exact
      { fallback := h.fallback
        ids := hids
        messages := by rw [hwaiting, map_append]; rfl
        messagesBySource := fun s m => by rw [hwaiting]; exact hholds s m
        badSources := fun s => by rw [hchecked]; exact h.badSources s
        badMessages := fun x => by rw [hchecked]; exact h.badMessages x }

@[simp] lemma pushMessage_subBatchSize (source : SourceId) (msg : Message bls MessageId) :
    (v.pushMessage source msg).subBatchSize = v.subBatchSize := by
  have hinsert : (v.insertMessage source msg).subBatchSize = v.subBatchSize := by
    rw [insertMessage]; split <;> rfl
  rw [CBLSBatchVerifier.pushMessage]
  split
  · exact (verify_subBatchSize (v := v.insertMessage source msg)).trans hinsert
  · exact hinsert

lemma Pushed.badSources_subset_pushMessage (h : v.Pushed marked pushes)
    (hnew : ∀ p ∈ pushes, p.2.msgId ≠ msg.msgId) :
    v.badSources ⊆ (v.pushMessage source msg).badSources := by
  intro s hs
  rw [(h.pushMessage hnew).badSources, pushMessage_subBatchSize]
  rcases (h.badSources s).mp hs with hmarked | ⟨m, hm, hbad⟩
  · exact .inl hmarked
  · exact .inr ⟨m, checked_subset_concat _ _ _ hm, hbad⟩

/-- A new verifier with the fallback, after pushes. -/
def pushMessages (secure : Bool) (subBatchSize : Nat)
    (pushes : List (SourceId × Message bls MessageId)) : CBLSBatchVerifier bls SourceId MessageId :=
  pushes.foldl (fun v p => v.pushMessage p.1 p.2)
    { secureVerification := secure, perMessageFallback := true, subBatchSize }

lemma pushed_pushMessages (secure : Bool) (k : Nat)
    (hids : (pushes.map fun p => p.2.msgId).Nodup) :
    (pushMessages secure k pushes).Pushed ∅ pushes := by
  induction pushes using reverseRecOn with
  | nil => exact pushed_nil secure k
  | append_singleton pushes p ih =>
    rw [map_append, nodup_append] at hids
    rw [pushMessages, foldl_append]
    exact (ih hids.1).pushMessage fun q hq =>
      hids.2.2 _ (mem_map_of_mem hq) _ (mem_singleton.mpr rfl)

/-- **Bad messages and sources.** In both modes and with any size of sub-batches, `Verify` after
pushes with distinct ids leaves exactly the invalid messages and their sources. -/
theorem verify_pushMessages (secure : Bool) (subBatchSize : Nat)
    (pushes : List (SourceId × Message bls MessageId))
    (hids : (pushes.map fun p => p.2.msgId).Nodup) :
    (∀ x, x ∈ (pushMessages secure subBatchSize pushes).verify.badMessages ↔
      ∃ p ∈ pushes, p.2.msgId = x ∧ p.2.verifyInsecure = false) ∧
    ∀ source, source ∈ (pushMessages secure subBatchSize pushes).verify.badSources ↔
      ∃ msg, (source, msg) ∈ pushes ∧ msg.verifyInsecure = false := by
  have hpushed := pushed_pushMessages secure subBatchSize hids
  exact ⟨fun _ => hpushed.mem_badMessages_verify,
    fun _ => hpushed.mem_badSources_verify.trans (by simp)⟩

/-- Two messages from one source, the second invalid. -/
theorem verify_pushMessages_two :
    let bls : BlsScheme Bool Unit := ⟨fun _ => true, fun _ => true, fun sig _ _ => sig⟩
    let pushes : List (Nat × Message bls Nat) :=
      [(1, ⟨4, 7, true, (), rfl, rfl⟩), (1, ⟨5, 7, false, (), rfl, rfl⟩)]
    (5 ∈ (pushMessages true 0 pushes).verify.badMessages) ∧
      1 ∈ (pushMessages true 0 pushes).verify.badSources := by
  intro bls pushes
  obtain ⟨hmessages, hsources⟩ := verify_pushMessages true 0 pushes (by decide)
  exact ⟨(hmessages 5).mpr ⟨_, mem_cons_of_mem _ (mem_singleton.mpr rfl), rfl, rfl⟩,
    (hsources 1).mpr ⟨_, mem_cons_of_mem _ (mem_singleton.mpr rfl), rfl⟩⟩

end Pushed

/-! ## Pushes with repeated ids -/

section Repeated

variable [DecidableEq MessageId] {v : CBLSBatchVerifier bls SourceId MessageId}
  {pushes : List (SourceId × Message bls MessageId)} {source : SourceId}
  {msg : Message bls MessageId} {x : MessageId}

/-- The message that was pushed first under an id. -/
def firstPushed (pushes : List (SourceId × Message bls MessageId)) (x : MessageId) :
    Option (Message bls MessageId) :=
  (pushes.find? fun p => p.2.msgId = x).map Prod.snd

/-- The verifier after any pushes, without sub-batches: it has the message that came first under
each id, and lists it under every source that pushed one with that id. -/
structure Collected (v : CBLSBatchVerifier bls SourceId MessageId)
    (pushes : List (SourceId × Message bls MessageId)) : Prop where
  subBatchSize : v.subBatchSize = 0
  messages : ∀ x, v.messages.find? (·.msgId = x) = firstPushed pushes x
  ids : IdsDetermine v.messages
  messagesBySource : ∀ source msg, v.messagesBySource.Holds source msg ↔
    ∃ m, (source, m) ∈ pushes ∧ firstPushed pushes m.msgId = some msg
  badSources : v.badSources = ∅

lemma collected_nil (secure fallback : Bool) :
    Collected ({ secureVerification := secure, perMessageFallback := fallback } :
      CBLSBatchVerifier bls SourceId MessageId) [] where
  subBatchSize := rfl
  messages := fun _ => rfl
  ids := fun _ hmem => absurd hmem not_mem_nil
  messagesBySource := by simp [Holds]
  badSources := rfl

lemma firstPushed_concat : firstPushed (pushes ++ [(source, msg)]) x =
    (firstPushed pushes x).or (if msg.msgId = x then some msg else none) := by
  rw [firstPushed, find?_append, Option.map_or]
  by_cases hx : msg.msgId = x <;> simp [firstPushed, hx]

lemma exists_firstPushed (hmem : (source, msg) ∈ pushes) :
    ∃ first, firstPushed pushes msg.msgId = some first := by
  have hfind : (pushes.find? fun p => p.2.msgId = msg.msgId).isSome :=
    find?_isSome.mpr ⟨_, hmem, by simp⟩
  obtain ⟨p, hp⟩ := Option.isSome_iff_exists.mp hfind
  exact ⟨p.2, by rw [firstPushed, hp]; rfl⟩

lemma firstPushed_concat_of_mem {source' : SourceId} {msg' : Message bls MessageId}
    (hmem : (source, msg) ∈ pushes) :
    firstPushed (pushes ++ [(source', msg')]) msg.msgId = firstPushed pushes msg.msgId := by
  obtain ⟨first, hfirst⟩ := exists_firstPushed hmem
  rw [firstPushed_concat, hfirst, Option.some_or]

lemma mem_of_firstPushed (h : firstPushed pushes x = some msg) :
    msg.msgId = x ∧ ∃ source, (source, msg) ∈ pushes := by
  obtain ⟨p, hp, rfl⟩ := Option.map_eq_some_iff.mp h
  exact ⟨by simpa using find?_some hp, p.1, mem_of_find?_eq_some hp⟩

variable (h : v.Collected pushes)

include h

lemma Collected.mem_messages_iff :
    msg ∈ v.messages ↔ firstPushed pushes msg.msgId = some msg := by
  rw [← h.messages]
  constructor
  · intro hmem
    have hfind : (v.messages.find? (·.msgId = msg.msgId)).isSome :=
      find?_isSome.mpr ⟨_, hmem, by simp⟩
    obtain ⟨first, hfirst⟩ := Option.isSome_iff_exists.mp hfind
    rw [hfirst, h.ids first (mem_of_find?_eq_some hfirst) msg hmem
      (by simpa using find?_some hfirst)]
  · exact mem_of_find?_eq_some

/-- **A push** under any id. -/
theorem Collected.pushMessage [DecidableEq SourceId] (source : SourceId)
    (msg : Message bls MessageId) :
    (v.pushMessage source msg).Collected (pushes ++ [(source, msg)]) := by
  have hpush : v.pushMessage source msg = v.insertMessage source msg := by
    rw [CBLSBatchVerifier.pushMessage]
    have hsize : (v.insertMessage source msg).subBatchSize = 0 := by
      rw [insertMessage]
      split <;> exact h.subBatchSize
    simp [hsize]
  have hmem : ∀ s m, (s, m) ∈ pushes ++ [(source, msg)] ↔
      (s, m) ∈ pushes ∨ s = source ∧ m = msg := by
    intro s m
    rw [mem_append, mem_singleton, Prod.mk.injEq]
  -- the stored message of the id is listed under the source
  have hlisted : ∀ {b : Buckets SourceId (Message bls MessageId)} (stored : Message bls MessageId),
      firstPushed (pushes ++ [(source, msg)]) msg.msgId = some stored →
      b = v.messagesBySource.push source stored → ∀ s m, b.Holds s m ↔
        ∃ m', (s, m') ∈ pushes ++ [(source, msg)] ∧
          firstPushed (pushes ++ [(source, msg)]) m'.msgId = some m := by
    intro b stored hstored hb s m
    rw [hb, holds_push, h.messagesBySource]
    constructor
    · rintro (⟨m', hm', hfirst⟩ | ⟨rfl, rfl⟩)
      · exact ⟨m', (hmem s m').mpr (.inl hm'), by rw [firstPushed_concat_of_mem hm', hfirst]⟩
      · exact ⟨msg, (hmem _ _).mpr (.inr ⟨rfl, rfl⟩), hstored⟩
    · rintro ⟨m', hm', hfirst⟩
      rcases (hmem s m').mp hm' with hold | ⟨rfl, rfl⟩
      · rw [firstPushed_concat_of_mem hold] at hfirst
        exact .inl ⟨m', hold, hfirst⟩
      · exact .inr ⟨rfl, Option.some.inj (hfirst.symm.trans hstored)⟩
  rw [hpush, insertMessage, h.messages]
  cases hfirst : firstPushed pushes msg.msgId with
  | some stored =>
    refine ⟨h.subBatchSize, fun x => ?_, h.ids, ?_, h.badSources⟩
    · rw [h.messages, firstPushed_concat]
      split
      · next hx => rw [← hx, hfirst, Option.some_or]
      · rw [Option.or_none]
    · refine hlisted stored ?_ rfl
      rw [firstPushed_concat, hfirst, Option.some_or]
  | none =>
    have hnew : ∀ m ∈ v.messages, m.msgId ≠ msg.msgId := by
      intro m hm hid
      rw [h.mem_messages_iff, hid, hfirst] at hm
      cases hm
    refine ⟨h.subBatchSize, fun x => ?_, ?_, ?_, h.badSources⟩
    · rw [find?_append, h.messages, firstPushed_concat]
      by_cases hx : msg.msgId = x <;> simp [hx]
    · intro m hm m' hm' hid
      rw [mem_append, mem_singleton] at hm hm'
      rcases hm with hm | rfl <;> rcases hm' with hm' | rfl
      · exact h.ids m hm m' hm' hid
      · exact absurd hid (hnew m hm)
      · exact absurd hid.symm (hnew m' hm')
      · rfl
    · refine hlisted msg ?_ rfl
      rw [firstPushed_concat, hfirst, if_pos rfl]
      rfl

lemma Collected.consistent : v.Consistent := by
  refine ⟨h.ids, fun source msg hholds => ?_, fun msg hmem => ?_⟩
  · obtain ⟨m, -, hfirst⟩ := (h.messagesBySource source msg).mp hholds
    rw [h.mem_messages_iff, (mem_of_firstPushed hfirst).1]
    exact hfirst
  · rw [h.mem_messages_iff] at hmem
    obtain ⟨-, source, hpushed⟩ := mem_of_firstPushed hmem
    exact ⟨source, (h.messagesBySource source msg).mpr ⟨msg, hpushed, hmem⟩⟩

/-- **After `Verify`** a source is bad if it pushed an id whose first message is invalid, be it
its own or another source's. -/
theorem Collected.mem_badSources_verify [DecidableEq SourceId] :
    source ∈ v.verify.badSources ↔ ∃ m, (source, m) ∈ pushes ∧
      ∃ first, firstPushed pushes m.msgId = some first ∧ first.verifyInsecure = false := by
  rw [(mem_verify h.consistent).1, h.badSources]
  simp only [Finset.notMem_empty, false_or, h.messagesBySource]
  constructor
  · rintro ⟨first, ⟨m, hm, hfirst⟩, hbad⟩
    exact ⟨m, hm, first, hfirst, hbad⟩
  · rintro ⟨m, hm, first, hfirst, hbad⟩
    exact ⟨first, ⟨m, hm, hfirst⟩, hbad⟩

end Repeated

end CBLSBatchVerifier

end HootChain.Bls
