import HootChain.Spork

/-!
# Active Sporks Are Remembered (`spork.cpp`)

`IsSporkActive` remembers the sporks it has found to be active, and a new message for a spork
makes the node forget them. The value is read under one lock and the answer is remembered
under another, so that a message can come in between.
-/

namespace HootChain.Spork

open Consensus List Function Bool CSporkManager

/-! ## Values -/

/-- The loop over the signers: the first value that enough of them vote for. -/
def countValues (nMinSporkKeys : Nat) (seen : List Int64) : List Int64 → Option Int64
  | [] => none
  | nValue :: rest =>
    if (nValue :: seen).count nValue ≥ nMinSporkKeys then some nValue
    else countValues nMinSporkKeys (nValue :: seen) rest

/-- The default of `sporkDefs`, or -1. -/
def defaultValue (nSporkID : Int32) : Int64 :=
  if nSporkID ∈ [10001, 10002, 10008, 10016, 10018, 10020, 10022, 10023] then 4070908800 else -1

section Steps

variable {Hash Key KeyID Sig : Type}

/-- The values that `mapSporksActive` has for an id, in the order of the keys. -/
def CSporkManager.signed (manager : CSporkManager KeyID Sig) (nSporkID : Int32) : List Int64 :=
  manager.setSporkPubKeyIDs.filterMap fun key =>
    (manager.mapSporksActive nSporkID key).map fun spork => spork.nValue

/-- The value that counts. -/
def CSporkManager.value (manager : CSporkManager KeyID Sig) (nMinSporkKeys : Nat)
    (nSporkID : Int32) : Int64 :=
  (countValues nMinSporkKeys [] (manager.signed nSporkID)).getD (defaultValue nSporkID)

/-! ## Steps -/

/-- How far a call of `IsSporkActive` is. -/
inductive Stage where
  | missed
  | read (nSporkValue : Int64)
  | active

/-- The manager with its caches, and the calls in progress. -/
structure SporkState (KeyID Sig : Type) where
  manager : CSporkManager KeyID Sig
  mapSporksCachedValues : Int32 → Option Int64 := fun _ => none
  mapSporksCachedActive : Int32 → Bool := fun _ => false
  adjustedTime : Int := 0
  readers : List (Int32 × Stage) := []
  /-- Calls of `ProcessSpork` between their critical sections. -/
  writers : List (KeyID × CSporkMessage Sig) := []

/-- The next step of a call. -/
inductive SporkEvent (Key Sig : Type) where
  | time (seconds : Nat)
  /-- `IsSporkActive` begins. -/
  | lookup (nSporkID : Int32)
  /-- A call of `IsSporkActive` goes on. -/
  | advance (reader : Nat)
  /-- `ProcessSpork`, up to the end of its first critical section. -/
  | receive (spork : CSporkMessage Sig)
  /-- Its second critical section. -/
  | store (writer : Nat)
  | update (sporkPrivKey : Key) (nSporkID : Int32) (nValue nTimeSigned : Int64)

namespace SporkState

def sporkValueIfActive (s : SporkState KeyID Sig) (nMinSporkKeys : Nat) (nSporkID : Int32) :
    Option Int64 :=
  if s.manager.signed nSporkID = [] then none
  else (s.mapSporksCachedValues nSporkID).or
    (countValues nMinSporkKeys [] (s.manager.signed nSporkID))

/-- A call of `IsSporkActive` takes its next step. -/
def advance (s : SporkState KeyID Sig) (nMinSporkKeys n : Nat) : SporkState KeyID Sig :=
  match s.readers[n]? with
  | none => s
  | some (id, .missed) =>
    let value := s.sporkValueIfActive nMinSporkKeys id
    { s with
      mapSporksCachedValues :=
        update s.mapSporksCachedValues id (value.or (s.mapSporksCachedValues id))
      readers := s.readers.set n (id, .read (value.getD (defaultValue id))) }
  | some (id, .read nSporkValue) =>
    if nSporkValue.toInt < s.adjustedTime then { s with readers := s.readers.set n (id, .active) }
    else { s with readers := s.readers.eraseIdx n }
  | some (id, .active) =>
    { s with
      mapSporksCachedActive := update s.mapSporksCachedActive id true
      readers := s.readers.eraseIdx n }

variable [DecidableEq KeyID] (scheme : SignatureScheme Hash Key KeyID Sig) (network : Network)
  (nMinSporkKeys : Nat)

section

variable (s : SporkState KeyID Sig)

/-- The spork that an event stores, with its signer. -/
def stores : SporkEvent Key Sig → Option (KeyID × CSporkMessage Sig)
  | .store n => s.writers[n]?
  | .update sporkPrivKey nSporkID nValue nTimeSigned => do
    let spork ← SporkData.sign scheme network ⟨nSporkID, nValue, nTimeSigned⟩ sporkPrivKey
    let keyIDSigner ← spork.getSignerKeyID scheme network
    if keyIDSigner ∈ s.manager.setSporkPubKeyIDs then some (keyIDSigner, spork) else none
  | _ => none

/-- A step of a call that does not store a spork. -/
def reads : SporkEvent Key Sig → SporkState KeyID Sig
  | .time seconds => { s with adjustedTime := s.adjustedTime + seconds }
  | .lookup id =>
    if s.mapSporksCachedActive id then s else { s with readers := s.readers ++ [(id, .missed)] }
  | .advance n => s.advance nMinSporkKeys n
  | .receive spork =>
    match spork.getSignerKeyID scheme network with
    | none => s
    | some keyIDSigner =>
      if spork.nTimeSigned.toInt > s.adjustedTime + 2 * 60 * 60 ∨
          keyIDSigner ∉ s.manager.setSporkPubKeyIDs ∨
          (s.manager.mapSporksActive spork.nSporkID keyIDSigner).any
            (fun active => active.nTimeSigned.toInt ≥ spork.nTimeSigned.toInt) then s
      else { s with writers := s.writers ++ [(keyIDSigner, spork)] }
  | _ => s

/-- One step. Where a spork is stored, the caches forget what they have for its id. -/
def step (event : SporkEvent Key Sig) : SporkState KeyID Sig :=
  match s.stores scheme network event with
  | none => s.reads scheme network nMinSporkKeys event
  | some (keyIDSigner, spork) =>
    { s with
      manager := s.manager.store keyIDSigner spork
      mapSporksCachedValues := update s.mapSporksCachedValues spork.nSporkID none
      mapSporksCachedActive := update s.mapSporksCachedActive spork.nSporkID false
      writers := match event with
        | .store n => s.writers.eraseIdx n
        | _ => s.writers }

/-- If no call of `IsSporkActive` is in progress, what is remembered as active is. -/
def Right : Prop :=
  s.readers = [] → ∀ id, s.mapSporksCachedActive id = true →
    (s.manager.value nMinSporkKeys id).toInt < s.adjustedTime

end

end SporkState

/-- A call at this stage will not remember a wrong answer. -/
def Stage.fits (nValue : Int64) (adjustedTime : Int) : Stage → Bool
  | .missed => true
  | .read nSporkValue => nValue.toInt ≤ nSporkValue.toInt || nValue.toInt < adjustedTime
  | .active => nValue.toInt < adjustedTime

variable [DecidableEq KeyID] (scheme : SignatureScheme Hash Key KeyID Sig) (network : Network)
  (nMinSporkKeys : Nat)

/-- Where events store a spork, the calls for it that are in progress will not remember a
wrong answer. -/
def SporkState.undisturbed (s : SporkState KeyID Sig) : List (SporkEvent Key Sig) → Bool
  | [] => true
  | event :: events =>
    ((s.stores scheme network event).all fun (keyIDSigner, spork) =>
      s.readers.all fun (id, stage) => id ≠ spork.nSporkID ||
        stage.fits ((s.manager.store keyIDSigner spork).value nMinSporkKeys id) s.adjustedTime) &&
    (s.step scheme network nMinSporkKeys event).undisturbed events

/-! ## Right answers -/

/-- Cached values are those that count, nothing wrong is remembered, and no call in progress
will remember it. -/
structure SporkState.Safe (s : SporkState KeyID Sig) : Prop where
  values : ∀ id nValue, s.mapSporksCachedValues id = some nValue →
    countValues nMinSporkKeys [] (s.manager.signed id) = some nValue
  cached : ∀ id, s.mapSporksCachedActive id = true →
    (s.manager.value nMinSporkKeys id).toInt < s.adjustedTime
  readers : ∀ id stage, (id, stage) ∈ s.readers →
    stage.fits (s.manager.value nMinSporkKeys id) s.adjustedTime = true

variable {scheme network nMinSporkKeys} {s : SporkState KeyID Sig} {event : SporkEvent Key Sig}

lemma Stage.fits_later {stage : Stage} {nValue : Int64} {now later : Int}
    (h : stage.fits nValue now = true) (hle : now ≤ later) : stage.fits nValue later = true := by
  cases stage <;> simp only [Stage.fits, or_eq_true, decide_eq_true_eq] at h ⊢ <;> omega

lemma signed_store_of_ne {manager : CSporkManager KeyID Sig} {keyIDSigner : KeyID}
    {spork : CSporkMessage Sig} {id : Int32} (hne : id ≠ spork.nSporkID) :
    (manager.store keyIDSigner spork).signed id = manager.signed id := by
  simp [signed, store, hne]

namespace SporkState.Safe

variable (h : s.Safe nMinSporkKeys)

include h

omit [DecidableEq KeyID] in
lemma sporkValueIfActive_eq (id : Int32) :
    s.sporkValueIfActive nMinSporkKeys id =
      countValues nMinSporkKeys [] (s.manager.signed id) := by
  unfold sporkValueIfActive
  split
  case isTrue hnil => rw [hnil, countValues]
  case isFalse =>
    cases hcached : s.mapSporksCachedValues id with
    | none => rfl
    | some nValue => exact (h.values id nValue hcached).symm

omit [DecidableEq KeyID] in
lemma advance (n : Nat) :
    (s.advance nMinSporkKeys n).Safe nMinSporkKeys := by
  have herase : ∀ id stage, (id, stage) ∈ s.readers.eraseIdx n →
      stage.fits (s.manager.value nMinSporkKeys id) s.adjustedTime = true :=
    fun id stage hmem => h.readers id stage (mem_of_mem_eraseIdx hmem)
  have hset : ∀ {id stage}, stage.fits (s.manager.value nMinSporkKeys id) s.adjustedTime = true →
      ∀ id' stage', (id', stage') ∈ s.readers.set n (id, stage) →
        stage'.fits (s.manager.value nMinSporkKeys id') s.adjustedTime = true := by
    intro id stage hfits id' stage' hmem
    rcases mem_or_eq_of_mem_set hmem with hold | hnew
    · exact h.readers id' stage' hold
    · cases hnew
      exact hfits
  unfold SporkState.advance
  split
  case h_1 => exact h
  case h_2 id hread =>
    -- the call reads the value that counts now
    rw [h.sporkValueIfActive_eq]
    refine ⟨fun id' nValue hvalue => ?_, h.cached, hset ?_⟩
    · dsimp only at hvalue ⊢
      by_cases hid : id' = id
      · subst hid
        rw [update_self, Option.or_eq_some_iff] at hvalue
        exact hvalue.elim (fun hnew => hnew) fun hold => h.values id' nValue hold.2
      · rw [update_of_ne hid] at hvalue
        exact h.values id' nValue hvalue
    · exact or_eq_true_iff.mpr (.inl (decide_eq_true le_rfl))
  case h_3 id nSporkValue hread =>
    have hfits := h.readers id _ (mem_of_getElem? hread)
    simp only [Stage.fits, or_eq_true, decide_eq_true_eq] at hfits
    split
    case isTrue hlt => exact ⟨h.values, h.cached, hset (decide_eq_true (by omega))⟩
    case isFalse => exact ⟨h.values, h.cached, herase⟩
  case h_4 id hread =>
    refine ⟨h.values, fun id' hcached => ?_, herase⟩
    dsimp only at hcached ⊢
    by_cases hid : id' = id
    · subst hid
      exact of_decide_eq_true (h.readers id' .active (mem_of_getElem? hread))
    · rw [update_of_ne hid] at hcached
      exact h.cached id' hcached

lemma reads : (s.reads scheme network nMinSporkKeys event).Safe nMinSporkKeys := by
  cases event with
  | time seconds =>
    have hle : s.adjustedTime ≤ s.adjustedTime + seconds := by omega
    exact ⟨h.values, fun id hcached => (h.cached id hcached).trans_le hle,
      fun id stage hmem => Stage.fits_later (h.readers id stage hmem) hle⟩
  | lookup id =>
    simp only [reads]
    split
    · exact h
    · refine ⟨h.values, h.cached, fun id' stage hmem => ?_⟩
      rcases mem_append.mp hmem with hold | hnew
      · exact h.readers id' stage hold
      · cases mem_singleton.mp hnew
        rfl
  | advance n => exact h.advance n
  | receive spork =>
    simp only [reads]
    split
    · exact h
    · split <;> exact ⟨h.values, h.cached, h.readers⟩
  | store | update => exact h

/-- A step keeps what is remembered right unless it stores a message at the wrong moment. -/
lemma step {events : List (SporkEvent Key Sig)}
    (hevents : s.undisturbed scheme network nMinSporkKeys (event :: events) = true) :
    (s.step scheme network nMinSporkKeys event).Safe nMinSporkKeys := by
  unfold SporkState.step
  split
  case h_1 => exact h.reads
  case h_2 keyIDSigner spork hstores =>
    have hfits := (and_eq_true_iff.mp hevents).1
    rw [hstores] at hfits
    -- only what the state has for the id of the spork changes
    refine ⟨fun id nValue hvalue => ?_, fun id hcached => ?_, fun id stage hmem => ?_⟩
    all_goals dsimp only at *
    all_goals by_cases hid : id = spork.nSporkID
    · rw [hid, update_self] at hvalue
      cases hvalue
    · rw [update_of_ne hid] at hvalue
      exact (congrArg _ (signed_store_of_ne hid)).trans (h.values id nValue hvalue)
    · rw [hid, update_self] at hcached
      cases hcached
    · rw [update_of_ne hid] at hcached
      rw [value, signed_store_of_ne hid]
      exact h.cached id hcached
    · have hreader := all_eq_true.mp hfits (id, stage) hmem
      simpa [hid] using hreader
    · rw [value, signed_store_of_ne hid]
      exact h.readers id stage hmem

end SporkState.Safe

variable (scheme network nMinSporkKeys) in
/-- **Active sporks.** Whatever sporks the node has when it starts, in every run of calls in
which no spork is stored while a call for it is about to remember a wrong answer, what is
remembered is right whenever no call is in progress. -/
theorem cachedActive_right (manager : CSporkManager KeyID Sig) (adjustedTime : Int)
    (events : List (SporkEvent Key Sig))
    (hevents : SporkState.undisturbed scheme network nMinSporkKeys { manager, adjustedTime }
      events = true) :
    ∀ before, before <+: events →
      (before.foldl (SporkState.step scheme network nMinSporkKeys)
        { manager, adjustedTime }).Right nMinSporkKeys := by
  have hrun : ∀ before s, s.Safe nMinSporkKeys → before <+: events →
      s.undisturbed scheme network nMinSporkKeys events = true →
      (before.foldl (SporkState.step scheme network nMinSporkKeys) s).Safe nMinSporkKeys := by
    clear hevents
    induction events with
    | nil =>
      intro before s h hbefore _
      rwa [prefix_nil.mp hbefore]
    | cons event events ih =>
      intro before s h hbefore hevents
      cases before with
      | nil => exact h
      | cons first before =>
        obtain ⟨rfl, hrest⟩ := cons_prefix_cons.mp hbefore
        exact ih before _ (h.step hevents) hrest (and_eq_true_iff.mp hevents).2
  intro before hbefore _ id hcached
  exact (hrun before _ ⟨by simp, by simp, by simp⟩ hbefore hevents).cached id hcached

end Steps

/-- The only signer switches spork 10001 on, which a call finds out and remembers, and then
off. -/
theorem cachedActive_right_onOff :
    let events := [SporkEvent.update 7 10001 0 1700000000, .lookup 10001, .advance 0,
      .advance 0, .advance 0, .update 7 10001 4070908800 1700000001]
    let start : SporkState Nat (List UInt8 × Nat) :=
      { manager := ⟨[7], fun _ _ => none⟩, adjustedTime := 1700000001 }
    start.undisturbed plainScheme .main 1 events = true ∧
      (events.foldl (SporkState.step plainScheme .main 1) start).Right 1 := by
  intro events start
  have hevents : start.undisturbed plainScheme .main 1 events = true := by decide +kernel
  exact ⟨hevents, cachedActive_right plainScheme .main 1 _ _ events hevents _ prefix_rfl⟩

/-- If the spork is switched off after the call has read its value, the call still remembers
that it is active. -/
theorem switched_off_remembered :
    let s := [SporkEvent.update 7 10001 0 1700000000, .lookup 10001, .advance 0,
      .update 7 10001 4070908800 1700000001, .advance 0, .advance 0].foldl
        (SporkState.step plainScheme .main 1)
        { manager := ⟨[7], fun _ _ => none⟩, adjustedTime := 1700000001 }
    s.readers = [] ∧ s.writers = [] ∧ s.mapSporksCachedActive 10001 = true ∧
      s.manager.value 1 10001 = 4070908800 ∧ s.adjustedTime = 1700000001 := by
  decide +kernel

/-! ## The order of messages -/

section Order

variable {Hash Key KeyID Sig : Type} [DecidableEq KeyID]
  (scheme : SignatureScheme Hash Key KeyID Sig) (network : Network)

/-- Whose message it is, for what and of which time. -/
def CSporkMessage.stamp (spork : CSporkMessage Sig) : Option KeyID × Int32 × Int64 :=
  (spork.getSignerKeyID scheme network, spork.nSporkID, spork.nTimeSigned)

namespace CSporkManager

/-- Messages come one after the other, each at its adjusted time. -/
def processSporks (manager : CSporkManager KeyID Sig) (messages : List (Int × CSporkMessage Sig)) :
    CSporkManager KeyID Sig :=
  messages.foldl (fun manager m =>
    (manager.processSpork scheme network m.1 m.2).toOption.getD manager) manager

/-- What a message in time makes of the entries: a later one of a key replaces an earlier one. -/
def receive (manager : CSporkManager KeyID Sig) (spork : CSporkMessage Sig) :
    CSporkManager KeyID Sig where
  setSporkPubKeyIDs := manager.setSporkPubKeyIDs
  mapSporksActive id key :=
    let entry := manager.mapSporksActive id key
    if spork.getSignerKeyID scheme network = some key ∧ spork.nSporkID = id ∧
        key ∈ manager.setSporkPubKeyIDs then
      if ∀ active ∈ entry, active.nTimeSigned.toInt < spork.nTimeSigned.toInt then some spork
      else entry
    else entry

variable {scheme network} {manager : CSporkManager KeyID Sig} {spork spork' : CSporkMessage Sig}
  {messages messages' : List (Int × CSporkMessage Sig)}

lemma processSpork_eq_receive {adjustedTime : Int}
    (htime : spork.nTimeSigned.toInt ≤ adjustedTime + 2 * 60 * 60) :
    (manager.processSpork scheme network adjustedTime spork).toOption.getD manager =
      manager.receive scheme network spork := by
  have hmk {entries} (h : ∀ id key, entries id key =
      (manager.receive scheme network spork).mapSporksActive id key) :
      ⟨manager.setSporkPubKeyIDs, entries⟩ = manager.receive scheme network spork :=
    congrArg (mk _) (funext₂ h)
  unfold receive at hmk ⊢
  rw [processSpork, if_neg (not_lt.mpr htime)]
  split
  case h_1 => exact hmk (by grind)
  case h_2 keyIDSigner hsigner =>
    split
    case isTrue => exact hmk (by grind)
    case isFalse =>
      split
      · split <;> exact hmk (by grind)
      · exact hmk (by grind)

/-- Messages with different stamps can be exchanged. -/
lemma receive_comm
    (h : spork.stamp scheme network = spork'.stamp scheme network → spork = spork') :
    (manager.receive scheme network spork).receive scheme network spork' =
      (manager.receive scheme network spork').receive scheme network spork := by
  unfold receive
  congr 1
  funext id key
  dsimp only
  split
  case isFalse => split <;> rfl
  case isTrue hcell' =>
  split
  case isFalse => rfl
  case isTrue hcell =>
  -- both are for this entry, and the later one stays
  rcases lt_trichotomy spork.nTimeSigned.toInt spork'.nTimeSigned.toInt with hlt | heq | hlt
  · cases manager.mapSporksActive id key <;> grind
  · have hstamp : spork.stamp scheme network = spork'.stamp scheme network := by
      simp [CSporkMessage.stamp, hcell, hcell', Int64.toInt_inj.mp heq]
    rw [h hstamp]
  · cases manager.mapSporksActive id key <;> grind

lemma processSporks_eq (htime : ∀ m ∈ messages, m.2.nTimeSigned.toInt ≤ m.1 + 2 * 60 * 60) :
    manager.processSporks scheme network messages =
      (messages.map Prod.snd).foldl (receive scheme network) manager := by
  rw [foldl_map]
  exact foldl_ext _ _ _ fun _ m hm => processSpork_eq_receive (htime m hm)

/-- **The order of messages.** Two nodes with the same entries that get the same messages, none
of them early, agree on all values in the end, if the messages have different stamps. -/
theorem value_processSporks_of_perm (nMinSporkKeys : Nat)
    (hperm : messages.map Prod.snd ~ messages'.map Prod.snd)
    (htime : ∀ m ∈ messages ++ messages', m.2.nTimeSigned.toInt ≤ m.1 + 2 * 60 * 60)
    (hstamps : ∀ spork ∈ messages.map Prod.snd, ∀ spork' ∈ messages.map Prod.snd,
      spork.stamp scheme network = spork'.stamp scheme network → spork = spork') (id : Int32) :
    (manager.processSporks scheme network messages).value nMinSporkKeys id =
      (manager.processSporks scheme network messages').value nMinSporkKeys id := by
  obtain ⟨hmessages, hmessages'⟩ := forall_mem_append.mp htime
  rw [processSporks_eq hmessages, processSporks_eq hmessages', hperm.foldl_eq']
  exact fun spork hspork spork' hspork' _ => receive_comm (hstamps spork hspork spork' hspork')

end CSporkManager

end Order

/-- The only signer switches spork 10001 on and off. -/
def switches (nTimeSigned : Int64) : List (Int × CSporkMessage (List UInt8 × Nat)) :=
  [⟨10001, 0, 1700000000⟩, ⟨10001, 4070908800, nTimeSigned⟩].map fun spork : SporkData =>
    (1700000001, { spork with vchSig := (spork.signedBytes .main, 7) })

theorem value_processSporks_switches :
    let manager : CSporkManager Nat (List UInt8 × Nat) := ⟨[7], fun _ _ => none⟩
    let messages := switches 1700000001
    (manager.processSporks plainScheme .main messages).value 1 10001 =
      (manager.processSporks plainScheme .main messages.reverse).value 1 10001 :=
  value_processSporks_of_perm 1 ((reverse_perm _).symm.map _)
    (by decide +kernel) (by decide +kernel) _

/-- With one time for both, the first one that comes stays. -/
theorem value_depends_on_order :
    let manager : CSporkManager Nat (List UInt8 × Nat) := ⟨[7], fun _ _ => none⟩
    let messages := switches 1700000000
    (manager.processSporks plainScheme .main messages).value 1 10001 = 0 ∧
      (manager.processSporks plainScheme .main messages.reverse).value 1 10001 = 4070908800 := by
  decide +kernel

end HootChain.Spork
