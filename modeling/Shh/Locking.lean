import Shh.Pinning

/-!
# Whole requests, and a locked store

A request that is refused has done nothing but drop expired identities. Parsing comes
before every change, so no request is applied in part.

While the store is locked, its identities are not listed and do not sign, connections are
not bound, and nothing is added or removed but by expiry. Only the passphrase opens it,
byte for byte: the comparison of padded buffers and lengths is equality on everything that
locking accepts. What has not expired in the meantime is then there again.
-/

namespace Shh.Agent

open List Wire Computations Runs Sample

variable {prim : Primitives}

/-- The identity has not expired. -/
def Stored.liveAt (stored : Stored prim) (instant : Nat) : Bool :=
  stored.expires.all fun expiry => decide (instant < expiry)

theorem purge_keys (state : State prim) (instant : Nat) :
    (state.purgeExpired instant).keys = state.keys.filter fun stored => stored.liveAt instant := rfl

/-- The answer that lists some identities. -/
def listing (identities : List (Stored prim)) : Bytes :=
  Writer.byte Num.identitiesAnswer ++ Writer.u32 identities.length ++
    identities.flatMap fun stored => Writer.string stored.blob ++ Writer.utf8 stored.comment

theorem list_listing (state : State prim) (locked : Bool) :
    state.list locked = listing (if locked then [] else state.keys) := by
  cases locked with
  | true => exact (append_nil _).symm
  | false => rfl

section Whole

/-- A change that is refused changes nothing. -/
theorem applied_failed {state : State prim} {conn : ConnState prim} {change : Option (State prim)}
    (failed : (applied state conn change).1 = failure) : (applied state conn change).2 = (state, conn) := by
  cases change with
  | none => rfl
  | some changed => exact absurd failed (by decide : success ≠ failure)

theorem extend_failed (state : State prim) (conn : ConnState prim) (body : Bytes)
    (failed : (extend state conn body).1 = failure) : (extend state conn body).2 = (state, conn) := by
  unfold extend at failed ⊢
  split
  · rename_i bound found
    rw [found] at failed
    exact absurd failed (by decide : success ≠ failure)
  · rfl

section

variable (clock : Clock) (state : State prim) (conn : ConnState prim) (request : Bytes)

/-- A request that fails drops expired identities and does nothing else. -/
theorem handle_failed (failed : (handle clock state conn request).1 = failure) :
    (handle clock state conn request).2 = (state.purgeExpired clock.instant, conn) := by
  revert failed
  refine handle_elim clock state _ conn request rfl
    (fun result => result.1 = failure → result.2 = (state.purgeExpired clock.instant, conn))
    (fun _ => rfl) (fun _ _ _ => rfl) (fun _ _ _ => rfl) (fun _ _ _ => applied_failed) (fun _ => applied_failed)
    applied_failed (fun _ => applied_failed) (fun _ => applied_failed)
    (fun _ _ => extend_failed _ _ _)

/-- An answer that lists identities lists some that are held and have not expired. -/
theorem handle_listed
    (listed : (handle clock state conn request).1.head? = some Num.identitiesAnswer) :
    ∃ identities, (handle clock state conn request).1 = listing identities ∧
      ∀ stored ∈ identities, stored ∈ (state.purgeExpired clock.instant).keys := by
  revert listed
  have changes (change : Option (State prim)) (purged : State prim) :
      (applied purged conn change).1.head? ≠ some Num.identitiesAnswer := by
    cases change with
    | none => exact (by decide : failure.head? ≠ some Num.identitiesAnswer)
    | some changed => exact (by decide : success.head? ≠ some Num.identitiesAnswer)
  refine handle_elim clock state _ conn request rfl
    (fun result => result.1.head? = some Num.identitiesAnswer → ∃ identities, result.1 = listing identities ∧
      ∀ stored ∈ identities, stored ∈ (state.purgeExpired clock.instant).keys)
    (fun answered => absurd answered (by decide : failure.head? ≠ some Num.identitiesAnswer)) ?_ ?_
    (fun _ _ _ answered => absurd answered (changes _ _)) (fun _ answered => absurd answered (changes _ _))
    (fun answered => absurd answered (changes _ _)) (fun _ answered => absurd answered (changes _ _))
    (fun _ answered => absurd answered (changes _ _)) ?_
  · intro _ _ _
    refine ⟨_, list_listing _ _, fun stored member => ?_⟩
    split at member
    · exact absurd member not_mem_nil
    · exact member
  · intro body _ answered
    cases signed : (state.purgeExpired clock.instant).sign clock.now body conn.bindings with
    | none =>
      rw [signed] at answered
      exact absurd answered (by decide : failure.head? ≠ some Num.identitiesAnswer)
    | some answer =>
      rw [signed] at answered
      obtain ⟨_, _, _, _, _, rfl⟩ := sign_iff.mp signed
      exact absurd (Option.some.inj answered) (by decide)
  · intro body _ answered
    unfold extend at answered
    split at answered
    · exact absurd answered (by decide : success.head? ≠ some Num.identitiesAnswer)
    · exact absurd answered (by decide : failure.head? ≠ some Num.identitiesAnswer)

/-- A signature is made by an identity that is held and has not expired. -/
theorem handle_signed
    (signed : (handle clock state conn request).1.head? = some Num.signResponse) :
    ∃ stored ∈ (state.purgeExpired clock.instant).keys, ∃ data,
      (handle clock state conn request).1 = Writer.byte Num.signResponse ++
      Writer.string (stored.key.sign prim data) := by
  obtain ⟨unlocked, stored, member, data, flags, flagsShort, blobShort, dataShort, rfl, permitted⟩ :=
    (handle_signed_iff _ _ _ _).mp signed
  refine ⟨stored, member, data, ?_⟩
  have parsed := (read_sign_ok _ _ _).mpr ⟨flags, flagsShort, blobShort, dataShort, rfl⟩
  rw [signFrame, handle_sign_request, unlocked, sign_iff.mpr ⟨stored, member, data, parsed, permitted, rfl⟩]
  rfl

end

/-- No request is applied in part: one that fails leaves the lock and the bindings and
drops only what has expired. After any run, no two identities share a blob, each holds the
private key its blob names, and whatever is listed or signs has not expired. -/
theorem requests_applied_whole (prim : Primitives) :
    (∀ clock (state : State prim) conn request, (handle clock state conn request).1 = failure →
      (handle clock state conn request).2.1.keys = state.keys.filter (fun stored => stored.liveAt clock.instant) ∧
      (handle clock state conn request).2.1.lock = state.lock ∧ (handle clock state conn request).2.2 = conn) ∧
    ∀ past : List Event,
      ((System.after prim past).store.keys.map Stored.blob).Nodup ∧
      (∀ stored ∈ (System.after prim past).store.keys, Names prim stored.blob stored.key) ∧
      ∀ event,
        (((System.after prim past).answer event).head? = some Num.identitiesAnswer →
          ∃ identities, (System.after prim past).answer event = listing identities ∧
            ∀ stored ∈ identities, stored ∈ (System.after prim past).store.keys ∧
              stored.liveAt event.clock.instant = true) ∧
        (((System.after prim past).answer event).head? = some Num.signResponse →
          ∃ stored ∈ (System.after prim past).store.keys, stored.liveAt event.clock.instant = true ∧ ∃ data,
            (System.after prim past).answer event =
              Writer.byte Num.signResponse ++ Writer.string (stored.key.sign prim data)) := by
  refine ⟨?_, ?_⟩
  · intro clock state conn request failed
    rw [handle_failed clock state conn request failed]
    exact ⟨rfl, rfl, rfl⟩
  · intro past
    refine ⟨(System.after prim past).store.distinct, fun stored _ => stored.named, fun event => ⟨?_, ?_⟩⟩
    · intro listed
      obtain ⟨identities, answer, held⟩ := handle_listed _ _ _ _ listed
      exact ⟨identities, answer, fun stored member => mem_filter.mp (held stored member)⟩
    · intro signed
      obtain ⟨stored, member, data, answer⟩ := handle_signed _ _ _ _ signed
      obtain ⟨held, live⟩ := mem_filter.mp member
      exact ⟨stored, held, live, data, answer⟩

end Whole

section Locked

/-- The request is to lock, or to unlock, with this passphrase. -/
def Locks (frame pass : Bytes) : Prop := ∃ body, frame = Num.lock :: body ∧ readOnly.parse body = .ok pass

def Unlocks (frame pass : Bytes) : Prop := ∃ body, frame = Num.unlock :: body ∧ readOnly.parse body = .ok pass

/-- The comparison of padded buffers and lengths is equality, below the cap. -/
theorem padded_eq_iff {held pass : Bytes} (heldShort : held.length ≤ lockMaxLen)
    (passShort : pass.length ≤ lockMaxLen) :
    held.length = pass.length ∧ State.padded held = State.padded pass ↔ pass = held := by
  constructor
  · rintro ⟨lengths, buffers⟩
    have start {bytes : Bytes} (short : bytes.length ≤ lockMaxLen) :
      (State.padded bytes).take bytes.length = bytes := by
      rw [State.padded, take_take, Nat.min_eq_left short, take_left]
    rw [← start heldShort, ← start passShort, lengths, buffers]
  · rintro rfl
    exact ⟨rfl, rfl⟩

/-- A locked store is unlocked by its passphrase and by nothing else. -/
theorem unset_lock_held {state : State prim} {held} (locked : state.lock = some held) (body : Bytes) :
    state.unsetLock body =
    if readOnly.parse body = .ok held then some ⟨state.keys, none, state.distinct, by simp⟩ else none := by
  have short : held.length ≤ lockMaxLen := state.capped held locked
  unfold State.unsetLock
  cases parsed : readOnly.parse body with
  | error reason => rw [if_neg nofun]
  | ok pass =>
    simp only [locked, Except.ok.injEq]
    split
    · rename_i long
      have different : pass ≠ held := by
        rintro rfl
        rcases long with long | long <;> exact Nat.not_le.mpr long short
      rw [if_neg different]
    · rename_i fits
      have passShort : pass.length ≤ lockMaxLen := Nat.le_of_not_lt fun long => fits (.inr long)
      simp only [padded_eq_iff short passShort]

/-- The answer that lists nothing. -/
def emptyListing : Bytes := Writer.byte Num.identitiesAnswer ++ Writer.u32 0

/-- The answer of a locked store to anything but its passphrase. -/
def lockedAnswer (request : Bytes) : Bytes :=
  if request.head? = some Num.requestIdentities then emptyListing else failure

theorem locked_answer_unsigned (request : Bytes) : (lockedAnswer request).head? ≠ some Num.signResponse := by
  unfold lockedAnswer
  split
  · exact (by decide : emptyListing.head? ≠ some Num.signResponse)
  · exact (by decide : failure.head? ≠ some Num.signResponse)

/-- An unlock request reaches the comparison, whether or not the store is locked. -/
theorem handle_unlock (clock : Clock) (state : State prim) (conn : ConnState prim) (body : Bytes) :
    handle clock state conn (Num.unlock :: body) =
      applied (state.purgeExpired clock.instant) conn ((state.purgeExpired clock.instant).unsetLock body) := by
  rw [handle, dispatch, if_neg (by decide), if_neg (fun refused => refused.2 rfl),
    if_neg (by decide), if_neg (by decide),
    if_neg (by decide), if_neg (by decide), if_neg (by decide), if_neg (by decide), if_pos rfl]

section

variable {state : State prim}
  {held : Bytes}
  (locked : state.lock = some held)
  (clock : Clock)
  (conn : ConnState prim)

include locked

theorem handle_locked {request} (kept : ¬Unlocks request held) :
    handle clock state conn request = (lockedAnswer request, state.purgeExpired clock.instant, conn) := by
  have still : (state.purgeExpired clock.instant).lock = some held := locked
  cases request with
  | nil => rfl
  | cons op body =>
    by_cases unlock : op = Num.unlock
    · subst unlock
      have refused : (state.purgeExpired clock.instant).unsetLock body = none := by
        rw [unset_lock_held still, if_neg fun parsed => kept ⟨body, rfl, parsed⟩]
      rw [handle_unlock, refused]
      rfl
    · rw [handle, dispatch, still]
      by_cases list : op = Num.requestIdentities
      · rw [if_pos list, list]
        rfl
      · have other : (op :: body).head? ≠ some Num.requestIdentities := fun same => list (Option.some.inj same)
        rw [if_neg list, if_pos ⟨rfl, unlock⟩, lockedAnswer, if_neg other]

/-- The passphrase opens the store. -/
theorem handle_unlocks {request} (unlocks : Unlocks request held) :
    handle clock state conn request =
      (success, ⟨(state.purgeExpired clock.instant).keys, none,
      (state.purgeExpired clock.instant).distinct, by simp⟩, conn) := by
  obtain ⟨body, rfl, parsed⟩ := unlocks
  have still : (state.purgeExpired clock.instant).lock = some held := locked
  rw [handle_unlock, unset_lock_held still, if_pos parsed]
  rfl

end

/-- A lock that succeeds holds the passphrase. -/
theorem handle_locks {state : State prim} {clock : Clock} {conn : ConnState prim} {request pass : Bytes}
    (locks : Locks request pass) (granted : (handle clock state conn request).1 = success) :
    (handle clock state conn request).2.1.lock = some pass := by
  obtain ⟨body, rfl, parsed⟩ := locks
  rw [handle, dispatch, if_neg (by decide)] at granted ⊢
  by_cases refused : (state.purgeExpired clock.instant).lock.isSome ∧ Num.lock ≠ Num.unlock
  · rw [if_pos refused] at granted
    exact absurd granted (by decide : failure ≠ success)
  · rw [if_neg refused, if_neg (by decide), if_neg (by decide), if_neg (by decide), if_neg (by decide), if_neg (by decide),
      if_pos rfl] at granted ⊢
    have unlocked : ¬(state.purgeExpired clock.instant).lock.isSome = true := fun locked => refused ⟨locked, by decide⟩
    simp only [State.setLock, parsed, if_neg unlocked] at granted ⊢
    split at granted
    · rename_i short
      rw [dif_pos short]
      rfl
    · exact absurd granted (by decide : failure ≠ success)

/-- The identity has not expired at any of these requests. -/
def Stored.liveAlong (events : List Event) (stored : Stored prim) : Bool :=
  events.all fun event => stored.liveAt event.clock.instant

/-- A system that is locked, and what it was when it was locked. -/
structure StillLocked (locked : System prim) (pass : Bytes) (past : List Event) (system : System prim) : Prop where
  lock : system.store.lock = some pass
  conns : system.conns = locked.conns
  keys : system.store.keys = locked.store.keys.filter (Stored.liveAlong past)

theorem locked_step {system : System prim} {pass} (held : system.store.lock = some pass) {event : Event}
    (kept : ¬Unlocks event.frame pass) :
    system.answer event = lockedAnswer event.frame ∧
      system.step event = ⟨system.store.purgeExpired event.clock.instant, system.conns⟩ := by
  have handled := handle_locked held event.clock (system.conns event.conn) kept
  refine ⟨by rw [System.answer, handled], ?_⟩
  rw [System.step, handled]
  simp only [Function.update_eq_self]

theorem StillLocked.run {locked : System prim} {pass} (held : locked.store.lock = some pass)
    (following : List Event) (kept : ∀ event ∈ following, ¬Unlocks event.frame pass) :
    StillLocked locked pass following (run System.step locked following) := by
  induction following using List.reverseRecOn with
  | nil => exact ⟨held, rfl, (filter_eq_self.mpr fun _ _ => rfl).symm⟩
  | append_singleton past event ih =>
    have before := ih fun other member => kept other (mem_append_left _ member)
    have moved := (locked_step before.lock (kept event (by simp))).2
    rw [run_snoc, moved]
    refine ⟨before.lock, before.conns, ?_⟩
    rw [purge_keys, before.keys, filter_filter]
    congr 1
    funext stored
    simp [Stored.liveAlong, Bool.and_comm]

/-- A store that is not locked lists what has not expired. -/
theorem unlocked_listing {system : System prim} (unlocked : system.store.lock = none) {event : Event}
    (asked : event.frame.head? = some Num.requestIdentities) :
    system.answer event = listing (system.store.keys.filter fun stored => stored.liveAt event.clock.instant) := by
  obtain ⟨body, frame⟩ := List.head?_eq_some_iff.mp asked
  have still : (system.store.purgeExpired event.clock.instant).lock = none := unlocked
  rw [System.answer, frame, handle, dispatch, if_pos rfl, list_listing, still]
  rfl

/-- Another passphrase is not the one. -/
theorem Unlocks.unique {frame guess pass} (first : Unlocks frame guess) (second : Unlocks frame pass) :
    guess = pass := by
  obtain ⟨body, rfl, parsed⟩ := first
  obtain ⟨other, same, again⟩ := second
  obtain rfl := (List.cons.inj same).2
  exact Except.ok.inj (parsed.symm.trans again)

/-- A store that was locked with a passphrase stays so until that passphrase comes back.
Until then every listing is empty, nothing is signed, no connection is bound, and only
expiry takes identities away. An unlock succeeds with the passphrase and with nothing
else, and then every identity that has not expired is listed again. -/
theorem locked_until_passphrase (system : System prim) (locking : Event) (pass : Bytes) (following : List Event)
    (locks : Locks locking.frame pass) (granted : system.answer locking = success)
    (kept : ∀ event ∈ following, ¬Unlocks event.frame pass) :
    (∀ before event after, following = before ++ event :: after →
      (event.frame.head? = some Num.requestIdentities →
        (run System.step (system.step locking) before).answer event = emptyListing) ∧
      ((run System.step (system.step locking) before).answer event).head? ≠ some Num.signResponse) ∧
    (run System.step (system.step locking) following).conns = (system.step locking).conns ∧
    (run System.step (system.step locking) following).store.keys =
      (system.step locking).store.keys.filter (Stored.liveAlong following) ∧
    ∀ unlocking guess, Unlocks unlocking.frame guess →
      ((run System.step (system.step locking) following).answer unlocking = success ↔ guess = pass) ∧
      (guess = pass → ∀ asking, asking.frame.head? = some Num.requestIdentities →
        (run System.step (system.step locking) (following ++ [unlocking])).answer asking =
          listing ((system.step locking).store.keys.filter (Stored.liveAlong (following ++ [unlocking, asking])))) := by
  have held : (system.step locking).store.lock = some pass := handle_locks locks granted
  refine ⟨?_, (StillLocked.run held following kept).conns, (StillLocked.run held following kept).keys, ?_⟩
  · rintro before event after rfl
    have still := StillLocked.run held before fun other member => kept other (mem_append_left _ member)
    have answered := (locked_step still.lock (kept event (by simp))).1
    rw [answered]
    exact ⟨fun asked => if_pos asked, locked_answer_unsigned _⟩
  · intro unlocking guess unlocks
    have still := StillLocked.run held following kept
    by_cases same : guess = pass
    · subst same
      have opened := handle_unlocks still.lock unlocking.clock
        ((run System.step (system.step locking) following).conns unlocking.conn) unlocks
      refine ⟨⟨fun _ => rfl, fun _ => by rw [System.answer, opened]⟩, fun _ asking asked => ?_⟩
      rw [run_snoc, System.step, opened]
      rw [unlocked_listing rfl asked]
      congr 1
      simp only [purge_keys, still.keys, filter_filter]
      congr 1
      funext stored
      simp [Stored.liveAlong, Bool.and_comm, Bool.and_left_comm, Bool.and_assoc]
    · have answered := (locked_step still.lock fun right => same (unlocks.unique right)).1
      refine ⟨⟨fun succeeded => ?_, fun right => absurd right same⟩, fun right => absurd right same⟩
      obtain ⟨body, frame, _⟩ := unlocks
      have other : (Num.unlock :: body).head? ≠ some Num.requestIdentities := by
        intro listed
        exact absurd (Option.some.inj listed) (by decide)
      rw [answered, lockedAnswer, frame, if_neg other] at succeeded
      exact absurd succeeded (by decide)

namespace Sample

/-- A passphrase that ends in a zero byte, and one that lacks it. -/
def pass : Bytes := [1, 0]

def locking : Event := ⟨0, clock, Num.lock :: Writer.string pass⟩

def guessing : Event := ⟨1, clock, Num.unlock :: Writer.string [1]⟩

def unlocking : Event := ⟨1, clock, Num.unlock :: Writer.string pass⟩

def asking : Event := ⟨1, clock, [Num.requestIdentities]⟩

end Sample

/-- The pinned key is there again after the passphrase, and not after a guess. -/
theorem locked_until_passphrase_sample :
    (run System.step ((System.after .transparent Sample.past).step Sample.locking)
      [Sample.guessing, Sample.unlocking]).answer Sample.asking = listing [Sample.stored] ∧
    (run System.step ((System.after .transparent Sample.past).step Sample.locking) [Sample.guessing]).conns =
      ((System.after .transparent Sample.past).step Sample.locking).conns := by
  have kept : ∀ event ∈ [guessing], ¬Unlocks event.frame pass := by
    intro event member unlocks
    obtain rfl := mem_singleton.mp member
    exact absurd (unlocks.unique ⟨_, rfl, by decide +kernel⟩ : pass = [1]) (by decide)
  have locked := locked_until_passphrase (System.after .transparent past) locking pass [guessing]
    ⟨_, rfl, by decide +kernel⟩ (by decide +kernel) kept
  refine ⟨?_, locked.2.1⟩
  have listed := (locked.2.2.2 unlocking pass ⟨_, rfl, by decide +kernel⟩).2 rfl asking rfl
  have identities : ((System.after .transparent past).step locking).store.keys.filter
      (Stored.liveAlong [guessing, unlocking, asking]) = [stored] := by decide +kernel
  exact listed.trans (congrArg listing identities)

end Locked

end Shh.Agent
