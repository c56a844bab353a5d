import Shh.Destinations

/-!
# The agent's key store

One request frame is answered at a time, at one reading of the monotonic clock
and of the wall clock. Whatever is malformed, unknown or not permitted earns the
failure answer. Expired keys are dropped before anything else is looked at.

A stored identity carries the fact that its blob names its private key. The
store carries that no two identities share a blob and that a held passphrase is
within the cap, so unlocking can always compare it.
-/

namespace Shh.Agent

open Option Wire Reader Computations

variable {prim : Primitives}

namespace Num

def failure : UInt8 := 5
def success : UInt8 := 6
def requestIdentities : UInt8 := 11
def identitiesAnswer : UInt8 := 12
def signRequest : UInt8 := 13
def signResponse : UInt8 := 14
def addIdentity : UInt8 := 17
def removeIdentity : UInt8 := 18
def removeAllIdentities : UInt8 := 19
def lock : UInt8 := 22
def unlock : UInt8 := 23
def addIdConstrained : UInt8 := 25
def extension : UInt8 := 27
def constrainLifetime : UInt8 := 1
def constrainExtension : UInt8 := 255

end Num

/-- The cap on a lock passphrase, enforced when locking and when unlocking. -/
def lockMaxLen : Nat := 256

/-- Instants count nanoseconds. -/
def nanosPerSec : Nat := 1000000000

/-- The two clocks a request is answered at. -/
structure Clock where
  instant : Nat
  now : Nat
deriving DecidableEq, Repr

/-- A blob names a private key: it is its public blob, or a certificate for it. -/
def Names (prim : Primitives) (blob : Bytes) (key : PrivateKey) : Prop :=
  blob = (key.publicKey : PublicKey prim).toBlob ∨
    ∃ cert : Certificate prim, Certificate.parseAndVerify blob = .ok cert ∧ cert.key = key.publicKey

/-- An identity the agent holds. -/
structure Stored (prim : Primitives) where
  blob : Bytes
  key : PrivateKey
  comment : String
  expires : Option Nat
  /-- Empty means unconstrained. -/
  constraints : List DestConstraint
  named : Names prim blob key
deriving DecidableEq

/-- The shared store. -/
structure State (prim : Primitives) where
  keys : List (Stored prim)
  lock : Option Bytes
  distinct : (keys.map Stored.blob).Nodup
  capped : ∀ held ∈ lock, held.length ≤ lockMaxLen

def failure : Bytes := [Num.failure]

def success : Bytes := [Num.success]

/-- Refusals in the source carry no reason; the reader's is dropped. -/
def refused : Error := .agent "refused"

/-- The blob an identity is stored under, with what makes it name the key. -/
def identityBlob (key : PrivateKey) : Option Bytes → Except Error { blob // Names prim blob key }
  | none => .ok ⟨(key.publicKey : PublicKey prim).toBlob, .inl rfl⟩
  | some certBlob =>
    match parsed : (Certificate.parseAndVerify certBlob : Except Error (Certificate prim)) with
    | .error reason => .error reason
    | .ok cert =>
      if certifies : cert.key = key.publicKey then .ok ⟨certBlob, .inr ⟨cert, parsed, certifies⟩⟩
      else .error refused

/-- The seed half of the private field. -/
def seedKey (secret : Bytes) : Except Error PrivateKey :=
  if size : (secret.take 32).length = 32 then .ok ⟨secret.take 32, size⟩ else .error refused

/-- A certificate identity carries the whole certificate first. -/
def readCertBlob (name : String) : Reader (Option Bytes) :=
  if name = certAlgo then some <$> Reader.string else pure none

/-- The certificate, if the identity has one, the claimed public key, the private
field and the comment. -/
def readIdentity : Reader (Option Bytes × Bytes × Bytes × String) := do
  let name ← Reader.utf8
  Reader.require (name = algo ∨ name = certAlgo) refused
  let certBlob ← readCertBlob name
  let claimed ← Reader.string
  let secret ← Reader.string
  let comment ← Reader.utf8
  return (certBlob, claimed, secret, comment)

/-- One key constraint: a nonzero lifetime, or a list of destinations. Anything
else refuses the key. -/
def readKeyConstraint (instant : Nat) (seen : Option Nat × List DestConstraint) :
    Reader (Option Nat × List DestConstraint) := do
  let kind ← Reader.byte
  if kind = Num.constrainLifetime then
    let secs ← Reader.u32
    Reader.require (secs ≠ 0) refused
    return (some (instant + secs * nanosPerSec), seen.2)
  else
    Reader.require (kind = Num.constrainExtension) refused
    let name ← Reader.utf8
    Reader.require (name = extRestrictDestination) refused
    let packed ← Reader.string
    let constraints ← Reader.lift (parseDestConstraints packed)
    return (seen.1, seen.2 ++ constraints)

/-- Only a constrained add has constraints to read. -/
def readKeyConstraints (instant : Nat) (constrained : Bool) :
    Reader (Option Nat × List DestConstraint) :=
  if constrained then Reader.drain (readKeyConstraint instant) (none, []) else pure (none, [])

/-- The body of an add request. Every public copy of the key must match the seed. -/
def readAdd (instant : Nat) (constrained : Bool) : Reader (Stored prim) := do
  let (certBlob, claimed, secret, comment) ← readIdentity
  let key ← Reader.lift (seedKey secret)
  Reader.require (claimed = (key.publicKey : PublicKey prim).raw ∧
    secret.drop 32 = (key.publicKey : PublicKey prim).raw) refused
  let identity ← Reader.lift (identityBlob key certBlob)
  let (expires, constraints) ← readKeyConstraints instant constrained
  Reader.finish
  return ⟨identity.1, key, comment, expires, constraints, identity.2⟩

/-- The body of a sign request: the blob that names the key and the data. -/
def readSign : Reader (Bytes × Bytes) := do
  let blob ← Reader.string
  let data ← Reader.string
  let _flags ← Reader.u32
  Reader.finish
  return (blob, data)

/-- A body that is one string. -/
def readOnly : Reader Bytes := do
  let value ← Reader.string
  Reader.finish
  return value

namespace State

/-- The store before anything was added. -/
def empty : State prim := ⟨[], none, by simp, by simp⟩

/-- Keep only some identities. -/
def retain (state : State prim) (keep : Stored prim → Bool) : State prim :=
  { state with
    keys := state.keys.filter keep
    distinct := List.Sublist.nodup (List.filter_sublist.map _) state.distinct }

def purgeExpired (state : State prim) (instant : Nat) : State prim :=
  state.retain fun stored => stored.expires.all (fun expiry => decide (instant < expiry))

def find (state : State prim) (blob : Bytes) : Option (Stored prim) :=
  state.keys.find? (fun stored => stored.blob == blob)

/-- A locked agent lists nothing. -/
def list (state : State prim) (locked : Bool) : Bytes :=
  if locked then Writer.byte Num.identitiesAnswer ++ Writer.u32 0
  else Writer.byte Num.identitiesAnswer ++ Writer.u32 state.keys.length ++
    state.keys.flatMap fun stored => Writer.string stored.blob ++ Writer.utf8 stored.comment

/-- Storing an identity replaces the one with the same blob. -/
def insert (state : State prim) (stored : Stored prim) : State prim :=
  let kept := state.retain (fun held => held.blob != stored.blob)
  { kept with
    keys := kept.keys ++ [stored]
    distinct := by
      rw [List.map_append, List.nodup_append]
      refine ⟨kept.distinct, by simp, ?_⟩
      intro blob member other last
      obtain ⟨held, heldMember, rfl⟩ := List.mem_map.mp member
      obtain rfl : other = stored.blob := by simpa using last
      simpa using (List.mem_filter.mp heldMember).2 }

def add (state : State prim) (instant : Nat) (body : Bytes) (constrained : Bool) :
    Option (State prim) :=
  match (readAdd instant constrained : Reader (Stored prim)).parse body with
  | .error _ => none
  | .ok stored => some (state.insert stored)

/-- The signature answer, when the named key is held and the chain of bindings is
permitted. -/
def sign (state : State prim) (now : Nat) (body : Bytes) (bindings : List (Binding prim)) :
    Option Bytes :=
  match readSign.parse body with
  | .error _ => none
  | .ok (blob, data) =>
    match state.find blob with
    | none => none
    | some stored =>
      if destinationsPermit now stored.constraints bindings then
        some (Writer.byte Num.signResponse ++ Writer.string (stored.key.sign prim data))
      else none

def remove (state : State prim) (body : Bytes) : Option (State prim) :=
  match readOnly.parse body with
  | .error _ => none
  | .ok blob =>
    let kept := state.retain (fun held => held.blob != blob)
    if kept.keys.length < state.keys.length then some kept else none

def setLock (state : State prim) (body : Bytes) : Option (State prim) :=
  match readOnly.parse body with
  | .error _ => none
  | .ok pass =>
    if state.lock.isSome then none
    else if capped : pass.length ≤ lockMaxLen then
      some { state with lock := some pass, capped := by simpa using capped }
    else none

/-- The source compares zero-padded buffers of the cap's size and the lengths. -/
def padded (bytes : Bytes) : Bytes := (bytes ++ List.replicate lockMaxLen 0).take lockMaxLen

def unsetLock (state : State prim) (body : Bytes) : Option (State prim) :=
  match readOnly.parse body with
  | .error _ => none
  | .ok pass =>
    match state.lock with
    | none => none
    | some held =>
      if held.length > lockMaxLen ∨ pass.length > lockMaxLen then none
      else if held.length = pass.length ∧ padded held = padded pass then
        some { state with lock := none, capped := by simp }
      else none

end State

/-- An optional change of the store: its success, or failure with nothing
changed. -/
def applied (state : State prim) (conn : ConnState prim) :
    Option (State prim) → Bytes × State prim × ConnState prim
  | some changed => (success, changed, conn)
  | none => (failure, state, conn)

/-- The payload of an extension request that is a session bind. -/
def sessionBindPayload (body : Bytes) : Option Bytes :=
  match Reader.utf8 body with
  | .ok (name, rest) => if name = extSessionBind then some rest else none
  | .error _ => none

/-- The only extension is the session bind; any other is refused as unsupported. -/
def extend (state : State prim) (conn : ConnState prim) (body : Bytes) :
    Bytes × State prim × ConnState prim :=
  match (sessionBindPayload body).bind conn.sessionBind with
  | some bound => (success, state, bound)
  | none => (failure, state, conn)

/-- Answer a request by its operation. A locked store lists nothing and otherwise
only unlocks. -/
def dispatch (clock : Clock) (state : State prim) (conn : ConnState prim) (op : UInt8) (body : Bytes) :
    Bytes × State prim × ConnState prim :=
  if op = Num.requestIdentities then (state.list state.lock.isSome, state, conn)
  else if state.lock.isSome ∧ op ≠ Num.unlock then (failure, state, conn)
  else if op = Num.signRequest then
    ((state.sign clock.now body conn.bindings).getD failure, state, conn)
  else if op = Num.addIdentity then applied state conn (state.add clock.instant body false)
  else if op = Num.addIdConstrained then applied state conn (state.add clock.instant body true)
  else if op = Num.removeIdentity then applied state conn (state.remove body)
  else if op = Num.removeAllIdentities then applied state conn (some (state.retain fun _ => false))
  else if op = Num.lock then applied state conn (state.setLock body)
  else if op = Num.unlock then applied state conn (state.unsetLock body)
  else if op = Num.extension then extend state conn body
  else (failure, state, conn)

/-- Answer one request frame on one connection. -/
def handle (clock : Clock) (state : State prim) (conn : ConnState prim) (request : Bytes) :
    Bytes × State prim × ConnState prim :=
  match request with
  | [] => (failure, state.purgeExpired clock.instant, conn)
  | op :: body => dispatch clock (state.purgeExpired clock.instant) conn op body

section Requests

/-- A sign request frame. -/
def signFrame (blob data : Bytes) (flags : Nat) : Bytes :=
  Num.signRequest :: (Writer.string blob ++ Writer.string data ++ Writer.u32 flags)

/-- A session-bind request frame. Any nonzero flag reads as forwarding. -/
def sessionBindFrame (hostBlob sessionId signature : Bytes) (flag : UInt8) : Bytes :=
  Num.extension :: (Writer.utf8 extSessionBind ++
    (Writer.string hostBlob ++ Writer.string sessionId ++ Writer.string signature ++ [flag]))

/-- Identities are found by their blob, which is theirs alone. -/
theorem find_iff (state : State prim) (blob : Bytes) (stored : Stored prim) :
    state.find blob = some stored ↔ stored ∈ state.keys ∧ stored.blob = blob := by
  constructor
  · intro found
    exact ⟨List.mem_of_find?_eq_some found, by simpa using List.find?_some found⟩
  · rintro ⟨member, rfl⟩
    cases found : state.find stored.blob with
    | none => simpa using List.find?_eq_none.mp found stored member
    | some other =>
      have same : other.blob = stored.blob := by simpa using List.find?_some found
      rw [List.inj_on_of_nodup_map state.distinct (List.mem_of_find?_eq_some found) member same]

/-- A sign request is read exactly from its frame's body. -/
theorem read_sign_ok (body blob data : Bytes) :
    readSign.parse body = .ok (blob, data) ↔ ∃ flags < 2 ^ 32, blob.length < 2 ^ 32 ∧
      data.length < 2 ^ 32 ∧ body = Writer.string blob ++ Writer.string data ++ Writer.u32 flags := by
  simp only [readSign, parse_ok, string_bind_ok, u32_bind_ok,
    finish_bind_ok, pure_ok, Prod.mk.injEq]
  constructor
  · rintro ⟨left, named, afterBlob, ⟨rfl, blobShort⟩, signed, afterData, ⟨rfl, dataShort⟩, flags,
      afterFlags, ⟨rfl, flagsShort⟩, rfl, ⟨rfl, rfl⟩, -⟩
    exact ⟨flags, flagsShort, blobShort, dataShort, by simp⟩
  · rintro ⟨flags, flagsShort, blobShort, dataShort, rfl⟩
    exact ⟨[], blob, _, ⟨by simp; rfl, blobShort⟩, data, _, ⟨rfl, dataShort⟩, flags, [],
      ⟨by simp, flagsShort⟩, rfl, ⟨rfl, rfl⟩, rfl⟩

/-- A signature is given for exactly the well-formed requests that name a held
key whose constraints permit the bindings. -/
theorem sign_iff {state : State prim} {now body bindings answer} :
    state.sign now body bindings = some answer ↔ ∃ stored ∈ state.keys, ∃ data,
      readSign.parse body = .ok (stored.blob, data) ∧
      destinationsPermit now stored.constraints bindings = true ∧
      answer = Writer.byte Num.signResponse ++ Writer.string (stored.key.sign prim data) := by
  unfold State.sign
  cases parsed : readSign.parse body with
  | error reason => simp
  | ok fields =>
    obtain ⟨blob, data⟩ := fields
    cases found : state.find blob with
    | none =>
      simp only [found, reduceCtorEq, Except.ok.injEq, Prod.mk.injEq, false_iff]
      rintro ⟨stored, member, signed, ⟨rfl, -⟩, -⟩
      rw [(find_iff state stored.blob stored).mpr ⟨member, rfl⟩] at found
      simp at found
    | some stored =>
      obtain ⟨member, rfl⟩ := (find_iff state blob stored).mp found
      simp only [found, Except.ok.injEq, Prod.mk.injEq, ite_none_right_eq_some,
        Option.some.injEq]
      constructor
      · rintro ⟨permitted, rfl⟩
        exact ⟨stored, member, data, ⟨rfl, rfl⟩, permitted, rfl⟩
      · rintro ⟨other, otherMember, signed, ⟨same, rfl⟩, permitted, rfl⟩
        obtain rfl := List.inj_on_of_nodup_map state.distinct member otherMember same
        exact ⟨permitted, rfl⟩

/-- Store changes and extensions are answered by success or failure, never by a
signature. -/
theorem applied_not_signed {state : State prim} {conn : ConnState prim} {change : Option (State prim)} :
    (applied state conn change).1.head? ≠ some Num.signResponse := by
  cases change with
  | none => exact (by decide : failure.head? ≠ some Num.signResponse)
  | some changed => exact (by decide : success.head? ≠ some Num.signResponse)

theorem extend_not_signed (state : State prim) (conn : ConnState prim) (body : Bytes) :
    (extend state conn body).1.head? ≠ some Num.signResponse := by
  unfold extend
  split
  · exact (by decide : success.head? ≠ some Num.signResponse)
  · exact (by decide : failure.head? ≠ some Num.signResponse)

/-- On an unlocked store a sign request gets `sign`'s answer; on a locked one it
fails. -/
theorem handle_sign_request (clock : Clock) (state : State prim) (conn : ConnState prim)
    (body : Bytes) :
    (handle clock state conn (Num.signRequest :: body)).1 =
      if state.lock.isSome then failure
      else ((state.purgeExpired clock.instant).sign clock.now body conn.bindings).getD failure := by
  have sameLock : (state.purgeExpired clock.instant).lock = state.lock := rfl
  rw [handle, dispatch, if_neg (by decide), sameLock]
  by_cases locked : state.lock.isSome
  · rw [if_pos ⟨locked, by decide⟩, if_pos locked]
  · rw [if_neg (fun refusal => locked refusal.1), if_pos rfl, if_neg locked]

/-- What a request can do, once and for all: a property of results holds after a
request if it holds of a refusal and of each operation's own result. -/
theorem handle_elim (clock : Clock) (state purged : State prim) (conn : ConnState prim) (request : Bytes)
    (afterPurge : state.purgeExpired clock.instant = purged)
    (P : Bytes × State prim × ConnState prim → Prop)
    (refusal : P (failure, purged, conn))
    (listing : ∀ body, request = Num.requestIdentities :: body → P (purged.list purged.lock.isSome, purged, conn))
    (signing : ∀ body, request = Num.signRequest :: body →
      P ((purged.sign clock.now body conn.bindings).getD failure, purged, conn))
    (adding : ∀ body constrained,
      request = (if constrained then Num.addIdConstrained else Num.addIdentity) :: body →
      P (applied purged conn (purged.add clock.instant body constrained)))
    (removing : ∀ body, P (applied purged conn (purged.remove body)))
    (clearing : P (applied purged conn (some (purged.retain fun _ => false))))
    (locking : ∀ body, P (applied purged conn (purged.setLock body)))
    (unlocking : ∀ body, P (applied purged conn (purged.unsetLock body)))
    (extending : ∀ body, request = Num.extension :: body → P (extend purged conn body)) :
    P (handle clock state conn request) := by
  subst afterPurge
  cases request with
  | nil => exact refusal
  | cons op body =>
    rw [handle, dispatch]
    by_cases list : op = Num.requestIdentities
    · rw [if_pos list]
      exact listing body (by rw [list])
    rw [if_neg list]
    by_cases refused : (state.purgeExpired clock.instant).lock.isSome ∧ op ≠ Num.unlock
    · rw [if_pos refused]
      exact refusal
    rw [if_neg refused]
    by_cases sign : op = Num.signRequest
    · rw [if_pos sign]
      exact signing body (by rw [sign])
    rw [if_neg sign]
    by_cases add : op = Num.addIdentity
    · rw [if_pos add]
      exact adding body false (by rw [add]; rfl)
    rw [if_neg add]
    by_cases addConstrained : op = Num.addIdConstrained
    · rw [if_pos addConstrained]
      exact adding body true (by rw [addConstrained]; rfl)
    rw [if_neg addConstrained]
    by_cases remove : op = Num.removeIdentity
    · rw [if_pos remove]
      exact removing body
    rw [if_neg remove]
    by_cases clear : op = Num.removeAllIdentities
    · rw [if_pos clear]
      exact clearing
    rw [if_neg clear]
    by_cases lock : op = Num.lock
    · rw [if_pos lock]
      exact locking body
    rw [if_neg lock]
    by_cases unlock : op = Num.unlock
    · rw [if_pos unlock]
      exact unlocking body
    rw [if_neg unlock]
    by_cases extension : op = Num.extension
    · rw [if_pos extension]
      exact extending body (by rw [extension])
    · rw [if_neg extension]
      exact refusal

section

variable (clock : Clock) (state : State prim) (conn : ConnState prim) (request : Bytes)

/-- No other request is answered with a signature. -/
theorem handle_other_request (other : request.head? ≠ some Num.signRequest) :
    (handle clock state conn request).1.head? ≠ some Num.signResponse := by
  refine handle_elim clock state _ conn request rfl (fun result => result.1.head? ≠ some Num.signResponse)
    (by decide : failure.head? ≠ some Num.signResponse) ?_ ?_ (fun _ _ _ => applied_not_signed)
    (fun _ => applied_not_signed)
    applied_not_signed (fun _ => applied_not_signed)
    (fun _ => applied_not_signed) (fun _ _ => extend_not_signed _ _ _)
  · intro body _
    unfold State.list
    split <;> exact fun signed => absurd (Option.some.inj signed) (by decide)
  · rintro body rfl
    exact absurd rfl other

/-- A signature answers exactly a sign request, on an unlocked store, that names a
held and unexpired key whose constraints permit the connection's bindings. -/
theorem handle_signed_iff :
    (handle clock state conn request).1.head? = some Num.signResponse ↔
      state.lock = none ∧ ∃ stored ∈ (state.purgeExpired clock.instant).keys, ∃ data, ∃ flags < 2 ^ 32,
        stored.blob.length < 2 ^ 32 ∧ data.length < 2 ^ 32 ∧
        request = signFrame stored.blob data flags ∧
        destinationsPermit clock.now stored.constraints conn.bindings = true := by
  by_cases sign : request.head? = some Num.signRequest
  · obtain ⟨body, rfl⟩ := List.head?_eq_some_iff.mp sign
    rw [handle_sign_request]
    cases lock : state.lock with
    | some held => simp [failure, Num.failure, Num.signResponse]
    | none =>
      cases signed : (state.purgeExpired clock.instant).sign clock.now body conn.bindings with
      | none =>
        simp only [isSome_none, Bool.false_eq_true, if_false, getD_none, true_and]
        constructor
        · exact fun impossible => absurd impossible (by decide)
        · rintro ⟨stored, member, data, flags, flagsShort, blobShort, dataShort, frame, permitted⟩
          have parsed := (read_sign_ok body stored.blob data).mpr
            ⟨flags, flagsShort, blobShort, dataShort, (List.cons.inj frame).2⟩
          rw [sign_iff.mpr ⟨stored, member, data, parsed, permitted, rfl⟩] at signed
          simp at signed
      | some answer =>
        obtain ⟨stored, member, data, parsed, permitted, rfl⟩ := sign_iff.mp signed
        obtain ⟨flags, flagsShort, blobShort, dataShort, rfl⟩ := (read_sign_ok _ _ _).mp parsed
        simp only [isSome_none, Bool.false_eq_true, if_false, getD_some, true_and]
        constructor
        · exact fun _ => ⟨stored, member, data, flags, flagsShort, blobShort, dataShort, rfl, permitted⟩
        · exact fun _ => rfl
  · constructor
    · exact fun answered => absurd answered (handle_other_request clock state conn request sign)
    · rintro ⟨-, stored, -, data, flags, -, -, -, rfl, -⟩
      exact absurd rfl sign

end

/-- What recording a binding did: the body was a session bind with a verifying
signature, and its binding went on top. -/
theorem session_bind_some (conn bound : ConnState prim) (body : Bytes)
    (accepted : conn.sessionBind body = some bound) :
    ∃ binding signature flag, HostSigned prim binding.hostKey binding.sessionId signature ∧
      binding.isForwarding = (flag != 0) ∧ bound.bindings = conn.bindings ++ [binding] ∧
      body = Writer.string binding.hostKey ++ Writer.string binding.sessionId ++
        Writer.string signature ++ [flag] := by
  unfold ConnState.sessionBind at accepted
  split at accepted
  · simp at accepted
  · rename_i hostBlob sessionId signature isForwarding parsed
    split at accepted
    · rename_i signed
      split at accepted
      · split at accepted
        · simp only [readSessionBind, parse_ok, string_bind_ok, boolean_bind_ok,
            finish_bind_ok, pure_ok, Prod.mk.injEq] at parsed
          obtain ⟨left, host, afterHost, ⟨rfl, -⟩, session, afterSession, ⟨rfl, -⟩, proof, afterProof,
            ⟨rfl, -⟩, flag, afterFlag, rfl, rfl, ⟨rfl, rfl, rfl, rfl⟩, -⟩ := parsed
          cases accepted
          exact ⟨⟨hostBlob, sessionId, flag != 0, signature, signed⟩, signature, flag, signed, rfl, rfl,
            by simp⟩
        · simp at accepted
      · simp at accepted
    · simp at accepted

/-- The payload of a session-bind extension follows its name. -/
theorem session_bind_payload_some (body payload : Bytes)
    (named : sessionBindPayload body = some payload) :
    body = Writer.utf8 extSessionBind ++ payload := by
  unfold sessionBindPayload at named
  split at named
  · rename_i name rest parsed
    obtain ⟨rfl, -⟩ := (utf8_ok _ _ _).mp parsed
    split at named
    · rename_i extension
      rw [extension, Option.some.inj named]
    · simp at named
  · simp at named

/-- A request leaves a connection's bindings as they were, or is a session bind
that adds the binding it proves. -/
def BindsAtMost (request : Bytes) (conn next : ConnState prim) : Prop :=
  next = conn ∨ ∃ binding signature flag,
    request = sessionBindFrame binding.hostKey binding.sessionId signature flag ∧
      HostSigned prim binding.hostKey binding.sessionId signature ∧
      binding.isForwarding = (flag != 0) ∧ next.bindings = conn.bindings ++ [binding]

theorem extend_conn (state : State prim) (conn : ConnState prim) (body : Bytes) :
    BindsAtMost (Num.extension :: body) conn (extend state conn body).2.2 := by
  unfold extend
  cases bound : (sessionBindPayload body).bind conn.sessionBind with
  | none => exact .inl rfl
  | some next =>
    obtain ⟨payload, named, accepted⟩ := bind_eq_some_iff.mp bound
    obtain ⟨binding, signature, flag, signed, forwarding, pushed, rfl⟩ :=
      session_bind_some conn next payload accepted
    refine .inr ⟨binding, signature, flag, ?_, signed, forwarding, pushed⟩
    rw [session_bind_payload_some body _ named, sessionBindFrame]

theorem applied_conn {request : Bytes} {state : State prim} {conn : ConnState prim}
    {change : Option (State prim)} : BindsAtMost request conn (applied state conn change).2.2 := by
  cases change <;> exact .inl rfl

/-- No request changes the bindings in any other way. -/
theorem handle_conn (clock : Clock) (state : State prim) (conn : ConnState prim) (request : Bytes) :
    BindsAtMost request conn (handle clock state conn request).2.2 := by
  refine handle_elim clock state _ conn request rfl
    (fun result => BindsAtMost request conn result.2.2) (.inl rfl) (fun _ _ => .inl rfl) (fun _ _ => .inl rfl)
    (fun _ _ _ => applied_conn) (fun _ => applied_conn) applied_conn
    (fun _ => applied_conn) (fun _ => applied_conn) ?_
  rintro body rfl
  exact extend_conn _ conn body

/-- A certificate blob was read from a wire string. -/
theorem read_identity_short (body left certBlob claimed secret : Bytes) (comment : String)
    (read : readIdentity body = .ok ((some certBlob, claimed, secret, comment), left)) :
    certBlob.length < 2 ^ 32 := by
  simp only [readIdentity, utf8_bind_ok, require_bind_ok] at read
  obtain ⟨name, afterName, -, -, rest⟩ := read
  obtain ⟨cert, afterCert, certRead, fields⟩ := bind_ok.mp rest
  simp only [string_bind_ok, utf8_bind_ok, pure_ok, Prod.mk.injEq] at fields
  obtain ⟨-, -, -, -, -, -, -, -, -, ⟨rfl, -⟩, -⟩ := fields
  unfold readCertBlob at certRead
  split at certRead
  · rw [map_eq_pure_bind, string_bind_ok] at certRead
    obtain ⟨value, afterValue, ⟨-, short⟩, returned⟩ := certRead
    obtain ⟨same, -⟩ := Prod.mk.inj (pure_ok.mp returned)
    exact Option.some.inj same ▸ short
  · simpa using pure_ok.mp certRead

/-- An identity is stored under its public blob or under the certificate given. -/
theorem identity_blob_ok (key : PrivateKey) (certBlob : Option Bytes)
    (identity : { blob // Names prim blob key }) (named : identityBlob key certBlob = .ok identity) :
    identity.1 = certBlob.getD (key.publicKey : PublicKey prim).toBlob := by
  cases certBlob with
  | none => exact (congrArg Subtype.val (Except.ok.inj named)).symm
  | some cert =>
    simp only [identityBlob] at named
    split at named
    · simp at named
    · split at named
      · exact (congrArg Subtype.val (Except.ok.inj named)).symm
      · simp at named

/-- A stored blob fits a wire string: a public blob is short, and a certificate
was read from one. -/
theorem read_add_short (instant : Nat) (constrained : Bool) (body : Bytes) (stored : Stored prim)
    (parsed : (readAdd instant constrained).parse body = .ok stored) :
    stored.blob.length < 2 ^ 32 := by
  obtain ⟨left, read⟩ := parse_ok.mp parsed
  obtain ⟨⟨certBlob, claimed, secret, comment⟩, afterIdentity, identityRead, rest⟩ :=
    bind_ok.mp read
  simp only [lift_bind_ok, require_bind_ok] at rest
  obtain ⟨key, -, -, identity, named, constrainedRead⟩ := rest
  obtain ⟨⟨expires, constraints⟩, afterConstraints, -, finished⟩ := bind_ok.mp constrainedRead
  simp only [finish_bind_ok, pure_ok, Prod.mk.injEq] at finished
  obtain ⟨-, rfl, -⟩ := finished
  have blob := identity_blob_ok key certBlob identity named
  simp only [blob]
  cases certBlob with
  | none =>
    have size : (key.publicKey : PublicKey prim).raw.length = 32 := key.publicKey.size
    have nameSize : (utf8Bytes algo).length = 11 := by decide
    simp [PublicKey.toBlob, Writer.utf8, size, nameSize]
  | some cert => exact read_identity_short _ _ _ _ _ _ identityRead

/-- A request adds an identity: it is an add of either kind, and its body reads as
that identity. -/
def Adds (clock : Clock) (request : Bytes) (stored : Stored prim) : Prop :=
  ∃ constrained body,
    request = (if constrained then Num.addIdConstrained else Num.addIdentity) :: body ∧
      (readAdd clock.instant constrained).parse body = .ok stored

/-- A change of the store keeps its identities or adds the request's. -/
theorem applied_keys (clock : Clock) (request : Bytes) (state : State prim) (conn : ConnState prim)
    (change : Option (State prim))
    (changed : ∀ next ∈ change, ∀ stored ∈ next.keys,
      stored ∈ state.keys ∨ Adds clock request stored) :
    ∀ stored ∈ (applied state conn change).2.1.keys,
      stored ∈ state.keys ∨ Adds clock request stored := by
  cases change with
  | none => exact fun stored member => .inl member
  | some next => exact changed next rfl

theorem add_keys (clock : Clock) (request : Bytes) (state next : State prim) (body : Bytes)
    (constrained : Bool)
    (frame : request = (if constrained then Num.addIdConstrained else Num.addIdentity) :: body)
    (added : state.add clock.instant body constrained = some next) (stored : Stored prim)
    (member : stored ∈ next.keys) : stored ∈ state.keys ∨ Adds clock request stored := by
  unfold State.add at added
  split at added
  · simp at added
  · rename_i fresh parsed
    cases added
    rcases List.mem_append.mp member with kept | last
    · exact .inl (List.mem_filter.mp kept).1
    · obtain rfl : stored = fresh := by simpa using last
      exact .inr ⟨constrained, body, frame, parsed⟩

section

variable (state next : State prim) (body : Bytes)

theorem remove_keys (removed : state.remove body = some next) (stored : Stored prim)
    (member : stored ∈ next.keys) : stored ∈ state.keys := by
  simp only [State.remove] at removed
  split at removed
  · simp at removed
  · split at removed
    · cases removed
      exact (List.mem_filter.mp member).1
    · simp at removed

/-- Locking and unlocking leave the identities alone. -/
theorem set_lock_keys (locked : state.setLock body = some next) : next.keys = state.keys := by
  unfold State.setLock at locked
  repeat' split at locked
  all_goals first | (obtain rfl := Option.some.inj locked; rfl) | simp at locked

theorem unset_lock_keys (unlocked : state.unsetLock body = some next) : next.keys = state.keys := by
  unfold State.unsetLock at unlocked
  repeat' split at unlocked
  all_goals first | (obtain rfl := Option.some.inj unlocked; rfl) | simp at unlocked

end

/-- Whatever a request does, an identity it leaves in the store was there before
or is the one it adds. -/
theorem handle_keys (clock : Clock) (state : State prim) (conn : ConnState prim) (request : Bytes)
    (stored : Stored prim) (member : stored ∈ (handle clock state conn request).2.1.keys) :
    stored ∈ state.keys ∨ Adds clock request stored := by
  have purged (held : Stored prim) (kept : held ∈ (state.purgeExpired clock.instant).keys) :
      held ∈ state.keys := (List.mem_filter.mp kept).1
  refine Or.imp_left (purged stored) (handle_elim clock state _ conn request rfl
    (fun result => stored ∈ result.2.1.keys →
      stored ∈ (state.purgeExpired clock.instant).keys ∨ Adds clock request stored)
    .inl (fun _ _ => .inl) (fun _ _ => .inl) ?_ ?_ ?_ ?_ ?_ ?_ member)
  · exact fun body constrained frame => applied_keys clock request _ _ _
      (fun next added => add_keys clock request _ next _ _ frame added) stored
  · exact fun body => applied_keys clock request _ _ _
      (fun next removed held kept => .inl (remove_keys _ next _ removed held kept)) stored
  · exact fun cleared => by simp [applied, State.retain] at cleared
  · exact fun body => applied_keys clock request _ _ _
      (fun next locked held kept => .inl (set_lock_keys _ next _ locked ▸ kept)) stored
  · exact fun body => applied_keys clock request _ _ _
      (fun next unlocked held kept => .inl (unset_lock_keys _ next _ unlocked ▸ kept)) stored
  · intro body _ extended
    unfold extend at extended
    split at extended <;> exact .inl extended

end Requests

end Shh.Agent
