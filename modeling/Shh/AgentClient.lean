import Shh.Restrictions
import Shh.Locking
import Shh.PathPins

/-!
# The agent's frames and its client

Requests and answers travel as frames: a length of 32 bits and a message of at
least one byte and at most `maxFrame`. A client writes a request, the agent's loop
reads it and writes the answer, the client reads that. Whoever is sent a frame out
of range gives the connection up.

What a client adds comes back: the encoder's request is read as the identity that
was meant, and the listing is read as the identities that are held. Only the size
stands in the way. An add is refused for its own size alone, while the listing
names everything that was ever added.
-/

namespace Shh.Agent

open List Wire Reader Writer Computations Runs Sample

variable {prim : Primitives}

/-- The cap on one message. -/
def maxFrame : Nat := 256 * 1024

/-- What the writer of a frame asserts of the message. -/
def Framed (body : Bytes) : Prop := body ≠ [] ∧ body.length ≤ maxFrame

instance (body : Bytes) : Decidable (Framed body) :=
  inferInstanceAs (Decidable (body ≠ [] ∧ body.length ≤ maxFrame))

/-- The length is narrowed to 32 bits. The assertion is checked in debug builds only. -/
def writeFrame (body : Bytes) : Bytes := Writer.u32 body.length ++ body

/-- One message of a stream, with the bytes after it; nothing at a clean end. The
argument is all that arrives before the end. -/
def readFrame (stream : Bytes) : Except Error (Option (Bytes × Bytes)) :=
  if stream = [] then .ok none
  else
    match Reader.u32 stream with
    | .error _ => .error (.protocol "agent stream closed mid-frame")
    | .ok (len, rest) =>
      if len = 0 ∨ maxFrame < len then .error (.protocol s!"agent frame length {len} out of range")
      else
        match Reader.take len rest with
        | .error _ => .error (.io "early eof")
        | .ok (body, left) => .ok (some (body, left))

/-- One round of a connection's loop: the next frame is answered. The loop ends with
the stream, or by an error when the framing is violated. -/
def System.serve (system : System prim) (conn : Nat) (clock : Clock) (stream : Bytes) :
    Except Error (Option (System prim × Bytes × Bytes)) :=
  match readFrame stream with
  | .error reason => .error reason
  | .ok none => .ok none
  | .ok (some (frame, rest)) =>
    .ok (some (system.step ⟨conn, clock, frame⟩, writeFrame (system.answer ⟨conn, clock, frame⟩), rest))

namespace Client

/-- A request and its answer over a connection. When the agent's loop has ended, the
client reads a clean end. -/
def roundtrip (system : System prim) (conn : Nat) (clock : Clock) (request : Bytes) :
    Except Error Bytes × System prim :=
  match system.serve conn clock (writeFrame request) with
  | .ok (some (next, written, _)) =>
    (match readFrame written with
      | .error reason => .error reason
      | .ok none => .error (.agent "agent closed the connection")
      | .ok (some (response, _)) => .ok response, next)
  | _ => (.error (.agent "agent closed the connection"), system)

/-- The answer to a request of which only success is of interest. -/
def expectSuccess (what : String) (response : Bytes) : Except Error Unit :=
  Reader.parse (do
    let kind ← Reader.byte
    if kind = Num.success then return ()
    else if kind = Num.failure then throw (.agent s!"agent refused to {what}")
    else throw (.protocol s!"unexpected agent message {kind}")) response

/-- As many identities as announced. -/
def readPairs : Nat → Reader (List (Bytes × String))
  | 0 => pure []
  | count + 1 => do
    let blob ← Reader.string
    let comment ← Reader.utf8
    let rest ← readPairs count
    return (blob, comment) :: rest

/-- The answer to a listing request. -/
def readIdentities : Reader (List (Bytes × String)) := do
  let kind ← Reader.byte
  if kind = Num.identitiesAnswer then
    let count ← Reader.u32
    let pairs ← readPairs count
    Reader.finish
    return pairs
  else if kind = Num.failure then throw (.agent "agent refused to list identities")
  else throw (.protocol s!"unexpected agent message {kind}")

/-- The answer to a sign request. -/
def readSigned : Reader Bytes := do
  let kind ← Reader.byte
  if kind = Num.signResponse then
    let signature ← Reader.string
    Reader.finish
    return signature
  else if kind = Num.failure then throw (.agent "agent refused to sign")
  else throw (.protocol s!"unexpected agent message {kind}")

/-- All identities that the agent names. -/
def identities (system : System prim) (conn : Nat) (clock : Clock) : Except Error (List (Bytes × String)) :=
  (roundtrip system conn clock [Num.requestIdentities]).1.bind (Reader.parse readIdentities)

/-- A signature by the identity that a blob names. The writer panics on a string of
four gigabytes. -/
def sign (system : System prim) (conn : Nat) (clock : Clock) (blob data : Bytes) : Except Error Bytes :=
  if 2 ^ 32 ≤ blob.length ∨ 2 ^ 32 ≤ data.length then .error (.io "wire string exceeds u32 length")
  else (roundtrip system conn clock (signFrame blob data 0)).1.bind (Reader.parse readSigned)

end Client

/-- The key's part of an add request: the algorithm, for a certificate identity the
certificate, the public key, seed and public key together, and the comment. -/
def encodeAdd (prim : Primitives) (key : PrivateKey) (cert : Option Bytes) (comment : String) : Bytes :=
  (match cert with
    | some certBlob => Writer.utf8 certAlgo ++ Writer.string certBlob
    | none => Writer.utf8 algo) ++
  Writer.string (key.publicKey : PublicKey prim).raw ++
  Writer.string (key.seed ++ (key.publicKey : PublicKey prim).raw) ++ Writer.utf8 comment

def encodeLifetime : Option Nat → Bytes
  | some secs => Num.constrainLifetime :: Writer.u32 secs
  | none => []

def encodeRestriction : Option Bytes → Bytes
  | some payload => Num.constrainExtension :: (Writer.utf8 extRestrictDestination ++ Writer.string payload)
  | none => []

/-- The request that adds a key with its constraints. -/
def addFrame (prim : Primitives) (key : PrivateKey) (cert : Option Bytes) (comment : String) (lifetime : Option Nat)
    (destinations : Option Bytes) : Bytes :=
  (if lifetime.isSome || destinations.isSome then Num.addIdConstrained else Num.addIdentity) ::
    (encodeAdd prim key cert comment ++ (encodeLifetime lifetime ++ encodeRestriction destinations))

/-- Add a key with optional constraints. -/
def Client.addConstrained (system : System prim) (conn : Nat) (clock : Clock) (key : PrivateKey) (cert : Option Bytes)
    (comment : String) (lifetime : Option Nat) (destinations : Option Bytes) : Except Error Unit × System prim :=
  let (reply, next) := roundtrip system conn clock (addFrame prim key cert comment lifetime destinations)
  (reply.bind (expectSuccess "add the key"), next)

section Frames

/-- A frame is read exactly from a message within range and whatever follows it. -/
theorem read_frame_ok (stream body rest : Bytes) :
    readFrame stream = .ok (some (body, rest)) ↔ Framed body ∧ stream = writeFrame body ++ rest := by
  constructor
  · intro read
    unfold readFrame at read
    split at read
    · cases read
    · split at read
      · cases read
      · rename_i len afterLen announced
        split at read
        · cases read
        · rename_i inRange
          split at read
          · cases read
          · rename_i taken left took
            cases Option.some.inj (Except.ok.inj read)
            obtain ⟨rfl, rfl⟩ := (take_ok _ _ _ _).mp took
            obtain ⟨rfl, -⟩ := (u32_ok _ _ _).mp announced
            refine ⟨⟨?_, by omega⟩, by rw [writeFrame, append_assoc]⟩
            rintro rfl
            exact inRange (.inl rfl)
  · rintro ⟨⟨some_, short⟩, rfl⟩
    have positive := length_pos_iff.mpr some_
    have announced : Reader.u32 (writeFrame body ++ rest) = .ok (body.length, body ++ rest) :=
      (u32_ok _ _ _).mpr ⟨by rw [writeFrame, append_assoc], by unfold maxFrame at short; omega⟩
    have unended : writeFrame body ++ rest ≠ [] := by simp [writeFrame, some_]
    rw [readFrame, if_neg unended, announced]
    simp only [if_neg (show ¬(body.length = 0 ∨ maxFrame < body.length) by omega)]
    rw [(take_ok _ _ body rest).mpr ⟨rfl, rfl⟩]

theorem read_written {body} (framed : Framed body) (rest : Bytes) :
    readFrame (writeFrame body ++ rest) = .ok (some (body, rest)) := (read_frame_ok _ _ _).mpr ⟨framed, rfl⟩

/-- A round of the loop takes up exactly a frame within range, as a request of its
connection. -/
theorem serve_ok (system next : System prim) (conn : Nat) (clock : Clock) (stream written rest : Bytes) :
    system.serve conn clock stream = .ok (some (next, written, rest)) ↔ ∃ frame, Framed frame ∧
      stream = writeFrame frame ++ rest ∧ next = system.step ⟨conn, clock, frame⟩ ∧
        written = writeFrame (system.answer ⟨conn, clock, frame⟩) := by
  unfold System.serve
  constructor
  · intro served
    split at served
    · cases served
    · cases served
    · rename_i frame left read
      obtain ⟨rfl, rest⟩ := Prod.mk.inj (Option.some.inj (Except.ok.inj served))
      cases rest
      obtain ⟨framed, rfl⟩ := (read_frame_ok _ _ _).mp read
      exact ⟨frame, framed, rfl, rfl, rfl⟩
  · rintro ⟨frame, framed, rfl, rfl, rfl⟩
    rw [read_written framed]

/-- A request within range reaches the agent, and an answer within range the client. -/
theorem roundtrip_framed (system : System prim) (conn : Nat) (clock : Clock) {request : Bytes} (framed : Framed request)
    (answered : Framed (system.answer ⟨conn, clock, request⟩)) :
    Client.roundtrip system conn clock request =
      (.ok (system.answer ⟨conn, clock, request⟩), system.step ⟨conn, clock, request⟩) := by
  have served := (serve_ok system _ conn clock (writeFrame request) _ []).mpr
    ⟨request, framed, (append_nil _).symm, rfl, rfl⟩
  have read := read_written answered []
  rw [append_nil] at read
  unfold Client.roundtrip
  rw [served]
  simp only [read]

/-- What a client got back is the beginning of the agent's answer to the beginning of
its request, and all of them when they are within range. -/
theorem roundtrip_ok {system : System prim} {conn clock request response}
    (replied : (Client.roundtrip system conn clock request).1 = .ok response) :
    ∃ frame, Framed frame ∧ frame <+: request ∧ response <+: system.answer ⟨conn, clock, frame⟩ ∧ Framed response := by
  unfold Client.roundtrip at replied
  split at replied
  · rename_i next written rest served
    obtain ⟨frame, framed, sent, -, rfl⟩ := (serve_ok _ _ _ _ _ _ _).mp served
    have started : frame <+: request := by
      have pieces := sent
      simp only [writeFrame, append_assoc] at pieces
      obtain ⟨-, same⟩ := append_inj pieces (by simp)
      exact ⟨rest, same.symm⟩
    refine ⟨frame, framed, started, ?_⟩
    dsimp only at replied
    split at replied
    · cases replied
    · cases replied
    · rename_i read left readBack
      cases replied
      obtain ⟨within, written⟩ := (read_frame_ok _ _ _).mp readBack
      simp only [writeFrame, append_assoc] at written
      obtain ⟨-, same⟩ := append_inj written (by simp)
      exact ⟨⟨left, same.symm⟩, within⟩
  · cases replied

end Frames

section Listings

/-- The bytes that a listing of these identities takes. -/
def listedSize (identities : List (Stored prim)) : Nat :=
  5 + (identities.map fun stored => 8 + stored.blob.length + (utf8Bytes stored.comment).length).sum

theorem listing_length (identities : List (Stored prim)) : (listing identities).length = listedSize identities := by
  have entries : (identities.flatMap fun stored => Writer.string stored.blob ++ Writer.utf8 stored.comment).length =
      (identities.map fun stored => 8 + stored.blob.length + (utf8Bytes stored.comment).length).sum := by
    rw [length_flatMap]
    congr 2
    funext stored
    simp only [length_append, Writer.utf8, string_length]
    omega
  simp only [listing, length_append, entries, u32_length, listedSize, Writer.byte, length_singleton]

/-- A listing request is answered with the identities that are held and unexpired, or
with none by a locked store. -/
theorem handle_list_request (clock : Clock) (state : State prim) (conn : ConnState prim) (body : Bytes) :
    handle clock state conn (Num.requestIdentities :: body) =
      (listing (if state.lock.isSome then [] else state.keys.filter fun stored => stored.liveAt clock.instant),
        state.purgeExpired clock.instant, conn) := by
  rw [handle, dispatch, if_pos rfl, list_listing]
  rfl

/-- Every other answer is short. -/
theorem handle_other_framed (clock : Clock) (state : State prim) (conn : ConnState prim) (request : Bytes)
    (other : request.head? ≠ some Num.requestIdentities) : Framed (handle clock state conn request).1 := by
  have failed : Framed failure := by decide
  have succeeded : Framed success := by decide
  have changes (change : Option (State prim)) (purged : State prim) : Framed (applied purged conn change).1 := by
    cases change with
    | none => exact failed
    | some changed => exact succeeded
  refine handle_elim clock state _ conn request rfl (fun result => Framed result.1) failed ?_ ?_
    (fun _ _ _ => changes _ _) (fun _ => changes _ _) (changes _ _) (fun _ => changes _ _) (fun _ => changes _ _) ?_
  · rintro body rfl
    exact absurd rfl other
  · intro body _
    cases signed : (state.purgeExpired clock.instant).sign clock.now body conn.bindings with
    | none => exact failed
    | some answer =>
      obtain ⟨stored, -, data, -, -, rfl⟩ := sign_iff.mp signed
      have name : (utf8Bytes algo).length = 11 := by decide
      refine ⟨by simp [Writer.byte], ?_⟩
      simp only [Option.getD_some, length_append, string_length, Writer.byte, length_singleton,
        PrivateKey.sign, Writer.utf8, name, prim.sign_size]
      decide
  · intro body _
    unfold extend
    split
    · exact succeeded
    · exact failed

/-- An answer passes the writer's assertion and is what the reader of its frame gets. -/
def Deliverable (answer : Bytes) : Prop :=
  Framed answer ∧ ∀ rest, readFrame (writeFrame answer ++ rest) = .ok (some (answer, rest))

theorem deliverable_iff (answer : Bytes) : Deliverable answer ↔ Framed answer :=
  ⟨And.left, fun framed => ⟨framed, read_written framed⟩⟩

/-- After any requests on any connections, the answer to the next one fits a frame
exactly when it is no listing, or the store is locked, or the identities that are held
and unexpired take no more than a frame to list. -/
theorem answer_deliverable_iff (past : List Event) (event : Event) :
    Deliverable ((System.after prim past).answer event) ↔
      (event.frame.head? = some Num.requestIdentities → (System.after prim past).store.lock = none →
        listedSize ((System.after prim past).store.keys.filter fun stored => stored.liveAt event.clock.instant) ≤
          maxFrame) := by
  rw [deliverable_iff]
  by_cases list : event.frame.head? = some Num.requestIdentities
  · obtain ⟨body, frame⟩ := List.head?_eq_some_iff.mp list
    have answer : (System.after prim past).answer event = listing (if (System.after prim past).store.lock.isSome then []
        else (System.after prim past).store.keys.filter fun stored => stored.liveAt event.clock.instant) := by
      rw [System.answer, frame, handle_list_request]
    rw [answer, Framed, listing_length]
    cases lock : (System.after prim past).store.lock with
    | some pass =>
      simp only [Option.isSome_some, if_true, reduceCtorEq, false_implies, implies_true, iff_true]
      exact ⟨by simp [listing, Writer.byte], (by decide : 5 ≤ maxFrame)⟩
    | none => simp [listing, Writer.byte, list]
  · simp only [list, false_implies, iff_true]
    exact handle_other_framed _ _ _ _ list

end Listings

/-- The destinations that a client pins a key to: along a path, or any of a list. -/
inductive Pin where
  | path (hops : List Destination)
  | anyOf (dests : List Destination)
deriving DecidableEq, Repr

namespace Pin

/-- The payload that the client builds. -/
def payload : Pin → Bytes
  | .path hops => encodePath hops
  | .anyOf dests => encodeDestinations dests

/-- The permitted steps. -/
def edges : Pin → List (Destination × Destination)
  | .path hops => edgesFrom origin hops
  | .anyOf dests => dests.map fun dest => (origin, dest)

def constraints (pin : Pin) : List DestConstraint := pin.edges.map edgeConstraint

/-- The payload is read as the permitted steps. -/
theorem payload_parsed (pin : Pin) (short : pin.payload.length < 2 ^ 32) :
    parseDestConstraints pin.payload = .ok pin.constraints := by
  have steps : pin.payload = pin.edges.flatMap fun edge => Writer.string (edgeBody edge) := by
    cases pin with
    | path hops => exact encode_path_edges hops
    | anyOf dests => exact encode_destinations_edges dests
  rw [steps] at short ⊢
  refine parse_edges _ fun edge member => ?_
  have within := encoded_length_le (fun edge => Writer.string (edgeBody edge)) member
  rw [string_length] at within
  omega

end Pin

section Adding

/-- The instant at which a key with this lifetime is forgotten. -/
def expiry (clock : Clock) (lifetime : Option Nat) : Option Nat :=
  lifetime.map fun secs => clock.instant + secs * nanosPerSec

/-- Constraints come back: the expiry and the permitted steps. -/
theorem read_constraints_encoded (clock : Clock) (lifetime : Option Nat) (pin : Option Pin)
    (timed : ∀ secs ∈ lifetime, 1 ≤ secs ∧ secs < 2 ^ 32) (short : ∀ pinned ∈ pin, pinned.payload.length < 2 ^ 32) :
    Reader.drain (readKeyConstraint clock.instant) (none, [])
      (encodeLifetime lifetime ++ encodeRestriction (pin.map Pin.payload)) =
        .ok ((expiry clock lifetime, pin.elim [] Pin.constraints), []) := by
  have consumes := read_key_constraint_consumes clock.instant
  have restriction (expires : Option Nat) :
      Reader.drain (readKeyConstraint clock.instant) (expires, []) (encodeRestriction (pin.map Pin.payload)) =
        .ok ((expires, pin.elim [] Pin.constraints), []) := by
    cases pin with
    | none => rfl
    | some pinned =>
      have read : readKeyConstraint clock.instant (expires, []) (encodeRestriction (some pinned.payload)) =
          .ok ((expires, pinned.constraints), []) := by
        rw [readKeyConstraint, encodeRestriction, bind_of_ok ((byte_ok _ _ _).mpr rfl), if_neg (by decide)]
        simp only [require_bind_ok, utf8_bind_ok, string_bind_ok, lift_bind_ok, true_and,
          pure_ok]
        exact ⟨_, _, ⟨rfl, by decide⟩, rfl, _, [], ⟨(append_nil _).symm, short pinned rfl⟩, _,
          pinned.payload_parsed (short pinned rfl), rfl⟩
      rw [Option.map_some, drain_step _ consumes, if_neg (by simp [encodeRestriction]), bind_of_ok read,
        drain_nil]
      rfl
  cases lifetime with
  | none => exact restriction none
  | some secs =>
    obtain ⟨positive, small⟩ := timed secs rfl
    have read : readKeyConstraint clock.instant (none, [])
        (encodeLifetime (some secs) ++ encodeRestriction (pin.map Pin.payload)) =
          .ok ((expiry clock (some secs), []), encodeRestriction (pin.map Pin.payload)) := by
      rw [readKeyConstraint, encodeLifetime, cons_append, bind_of_ok ((byte_ok _ _ _).mpr rfl), if_pos rfl]
      simp only [u32_bind_ok, require_bind_ok, pure_ok]
      exact ⟨secs, _, ⟨rfl, small⟩, by omega, rfl⟩
    rw [drain_step _ consumes, if_neg (by simp [encodeLifetime]), bind_of_ok read, restriction]

/-- A certificate is one for the key. -/
def Certifies (prim : Primitives) (certBlob : Bytes) (key : PrivateKey) : Prop :=
  ∃ cert : Certificate prim, Certificate.parseAndVerify certBlob = .ok cert ∧ cert.key = key.publicKey

/-- The blob that an added key is named by. -/
def addedBlob (prim : Primitives) (key : PrivateKey) (cert : Option Bytes) : Bytes :=
  cert.getD (key.publicKey : PublicKey prim).toBlob

theorem added_named (certifies : ∀ certBlob ∈ cert, Certifies prim certBlob key) :
    Names prim (addedBlob prim key cert) key := by
  cases cert with
  | none => exact .inl rfl
  | some certBlob => exact .inr (certifies certBlob rfl)

theorem identity_blob_added (certifies : ∀ certBlob ∈ cert, Certifies prim certBlob key) :
    identityBlob key cert = .ok ⟨addedBlob prim key cert, added_named certifies⟩ := by
  cases cert with
  | none => rfl
  | some certBlob =>
    obtain ⟨parsed, verified, same⟩ := certifies certBlob rfl
    simp only [identityBlob]
    split
    · rename_i refused
      cases verified.symm.trans refused
    · rename_i other accepted
      cases verified.symm.trans accepted
      rw [dif_pos same]
      rfl

/-- The key's part of an add request comes back, for both layouts. -/
theorem read_identity_encoded (key : PrivateKey) (cert : Option Bytes) (comment : String) (left : Bytes)
    (certShort : ∀ certBlob ∈ cert, certBlob.length < 2 ^ 32) (commentShort : (utf8Bytes comment).length < 2 ^ 32) :
    readIdentity (encodeAdd prim key cert comment ++ left) =
      .ok ((cert, (key.publicKey : PublicKey prim).raw, key.seed ++ (key.publicKey : PublicKey prim).raw, comment),
        left) := by
  have rawSize : (key.publicKey : PublicKey prim).raw.length = 32 := key.publicKey.size
  have secretSize : (key.seed ++ (key.publicKey : PublicKey prim).raw).length = 64 := by
    rw [length_append, key.size, rawSize]
  simp only [readIdentity, utf8_bind_ok, require_bind_ok]
  cases cert with
  | none =>
    refine ⟨algo, _, ⟨by simp only [encodeAdd, append_assoc]; rfl, by decide⟩, .inl rfl, ?_⟩
    rw [readCertBlob, if_neg (by decide), pure_bind]
    simp only [string_bind_ok, utf8_bind_ok, pure_ok]
    exact ⟨_, _, ⟨rfl, by omega⟩, _, _, ⟨rfl, by omega⟩, _, _, ⟨rfl, commentShort⟩, rfl⟩
  | some certBlob =>
    refine ⟨certAlgo, _, ⟨by simp only [encodeAdd, append_assoc]; rfl, by decide⟩, .inr rfl, ?_⟩
    rw [readCertBlob, if_pos rfl, map_eq_pure_bind, bind_assoc]
    simp only [pure_bind, string_bind_ok, utf8_bind_ok, pure_ok]
    exact ⟨_, _, ⟨rfl, certShort certBlob rfl⟩, _, _, ⟨rfl, by omega⟩, _, _, ⟨rfl, by omega⟩, _, _,
      ⟨rfl, commentShort⟩, rfl⟩

variable {clock : Clock} {key : PrivateKey} {cert : Option Bytes} {comment : String} {lifetime : Option Nat}
  {pin : Option Pin}

/-- The identity that an add is meant to store. -/
def addedIdentity (clock : Clock) {key : PrivateKey} {cert : Option Bytes} (comment : String) (lifetime : Option Nat)
    (pin : Option Pin) (certifies : ∀ certBlob ∈ cert, Certifies prim certBlob key) : Stored prim :=
  ⟨addedBlob prim key cert, key, comment, expiry clock lifetime, pin.elim [] Pin.constraints, added_named certifies⟩

/-- The body of the client's add request is read as the identity that was meant. -/
theorem read_add_encoded (certifies : ∀ certBlob ∈ cert, Certifies prim certBlob key)
    (timed : ∀ secs ∈ lifetime, 1 ≤ secs ∧ secs < 2 ^ 32)
    (fits : (addFrame prim key cert comment lifetime (pin.map Pin.payload)).length ≤ maxFrame) :
    (readAdd clock.instant (lifetime.isSome || (pin.map Pin.payload).isSome)).parse
      (encodeAdd prim key cert comment ++ (encodeLifetime lifetime ++ encodeRestriction (pin.map Pin.payload))) =
        .ok (addedIdentity clock comment lifetime pin certifies) := by
  have rawSize : (key.publicKey : PublicKey prim).raw.length = 32 := key.publicKey.size
  simp only [addFrame, maxFrame, encodeAdd, length_cons, length_append, Writer.utf8, string_length] at fits
  have certShort : ∀ certBlob ∈ cert, certBlob.length < 2 ^ 32 := by
    rintro certBlob rfl
    simp only [length_append, string_length] at fits
    omega
  have pinShort : ∀ pinned ∈ pin, pinned.payload.length < 2 ^ 32 := by
    rintro pinned rfl
    simp only [Option.map_some, encodeRestriction, length_cons, length_append, string_length] at fits
    omega
  have constraints := read_constraints_encoded clock lifetime pin timed pinShort
  have read : readKeyConstraints clock.instant (lifetime.isSome || (pin.map Pin.payload).isSome)
      (encodeLifetime lifetime ++ encodeRestriction (pin.map Pin.payload)) =
        .ok ((expiry clock lifetime, pin.elim [] Pin.constraints), []) := by
    unfold readKeyConstraints
    split
    · exact constraints
    · rename_i unconstrained
      cases lifetime with
      | some secs => exact absurd rfl unconstrained
      | none =>
        cases pin with
        | some pinned => exact absurd rfl unconstrained
        | none => rfl
  have seed : seedKey (key.seed ++ (key.publicKey : PublicKey prim).raw) = .ok key := by
    have front : (key.seed ++ (key.publicKey : PublicKey prim).raw).take 32 = key.seed := take_left' key.size
    unfold seedKey
    rw [dif_pos (by rw [front, key.size])]
    simp only [front]
  refine parse_ok.mpr ⟨[], ?_⟩
  rw [readAdd, bind_of_ok (read_identity_encoded key cert comment _ certShort (by omega))]
  simp only [lift_bind_ok, require_bind_ok]
  refine ⟨key, seed, ⟨rfl, drop_left' key.size⟩, _, identity_blob_added certifies, ?_⟩
  rw [bind_of_ok read]
  rfl

/-- An unlocked store answers the client's add with success and holds the identity that
was meant in place of the one of its blob, behind the others. -/
theorem handle_added (state : State prim) (unlocked : state.lock = none) (conn : ConnState prim)
    (certifies : ∀ certBlob ∈ cert, Certifies prim certBlob key) (timed : ∀ secs ∈ lifetime, 1 ≤ secs ∧ secs < 2 ^ 32)
    (fits : (addFrame prim key cert comment lifetime (pin.map Pin.payload)).length ≤ maxFrame) :
    handle clock state conn (addFrame prim key cert comment lifetime (pin.map Pin.payload)) =
      (success, (state.purgeExpired clock.instant).insert
      (addedIdentity clock comment lifetime pin certifies), conn) := by
  have read := @read_add_encoded prim clock key cert comment lifetime pin certifies timed fits
  have sameLock : (state.purgeExpired clock.instant).lock = none := unlocked
  have added : (state.purgeExpired clock.instant).add clock.instant
      (encodeAdd prim key cert comment ++ (encodeLifetime lifetime ++ encodeRestriction (pin.map Pin.payload)))
      (lifetime.isSome || (pin.map Pin.payload).isSome) =
        some ((state.purgeExpired clock.instant).insert (addedIdentity clock comment lifetime pin certifies)) := by
    unfold State.add
    rw [read]
  cases constrained : (lifetime.isSome || (pin.map Pin.payload).isSome) with
  | false =>
    rw [constrained] at added
    rw [addFrame, constrained, if_neg Bool.false_ne_true, handle, dispatch, if_neg (by decide), sameLock,
      if_neg (fun locked => Bool.false_ne_true locked.1), if_neg (by decide), if_pos rfl, added]
    rfl
  | true =>
    rw [constrained] at added
    rw [addFrame, constrained, if_pos rfl, handle, dispatch, if_neg (by decide), sameLock,
      if_neg (fun locked => Bool.false_ne_true locked.1), if_neg (by decide), if_neg (by decide), if_pos rfl, added]
    rfl

end Adding

section Asking

/-- Identities are read exactly from their encodings, one after another. -/
theorem read_pairs_ok (count : Nat) (body left : Bytes) (pairs : List (Bytes × String)) :
    Client.readPairs count body = .ok (pairs, left) ↔ pairs.length = count ∧
      body = (pairs.flatMap fun pair => Writer.string pair.1 ++ Writer.utf8 pair.2) ++ left ∧
        ∀ pair ∈ pairs, pair.1.length < 2 ^ 32 ∧ (utf8Bytes pair.2).length < 2 ^ 32 := by
  induction count generalizing body left pairs with
  | zero =>
    rw [Client.readPairs, pure_ok, Prod.mk.injEq, length_eq_zero_iff]
    constructor
    · rintro ⟨rfl, rfl⟩
      exact ⟨rfl, rfl, by simp⟩
    · rintro ⟨rfl, rfl, -⟩
      exact ⟨rfl, rfl⟩
  | succ count ih =>
    simp only [Client.readPairs, string_bind_ok, utf8_bind_ok]
    simp only [bind_ok, ih, pure_ok, Prod.mk.injEq]
    constructor
    · rintro ⟨blob, _, ⟨rfl, blobShort⟩, comment, _, ⟨rfl, commentShort⟩, rest, _, ⟨rfl, rfl, short⟩, rfl, rfl⟩
      refine ⟨rfl, by simp, ?_⟩
      intro pair member
      rcases mem_cons.mp member with rfl | later
      · exact ⟨blobShort, commentShort⟩
      · exact short pair later
    · rintro ⟨length, rfl, short⟩
      cases pairs with
      | nil => simp at length
      | cons pair rest =>
        obtain ⟨blobShort, commentShort⟩ := short pair mem_cons_self
        exact ⟨pair.1, _, ⟨by simp only [flatMap_cons, append_assoc], blobShort⟩, pair.2, _,
          ⟨rfl, commentShort⟩, rest, left,
          ⟨Nat.succ.inj length, rfl, fun other member => short other (mem_cons_of_mem pair member)⟩, rfl, rfl⟩

/-- A listing is read exactly as the identities it lists. -/
theorem read_identities_ok (body : Bytes) (pairs : List (Bytes × String)) :
    Reader.parse Client.readIdentities body = .ok pairs ↔
      body = Num.identitiesAnswer :: (Writer.u32 pairs.length ++
        pairs.flatMap fun pair => Writer.string pair.1 ++ Writer.utf8 pair.2) ∧ pairs.length < 2 ^ 32 ∧
        ∀ pair ∈ pairs, pair.1.length < 2 ^ 32 ∧ (utf8Bytes pair.2).length < 2 ^ 32 := by
  simp only [parse_ok, Client.readIdentities, byte_bind_ok]
  constructor
  · rintro ⟨left, kind, rest, rfl, ran⟩
    split at ran
    · rename_i answer
      simp only [u32_bind_ok] at ran
      simp only [bind_ok, read_pairs_ok, finish_ok, pure_ok, Prod.mk.injEq] at ran
      obtain ⟨_, _, ⟨rfl, small⟩, _, _, ⟨rfl, rfl, short⟩, _, _, ⟨rfl, -⟩, rfl, -⟩ := ran
      exact ⟨by rw [answer, append_nil], small, short⟩
    · split at ran <;> simp [throw_ok] at ran
  · rintro ⟨rfl, small, short⟩
    refine ⟨[], _, _, rfl, ?_⟩
    rw [if_pos rfl, bind_of_ok ((u32_ok _ _ _).mpr ⟨rfl, small⟩),
      bind_of_ok ((read_pairs_ok _ _ [] _).mpr ⟨rfl, (append_nil _).symm, short⟩)]
    rfl

/-- The identities of an unlocked store reach a client exactly when listing them takes
no more than a frame. -/
theorem identities_iff (system : System prim) (unlocked : system.store.lock = none) (conn : Nat) (clock : Clock) :
    Client.identities system conn clock =
        .ok ((system.store.keys.filter fun stored => stored.liveAt clock.instant).map fun stored =>
          (stored.blob, stored.comment)) ↔
      listedSize (system.store.keys.filter fun stored => stored.liveAt clock.instant) ≤ maxFrame := by
  generalize live : (system.store.keys.filter fun stored => stored.liveAt clock.instant) = identities
  have answer : system.answer ⟨conn, clock, [Num.requestIdentities]⟩ = listing identities := by
    rw [System.answer, handle_list_request, unlocked, ← live]
    rfl
  have spelled : listing identities = Num.identitiesAnswer :: (Writer.u32 (identities.map fun stored =>
      (stored.blob, stored.comment)).length ++ (identities.map fun stored => (stored.blob, stored.comment)).flatMap
        fun pair => Writer.string pair.1 ++ Writer.utf8 pair.2) := by
    rw [length_map, flatMap_map]
    rfl
  constructor
  · intro read
    obtain ⟨response, replied, parsed⟩ := except_bind_ok.mp read
    obtain ⟨-, -, -, -, framed⟩ := roundtrip_ok replied
    obtain ⟨same, -⟩ := (read_identities_ok _ _).mp parsed
    rw [← spelled] at same
    rw [← listing_length, ← same]
    exact framed.2
  · intro small
    have framed : Framed (listing identities) := ⟨by rw [spelled]; exact cons_ne_nil _ _, by rwa [listing_length]⟩
    have replied := roundtrip_framed system conn clock (by decide : Framed [Num.requestIdentities]) (answer ▸ framed)
    rw [answer] at replied
    refine except_bind_ok.mpr ⟨_, by rw [replied], (read_identities_ok _ _).mpr ⟨spelled, ?_, ?_⟩⟩
    all_goals
      have size := framed.2
      rw [spelled, length_cons, length_append] at size
      unfold maxFrame at size
    · have each : (identities.map fun stored => (stored.blob, stored.comment)).length ≤
          ((identities.map fun stored => (stored.blob, stored.comment)).flatMap fun pair =>
            Writer.string pair.1 ++ Writer.utf8 pair.2).length := by
        rw [length_flatMap]
        refine le_trans (by simp) (card_nsmul_le_sum _ 1 ?_)
        intro size member
        obtain ⟨pair, -, rfl⟩ := mem_map.mp member
        simp
        omega
      omega
    · intro pair member
      have within := encoded_length_le (fun pair : Bytes × String => Writer.string pair.1 ++ Writer.utf8 pair.2) member
      simp only [length_append, Writer.utf8, string_length] at within
      simp only [Writer.utf8] at size
      omega

/-- A signature is read exactly from its answer. -/
theorem read_signed_ok (body signature : Bytes) :
    Reader.parse Client.readSigned body = .ok signature ↔
      body = Num.signResponse :: Writer.string signature ∧ signature.length < 2 ^ 32 := by
  simp only [parse_ok, Client.readSigned, byte_bind_ok]
  constructor
  · rintro ⟨left, kind, rest, rfl, ran⟩
    split at ran
    · rename_i answer
      simp only [string_bind_ok, finish_bind_ok, pure_ok, Prod.mk.injEq] at ran
      obtain ⟨_, _, ⟨rfl, small⟩, rfl, rfl, -⟩ := ran
      exact ⟨by rw [answer, append_nil], small⟩
    · split at ran <;> simp [throw_ok] at ran
  · rintro ⟨rfl, small⟩
    refine ⟨[], _, _, rfl, ?_⟩
    rw [if_pos rfl, bind_of_ok ((string_ok _ [] _).mpr ⟨(append_nil _).symm, small⟩)]
    rfl

/-- A sign request that begins another one is all of it. -/
theorem sign_frame_whole {blob data other otherData : Bytes} {flags otherFlags} (blobShort : blob.length < 2 ^ 32)
    (dataShort : data.length < 2 ^ 32) (otherShort : other.length < 2 ^ 32) (otherDataShort : otherData.length < 2 ^ 32)
    (begins : signFrame other otherData otherFlags <+: signFrame blob data flags) :
    (signFrame other otherData otherFlags).length = (signFrame blob data flags).length := by
  obtain ⟨rest, same⟩ := begins
  simp only [signFrame, cons_append, append_assoc, List.cons.injEq, true_and] at same
  have sameBlob := (string_ok _ _ _).mpr ⟨same.symm, otherShort⟩
  rw [(string_ok _ _ blob).mpr ⟨rfl, blobShort⟩] at sameBlob
  obtain ⟨rfl, afterBlob⟩ := Prod.mk.inj (Except.ok.inj sameBlob)
  have sameData := (string_ok _ _ _).mpr ⟨afterBlob, otherDataShort⟩
  rw [(string_ok _ _ data).mpr ⟨rfl, dataShort⟩] at sameData
  obtain ⟨rfl, -⟩ := Prod.mk.inj (Except.ok.inj sameData)
  simp [signFrame]

/-- A client gets a signature only over a request that fits a frame. -/
theorem signed_fits {system : System prim} {conn : Nat} {clock : Clock} {blob data signature : Bytes}
    (signed : Client.sign system conn clock blob data = .ok signature) : (signFrame blob data 0).length ≤ maxFrame := by
  unfold Client.sign at signed
  split at signed
  · cases signed
  · rename_i short
    obtain ⟨response, replied, parsed⟩ := except_bind_ok.mp signed
    obtain ⟨frame, framed, begins, answered, -⟩ := roundtrip_ok replied
    obtain ⟨rfl, -⟩ := (read_signed_ok _ _).mp parsed
    -- The agent read a beginning of the request. It signed, so that was a sign request.
    have head : (system.answer ⟨conn, clock, frame⟩).head? = some Num.signResponse := by
      obtain ⟨rest, same⟩ := answered
      rw [← same]
      rfl
    obtain ⟨-, stored, -, other, flags, -, otherShort, otherDataShort, rfl, -⟩ := (handle_signed_iff _ _ _ _).mp head
    rw [← sign_frame_whole (by omega) (by omega) otherShort otherDataShort begins]
    exact framed.2

/-- A client gets the signature of an unconstrained identity that is held and unexpired
over any data whose request fits a frame. -/
theorem signs (system : System prim) (unlocked : system.store.lock = none) (conn : Nat) (clock : Clock)
    {stored : Stored prim} (held : stored ∈ system.store.keys) (live : stored.liveAt clock.instant = true)
    (unconstrained : stored.constraints = []) (data : Bytes) (fits : (signFrame stored.blob data 0).length ≤ maxFrame) :
    Client.sign system conn clock stored.blob data = .ok (stored.key.sign prim data) := by
  have sizes := fits
  simp only [signFrame, maxFrame, length_cons, length_append, string_length, u32_length] at sizes
  have signature : (stored.key.sign prim data).length = 83 := by
    have name : (utf8Bytes algo).length = 11 := by decide
    simp only [PrivateKey.sign, Writer.utf8, length_append, string_length, name, prim.sign_size]
  have parsed : readSign.parse (Writer.string stored.blob ++ Writer.string data ++
    Writer.u32 0) = .ok (stored.blob, data) :=
    (read_sign_ok _ _ _).mpr ⟨0, by decide, by omega, by omega, rfl⟩
  have permitted : destinationsPermit clock.now stored.constraints (system.conns conn).bindings = true := by
    rw [unconstrained]
    rfl
  have made : (system.store.purgeExpired clock.instant).sign clock.now
      (Writer.string stored.blob ++ Writer.string data ++ Writer.u32 0) (system.conns conn).bindings =
        some (Writer.byte Num.signResponse ++ Writer.string (stored.key.sign prim data)) :=
    sign_iff.mpr ⟨stored, mem_filter.mpr ⟨held, live⟩, data, parsed, permitted, rfl⟩
  have answer : system.answer ⟨conn, clock, signFrame stored.blob data 0⟩ =
      Num.signResponse :: Writer.string (stored.key.sign prim data) := by
    rw [System.answer, signFrame, handle_sign_request, unlocked, made]
    rfl
  have framed : Framed (Num.signResponse :: Writer.string (stored.key.sign prim data)) := by
    refine ⟨cons_ne_nil _ _, ?_⟩
    rw [length_cons, string_length, signature]
    decide
  have replied := roundtrip_framed system conn clock (⟨cons_ne_nil _ _, fits⟩ : Framed (signFrame stored.blob data 0))
    (answer ▸ framed)
  unfold Client.sign
  rw [if_neg (by omega), replied, answer]
  exact (read_signed_ok _ _).mpr ⟨rfl, by omega⟩

end Asking

section RoundTrip

/-- What is promised of an add, of the listing after it and of a signature with the new
key: the agent accepts the add, holds the identity that was meant behind the others,
whose order and fields it keeps; the listing is read as the identities that are held;
and without constraints on its use the key signs, verifiably. Whatever has expired is no
longer held. -/
structure RoundTrips (system : System prim) (conn : Nat) (clock : Clock) (key : PrivateKey) (cert : Option Bytes)
    (comment : String) (lifetime : Option Nat) (pin : Option Pin) (reader : Nat) (later : Clock)
    (data : Bytes) : Prop where
  accepted : (Client.addConstrained system conn clock key cert comment lifetime (pin.map Pin.payload)).1 = .ok ()
  held : ∃ stored, stored.blob = addedBlob prim key cert ∧ stored.key = key ∧ stored.comment = comment ∧
    stored.expires = expiry clock lifetime ∧ stored.constraints = pin.elim [] Pin.constraints ∧
    (Client.addConstrained system conn clock key cert comment lifetime (pin.map Pin.payload)).2.store.keys =
      (system.store.keys.filter
      fun other => other.liveAt clock.instant && other.blob != addedBlob prim key cert) ++ [stored]
  listed : Client.identities (Client.addConstrained system conn clock key cert comment lifetime (pin.map Pin.payload)).2
    reader later = .ok (((Client.addConstrained system conn clock key cert comment lifetime
      (pin.map Pin.payload)).2.store.keys.filter fun stored => stored.liveAt later.instant).map fun stored =>
        (stored.blob, stored.comment))
  signed : pin.elim [] Pin.constraints = [] → (∀ expires ∈ expiry clock lifetime, later.instant < expires) →
    ∃ signature, Client.sign (Client.addConstrained system conn clock key cert comment lifetime (pin.map Pin.payload)).2
        reader later (addedBlob prim key cert) data = .ok signature ∧
      (key.publicKey : PublicKey prim).verify data signature = .ok ()

variable {clock : Clock} {key : PrivateKey} {cert : Option Bytes} {comment : String} {lifetime : Option Nat}
  {pin : Option Pin}

section

variable (system : System prim)
  (unlocked : system.store.lock = none)
  (conn : Nat)
  (certifies : ∀ certBlob ∈ cert, Certifies prim certBlob key)

include unlocked conn certifies

/-- After the client's add the store holds the identity that was meant behind the
others. -/
theorem step_added (timed : ∀ secs ∈ lifetime, 1 ≤ secs ∧ secs < 2 ^ 32)
    (fits : (addFrame prim key cert comment lifetime (pin.map Pin.payload)).length ≤ maxFrame) :
    let event : Event := ⟨conn, clock, addFrame prim key cert comment lifetime (pin.map Pin.payload)⟩
    system.answer event = success ∧ (system.step event).store.lock = none ∧
      (system.step event).store.keys = (system.store.keys.filter fun other =>
        other.liveAt clock.instant && other.blob != addedBlob prim key cert) ++
          [addedIdentity clock comment lifetime pin certifies] := by
  have handled := @handle_added prim clock key cert comment lifetime pin system.store unlocked (system.conns conn)
    certifies timed fits
  refine ⟨by rw [System.answer, handled], by rw [System.step, handled]; exact unlocked, ?_⟩
  rw [System.step, handled, ← filter_filter]
  refine congrArg (· ++ _) ?_
  rw [filter_comm]
  rfl

/-- The client's add succeeds. -/
theorem add_constrained_added (timed : ∀ secs ∈ lifetime, 1 ≤ secs ∧ secs < 2 ^ 32)
    (fits : (addFrame prim key cert comment lifetime (pin.map Pin.payload)).length ≤ maxFrame) :
    ∃ next, Client.addConstrained system conn clock key cert comment lifetime (pin.map Pin.payload) = (.ok (), next) ∧
      next.store.lock = none ∧ next.store.keys = (system.store.keys.filter fun other =>
        other.liveAt clock.instant && other.blob != addedBlob prim key cert) ++
          [addedIdentity clock comment lifetime pin certifies] := by
  obtain ⟨answer, stillUnlocked, keys⟩ := @step_added prim clock key cert comment lifetime pin system unlocked conn
    certifies timed fits
  have replied := roundtrip_framed system conn clock
    (⟨cons_ne_nil _ _, fits⟩ : Framed (addFrame prim key cert comment lifetime (pin.map Pin.payload)))
    (answer ▸ (by decide : Framed success))
  refine ⟨_, ?_, stillUnlocked, keys⟩
  unfold Client.addConstrained
  rw [replied, answer]
  rfl

end

/-- Adding, listing and signing round-trip for every key, certificate for it, comment,
lifetime and pin whose request fits a frame, at any unlocked agent, exactly when the
identities that are then held take no more than a frame to list and the sign request
fits one too. -/
theorem round_trips_iff (system : System prim) (unlocked : system.store.lock = none) (conn : Nat) (clock : Clock)
    (key : PrivateKey) (cert : Option Bytes) (certifies : ∀ certBlob ∈ cert, Certifies prim certBlob key)
    (comment : String) (lifetime : Option Nat) (timed : ∀ secs ∈ lifetime, 1 ≤ secs ∧ secs < 2 ^ 32) (pin : Option Pin)
    (fits : (addFrame prim key cert comment lifetime (pin.map Pin.payload)).length ≤ maxFrame)
    (reader : Nat) (later : Clock) (data : Bytes) :
    RoundTrips system conn clock key cert comment lifetime pin reader later data ↔
      listedSize (system.store.keys.filter fun other => other.liveAt clock.instant &&
          other.blob != addedBlob prim key cert && other.liveAt later.instant) +
        (if ∀ expires ∈ expiry clock lifetime, later.instant < expires then
          8 + (addedBlob prim key cert).length + (utf8Bytes comment).length else 0) ≤ maxFrame ∧
      (pin.elim [] Pin.constraints = [] → (∀ expires ∈ expiry clock lifetime, later.instant < expires) →
        (signFrame (addedBlob prim key cert) data 0).length ≤ maxFrame) := by
  obtain ⟨next, added, nextUnlocked, keys⟩ :=
    @add_constrained_added prim clock key cert comment lifetime pin system unlocked conn certifies timed fits
  have live : (addedIdentity clock comment lifetime pin certifies).liveAt later.instant = true ↔
      ∀ expires ∈ expiry clock lifetime, later.instant < expires := by
    simp only [Stored.liveAt, addedIdentity]
    cases expiry clock lifetime <;> simp
  have size : listedSize (next.store.keys.filter fun stored => stored.liveAt later.instant) =
      listedSize (system.store.keys.filter fun other => other.liveAt clock.instant &&
          other.blob != addedBlob prim key cert && other.liveAt later.instant) +
        (if ∀ expires ∈ expiry clock lifetime, later.instant < expires then
          8 + (addedBlob prim key cert).length + (utf8Bytes comment).length else 0) := by
    have others : (system.store.keys.filter fun other => other.liveAt clock.instant &&
          other.blob != addedBlob prim key cert && other.liveAt later.instant) =
        (system.store.keys.filter fun other => other.liveAt clock.instant &&
          other.blob != addedBlob prim key cert).filter fun other => other.liveAt later.instant := by
      rw [filter_filter]
      exact filter_congr fun other _ => Bool.and_comm _ _
    rw [keys, filter_append, others]
    by_cases unexpired : ∀ expires ∈ expiry clock lifetime, later.instant < expires
    · rw [if_pos unexpired, filter_cons, if_pos (live.mpr unexpired)]
      simp only [listedSize, map_append, sum_append, filter_nil, map_cons, map_nil,
        sum_cons, sum_nil, addedIdentity]
      omega
    · rw [if_neg unexpired, filter_cons, if_neg (fun still => unexpired (live.mp still)), filter_nil,
        append_nil, Nat.add_zero]
  have listable := identities_iff next nextUnlocked reader later
  rw [size] at listable
  constructor
  · rintro ⟨-, -, listed, signed⟩
    rw [added] at listed signed
    refine ⟨listable.mp listed, fun unconstrained unexpired => ?_⟩
    obtain ⟨signature, made, -⟩ := signed unconstrained unexpired
    exact signed_fits made
  · rintro ⟨small, signable⟩
    refine ⟨by rw [added], ⟨_, rfl, rfl, rfl, rfl, rfl, by rw [added]; exact keys⟩, ?_, ?_⟩
    · rw [added]
      exact listable.mpr small
    · intro unconstrained unexpired
      have held : addedIdentity clock comment lifetime pin certifies ∈ next.store.keys := by
        rw [keys]
        exact mem_append_right _ mem_cons_self
      rw [added]
      exact ⟨_, signs next nextUnlocked reader later held (live.mpr unexpired) unconstrained data
        (signable unconstrained unexpired), key.verify_sign data⟩

end RoundTrip

namespace Sample

/-- A comment of a good hundred kilobytes. -/
def longComment : String := String.ofList (List.replicate 140000 'a')

theorem ascii_size (count : Nat) : (utf8Bytes (String.ofList (List.replicate count 'a'))).length = count := by
  have size : (List.replicate count 'a').utf8Encode.size = count := by
    induction count with
    | zero => rfl
    | succ count ih =>
      rw [replicate_succ, utf8Encode_cons, ByteArray.size_append, ih]
      exact Nat.add_comm 1 count
  simpa [utf8Bytes] using size

theorem long_comment_size : (utf8Bytes longComment).length = 140000 := ascii_size 140000

section Crowd

variable (comment : String)

/-- The request that adds a plain key under a comment. -/
def plainAdd (key : PrivateKey) : Bytes := Agent.addFrame .transparent key none comment none none

/-- One key under the comment. -/
def single : List Event := [⟨0, clock, plainAdd comment signer⟩]

/-- Two keys under it. -/
def crowded : List Event := single comment ++ [⟨0, clock, plainAdd comment gateway⟩]

def listRequest : Event := ⟨1, clock, [Num.requestIdentities]⟩

theorem plain_add_size (key : PrivateKey) : (plainAdd comment key).length = 124 + (utf8Bytes comment).length := by
  have raw : (key.publicKey : PublicKey .transparent).raw.length = 32 := key.publicKey.size
  have name : (utf8Bytes algo).length = 11 := by decide
  simp only [plainAdd, Agent.addFrame, encodeAdd, encodeLifetime, encodeRestriction, length_cons, length_append,
    Writer.utf8, string_length, length_nil, name, raw, key.size]
  omega

/-- Nobody certified the key. -/
theorem uncertified (key : PrivateKey) : ∀ certBlob ∈ (none : Option Bytes), Certifies .transparent certBlob key :=
  by simp

theorem untimed : ∀ secs ∈ (none : Option Nat), 1 ≤ secs ∧ secs < 2 ^ 32 := by simp

/-- A plain key as the store holds it. -/
def plain (key : PrivateKey) : Stored .transparent :=
  @addedIdentity .transparent clock key none comment none none (uncertified key)

theorem other_kept : ([plain comment signer].filter fun other => other.liveAt clock.instant &&
    other.blob != addedBlob .transparent gateway none) = [plain comment signer] := by
  have other : (addedBlob .transparent signer none != addedBlob .transparent gateway none) = true := by decide +kernel
  rw [filter_cons, if_pos (by simpa [plain, addedIdentity, Stored.liveAt, expiry] using other)]
  rfl

variable {comment} (long : (utf8Bytes comment).length = 140000)
include long

theorem plain_add_fits (key : PrivateKey) : (plainAdd comment key).length ≤ maxFrame := by
  rw [plain_add_size, long]
  decide

theorem single_keys : (System.after .transparent (single comment)).store.lock = none ∧
    (System.after .transparent (single comment)).store.keys = [plain comment signer] :=
  (@step_added .transparent clock signer none comment none none System.initial rfl 0 (uncertified signer) untimed
    (plain_add_fits long signer)).2

theorem crowded_keys : (System.after .transparent (crowded comment)).store.lock = none ∧
    (System.after .transparent (crowded comment)).store.keys = [plain comment signer, plain comment gateway] := by
  obtain ⟨unlocked, keys⟩ := single_keys long
  have added := (@step_added .transparent clock gateway none comment none none
    (System.after .transparent (single comment))
    unlocked 0 (uncertified gateway) untimed (plain_add_fits long gateway)).2
  rw [keys, other_kept comment] at added
  exact added

/-- Two keys under a long comment are more than a frame holds, and neither expires. -/
theorem crowded_size (instant : Nat) :
    maxFrame < listedSize ([plain comment signer,
    plain comment gateway].filter fun stored => stored.liveAt instant) := by
  have live (key : PrivateKey) : (plain comment key).liveAt instant = true := rfl
  have size (key : PrivateKey) : (utf8Bytes (plain comment key).comment).length = 140000 := long
  simp only [filter_cons, live, if_true, filter_nil, listedSize, map_cons, map_nil, sum_cons,
    sum_nil, size, maxFrame]
  omega

end Crowd

end Sample

/-- Two keys are added, each by a request within range. The listing of them is not. -/
theorem crowded_listing_undeliverable :
    (∀ event ∈ Sample.crowded Sample.longComment ++ [Sample.listRequest], Framed event.frame) ∧
      ¬ Deliverable ((System.after .transparent (Sample.crowded Sample.longComment)).answer Sample.listRequest) := by
  have long := long_comment_size
  generalize longComment = comment at long ⊢
  constructor
  · intro event member
    have adds (key : PrivateKey) : Framed (plainAdd comment key) :=
      ⟨cons_ne_nil _ _, plain_add_fits long key⟩
    simp only [crowded, single, listRequest, mem_append, mem_cons, not_mem_nil,
      or_false] at member
    rcases member with (rfl | rfl) | rfl
    · exact adds _
    · exact adds _
    · exact (by decide : Framed [Num.requestIdentities])
  · obtain ⟨unlocked, keys⟩ := crowded_keys long
    rintro ⟨⟨-, short⟩, -⟩
    rw [System.answer, listRequest, handle_list_request, unlocked, listing_length, keys] at short
    exact Nat.not_le.mpr (crowded_size long _) short

/-- A plain key under a short comment comes back from an empty store. -/
theorem plain_key_round_trips :
    RoundTrips (System.initial : System .transparent) 0 Sample.clock Sample.signer none "work" none none 1 Sample.clock [1, 2] :=
  (round_trips_iff System.initial rfl 0 clock signer none (uncertified _) "work" none untimed
    none (by decide +kernel) 1 clock [1, 2]).mpr (by decide +kernel)

/-- The second key under the long comment is accepted, and the client that added it can
no longer read the listing. -/
theorem long_comment_unlisted :
    (Sample.plainAdd Sample.longComment Sample.gateway).length ≤ maxFrame ∧
      (System.after .transparent (Sample.single Sample.longComment)).store.lock = none ∧
      ¬ RoundTrips (System.after .transparent (Sample.single Sample.longComment)) 0 Sample.clock Sample.gateway none
        Sample.longComment none none 0 Sample.clock [] := by
  have long := long_comment_size
  generalize longComment = comment at long ⊢
  obtain ⟨unlocked, keys⟩ := single_keys long
  refine ⟨plain_add_fits long _, unlocked, ?_⟩
  rintro ⟨-, -, listed, -⟩
  obtain ⟨next, added, nextUnlocked, held⟩ := @add_constrained_added .transparent clock gateway none comment
    none none _ unlocked 0 (uncertified _) untimed (plain_add_fits long _)
  rw [keys, other_kept comment] at held
  rw [added] at listed
  have small := (identities_iff next nextUnlocked 0 clock).mp listed
  rw [held] at small
  exact Nat.not_le.mpr (crowded_size long _) small

end Shh.Agent
