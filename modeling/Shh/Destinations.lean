import Shh.Certificates

/-!
# Session bindings and destination constraints

A connection to the agent accumulates bindings: hosts that proved, by a
signature over the session identifier, that the connection was carried to them.
A key may be stored with constraints, each a permitted step from one host to the
next. The chain of bindings is judged against them hop by hop.

The binding list of a connection keeps its shape as part of its type: session
identifiers are distinct and every binding but the last forwarded the agent.
Each binding carries the host signature it was recorded for.

What a hop lists is also stated without the search the code makes (`Hop.Lists`),
and so is a permitted chain (`Permitted`); the code is shown to decide both.
-/

namespace Shh.Agent

open Wire Computations

variable {prim : Primitives}

def extSessionBind : String := "session-bind@openssh.com"
def extRestrictDestination : String := "restrict-destination-v00@openssh.com"

/-- One end of a constraint: host keys, or CA keys when flagged. No keys means
the local origin. -/
structure Hop where
  keys : List (Bytes × Bool)
deriving DecidableEq, Repr

/-- A permitted step between two hops. -/
structure DestConstraint where
  fromHop : Hop
  toHop : Hop
deriving DecidableEq, Repr

/-- The Ed25519 key behind a host-key blob: the key itself, or the certified
one. -/
def underlyingKey (blob : Bytes) : Option (PublicKey prim) :=
  match Reader.utf8.parse blob with
  | .error _ => none
  | .ok name =>
    if name = certAlgo then
      (Certificate.parseAndVerify blob : Except Error (Certificate prim)).toOption.map (·.key)
    else (PublicKey.fromBlob blob).toOption

/-- The host behind a blob signed this session identifier. -/
def HostSigned (prim : Primitives) (hostBlob sessionId signature : Bytes) : Prop :=
  ∃ key : PublicKey prim, underlyingKey hostBlob = some key ∧ key.verify sessionId signature = .ok ()

instance (hostBlob sessionId signature : Bytes) :
    Decidable (HostSigned prim hostBlob sessionId signature) :=
  match found : (underlyingKey hostBlob : Option (PublicKey prim)) with
  | none => isFalse fun ⟨_, named, _⟩ => by simp [found] at named
  | some key =>
    if verified : key.verify sessionId signature = .ok () then isTrue ⟨key, found, verified⟩
    else isFalse fun ⟨_, named, signed⟩ => by
      rw [found] at named
      exact verified (Option.some.inj named ▸ signed)

/-- A recorded hop, with the signature that proved it. -/
structure Binding (prim : Primitives) where
  hostKey : Bytes
  sessionId : Bytes
  isForwarding : Bool
  proven : ∃ signature, HostSigned prim hostKey sessionId signature
deriving DecidableEq

/-- The bindings of one connection, oldest first. -/
structure ConnState (prim : Primitives) where
  bindings : List (Binding prim)
  distinct : (bindings.map Binding.sessionId).Nodup
  forwarded : ∀ binding ∈ bindings.dropLast, binding.isForwarding = true

namespace ConnState

/-- A connection starts unbound. -/
def empty : ConnState prim := ⟨[], by simp, by simp⟩

/-- Add a proven hop on top of a chain that does not know its session and whose
last hop, if any, forwarded. -/
def push (conn : ConnState prim) (binding : Binding prim)
    (fresh : ∀ held ∈ conn.bindings, held.sessionId ≠ binding.sessionId)
    (open_ : ∀ last ∈ conn.bindings.getLast?, last.isForwarding = true) : ConnState prim where
  bindings := conn.bindings ++ [binding]
  distinct := by
    rw [List.map_append, List.nodup_append]
    refine ⟨conn.distinct, by simp, ?_⟩
    intro held member added last
    obtain ⟨source, sourceMember, rfl⟩ := List.mem_map.mp member
    obtain rfl : added = binding.sessionId := by simpa using last
    exact fresh source sourceMember
  forwarded := by
    intro held member
    rw [List.dropLast_concat] at member
    rcases List.eq_nil_or_concat' conn.bindings with none | ⟨front, last, split⟩
    · simp [none] at member
    · rw [split] at member
      rcases List.mem_append.mp member with earlier | only
      · exact conn.forwarded held (by rw [split, List.dropLast_concat]; exact earlier)
      · obtain rfl : held = last := by simpa using only
        exact open_ held (by simp [split])

end ConnState

/-- The fields of a session-bind request: host blob, session identifier,
signature and whether the agent is forwarded onward. -/
def readSessionBind : Reader (Bytes × Bytes × Bytes × Bool) := do
  let hostBlob ← Reader.string
  let sessionId ← Reader.string
  let signature ← Reader.string
  let isForwarding ← Reader.boolean
  Reader.finish
  return (hostBlob, sessionId, signature, isForwarding)

/-- Record a binding whose signature verifies, unless its session is already
bound or the chain has ended. -/
def ConnState.sessionBind (conn : ConnState prim) (body : Bytes) : Option (ConnState prim) :=
  match readSessionBind.parse body with
  | .error _ => none
  | .ok (hostBlob, sessionId, signature, isForwarding) =>
    if signed : HostSigned prim hostBlob sessionId signature then
      if fresh : ∀ held ∈ conn.bindings, held.sessionId ≠ sessionId then
        if open_ : ∀ last ∈ conn.bindings.getLast?, last.isForwarding = true then
          some (conn.push ⟨hostBlob, sessionId, isForwarding, signature, signed⟩ fresh open_)
        else none
      else none
    else none

/-- A listed key is the blob's own key; a CA entry admits in-date host
certificates of that CA. -/
def hopListsKey (prim : Primitives) (now : Nat) (hop : Hop) (blob : Bytes) : Bool :=
  let target : Option (PublicKey prim) := underlyingKey blob
  hop.keys.any fun (entry, isCa) =>
    if isCa then
      match (Certificate.parseAndVerify blob : Except Error (Certificate prim)) with
      | .error _ => false
      | .ok cert =>
        if cert.certType = certTypeHost ∧ cert.validAt now = true then
          match (underlyingKey entry : Option (PublicKey prim)) with
          | none => false
          | some ca => ca == cert.caKey
        else false
    else
      match target, (underlyingKey entry : Option (PublicKey prim)) with
      | some left, some right => left == right
      | _, _ => false

/-- Some constraint allows a step from the previous host (none at the origin) to
this one. -/
def stepPermitted (prim : Primitives) (now : Nat) (constraints : List DestConstraint)
    (previous : Option Bytes) (host : Bytes) : Bool :=
  constraints.any fun constraint =>
    (match previous with
      | none => constraint.fromHop.keys.isEmpty
      | some key => hopListsKey prim now constraint.fromHop key) &&
    hopListsKey prim now constraint.toHop host

/-- Every binding of a chain is a permitted step from the one before it. -/
def chainPermitted (now : Nat) (constraints : List DestConstraint) :
    Option Bytes → List (Binding prim) → Bool
  | _, [] => true
  | previous, binding :: rest =>
    stepPermitted prim now constraints previous binding.hostKey &&
      chainPermitted now constraints (some binding.hostKey) rest

def destinationsPermit (now : Nat) (constraints : List DestConstraint)
    (bindings : List (Binding prim)) : Bool :=
  if constraints.isEmpty then true
  else if bindings.isEmpty then false
  else chainPermitted now constraints none bindings

/-- One hop of a constraint: user, host and reserved are read and dropped. -/
def parseHop (bytes : Bytes) : Except Error Hop :=
  Reader.parse (do
    let _user ← Reader.string
    let _host ← Reader.string
    let _reserved ← Reader.string
    let keys ← Reader.drain (fun keys => do
      let blob ← Reader.string
      let isCa ← Reader.boolean
      return keys ++ [(blob, isCa)]) []
    return ⟨keys⟩) bytes

/-- One constraint: two hops and a reserved string, and nothing more. -/
def parseConstraint (bytes : Bytes) : Except Error DestConstraint :=
  Reader.parse (do
    let fromBytes ← Reader.string
    let toBytes ← Reader.string
    let _reserved ← Reader.string
    Reader.finish
    let fromHop ← Reader.lift (parseHop fromBytes)
    let toHop ← Reader.lift (parseHop toBytes)
    return ⟨fromHop, toHop⟩) bytes

def parseDestConstraints (bytes : Bytes) : Except Error (List DestConstraint) :=
  (Reader.drain (fun out => do
    let packed ← Reader.string
    let constraint ← Reader.lift (parseConstraint packed)
    return out ++ [constraint]) []).parse bytes

/-- The client's encoding of a hop: user, host, reserved and key entries. -/
def encodeHop (user host : String) (keys : List (Bytes × Bool)) : Bytes :=
  Writer.utf8 user ++ Writer.utf8 host ++ Writer.string [] ++
    keys.flatMap fun (blob, isCa) => Writer.string blob ++ Writer.byte (if isCa then 1 else 0)

/-- One constraint, wrapped so that the list can be walked without hop sizes. -/
def pushConstraint (list fromHop toHop : Bytes) : Bytes :=
  list ++ Writer.string (Writer.string fromHop ++ Writer.string toHop ++ Writer.string [])

/-- A payload that pins a key to any of the destinations, from the origin. -/
def encodeDestinations (dests : List (String × String × List (Bytes × Bool))) : Bytes :=
  dests.foldl (fun list (user, host, keys) =>
    pushConstraint list (encodeHop "" "" []) (encodeHop user host keys)) []

section Permission

/-- A hop lists a host: by the host's own key, or by a CA that signed the host's
in-date host certificate. -/
def Hop.Lists (prim : Primitives) (now : Nat) (hop : Hop) (blob : Bytes) : Prop :=
  (∃ entry, (entry, false) ∈ hop.keys ∧ ∃ key : PublicKey prim,
    underlyingKey blob = some key ∧ underlyingKey entry = some key) ∨
  (∃ entry, (entry, true) ∈ hop.keys ∧ ∃ cert : Certificate prim,
    Certificate.parseAndVerify blob = .ok cert ∧ cert.certType = certTypeHost ∧
      cert.validAfter ≤ now ∧ now < cert.validBefore ∧ underlyingKey entry = some cert.caKey)

/-- A chain of bindings the constraints allow: it starts by a step from the
origin, and each next hop is a step from the one before it, by one constraint. -/
structure Permitted (now : Nat) (constraints : List DestConstraint)
    (bindings : List (Binding prim)) : Prop where
  origin : ∃ first ∈ bindings.head?, ∃ constraint ∈ constraints,
    constraint.fromHop.keys = [] ∧ constraint.toHop.Lists prim now first.hostKey
  linked : List.IsChain (fun previous next => ∃ constraint ∈ constraints,
    constraint.fromHop.Lists prim now previous.hostKey ∧
      constraint.toHop.Lists prim now next.hostKey) bindings

/-- The code's search decides what a hop lists. -/
theorem hop_lists_key_iff (now : Nat) (hop : Hop) (blob : Bytes) :
    hopListsKey prim now hop blob = true ↔ hop.Lists prim now blob := by
  unfold hopListsKey Hop.Lists
  rw [List.any_eq_true]
  constructor
  · rintro ⟨⟨entry, isCa⟩, member, listed⟩
    cases isCa with
    | true =>
      right
      simp only [if_true] at listed
      split at listed
      · simp at listed
      · rename_i cert parsed
        split at listed
        · rename_i checked
          obtain ⟨hostType, inDate⟩ := checked
          split at listed
          · simp at listed
          · rename_i ca named
            obtain ⟨started, unexpired⟩ := (cert.valid_at_iff now).mp inDate
            exact ⟨entry, member, cert, parsed, hostType, started, unexpired,
              by rw [named, eq_of_beq listed]⟩
        · simp at listed
    | false =>
      left
      simp only [Bool.false_eq_true, if_false] at listed
      split at listed
      · rename_i left right target named
        exact ⟨entry, member, left, target, by rw [named, eq_of_beq listed]⟩
      · simp at listed
  · rintro (⟨entry, member, key, target, named⟩ | ⟨entry, member, cert, parsed, hostType, started,
      unexpired, named⟩)
    · exact ⟨(entry, false), member, by simp [target, named]⟩
    · have inDate := (cert.valid_at_iff now).mpr ⟨started, unexpired⟩
      exact ⟨(entry, true), member, by simp [parsed, hostType, inDate, named]⟩

section

variable (now : Nat) (constraints : List DestConstraint)

/-- A step from the origin is allowed by a constraint with an empty source. -/
theorem origin_step_iff (host : Bytes) :
    stepPermitted prim now constraints none host = true ↔ ∃ constraint ∈ constraints,
      constraint.fromHop.keys = [] ∧ constraint.toHop.Lists prim now host := by
  simp [stepPermitted, hop_lists_key_iff]

/-- A later step is allowed by one constraint that lists both its ends. -/
theorem later_step_iff (previous host : Bytes) :
    stepPermitted prim now constraints (some previous) host = true ↔ ∃ constraint ∈ constraints,
      constraint.fromHop.Lists prim now previous ∧ constraint.toHop.Lists prim now host := by
  simp [stepPermitted, hop_lists_key_iff]

/-- Past the first binding the walk checks exactly that neighbours are linked. -/
theorem chain_permitted_iff (first : Binding prim) (rest : List (Binding prim)) :
    chainPermitted now constraints (some first.hostKey) rest = true ↔
      List.IsChain (fun previous next => ∃ constraint ∈ constraints,
        constraint.fromHop.Lists prim now previous.hostKey ∧
          constraint.toHop.Lists prim now next.hostKey) (first :: rest) := by
  induction rest generalizing first with
  | nil => simp [chainPermitted]
  | cons second rest ih =>
    rw [chainPermitted, Bool.and_eq_true, later_step_iff, ih second,
      List.isChain_cons_cons]

/-- A constrained key is permitted exactly along an allowed chain. -/
theorem destinations_permit_iff (bindings : List (Binding prim))
    (constrained : constraints ≠ []) :
    destinationsPermit now constraints bindings = true ↔ Permitted now constraints bindings := by
  unfold destinationsPermit
  simp only [List.isEmpty_iff, constrained, if_false]
  cases bindings with
  | nil =>
    constructor
    · simp
    · rintro ⟨⟨first, none, -⟩, -⟩
      simp at none
  | cons first rest =>
    simp only [reduceCtorEq, if_false, chainPermitted, Bool.and_eq_true, origin_step_iff,
      chain_permitted_iff]
    constructor
    · rintro ⟨origin, linked⟩
      exact ⟨⟨first, rfl, origin⟩, linked⟩
    · rintro ⟨⟨head, same, origin⟩, linked⟩
      obtain rfl : first = head := by simpa using same
      exact ⟨origin, linked⟩

end

end Permission

end Shh.Agent
