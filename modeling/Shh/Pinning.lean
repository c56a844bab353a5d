import Shh.AgentStore
import Shh.Auth
import Shh.Runs

/-!
# Destination pinning over whole runs of the agent

Any number of connections send requests to one store, in any order. A run is
the list of requests, each with its connection and the clocks it was answered
at. Connections never share bindings.

The chain a pinned key signs for is exact: it is the connection's own, every hop
of it was proven on that connection, and the constraints allow it step by step.
What is signed is another matter. The agent never looks at the data, so a chain
that is permitted at all lets its holder have anything signed.
-/

namespace Shh.Agent

open Wire Computations Runs

variable {prim : Primitives}

/-- One request: the connection it arrived on, the clocks and the frame. -/
structure Event where
  conn : Nat
  clock : Clock
  frame : Bytes
deriving DecidableEq, Repr

/-- The store and the connections to it. -/
structure System (prim : Primitives) where
  store : State prim
  conns : Nat → ConnState prim

namespace System

/-- Nothing is stored and no connection is bound. -/
def initial : System prim := ⟨.empty, fun _ => .empty⟩

/-- The answer to a request. -/
def answer (system : System prim) (event : Event) : Bytes :=
  (handle event.clock system.store (system.conns event.conn) event.frame).1

/-- The system after a request. Only the request's own connection can change. -/
def step (system : System prim) (event : Event) : System prim :=
  let (_, store, conn) := handle event.clock system.store (system.conns event.conn) event.frame
  ⟨store, Function.update system.conns event.conn conn⟩

/-- The system after a list of requests. -/
def after (prim : Primitives) (past : List Event) : System prim := run step initial past

end System

/-- A binding was recorded on a connection by a session bind among these
requests, under a signature that verifies. -/
def RecordedBy (past : List Event) (conn : Nat) (binding : Binding prim) : Prop :=
  ∃ event ∈ past, event.conn = conn ∧ ∃ signature flag,
    event.frame = sessionBindFrame binding.hostKey binding.sessionId signature flag ∧
      binding.isForwarding = (flag != 0) ∧
      HostSigned prim binding.hostKey binding.sessionId signature

theorem RecordedBy.later (past more : List Event) (conn : Nat) (binding : Binding prim)
    (recorded : RecordedBy past conn binding) : RecordedBy (past ++ more) conn binding := by
  obtain ⟨event, member, rest⟩ := recorded
  exact ⟨event, List.mem_append_left more member, rest⟩

/-- One request extends the record: a binding it adds is recorded by it. -/
theorem step_recorded (past : List Event) (system : System prim) (event : Event)
    (recorded : ∀ conn, ∀ binding ∈ (system.conns conn).bindings, RecordedBy past conn binding)
    (conn : Nat) (binding : Binding prim) (member : binding ∈ ((system.step event).conns conn).bindings) :
    RecordedBy (past ++ [event]) conn binding := by
  by_cases own : conn = event.conn
  · subst own
    have conns : (system.step event).conns event.conn =
        (handle event.clock system.store (system.conns event.conn) event.frame).2.2 := by
      simp [System.step]
    rw [conns] at member
    rcases handle_conn event.clock system.store (system.conns event.conn) event.frame with
      same | ⟨added, signature, flag, frame, signed, forwarding, pushed⟩
    · rw [same] at member
      exact (recorded event.conn binding member).later past [event] event.conn binding
    · rw [pushed] at member
      rcases List.mem_append.mp member with earlier | last
      · exact (recorded event.conn binding earlier).later past [event] event.conn binding
      · obtain rfl : binding = added := by simpa using last
        exact ⟨event, by simp, rfl, signature, flag, frame, forwarding, signed⟩
  · have conns : (system.step event).conns conn = system.conns conn := by
      simp [System.step, Function.update_of_ne own]
    rw [conns] at member
    exact (recorded conn binding member).later past [event] conn binding

/-- In every run, the bindings of a connection were recorded on it. -/
theorem run_recorded (past : List Event) (conn : Nat) (binding : Binding prim)
    (member : binding ∈ ((System.after prim past).conns conn).bindings) : RecordedBy past conn binding := by
  have recorded := run_invariant System.step (System.initial : System prim)
    (fun past system => ∀ conn, ∀ binding ∈ (system.conns conn).bindings, RecordedBy past conn binding)
    (by simp [System.initial, ConnState.empty])
    (fun past system event held conn binding member =>
      step_recorded past system event held conn binding member) past
  exact recorded conn binding member

/-- In every run, stored blobs fit a wire string, so a request can name them. -/
theorem run_short (past : List Event) (stored : Stored prim)
    (member : stored ∈ (System.after prim past).store.keys) : stored.blob.length < 2 ^ 32 := by
  have short := run_invariant System.step (System.initial : System prim)
    (fun _ system => ∀ stored ∈ system.store.keys, stored.blob.length < 2 ^ 32)
    (by simp [System.initial, State.empty])
    (fun past system event held stored member =>
      (handle_keys event.clock system.store _ event.frame stored member).elim (held stored)
        fun ⟨_, _, _, parsed⟩ => read_add_short _ _ _ _ parsed) past
  exact short stored member

/-- A sign request that names a held key for this data. -/
def Asks (event : Event) (stored : Stored prim) (data : Bytes) : Prop :=
  ∃ body, event.frame = Num.signRequest :: body ∧ readSign.parse body = .ok (stored.blob, data)

section

variable (system : System prim) (event : Event) (stored : Stored prim) (data : Bytes)

/-- A signature was made, on an unlocked store, by an unexpired identity under the
blob the request names, whose chain was checked. -/
theorem signed_found (asks : Asks event stored data)
    (signed : (system.answer event).head? = some Num.signResponse) :
    system.store.lock = none ∧ ∃ found ∈ (system.store.purgeExpired event.clock.instant).keys,
      found ∈ system.store.keys ∧ found.blob = stored.blob ∧
        destinationsPermit event.clock.now found.constraints (system.conns event.conn).bindings = true := by
  obtain ⟨body, frame, parsed⟩ := asks
  obtain ⟨unlocked, found, member, other, flags, flagsShort, blobShort, dataShort, request, permitted⟩ :=
    (handle_signed_iff _ _ _ _).mp signed
  have reparsed : readSign.parse body = .ok (found.blob, other) :=
    (read_sign_ok _ _ _).mpr ⟨flags, flagsShort, blobShort, dataShort,
      (List.cons.inj (frame.symm.trans request)).2⟩
  rw [parsed] at reparsed
  obtain ⟨same, -⟩ := Prod.mk.inj (Except.ok.inj reparsed)
  exact ⟨unlocked, found, member, (List.mem_filter.mp member).1, same.symm, permitted⟩

/-- The key a sign request names is the one that was looked up, unexpired, on an
unlocked store, and whose chain was checked. -/
theorem signed_named (held : stored ∈ system.store.keys) (asks : Asks event stored data)
    (signed : (system.answer event).head? = some Num.signResponse) :
    system.store.lock = none ∧ stored ∈ (system.store.purgeExpired event.clock.instant).keys ∧
      destinationsPermit event.clock.now stored.constraints (system.conns event.conn).bindings = true := by
  obtain ⟨unlocked, found, unexpired, member, same, permitted⟩ :=
    signed_found system event stored data asks signed
  obtain rfl := List.inj_on_of_nodup_map system.store.distinct member held same
  exact ⟨unlocked, unexpired, permitted⟩

end

/-- Purging keeps exactly the identities that have not expired. -/
theorem mem_purge_iff (state : State prim) (instant : Nat) (stored : Stored prim) :
    stored ∈ (state.purgeExpired instant).keys ↔
      stored ∈ state.keys ∧ ∀ expiry ∈ stored.expires, instant < expiry := by
  simp only [State.purgeExpired, State.retain, List.mem_filter]
  cases stored.expires with
  | none | some => simp

/-- A pinned key signs only along an exact chain. The connection's bindings are
not empty, each was recorded on this very connection by a session bind whose
signature verifies, their sessions differ, all but the last forwarded the agent,
and the constraints permit the chain from the origin hop by hop. -/
theorem pinned_signature_chain (past : List Event) (event : Event) (stored : Stored prim) (data : Bytes)
    (held : stored ∈ (System.after prim past).store.keys) (constrained : stored.constraints ≠ [])
    (asks : Asks event stored data)
    (signed : ((System.after prim past).answer event).head? = some Num.signResponse) :
    let bindings := ((System.after prim past).conns event.conn).bindings
    bindings ≠ [] ∧ (∀ binding ∈ bindings, RecordedBy past event.conn binding) ∧
      (bindings.map Binding.sessionId).Nodup ∧
      (∀ binding ∈ bindings.dropLast, binding.isForwarding = true) ∧
      Permitted event.clock.now stored.constraints bindings := by
  intro bindings
  have permitted : Permitted event.clock.now stored.constraints bindings :=
    (destinations_permit_iff _ _ _ constrained).mp
      (signed_named (System.after prim past) event stored data held asks signed).2.2
  refine ⟨?_, fun binding member => run_recorded past event.conn binding member,
    ((System.after prim past).conns event.conn).distinct,
    ((System.after prim past).conns event.conn).forwarded, permitted⟩
  intro unbound
  obtain ⟨first, head, -⟩ := permitted.origin
  simp [unbound] at head

namespace Sample

theorem signer_sized : (List.replicate 32 (7 : UInt8)).length = 32 := by decide

/-- The user's key. -/
def signer : PrivateKey := ⟨List.replicate 32 7, signer_sized⟩

/-- The host the key is pinned to. -/
def gateway : PrivateKey := ⟨List.replicate 32 9, by decide⟩

def gatewayBlob : Bytes := (gateway.publicKey : PublicKey .transparent).toBlob

def clock : Clock := ⟨1000, 50⟩

/-- The key as the store holds it, pinned to the gateway. -/
def stored : Stored .transparent :=
  ⟨(signer.publicKey : PublicKey .transparent).toBlob, signer, "work", none,
    [⟨⟨[]⟩, ⟨[(gatewayBlob, false)]⟩⟩], .inl rfl⟩

def publicRaw : Bytes := (signer.publicKey : PublicKey .transparent).raw

def addFrame : Bytes :=
  Writer.byte Num.addIdConstrained ++ Writer.utf8 algo ++ Writer.string publicRaw ++
    Writer.string (signer.seed ++ publicRaw) ++ Writer.utf8 "work" ++
    Writer.byte Num.constrainExtension ++ Writer.utf8 extRestrictDestination ++
    Writer.string (encodeDestinations [("you", "gateway", [(gatewayBlob, false)])])

/-- The session between the user and the gateway, over which the agent is
forwarded. -/
def session : Bytes := [1, 2, 3]

def bindFrame : Bytes :=
  sessionBindFrame gatewayBlob session (gateway.sign .transparent session) 1

/-- The user pins the key and the connection is bound to the gateway. -/
def past : List Event := [⟨0, clock, addFrame⟩, ⟨1, clock, bindFrame⟩]

/-- A session between the gateway and some other host. -/
def elsewhere : Bytes := [4, 5, 6]

/-- What that other host would accept as the user's login. -/
def login : Bytes := Auth.signedSpan elsewhere "you" algo stored.blob

/-- The gateway asks, over the forwarded connection, for that login. -/
def request : Event := ⟨1, clock, signFrame stored.blob login 0⟩

end Sample

/-- The hypotheses are met by a key pinned to one host and bound to it. -/
theorem pinned_signature_chain_sample :
    Permitted 50 Sample.stored.constraints
      ((System.after .transparent Sample.past).conns Sample.request.conn).bindings :=
  (pinned_signature_chain Sample.past Sample.request Sample.stored Sample.login (by decide +kernel)
    (by decide) ⟨_, rfl, by decide +kernel⟩ (by decide +kernel)).2.2.2.2

/-- What the documentation promises of a pinned signature: the data starts with
the session of the connection's last binding, and that binding did not forward
the agent. -/
def SpanBound (system : System prim) (event : Event) : Prop :=
  ∀ stored ∈ system.store.keys, ∀ data, stored.constraints ≠ [] → Asks event stored data →
    (system.answer event).head? = some Num.signResponse →
    ∃ last ∈ (system.conns event.conn).bindings.getLast?, last.isForwarding = false ∧
      ∃ rest, data = Writer.string last.sessionId ++ rest

/-- Some constrained and unexpired key has its chain complete on a connection. -/
def PinnedUsable (system : System prim) (conn : Nat) (clock : Clock) : Prop :=
  ∃ stored ∈ system.store.keys, stored.constraints ≠ [] ∧
    (∀ expiry ∈ stored.expires, clock.instant < expiry) ∧
    Permitted clock.now stored.constraints (system.conns conn).bindings

/-- The request for a signature over nothing, which no session's span is. -/
theorem empty_data_signed (past : List Event) (conn : Nat) (clock : Clock)
    (unlocked : (System.after prim past).store.lock = none) (stored : Stored prim)
    (held : stored ∈ (System.after prim past).store.keys) (constrained : stored.constraints ≠ [])
    (unexpired : ∀ expiry ∈ stored.expires, clock.instant < expiry)
    (permitted : Permitted clock.now stored.constraints ((System.after prim past).conns conn).bindings) :
    Asks ⟨conn, clock, signFrame stored.blob [] 0⟩ stored [] ∧
      ((System.after prim past).answer ⟨conn, clock, signFrame stored.blob [] 0⟩).head? =
        some Num.signResponse := by
  have short := run_short past stored held
  have kept : stored ∈ ((System.after prim past).store.purgeExpired clock.instant).keys :=
    (mem_purge_iff _ _ _).mpr ⟨held, unexpired⟩
  constructor
  · exact ⟨_, rfl, (read_sign_ok _ _ _).mpr ⟨0, by decide, short, by decide, rfl⟩⟩
  · exact (handle_signed_iff _ _ _ _).mpr ⟨unlocked, stored, kept, [], 0, by decide, short, by decide,
      rfl, (destinations_permit_iff _ _ _ constrained).mpr permitted⟩

/-- After any run, on any connection and at any time, the promise holds of every
next request exactly when the store is locked or no pinned key is usable there at
all. The data is never looked at, so once a chain is permitted it confines
nothing. -/
theorem span_bound_iff (past : List Event) (conn : Nat) (clock : Clock) :
    (∀ frame, SpanBound (System.after prim past) ⟨conn, clock, frame⟩) ↔
      (System.after prim past).store.lock ≠ none ∨
        ¬ PinnedUsable (System.after prim past) conn clock := by
  constructor
  · intro promised
    by_contra neither
    obtain ⟨unlocked, stored, held, constrained, unexpired, permitted⟩ : _ = none ∧ PinnedUsable _ _ _ := by
      simpa only [not_or, not_not] using neither
    obtain ⟨asks, signed⟩ :=
      empty_data_signed past conn clock unlocked stored held constrained unexpired permitted
    obtain ⟨last, -, -, rest, span⟩ := promised _ stored held [] constrained asks signed
    exact absurd (congrArg List.length span) (by simp; omega)
  · intro condition frame stored held data constrained asks signed
    exfalso
    obtain ⟨unlocked, kept, permitted⟩ := signed_named _ _ stored data held asks signed
    rcases condition with locked | unusable
    · exact locked unlocked
    · exact unusable ⟨stored, held, constrained, ((mem_purge_iff _ _ _).mp kept).2,
        (destinations_permit_iff _ _ _ constrained).mp permitted⟩

/-- The gateway, to which alone the key is pinned, obtains a signature that logs
the user in at another host. -/
theorem relayed_login_signed :
    Asks Sample.request Sample.stored Sample.login ∧
      ((System.after .transparent Sample.past).answer Sample.request).head? = some Num.signResponse ∧
      ¬ SpanBound (System.after .transparent Sample.past) Sample.request := by
  have asks : Asks Sample.request Sample.stored Sample.login := ⟨_, rfl, by decide +kernel⟩
  have signed : ((System.after .transparent Sample.past).answer Sample.request).head? =
      some Num.signResponse := by decide +kernel
  refine ⟨asks, signed, ?_⟩
  intro promised
  obtain ⟨last, bound, ended, -⟩ :=
    promised Sample.stored (by decide +kernel) Sample.login (by decide) asks signed
  have forwarding : ∀ last ∈ ((System.after .transparent Sample.past).conns
      Sample.request.conn).bindings.getLast?, last.isForwarding = true := by decide +kernel
  cases ended.symm.trans (forwarding last bound)

end Shh.Agent
