import Shh.Pinning

/-!
# Keys added under a destination restriction

An add request may carry any number of restrict-destination extensions. Their
payloads are parsed and the constraints they list are gathered; the extension
itself leaves no other trace. A payload may list nothing, and a key whose
gathered list is empty is an unconstrained key to the sign path.

So what a restriction is worth is decided by one bit of the request: whether some
payload has any content.
-/

namespace Shh.Agent

open List Wire Reader Computations Runs

variable {prim : Primitives}

/-- A constraint as an add request spells it, within the bounds of its field. -/
inductive KeyConstraint where
  | lifetime (secs : Nat) (fits : secs < 2 ^ 32)
  | destinations (payload : Bytes) (fits : payload.length < 2 ^ 32)
deriving DecidableEq

def KeyConstraint.encode : KeyConstraint → Bytes
  | .lifetime secs _ => Num.constrainLifetime :: Writer.u32 secs
  | .destinations payload _ =>
    Num.constrainExtension :: (Writer.utf8 extRestrictDestination ++ Writer.string payload)

/-- Some restriction of the list says something. -/
def SomeContent (items : List KeyConstraint) : Prop :=
  ∃ payload fits, payload ≠ [] ∧ KeyConstraint.destinations payload fits ∈ items

section Reading

/-- A payload parses to no constraints exactly when it is empty. -/
theorem no_constraints_iff (payload : Bytes) (constraints : List DestConstraint)
    (parsed : parseDestConstraints payload = .ok constraints) : constraints = [] ↔ payload = [] := by
  obtain ⟨left, read⟩ := parse_ok.mp parsed
  cases payload with
  | nil =>
    rw [drain_nil] at read
    simpa using (Prod.mk.inj (Except.ok.inj read)).1.symm
  | cons first rest =>
    -- The first round appends a constraint and no later round takes one away.
    simp only [reduceCtorEq, iff_false]
    rw [drain_cons] at read
    obtain ⟨next, between, stepped, rounds⟩ := bind_ok.mp read
    have grows : ∀ out body next left, (do
        let packed ← Reader.string
        let constraint ← Reader.lift (parseConstraint packed)
        return out ++ [constraint] : Reader (List DestConstraint)) body = .ok (next, left) → next ≠ [] := by
      intro out body next left ran
      simp only [string_bind_ok, lift_bind_ok, pure_ok, Prod.mk.injEq] at ran
      obtain ⟨-, -, -, constraint, -, rfl, -⟩ := ran
      simp
    exact while_remaining_keeps _ (· ≠ []) (fun out body next left _ => grows out body next left)
      _ _ _ _ _ (grows _ _ _ _ stepped) rounds

/-- Reading one constraint takes at least its kind, and a lifetime it reads ends after
the instant. -/
theorem read_key_constraint_ok {next} (ran : readKeyConstraint instant seen body = .ok (next, left)) :
    left.length < body.length ∧
      ((∀ expiry ∈ seen.1, instant < expiry) → ∀ expiry ∈ next.1, instant < expiry) := by
  rw [readKeyConstraint, byte_bind_ok] at ran
  obtain ⟨kind, afterKind, rfl, rest⟩ := ran
  split at rest
  · simp only [u32_bind_ok, require_bind_ok, pure_ok, Prod.mk.injEq] at rest
    obtain ⟨secs, afterSecs, ⟨rfl, -⟩, positive, rfl, rfl⟩ := rest
    have longer : 0 < secs * nanosPerSec := Nat.mul_pos (Nat.pos_of_ne_zero positive) (by decide)
    refine ⟨?_, fun _ => by simpa using longer⟩
    rw [length_cons, length_append]
    omega
  · simp only [utf8_bind_ok, string_bind_ok, lift_bind_ok, require_bind_ok,
      pure_ok, Prod.mk.injEq] at rest
    obtain ⟨-, name, afterName, ⟨rfl, -⟩, -, payload, afterPayload, ⟨rfl, -⟩, constraints, -, rfl, rfl⟩ := rest
    refine ⟨?_, id⟩
    simp
    omega

theorem read_key_constraint_consumes (instant : Nat) : Reader.Consumes (readKeyConstraint instant) :=
  fun _ _ _ _ ran => (read_key_constraint_ok ran).1

/-- One spelled constraint is read as itself: a restriction adds what its payload
lists, and a lifetime adds nothing. -/
theorem read_key_constraint_item (instant : Nat) (seen next : Option Nat × List DestConstraint)
    (item : KeyConstraint) (more left : Bytes)
    (ran : readKeyConstraint instant seen (item.encode ++ more) = .ok (next, left)) :
    left = more ∧ (next.2 = [] ↔ seen.2 = [] ∧ ¬ SomeContent [item]) := by
  rw [readKeyConstraint, byte_bind_ok] at ran
  obtain ⟨kind, afterKind, split, rest⟩ := ran
  cases item with
  | lifetime secs fits =>
    rw [KeyConstraint.encode, cons_append] at split
    obtain ⟨rfl, rfl⟩ := List.cons.inj split
    rw [if_pos rfl, bind_of_ok ((u32_ok _ _ _).mpr ⟨rfl, fits⟩)] at rest
    simp only [require_bind_ok, pure_ok, Prod.mk.injEq] at rest
    obtain ⟨-, rfl, rfl⟩ := rest
    simp [SomeContent]
  | destinations payload fits =>
    rw [KeyConstraint.encode, cons_append, append_assoc] at split
    obtain ⟨rfl, rfl⟩ := List.cons.inj split
    rw [if_neg (by decide), require_bind_ok,
      bind_of_ok ((utf8_ok _ _ _).mpr ⟨rfl, by decide⟩), require_bind_ok,
      bind_of_ok ((string_ok _ _ _).mpr ⟨rfl, fits⟩)] at rest
    simp only [lift_bind_ok, pure_ok, Prod.mk.injEq] at rest
    obtain ⟨-, -, constraints, parsed, rfl, rfl⟩ := rest
    have listed := no_constraints_iff payload constraints parsed
    simp only [append_eq_nil_iff, listed, SomeContent, mem_singleton,
      KeyConstraint.destinations.injEq, true_and]
    constructor
    · rintro ⟨none, rfl⟩
      refine ⟨none, ?_⟩
      rintro ⟨_, _, content, same⟩
      exact content same
    · rintro ⟨none, contentless⟩
      exact ⟨none, by_contra fun content => contentless ⟨payload, fits, content, rfl⟩⟩

/-- The gathered constraints are empty exactly when no restriction had content. -/
theorem read_key_constraints_items (instant : Nat) (seen result : Option Nat × List DestConstraint)
    (items : List KeyConstraint) (left : Bytes)
    (ran : Reader.drain (readKeyConstraint instant) seen (items.flatMap KeyConstraint.encode) =
      .ok (result, left)) :
    result.2 = [] ↔ seen.2 = [] ∧ ¬ SomeContent items := by
  induction items generalizing seen with
  | nil =>
    rw [flatMap_nil, drain_nil] at ran
    obtain ⟨rfl, -⟩ := Prod.mk.inj (Except.ok.inj ran)
    simp [SomeContent]
  | cons item items ih =>
    rw [flatMap_cons, drain_step _ (read_key_constraint_consumes instant),
      if_neg (by cases item <;> simp [KeyConstraint.encode])] at ran
    obtain ⟨next, between, stepped, rounds⟩ := bind_ok.mp ran
    obtain ⟨rfl, one⟩ := read_key_constraint_item instant seen next item _ between stepped
    rw [ih next rounds, one, and_assoc]
    refine and_congr_right fun _ => ?_
    rw [← not_or, not_iff_not]
    simp only [SomeContent, mem_cons, not_mem_nil, or_false, and_or_left, exists_or]

/-- An identity read with its constraints is constrained exactly when some
restriction of the request had content. -/
theorem read_add_constrained_iff (instant : Nat) (body : Bytes)
    (fields : Option Bytes × Bytes × Bytes × String) (items : List KeyConstraint) (stored : Stored prim)
    (identity : readIdentity body = .ok (fields, items.flatMap KeyConstraint.encode))
    (parsed : (readAdd instant true).parse body = .ok stored) :
    stored.constraints ≠ [] ↔ SomeContent items := by
  obtain ⟨left, read⟩ := parse_ok.mp parsed
  rw [readAdd, bind_of_ok identity] at read
  simp only [lift_bind_ok, require_bind_ok] at read
  obtain ⟨key, -, -, name, -, rest⟩ := read
  obtain ⟨gathered, between, drained, finished⟩ := bind_ok.mp rest
  simp only [finish_bind_ok, pure_ok, Prod.mk.injEq] at finished
  obtain ⟨-, rfl, -⟩ := finished
  have empty := read_key_constraints_items instant (none, []) gathered items between drained
  rw [Ne, empty]
  simp

/-- A lifetime read at an instant ends after it. -/
theorem read_add_unexpired (instant : Nat) (body : Bytes) (stored : Stored prim)
    (parsed : (readAdd instant true).parse body = .ok stored) :
    ∀ expiry ∈ stored.expires, instant < expiry := by
  obtain ⟨left, read⟩ := parse_ok.mp parsed
  obtain ⟨fields, afterIdentity, -, added⟩ := bind_ok.mp read
  simp only [lift_bind_ok, require_bind_ok] at added
  obtain ⟨key, -, -, name, -, rest⟩ := added
  obtain ⟨gathered, between, drained, finished⟩ := bind_ok.mp rest
  simp only [finish_bind_ok, pure_ok, Prod.mk.injEq] at finished
  obtain ⟨-, rfl, -⟩ := finished
  exact while_remaining_keeps (readKeyConstraint instant) (fun seen => ∀ expiry ∈ seen.1, instant < expiry)
    (fun _ _ _ _ held ran => (read_key_constraint_ok ran).2 held) _ _ _ _ _ (by simp) drained

end Reading

section Restricted

/-- A request adds an identity under a blob, removes the one under it, or removes
them all. -/
def Touches (prim : Primitives) (event : Event) (blob : Bytes) : Prop :=
  (∃ stored : Stored prim, Adds event.clock event.frame stored ∧ stored.blob = blob) ∨
    (∃ body, event.frame = Num.removeIdentity :: body ∧ readOnly.parse body = .ok blob) ∨
    ∃ body, event.frame = Num.removeAllIdentities :: body

/-- What an agent owes a restricted identity: whatever follows, short of touching
it, a connection without bindings obtains no signature by it. -/
def FailsClosed (past : List Event) (stored : Stored prim) : Prop :=
  ∀ later event data, (∀ other ∈ later, ¬ Touches prim other stored.blob) →
    ((System.after prim (past ++ later)).conns event.conn).bindings = [] → Asks event stored data →
    ((System.after prim (past ++ later)).answer event).head? ≠ some Num.signResponse

/-- The identity under a blob is this one, if there is one at all. -/
def OnlyUnder (system : System prim) (stored : Stored prim) : Prop :=
  ∀ held ∈ system.store.keys, held.blob = stored.blob → held = stored

theorem step_only_under (system : System prim) (event : Event) (stored : Stored prim)
    (only : OnlyUnder system stored) (untouched : ¬ Touches prim event stored.blob) :
    OnlyUnder (system.step event) stored := by
  intro held member same
  rcases handle_keys event.clock system.store _ event.frame held member with kept | added
  · exact only held kept same
  · exact absurd (.inl ⟨held, added, same⟩) untouched

theorem run_only_under (past later : List Event) (stored : Stored prim)
    (only : OnlyUnder (System.after prim past) stored)
    (untouched : ∀ event ∈ later, ¬ Touches prim event stored.blob) :
    OnlyUnder (System.after prim (past ++ later)) stored := by
  induction later using List.reverseRecOn with
  | nil => simpa using only
  | append_singleton later event ih =>
    have earlier := ih fun other member => untouched other (by simp [member])
    have stepped := step_only_under _ event stored earlier (untouched event (by simp))
    rwa [← append_assoc, System.after, run_snoc]

/-- An accepted constrained add found the store unlocked and stored what its body
reads as. -/
theorem constrained_add_accepted (clock : Clock) (state : State prim) (conn : ConnState prim)
    (body : Bytes) (stored : Stored prim)
    (parsed : (readAdd clock.instant true).parse body = .ok stored)
    (accepted : (handle clock state conn (Num.addIdConstrained :: body)).1 = success) :
    state.lock = none ∧ (handle clock state conn (Num.addIdConstrained :: body)).2.1 =
      (state.purgeExpired clock.instant).insert stored := by
  have sameLock : (state.purgeExpired clock.instant).lock = state.lock := rfl
  rw [handle, dispatch, if_neg (by decide), sameLock] at accepted ⊢
  by_cases locked : state.lock.isSome
  · rw [if_pos ⟨locked, by decide⟩] at accepted
    exact absurd accepted (by decide : failure ≠ success)
  · rw [if_neg (fun refusal => locked refusal.1), if_neg (by decide), if_neg (by decide), if_pos rfl,
      State.add, parsed]
    exact ⟨by simpa using locked, rfl⟩

/-- Some connection has not been heard of, and so is unbound. -/
theorem exists_unbound (past : List Event) :
    ∃ conn, ((System.after prim past).conns conn).bindings = [] := by
  obtain ⟨conn, unused⟩ := Infinite.exists_notMem_finset (past.map Event.conn).toFinset
  refine ⟨conn, eq_nil_iff_forall_not_mem.mpr fun binding member => ?_⟩
  obtain ⟨event, heard, rfl, -⟩ := run_recorded past conn binding member
  exact unused (by simpa using ⟨event, heard, rfl⟩)

section

variable (past : List Event) (add : Event) (body : Bytes) (stored : Stored prim)

/-- The store after an accepted constrained add is unlocked and holds its identity. -/
theorem after_constrained_add (frame : add.frame = Num.addIdConstrained :: body)
    (parsed : (readAdd add.clock.instant true).parse body = .ok stored)
    (accepted : (System.after prim past).answer add = success) :
    (System.after prim (past ++ [add])).store.lock = none ∧
      stored ∈ (System.after prim (past ++ [add])).store.keys := by
  rw [System.answer, frame] at accepted
  obtain ⟨unlocked, inserted⟩ := constrained_add_accepted _ _ _ _ stored parsed accepted
  have store : (System.after prim (past ++ [add])).store =
      ((System.after prim past).store.purgeExpired add.clock.instant).insert stored := by
    rw [System.after, run_snoc, ← inserted, ← frame]
    rfl
  rw [store]
  exact ⟨unlocked, mem_append_right _ (mem_singleton_self stored)⟩

/-- A key without constraints is anybody's: right after it is added, a connection
without bindings obtains its signature. -/
theorem unconstrained_signs (frame : add.frame = Num.addIdConstrained :: body)
    (parsed : (readAdd add.clock.instant true).parse body = .ok stored)
    (accepted : (System.after prim past).answer add = success)
    (unconstrained : stored.constraints = []) : ¬ FailsClosed (past ++ [add]) stored := by
  intro closed
  obtain ⟨conn, unbound⟩ := @exists_unbound prim (past ++ [add])
  have short := read_add_short _ _ _ _ parsed
  obtain ⟨unlocked, held⟩ := after_constrained_add past add body stored frame parsed accepted
  have kept := (mem_purge_iff _ add.clock.instant stored).mpr
    ⟨held, read_add_unexpired _ _ _ parsed⟩
  have asks : Asks ⟨conn, add.clock, signFrame stored.blob [] 0⟩ stored [] :=
    ⟨_, rfl, (read_sign_ok _ _ _).mpr ⟨0, by decide, short, by decide, rfl⟩⟩
  refine closed [] ⟨conn, add.clock, signFrame stored.blob [] 0⟩ [] (by simp)
    (by rwa [append_nil]) asks ?_
  rw [append_nil]
  exact (handle_signed_iff _ _ _ _).mpr ⟨unlocked, stored, kept, [], 0, by decide,
    short, by decide, rfl, by rw [unconstrained]; rfl⟩

end

/-- An accepted add keeps its restriction, through every later run that leaves the
identity alone, exactly when some restriction of it had content. -/
theorem restriction_fails_closed_iff (past : List Event) (add : Event) (body : Bytes)
    (fields : Option Bytes × Bytes × Bytes × String) (items : List KeyConstraint) (stored : Stored prim)
    (frame : add.frame = Num.addIdConstrained :: body)
    (identity : readIdentity body = .ok (fields, items.flatMap KeyConstraint.encode))
    (parsed : (readAdd add.clock.instant true).parse body = .ok stored)
    (accepted : (System.after prim past).answer add = success) :
    FailsClosed (past ++ [add]) stored ↔ SomeContent items := by
  rw [← read_add_constrained_iff add.clock.instant body fields items stored identity parsed]
  constructor
  · intro closed unconstrained
    exact unconstrained_signs past add body stored frame parsed accepted unconstrained closed
  · intro constrained later event data untouched unbound asks signed
    have held := (after_constrained_add past add body stored frame parsed accepted).2
    have only : OnlyUnder (System.after prim (past ++ [add])) stored := fun other member same =>
      inj_on_of_nodup_map (System.after prim (past ++ [add])).store.distinct member held same
    obtain ⟨-, found, -, member, same, permitted⟩ := signed_found _ event stored data asks signed
    obtain rfl := run_only_under (past ++ [add]) later stored only untouched found member same
    rw [unbound, destinations_permit_iff _ _ _ constrained] at permitted
    obtain ⟨first, none, -⟩ := permitted.origin
    simp at none

namespace Sample

/-- The gateway restriction of the key, spelled out. -/
def pinnedItems : List KeyConstraint :=
  [.destinations (encodeDestinations [("you", "gateway", [(gatewayBlob, false)])]) (by decide +kernel)]

def addBody : Bytes := addFrame.tail

/-- A restriction that lists no destination at all. -/
def vacuousItems : List KeyConstraint := [.destinations [] (by decide)]

def vacuousBody : Bytes :=
  Writer.utf8 algo ++ Writer.string publicRaw ++ Writer.string (signer.seed ++ publicRaw) ++
    Writer.utf8 "work" ++ vacuousItems.flatMap KeyConstraint.encode

def vacuousAdd : Event := ⟨0, clock, Num.addIdConstrained :: vacuousBody⟩

/-- The key as it ends up in the store, free of any restriction. -/
def loose : Stored .transparent := { stored with constraints := [] }

/-- A connection that proved nothing asks for a signature. -/
def looseRequest : Event := ⟨1, clock, signFrame loose.blob login 0⟩

end Sample

/-- The hypotheses are met by an add pinned to one host, and it fails closed. -/
theorem restriction_fails_closed_sample : FailsClosed [⟨0, Sample.clock, Sample.addFrame⟩] Sample.stored :=
  (restriction_fails_closed_iff [] ⟨0, Sample.clock, Sample.addFrame⟩ Sample.addBody
    (none, Sample.publicRaw, Sample.signer.seed ++ Sample.publicRaw, "work") Sample.pinnedItems
    Sample.stored rfl (by decide +kernel) (by decide +kernel) (by decide +kernel)).mpr
    ⟨_, _, by decide +kernel, mem_singleton_self _⟩

/-- A key is added under a restrict-destination extension, and a connection with
no bindings has it sign a login. -/
theorem vacuous_restriction_signs :
    (System.after .transparent []).answer Sample.vacuousAdd = success ∧
      (readIdentity Sample.vacuousBody =
        .ok ((none, Sample.publicRaw, Sample.signer.seed ++ Sample.publicRaw, "work"),
          Sample.vacuousItems.flatMap KeyConstraint.encode)) ∧
      Asks Sample.looseRequest Sample.loose Sample.login ∧
      ((System.after .transparent [Sample.vacuousAdd]).conns Sample.looseRequest.conn).bindings = [] ∧
      ((System.after .transparent [Sample.vacuousAdd]).answer Sample.looseRequest).head? =
        some Num.signResponse :=
  ⟨by decide +kernel, by decide +kernel, ⟨_, rfl, by decide +kernel⟩, by decide +kernel, by decide +kernel⟩

end Restricted

end Shh.Agent
