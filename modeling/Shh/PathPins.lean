import Shh.Destinations

/-!
# Keys pinned to a path

A client pins a key to a path by flattening it: each hop becomes one constraint
that leads from the hop before it, the first from the origin. The agent reads the
constraints back without knowing that they came from one path and looks, for
every pair of neighbouring bindings, for some constraint that allows the step.

The order comes back nevertheless. Only the first hop is reached from the origin,
and a host that matches one hop only can be left only by that hop's step. So the
bindings that are permitted are exactly those that match the path's hops in
order, from the first one on.
-/

namespace Shh.Agent

open List Wire Reader Writer Computations

variable {prim : Primitives}

/-- A hop as a client names it: user, host and key entries. -/
abbrev Destination := String × String × List (Bytes × Bool)

/-- The local origin, which has no keys. -/
def origin : Destination := ("", "", [])

/-- A payload that pins a key to a path: each hop is reached from the one before. -/
def encodePath (hops : List Destination) : Bytes :=
  (hops.foldl (fun (list, fromHop) (user, host, keys) =>
    let toHop := encodeHop user host keys
    (pushConstraint list fromHop toHop, toHop)) (([], encodeHop "" "" []) : Bytes × Bytes)).1

section Encoding

/-- The hop that a destination is read back as. -/
def Destination.hop (destination : Destination) : Hop := ⟨destination.2.2⟩

def Destination.encode (destination : Destination) : Bytes :=
  encodeHop destination.1 destination.2.1 destination.2.2

/-- The bytes of one constraint before they are wrapped. -/
def edgeBody (edge : Destination × Destination) : Bytes :=
  Writer.string edge.1.encode ++ Writer.string edge.2.encode ++ Writer.string []

/-- The steps of a path from a place. -/
def edgesFrom : Destination → List Destination → List (Destination × Destination)
  | _, [] => []
  | start, next :: rest => (start, next) :: edgesFrom next rest

/-- What the agent is to read back. -/
def edgeConstraint (edge : Destination × Destination) : DestConstraint := ⟨edge.1.hop, edge.2.hop⟩

/-- The wire writer panics on a string of four gigabytes. The longest one that
is written for a constraint is the constraint itself. -/
def Encodable (edges : List (Destination × Destination)) : Prop :=
  ∀ edge ∈ edges, (edgeBody edge).length < 2 ^ 32

theorem encode_path_from (list : Bytes) (start : Destination) (hops : List Destination) :
    (hops.foldl (fun (list, fromHop) (user, host, keys) =>
      let toHop := encodeHop user host keys
      (pushConstraint list fromHop toHop, toHop)) ((list, start.encode) : Bytes × Bytes)).1 =
      list ++ (edgesFrom start hops).flatMap fun edge => Writer.string (edgeBody edge) := by
  induction hops generalizing list start with
  | nil => exact (append_nil list).symm
  | cons next rest ih =>
    rw [foldl_cons, edgesFrom, flatMap_cons, ← append_assoc]
    exact ih (pushConstraint list start.encode next.encode) next

/-- The payload is the wrapped steps of the path, one after another. -/
theorem encode_path_edges (hops : List Destination) :
    encodePath hops = (edgesFrom origin hops).flatMap fun edge => Writer.string (edgeBody edge) :=
  encode_path_from [] origin hops

/-- A payload of destinations is the steps from the origin to each. -/
theorem encode_destinations_edges (dests : List Destination) :
    encodeDestinations dests =
      (dests.map fun dest => (origin, dest)).flatMap fun edge => Writer.string (edgeBody edge) := by
  have pushes (list : Bytes) : dests.foldl (fun list (user, host, keys) =>
      pushConstraint list (encodeHop "" "" []) (encodeHop user host keys)) list =
        list ++ (dests.map fun dest => (origin, dest)).flatMap fun edge => Writer.string (edgeBody edge) := by
    induction dests generalizing list with
    | nil => exact (append_nil list).symm
    | cons dest rest ih =>
      rw [foldl_cons, ih, map_cons, flatMap_cons, ← append_assoc]
      rfl
  exact pushes []

/-- An encoding is no longer than a list of encodings it is part of. -/
theorem encoded_length_le {ι : Type} (encode : ι → Bytes) {items : List ι} {item : ι} (member : item ∈ items) :
    (encode item).length ≤ (items.flatMap encode).length := by
  obtain ⟨before, after, rfl⟩ := append_of_mem member
  simp only [flatMap_append, flatMap_cons, length_append]
  omega

theorem read_hop_key_consumes : Reader.Consumes (fun keys : List (Bytes × Bool) => do
    let blob ← Reader.string
    let isCa ← Reader.boolean
    return keys ++ [(blob, isCa)]) := by
  intro keys body next left ran
  simp only [string_bind_ok, boolean_bind_ok, pure_ok, Prod.mk.injEq] at ran
  obtain ⟨blob, between, ⟨rfl, -⟩, flag, after, rfl, rfl, rfl⟩ := ran
  simp only [length_append, length_cons, string_length]
  omega

/-- A hop's key entries come back as they were written. -/
theorem parse_hop_encoded (destination : Destination) (short : destination.encode.length < 2 ^ 32) :
    parseHop destination.encode = .ok destination.hop := by
  obtain ⟨user, host, keys⟩ := destination
  simp only [Destination.encode, encodeHop, length_append, Writer.utf8, string_length] at short
  have keys_read : Reader.drain (fun keys : List (Bytes × Bool) => do
      let blob ← Reader.string
      let isCa ← Reader.boolean
      return keys ++ [(blob, isCa)]) [] (keys.flatMap fun entry =>
        Writer.string entry.1 ++ Writer.byte (if entry.2 then 1 else 0)) = .ok (keys, []) := by
    rw [drain_flat_map _ read_hop_key_consumes _ (fun read entry => read ++ [entry])]
    · simp [foldl_append_eq_append, ← flatMap_def]
    · rintro ⟨blob, isCa⟩ member read left
      have within := encoded_length_le (fun (entry : Bytes × Bool) =>
        Writer.string entry.1 ++ Writer.byte (if entry.2 then 1 else 0)) member
      simp only [length_append, string_length] at within
      rw [append_assoc, bind_of_ok ((string_ok _ _ blob).mpr ⟨rfl, by omega⟩)]
      cases isCa <;> rfl
  refine parse_ok.mpr ⟨[], ?_⟩
  simp only [Destination.encode, encodeHop, Writer.utf8, append_assoc]
  rw [bind_of_ok ((string_ok _ _ _).mpr ⟨rfl, by omega⟩), bind_of_ok ((string_ok _ _ _).mpr ⟨rfl, by omega⟩),
    bind_of_ok ((string_ok _ _ _).mpr ⟨rfl, by decide⟩)]
  exact bind_of_ok keys_read

/-- One constraint comes back as the step it was written for. -/
theorem parse_constraint_encoded (edge : Destination × Destination) (short : (edgeBody edge).length < 2 ^ 32) :
    parseConstraint (edgeBody edge) = .ok (edgeConstraint edge) := by
  have sizes := short
  simp only [edgeBody, length_append, string_length] at sizes
  refine parse_ok.mpr ⟨[], ?_⟩
  simp only [edgeBody, append_assoc]
  rw [bind_of_ok ((string_ok _ _ _).mpr ⟨rfl, by omega⟩), bind_of_ok ((string_ok _ _ _).mpr ⟨rfl, by omega⟩),
    bind_of_ok ((string_ok _ [] _).mpr ⟨(append_nil _).symm, by decide⟩)]
  simp only [finish_bind_ok, lift_bind_ok, true_and]
  exact ⟨_, parse_hop_encoded _ (by omega), _, parse_hop_encoded _ (by omega), rfl⟩

theorem read_constraint_consumes : Reader.Consumes (fun out : List DestConstraint => do
    let packed ← Reader.string
    let constraint ← Reader.lift (parseConstraint packed)
    return out ++ [constraint]) := by
  intro out body next left ran
  simp only [string_bind_ok, lift_bind_ok, pure_ok, Prod.mk.injEq] at ran
  obtain ⟨packed, between, ⟨rfl, -⟩, constraint, -, -, rfl⟩ := ran
  simp only [length_append, string_length]
  omega

/-- A payload of wrapped steps is read back as these steps. -/
theorem parse_edges (edges : List (Destination × Destination)) (encodable : Encodable edges) :
    parseDestConstraints (edges.flatMap fun edge => Writer.string (edgeBody edge)) =
      .ok (edges.map edgeConstraint) := by
  refine parse_ok.mpr ⟨[], ?_⟩
  rw [drain_flat_map _ read_constraint_consumes _ (fun out edge => out ++ [edgeConstraint edge])]
  · rw [foldl_append_eq_append, nil_append, ← flatMap_def, map_eq_flatMap]
  · intro edge member out left
    rw [bind_of_ok ((string_ok _ _ _).mpr ⟨rfl, encodable edge member⟩)]
    simp only [lift_bind_ok, pure_ok]
    exact ⟨_, parse_constraint_encoded edge (encodable edge member), rfl⟩

end Encoding

section Order

variable {α β : Type}

/-- A walk along neighbouring places, by travellers of whom each matches at most one
place, keeps to the order of the places. -/
theorem walk_matches (places : List α) (Fits : α → β → Prop) (first : β) (rest : List β) (index : Nat)
    (unique : ∀ traveller ∈ first :: rest, ∀ (i j : Nat) (p q : α), places[i]? = some p → places[j]? = some q →
      Fits p traveller → Fits q traveller → i = j)
    (start : ∃ place ∈ places[index]?, Fits place first) :
    List.IsChain (fun before after => ∃ (i : Nat) (p q : α), places[i]? = some p ∧ places[i + 1]? = some q ∧
      Fits p before ∧ Fits q after) (first :: rest) ↔
      ∀ (i : Nat) (traveller : β), (first :: rest)[i]? = some traveller →
        ∃ place ∈ places[index + i]?, Fits place traveller := by
  induction rest generalizing first index with
  | nil =>
    simp only [isChain_singleton, true_iff]
    intro i traveller there
    cases i with
    | zero => exact Option.some.inj there ▸ start
    | succ i => simp at there
  | cons second rest ih =>
    rw [isChain_cons_cons]
    obtain ⟨place, here, fits⟩ := start
    have later := ih second (index + 1) fun traveller member =>
      unique traveller (mem_cons_of_mem first member)
    constructor
    · rintro ⟨⟨i, p, q, atI, atNext, fitsP, fitsQ⟩, chain⟩
      -- The first traveller fits one place only, so the step leads on from there.
      obtain rfl := unique first mem_cons_self i index p place atI here fitsP fits
      intro j traveller there
      cases j with
      | zero => exact ⟨place, here, Option.some.inj there ▸ fits⟩
      | succ j =>
        have further := (later ⟨q, atNext, fitsQ⟩).mp chain j traveller there
        rwa [Nat.add_right_comm, Nat.add_assoc] at further
    · intro matched
      obtain ⟨next, atNext, fitsNext⟩ := matched 1 second rfl
      refine ⟨⟨index, place, next, here, atNext, fits, fitsNext⟩, (later ⟨next, atNext, fitsNext⟩).mpr ?_⟩
      intro j traveller there
      have further := matched (j + 1) traveller there
      rwa [Nat.add_assoc, Nat.add_comm 1 j]

/-- The steps of a path lead from its start to the first hop and from each hop to the
next. -/
theorem mem_edges_iff (start : Destination) (hops : List Destination) (edge : Destination × Destination) :
    edge ∈ edgesFrom start hops ↔ (∃ first ∈ hops[0]?, edge = (start, first)) ∨
      ∃ (i : Nat) (p q : Destination), hops[i]? = some p ∧ hops[i + 1]? = some q ∧ edge = (p, q) := by
  induction hops generalizing start with
  | nil => simp [edgesFrom]
  | cons next rest ih =>
    rw [edgesFrom, mem_cons, ih]
    constructor
    · rintro (rfl | ⟨first, head, rfl⟩ | ⟨i, p, q, atP, atQ, rfl⟩)
      · exact .inl ⟨next, rfl, rfl⟩
      · exact .inr ⟨0, next, first, rfl, head, rfl⟩
      · exact .inr ⟨i + 1, p, q, atP, atQ, rfl⟩
    · rintro (⟨first, head, rfl⟩ | ⟨i, p, q, atP, atQ, rfl⟩)
      · exact .inl (by rw [Option.some.inj head])
      · cases i with
        | zero => exact .inr (.inl ⟨q, atQ, by rw [Option.some.inj atP]⟩)
        | succ i => exact .inr (.inr ⟨i, p, q, atP, atQ, rfl⟩)

variable {now : Nat} {hops : List Destination}

/-- Only the first hop is reached from the origin, when every hop has keys. -/
theorem origin_edge_iff (keyed : ∀ hop ∈ hops, hop.2.2 ≠ []) (host : Bytes) :
    (∃ constraint ∈ (edgesFrom origin hops).map edgeConstraint, constraint.fromHop.keys = [] ∧
      constraint.toHop.Lists prim now host) ↔ ∃ first ∈ hops[0]?, first.hop.Lists prim now host := by
  constructor
  · rintro ⟨constraint, member, keyless, lists⟩
    obtain ⟨edge, onPath, rfl⟩ := mem_map.mp member
    rcases (mem_edges_iff origin hops edge).mp onPath with ⟨first, head, rfl⟩ | ⟨i, p, q, atP, -, rfl⟩
    · exact ⟨first, head, lists⟩
    · exact absurd keyless (keyed p (mem_of_getElem? atP))
  · rintro ⟨first, head, lists⟩
    exact ⟨_, mem_map.mpr ⟨(origin, first), (mem_edges_iff _ _ _).mpr (.inl ⟨first, head, rfl⟩), rfl⟩, rfl, lists⟩

/-- A later step leads from a hop to the next. The origin matches no host. -/
theorem later_edge_iff (previous host : Bytes) :
    (∃ constraint ∈ (edgesFrom origin hops).map edgeConstraint, constraint.fromHop.Lists prim now previous ∧
      constraint.toHop.Lists prim now host) ↔ ∃ (i : Nat) (p q : Destination), hops[i]? = some p ∧
        hops[i + 1]? = some q ∧ p.hop.Lists prim now previous ∧ q.hop.Lists prim now host := by
  constructor
  · rintro ⟨constraint, member, fromLists, toLists⟩
    obtain ⟨edge, onPath, rfl⟩ := mem_map.mp member
    rcases (mem_edges_iff origin hops edge).mp onPath with ⟨first, head, rfl⟩ | ⟨i, p, q, atP, atQ, rfl⟩
    · rcases fromLists with ⟨entry, none, -⟩ | ⟨entry, none, -⟩ <;> exact absurd none not_mem_nil
    · exact ⟨i, p, q, atP, atQ, fromLists, toLists⟩
  · rintro ⟨i, p, q, atP, atQ, fromLists, toLists⟩
    exact ⟨_, mem_map.mpr ⟨(p, q), (mem_edges_iff _ _ _).mpr (.inr ⟨i, p, q, atP, atQ, rfl⟩), rfl⟩,
      fromLists, toLists⟩

/-- Bindings match a path's hops in order, from the first on. -/
theorem permitted_path_iff (nonempty : hops ≠ []) (keyed : ∀ hop ∈ hops, hop.2.2 ≠ []) (bindings : List (Binding prim))
    (unique : ∀ binding ∈ bindings, ∀ (i j : Nat) (p q : Destination), hops[i]? = some p → hops[j]? = some q →
      p.hop.Lists prim now binding.hostKey → q.hop.Lists prim now binding.hostKey → i = j) :
    destinationsPermit now ((edgesFrom origin hops).map edgeConstraint) bindings = true ↔
      bindings ≠ [] ∧ ∀ (i : Nat) (binding : Binding prim), bindings[i]? = some binding →
        ∃ hop ∈ hops[i]?, hop.hop.Lists prim now binding.hostKey := by
  have constrained : (edgesFrom origin hops).map edgeConstraint ≠ [] := by
    cases hops with
    | nil => exact absurd rfl nonempty
    | cons next rest => exact cons_ne_nil _ _
  rw [destinations_permit_iff _ _ _ constrained]
  cases bindings with
  | nil =>
    constructor
    · rintro ⟨⟨first, none, -⟩, -⟩
      simp at none
    · exact fun some => absurd rfl some.1
  | cons first rest =>
    have walk := walk_matches hops (fun hop (binding : Binding prim) => hop.hop.Lists prim now binding.hostKey)
      first rest 0 unique
    constructor
    · rintro ⟨⟨head, same, started⟩, linked⟩
      cases same
      refine ⟨cons_ne_nil _ _, ?_⟩
      simp only [later_edge_iff] at linked
      simpa only [Nat.zero_add] using (walk ((origin_edge_iff keyed _).mp started)).mp linked
    · rintro ⟨-, matched⟩
      have started := matched 0 first rfl
      refine ⟨⟨first, rfl, (origin_edge_iff keyed _).mpr started⟩, ?_⟩
      simp only [later_edge_iff]
      exact (walk started).mpr (by simpa only [Nat.zero_add] using matched)

/-- A key pinned to a path may be used exactly along the path and its beginnings. Once
encoded, sent and read back, the constraints permit a list of bindings if and only if
there is at least one, there are no more than hops, and each binding matches the hop at
its own place. Every hop has a key entry, no host matches the entries of two hops, and
the payload can be written at all. -/
theorem path_pin_exact (now : Nat) (hops : List Destination) (nonempty : hops ≠ [])
    (keyed : ∀ hop ∈ hops, hop.2.2 ≠ []) (encodable : Encodable (edgesFrom origin hops))
    (bindings : List (Binding prim))
    (unique : ∀ binding ∈ bindings, ∀ (i j : Nat) (p q : Destination), hops[i]? = some p → hops[j]? = some q →
      p.hop.Lists prim now binding.hostKey → q.hop.Lists prim now binding.hostKey → i = j) :
    ∃ constraints, parseDestConstraints (encodePath hops) = .ok constraints ∧
      (destinationsPermit now constraints bindings = true ↔
        (1 ≤ bindings.length ∧ bindings.length ≤ hops.length) ∧
          ∀ (i : Nat) (binding : Binding prim) (hop : Destination), bindings[i]? = some binding → hops[i]? = some hop →
            hop.hop.Lists prim now binding.hostKey) := by
  refine ⟨_, by rw [encode_path_edges, parse_edges _ encodable], ?_⟩
  rw [permitted_path_iff nonempty keyed bindings unique]
  constructor
  · rintro ⟨bound, matched⟩
    refine ⟨⟨length_pos_iff.mpr bound, ?_⟩, ?_⟩
    · by_contra longer
      obtain ⟨hop, beyond, -⟩ := matched hops.length bindings[hops.length] (List.getElem?_eq_getElem (by omega))
      rw [List.getElem?_eq_none le_rfl] at beyond
      cases beyond
    · intro i binding hop placed there
      obtain ⟨other, same, lists⟩ := matched i binding placed
      rwa [Option.some.inj (there.symm.trans same)]
  · rintro ⟨⟨bound, short⟩, matched⟩
    refine ⟨length_pos_iff.mp bound, ?_⟩
    intro i binding placed
    obtain ⟨within, -⟩ := List.getElem?_eq_some_iff.mp placed
    have there : hops[i]? = some hops[i] := List.getElem?_eq_getElem (by omega)
    exact ⟨hops[i], there, matched i binding _ placed there⟩

end Order

namespace Sample

theorem jump_sized : (List.replicate 32 (3 : UInt8)).length = 32 := by decide
theorem target_sized : (List.replicate 32 (4 : UInt8)).length = 32 := by decide

/-- The host that is passed through. -/
def jump : PrivateKey := ⟨List.replicate 32 3, jump_sized⟩

/-- The host at the end of the path. -/
def target : PrivateKey := ⟨List.replicate 32 4, target_sized⟩

def hopTo (name : String) (host : PrivateKey) : Destination :=
  ("", name, [((host.publicKey : PublicKey .transparent).toBlob, false)])

def route : List Destination := [hopTo "jump" jump, hopTo "target" target]

/-- A binding that a host proved for a session. -/
def bound (host : PrivateKey) (session : Bytes)
    (signed : HostSigned .transparent (host.publicKey : PublicKey .transparent).toBlob session
    (host.sign .transparent session)) :
    Binding .transparent :=
  ⟨(host.publicKey : PublicKey .transparent).toBlob, session, true, _, signed⟩

theorem jump_signed : HostSigned .transparent (jump.publicKey : PublicKey .transparent).toBlob [1]
    (jump.sign .transparent [1]) := by decide +kernel

theorem target_signed : HostSigned .transparent (target.publicKey : PublicKey .transparent).toBlob [2]
    (target.sign .transparent [2]) := by decide +kernel

/-- The whole way, in order. -/
def travelled : List (Binding .transparent) := [bound jump [1] jump_signed, bound target [2] target_signed]

/-- Each host of the way is listed at its own place only. -/
theorem route_unique : ∀ binding ∈ travelled, ∀ (i j : Nat)
    (p q : Destination), route[i]? = some p → route[j]? = some q →
    p.hop.Lists .transparent 0 binding.hostKey → q.hop.Lists .transparent 0 binding.hostKey → i = j := by
  have places : ∀ binding ∈ travelled, ∀ i < 2, ∀ j < 2, ∀ p ∈ route[i]?, ∀ q ∈ route[j]?,
      hopListsKey .transparent 0 p.hop binding.hostKey = true →
      hopListsKey .transparent 0 q.hop binding.hostKey = true → i = j := by decide +kernel
  intro binding member i j p q atI atJ listsP listsQ
  obtain ⟨shortI, -⟩ := List.getElem?_eq_some_iff.mp atI
  obtain ⟨shortJ, -⟩ := List.getElem?_eq_some_iff.mp atJ
  exact places binding member i shortI j shortJ p atI q atJ ((hop_lists_key_iff _ _ _).mpr listsP)
    ((hop_lists_key_iff _ _ _).mpr listsQ)

end Sample

/-- The way through the jump host is permitted by its own pin. -/
theorem travelled_route_permitted :
    ∃ constraints, parseDestConstraints (encodePath Sample.route) = .ok constraints ∧
      destinationsPermit 0 constraints Sample.travelled = true := by
  obtain ⟨constraints, parsed, exactly⟩ := path_pin_exact 0 Sample.route (by decide) (by decide +kernel)
    (by unfold Encodable; decide +kernel) Sample.travelled Sample.route_unique
  refine ⟨constraints, parsed, exactly.mpr ⟨by decide, ?_⟩⟩
  have listed : ∀ i < 2, ∀ binding ∈ Sample.travelled[i]?, ∀ hop ∈ Sample.route[i]?,
      hopListsKey .transparent 0 hop.hop binding.hostKey = true := by decide +kernel
  intro i binding hop placed there
  obtain ⟨within, -⟩ := List.getElem?_eq_some_iff.mp there
  exact (hop_lists_key_iff _ _ _).mp (listed i within binding placed hop there)

end Shh.Agent
