import Shh.Connections

/-!
# Listeners for the peer

A client may have its server listen for it: it names an address and a port, and the
server binds a listener there if its policy lets it. The listeners are kept in a table by
address and port, under the port that was asked for and under the one that was bound,
which differ when any free port would do. A request to stop one takes out the entry under
the port it names, and leaves the other.

Ports are numbers of 32 bits on the wire and of 16 bits in the table, and a number that
does not fit is taken for `0`, which stands for any free port. So a request that names such
a port binds a listener somewhere else, and one to stop such a port stops a listener that
is not there. With ports that fit, every request acts on the port it names.
-/

namespace Shh.Connections

open List Option Wire Channels Runs Computations Connection

variable {config : Config} {conn next : Connection} {world : World} {payload : Bytes} {event : Event}

/-- What the peer asks of our listeners. -/
inductive Listening where
  | forward (bind : String) (port : Nat)
  | cancel (bind : String) (port : Nat)
deriving DecidableEq, Repr

def Listening.port : Listening → Nat
  | .forward _ port | .cancel _ port => port

/-- The request in a packet, if it is one for a listener. -/
def listening (payload : Bytes) : Option Listening :=
  if payload.headD 0 = Msg.globalRequest then
    match globalHeader payload with
    | .ok ((name, _), rest) =>
      match bindAddress.parse rest with
      | .ok (bind, port) =>
        if name = "tcpip-forward" then some (.forward bind port)
        else if name = "cancel-tcpip-forward" then some (.cancel bind port)
        else none
      | .error _ => none
    | .error _ => none
  else none

/-- A listener that was bound, by its handle: the request as it came, and where it is. -/
structure Binding where
  handle : Nat
  bind : String
  wanted : Nat
  port : Nat
deriving DecidableEq, Repr

/-- The listener that a request has bound. -/
def Connection.binds (conn next : Connection) : Event → Option Binding
  | .packet _ payload _ =>
    match listening payload, next.effects.drop conn.effects.length with
    | some (.forward bind wanted), [.bound handle _ port] => some ⟨handle, bind, wanted, port⟩
    | _, _ => none
  | _ => none

/-- A connection, with the listeners it has bound, oldest first. -/
structure Hosting where
  conn : Connection
  bindings : List Binding

namespace Hosting

def start : Hosting := ⟨.start, []⟩

def step (config : Config) (hosting : Hosting) (event : Event) : Option Hosting :=
  (hosting.conn.step config event).map fun next => ⟨next, hosting.bindings ++ (hosting.conn.binds next event).toList⟩

/-- The listener runs: it was bound, and was not stopped. -/
def Runs (hosting : Hosting) (binding : Binding) : Prop :=
  binding ∈ hosting.bindings ∧ .closed binding.handle ∉ hosting.conn.effects

/-- A request for a listener names a port that is one, and a listener that is bound to a
port is on that port. The latter is what the system does. -/
def fits (_hosting : Hosting) : Event → Bool
  | .packet _ payload world =>
    match listening payload with
    | some request =>
      request.port < 2 ^ 16 && world.bound.all fun actual => request.port = 0 || actual = request.port
    | none => true
  | _ => true

end Hosting

/-- What a request does when it acts on the port it names. -/
def ActsAsNamed (config : Config) (before after : Hosting) : Listening → Prop
  | .forward bind port =>
    (Aside before.conn after.conn ∧ after.bindings = before.bindings) ∨
      ∃ binding, after.bindings = before.bindings ++ [binding] ∧ after.Runs binding ∧
        after.conn.effects = before.conn.effects ++ [.bound binding.handle (normalizeBind bind) binding.port] ∧
        binding.bind = bind ∧ binding.wanted = port ∧ (port ≠ 0 → binding.port = port) ∧
        (config.listenPolicy.permits bind port = true ∨ config.listenPolicy.permits (normalizeBind bind) port = true) ∧
        ∀ other, before.Runs other → after.Runs other
  | .cancel bind port =>
    after.bindings = before.bindings ∧
      ∀ other, before.Runs other → ¬after.Runs other →
        normalizeBind other.bind = normalizeBind bind ∧ (other.wanted = port ∨ other.port = port)

section Requests

variable {port : Nat} {bind : String} {parked : Bool}

variable {wantReply : Bool}

theorem fit_port_fits (fits : port < 2 ^ 16) : fitPort port = port := if_pos fits

/-- What becomes of a request for a listener. -/
theorem tcpip_forward_cases (same : conn.handleTcpipForward config world bind port wantReply = next) :
    Aside conn next ∨ ∃ actual, world.bound = some actual ∧
      (config.listenPolicy.permits bind (fitPort port) = true ∨
        config.listenPolicy.permits (normalizeBind bind) (fitPort port) = true) ∧
      next.effects = conn.effects ++ [.bound conn.effects.length (normalizeBind bind) actual] ∧
      next.listeners = ((if fitPort port ≠ actual then
          conn.listeners.insert (normalizeBind bind, fitPort port) conn.effects.length
        else conn.listeners).insert (normalizeBind bind, actual) conn.effects.length) := by
  have answered (packet : Bytes) : Aside conn (if wantReply then conn.send packet else conn) := by
    split
    · exact .send _ _
    · exact .refl _
  subst same
  unfold handleTcpipForward
  dsimp only
  split
  · rename_i permitted
    split
    · exact .inl (answered _)
    · rename_i actual bound
      refine .inr ⟨actual, bound, (Bool.or_eq_true _ _).mp permitted, ?_, ?_⟩
      · rw [(answered _).effects]
      · rw [(answered _).listeners, (answered _).effects]
  · exact .inl (answered _)

theorem forward_done :
    (conn.handleTcpipForward config world bind port wantReply).done = conn.done := by
  have answered (packet : Bytes) : (if wantReply then conn.send packet else conn).done = conn.done := by
    split <;> rfl
  unfold handleTcpipForward
  dsimp only
  split
  · split
    all_goals exact answered _
  · exact answered _

/-- What a packet with a request for a listener is made of. -/
theorem listening_read {request} (asked : listening payload = some request) :
    payload.headD 0 = Msg.globalRequest ∧ ∃ name wantReply rest bind port,
      globalHeader payload = .ok ((name, wantReply), rest) ∧ bindAddress.parse rest = .ok (bind, port) ∧
      ((name = "tcpip-forward" ∧ request = .forward bind port) ∨
        name = "cancel-tcpip-forward" ∧ request = .cancel bind port) := by
  unfold listening at asked
  split at asked
  · rename_i kind
    split at asked
    · rename_i name wantReply rest header
      split at asked
      · rename_i bind port read
        refine ⟨kind, name, wantReply, rest, bind, port, header, read, ?_⟩
        split at asked
        · rename_i forward
          exact .inl ⟨forward, (Option.some.inj asked).symm⟩
        · split at asked
          · rename_i cancel
            exact .inr ⟨cancel, (Option.some.inj asked).symm⟩
          · cases asked
      · cases asked
    · cases asked
  · cases asked

theorem request_packet (kind : payload.headD 0 = Msg.globalRequest) :
    conn.onPacket config world payload = conn.onGlobalRequest config world payload := by
  rw [onPacket, kind]
  rfl

theorem packet_running (ran : conn.step config (.packet parked payload world) = some next) :
    conn.done = false := by
  simp only [step] at ran
  split at ran
  · cases ran
  · rename_i running
    exact (Bool.not_eq_true _).mp running

/-- A request for a listener is handled as such. -/
theorem forward_step (asked : listening payload = some (.forward bind port))
    (ran : conn.step config (.packet parked payload world) = some next) :
    ∃ wantReply, handleTcpipForward config (conn.marked parked) world bind port
      wantReply = next := by
  obtain ⟨kind, name, wantReply, rest, named, number, header, read, request⟩ := listening_read asked
  rcases request with ⟨rfl, same⟩ | ⟨_, other⟩
  · obtain ⟨rfl, rfl⟩ := Listening.forward.inj same
    have running := packet_running ran
    have ok : onPacket config (conn.marked parked) world payload =
        .ok (handleTcpipForward config (conn.marked parked) world bind port
          wantReply) := by
      rw [request_packet kind, onGlobalRequest, header]
      simp only [Bind.bind, Except.bind, if_true, read]
      rfl
    have moved := step_packet running ok (forward_done.trans running)
    exact ⟨wantReply, Option.some.inj (moved.symm.trans ran)⟩
  · cases other

/-- A request to stop a listener takes out the entry under the port it names. -/
theorem cancel_step (asked : listening payload = some (.cancel bind port))
    (ran : conn.step config (.packet parked payload world) = some next) :
    Aside conn next ∨ ∃ handle, conn.listeners.lookup (normalizeBind bind, fitPort port) = some handle ∧
      Aside { conn with
        listeners := conn.listeners.erase (normalizeBind bind, fitPort port)
        effects := conn.effects ++ [.closed handle] } next := by
  obtain ⟨kind, name, wantReply, rest, named, number, header, read, request⟩ := listening_read asked
  rcases request with ⟨_, other⟩ | ⟨rfl, same⟩
  · cases other
  · obtain ⟨rfl, rfl⟩ := Listening.cancel.inj same
    have running := packet_running ran
    have answered (before : Connection) :
      Aside before (if wantReply then before.send (Writer.byte Msg.requestSuccess) else before) ∧
        (if wantReply then before.send (Writer.byte Msg.requestSuccess) else before).done = before.done := by
      split
      · exact ⟨.send _ _, rfl⟩
      · exact ⟨.refl _, rfl⟩
    generalize there : conn.listeners.lookup (normalizeBind bind, fitPort port) = found
    let marked : Connection := (conn.marked parked)
    let stopped : Connection := found.elim marked fun handle =>
      { marked with
        listeners := conn.listeners.erase (normalizeBind bind, fitPort port)
        effects := conn.effects ++ [.closed handle] }
    have ok : onPacket config marked world payload =
        .ok (if wantReply then stopped.send (Writer.byte Msg.requestSuccess) else stopped) := by
      rw [request_packet kind, onGlobalRequest, header]
      simp only [Bind.bind, Except.bind,
        if_neg (by decide : ¬"cancel-tcpip-forward" = "tcpip-forward"), if_true, read, marked, there]
      cases found <;> rfl
    have going : stopped.done = conn.done := by
      cases found <;> rfl
    have moved := step_packet running ok (((answered stopped).2.trans going).trans running)
    cases moved.symm.trans ran
    have same := (answered stopped).1
    cases found with
    | none => exact .inl { same with }
    | some handle => exact .inr ⟨handle, rfl, { same with }⟩

end Requests

section Others

/-- What no request for a listener does: it binds and stops none. -/
structure Unlistened (conn next : Connection) : Prop where
  listeners : next.listeners = conn.listeners ∨ next.listeners = ∅
  effects : ∃ targets : List Target, next.effects = conn.effects ++ targets.map .dialed

theorem Unlistened.keeps (listeners : next.listeners = conn.listeners) (effects : next.effects = conn.effects) :
    Unlistened conn next :=
  ⟨.inl listeners, [], by rw [effects, map_nil, append_nil]⟩

theorem Unlistened.aside (same : Aside conn next) : Unlistened conn next := .keeps same.listeners same.effects

theorem Unlistened.falls (unlistened : Unlistened conn next) : Unlistened conn next.fallen :=
  ⟨.inr rfl, unlistened.effects⟩

theorem handled_unlistened (other : payload.headD 0 ≠ Msg.globalRequest) (handled : Handled config conn payload next) :
    Unlistened conn next := by
  cases handled with
  | aside same => exact .aside same
  | dials => exact ⟨.inl rfl, [_], rfl⟩
  | bound _ _ kind | unbound _ _ kind => exact absurd kind other
  | serves | confirmed | declined | heard | replied | grants => exact .keeps rfl rfl

/-- A global request of another name is only answered. -/
theorem request_unlistened (kind : payload.headD 0 = Msg.globalRequest) (unasked : listening payload = none)
    (ok : conn.onGlobalRequest config world payload = .ok next) : Unlistened conn next := by
  obtain ⟨⟨⟨name, wantReply⟩, rest⟩, header, ok⟩ := except_bind_ok.mp ok
  simp only [listening, kind, if_true, header] at unasked
  dsimp only at ok
  split at ok
  · rename_i forward
    obtain ⟨⟨bind, port⟩, read, _⟩ := except_bind_ok.mp ok
    simp only [read, forward, if_true] at unasked
    cases unasked
  · split at ok
    · rename_i cancel
      obtain ⟨⟨bind, port⟩, read, _⟩ := except_bind_ok.mp ok
      simp only [read, cancel, if_true] at unasked
      cases unasked
    · cases ok
      split <;> exact .keeps rfl rfl

theorem order_unlistened (order : Order) : Unlistened conn (conn.onOrder config order) := by
  cases order with
  | openTunnel | openSession | channel =>
    simp only [onOrder]
    split <;> exact .keeps rfl rfl
  | remoteForward => exact .keeps rfl rfl
  | connected peerId peerWindow peerMax result => cases result <;> exact .keeps rfl rfl

/-- The request of an event for a listener. -/
def Connection.Event.listening : Event → Option Listening
  | .packet _ payload _ => Connections.listening payload
  | _ => none

theorem step_unlistened (unasked : event.listening = none) (ran : conn.step config event = some next) :
    Unlistened conn next := by
  have moved (after : Connection) (moves : Moves config conn event after) : Unlistened conn after := by
    cases moves with
    | @packet parked payload world _ running ok =>
      by_cases kind : payload.headD 0 = Msg.globalRequest
      · rw [request_packet kind] at ok
        exact { request_unlistened kind unasked ok with }
      · exact { handled_unlistened kind (packet_handled ok) with }
    | broken | dialEnds => exact .keeps rfl rfl
    | @order order rest queued => exact { @order_unlistened config { conn with orders := rest } order with }
    | tick _ ok =>
      rcases tick_ok ok with same | same
      · exact .aside same
      · exact .keeps same.listeners same.effects
    | silent | fall | submit => exact .keeps rfl rfl
    | act ran =>
      obtain ⟨_, _, _, _, _, rfl⟩ := act_some ran
      exact .keeps rfl rfl
  obtain ⟨after, moves, rfl | rfl⟩ := step_moves ran
  · exact moved _ moves
  · exact (moved _ moves).falls

end Others

section Tables

variable {hosting later : Hosting}

variable {bind : String} {wanted handle port : Nat} {parked : Bool}

variable {more : List Effect} {binding : Binding} {actual : Nat} {key : String × Nat} {addr : String}

/-- Every entry of the table is that of a listener at that address, under the port it was
asked for with or the one it is on. -/
structure Tabled (hosting : Hosting) : Prop where
  recorded : ∀ binding ∈ hosting.bindings,
    hosting.conn.effects[binding.handle]? = some (.bound binding.handle (normalizeBind binding.bind) binding.port)
  distinct : ∀ first ∈ hosting.bindings, ∀ second ∈ hosting.bindings, first.handle = second.handle → first = second
  stopped : ∀ handle, .closed handle ∈ hosting.conn.effects → ∃ binding ∈ hosting.bindings, binding.handle = handle
  listed : ∀ addr port handle, hosting.conn.listeners.lookup (addr, port) = some handle →
    ∃ binding ∈ hosting.bindings, binding.handle = handle ∧ normalizeBind binding.bind = addr ∧
      (binding.wanted = port ∨ binding.port = port)

theorem tabled_start : Tabled .start where
  recorded := fun _ member => absurd member not_mem_nil
  distinct := fun _ member => absurd member not_mem_nil
  stopped := fun _ member => absurd member not_mem_nil
  listed := by
    intro addr port handle found
    cases (AList.lookup_empty _).symm.trans found

/-- What was recorded stays so as more happens. -/
theorem Tabled.recorded_later (tabled : Tabled hosting) (member : binding ∈ hosting.bindings) :
    (hosting.conn.effects ++ more)[binding.handle]? =
      some (.bound binding.handle (normalizeBind binding.bind) binding.port) := by
  have before := tabled.recorded binding member
  rw [List.getElem?_append_left (List.getElem?_eq_some_iff.mp before).1]
  exact before

/-- Nothing is bound or stopped. -/
theorem Tabled.unlistened (tabled : Tabled hosting) (unlistened : Unlistened hosting.conn next) :
    Tabled ⟨next, hosting.bindings⟩ := by
  obtain ⟨targets, effects⟩ := unlistened.effects
  refine ⟨?_, tabled.distinct, ?_, ?_⟩
  · intro binding member
    rw [effects]
    exact tabled.recorded_later member
  · intro handle member
    rw [effects] at member
    rcases mem_append.mp member with before | last
    · exact tabled.stopped handle before
    · obtain ⟨_, _, clash⟩ := mem_map.mp last
      cases clash
  · intro addr port handle found
    rcases unlistened.listeners with same | empty
    · exact tabled.listed addr port handle (same ▸ found)
    · rw [empty] at found
      cases (AList.lookup_empty _).symm.trans found

/-- A listener is bound, and entered under its ports. -/
theorem Tabled.binds (tabled : Tabled hosting) (effects : next.effects =
      hosting.conn.effects ++ [.bound hosting.conn.effects.length (normalizeBind bind) actual])
    (listeners : ∀ addr port handle, next.listeners.lookup (addr, port) = some handle →
      (addr = normalizeBind bind ∧ (wanted = port ∨ actual = port) ∧ handle = hosting.conn.effects.length) ∨
        hosting.conn.listeners.lookup (addr, port) = some handle) :
    Tabled ⟨next, hosting.bindings ++ [⟨hosting.conn.effects.length, bind, wanted, actual⟩]⟩ := by
  -- Handles count the effects, so those of earlier listeners are smaller.
  have smaller (binding : Binding) (member : binding ∈ hosting.bindings) :
    binding.handle < hosting.conn.effects.length :=
    (List.getElem?_eq_some_iff.mp (tabled.recorded binding member)).1
  refine ⟨?_, ?_, ?_, ?_⟩
  · intro binding member
    rw [effects]
    rcases mem_append.mp member with before | last
    · exact tabled.recorded_later before
    · obtain rfl := mem_singleton.mp last
      exact List.getElem?_concat_length
  · intro first one second two same
    rcases mem_append.mp one with before | last
    · rcases mem_append.mp two with earlier | final
      · exact tabled.distinct first before second earlier same
      · obtain rfl := mem_singleton.mp final
        exact absurd same (Nat.ne_of_lt (smaller first before))
    · rcases mem_append.mp two with earlier | final
      · obtain rfl := mem_singleton.mp last
        exact absurd same.symm (Nat.ne_of_lt (smaller second earlier))
      · rw [mem_singleton.mp last, mem_singleton.mp final]
  · intro handle member
    rw [effects] at member
    rcases mem_append.mp member with before | last
    · obtain ⟨binding, there, same⟩ := tabled.stopped handle before
      exact ⟨binding, mem_append_left _ there, same⟩
    · cases mem_singleton.mp last
  · intro addr port handle found
    rcases listeners addr port handle found with ⟨rfl, either, rfl⟩ | before
    · exact ⟨_, mem_append_right _ (mem_singleton.mpr rfl), rfl, rfl, either⟩
    · obtain ⟨binding, there, rest⟩ := tabled.listed addr port handle before
      exact ⟨binding, mem_append_left _ there, rest⟩

/-- A listener is stopped. -/
theorem Tabled.stops (tabled : Tabled hosting) (found : hosting.conn.listeners.lookup key = some handle)
    (listeners : next.listeners = hosting.conn.listeners.erase key)
    (effects : next.effects = hosting.conn.effects ++ [.closed handle]) : Tabled ⟨next, hosting.bindings⟩ := by
  refine ⟨?_, tabled.distinct, ?_, ?_⟩
  · intro binding member
    rw [effects]
    exact tabled.recorded_later member
  · intro other member
    rw [effects] at member
    rcases mem_append.mp member with before | last
    · exact tabled.stopped other before
    · obtain rfl := Effect.closed.inj (mem_singleton.mp last)
      obtain ⟨binding, there, same, _⟩ := tabled.listed key.1 key.2 _ found
      exact ⟨binding, there, same⟩
  · intro addr port other there
    rw [listeners] at there
    by_cases same : (addr, port) = key
    · rw [same, AList.lookup_erase] at there
      cases there
    · rw [AList.lookup_erase_ne same] at there
      exact tabled.listed addr port other there

/-- Two entries for one listener. -/
theorem insert_both {table : Table (String × Nat) Nat} {found}
    (there : ((if wanted ≠ actual then table.insert (addr, wanted) handle else table).insert (addr,
    actual) handle).lookup key =
      some found) :
    (key.1 = addr ∧ (wanted = key.2 ∨ actual = key.2) ∧ found = handle) ∨ table.lookup key = some found := by
  by_cases last : key = (addr, actual)
  · subst last
    rw [AList.lookup_insert] at there
    exact .inl ⟨rfl, .inr rfl, (Option.some.inj there).symm⟩
  · rw [AList.lookup_insert_ne last] at there
    split at there
    · by_cases first : key = (addr, wanted)
      · subst first
        rw [AList.lookup_insert] at there
        exact .inl ⟨rfl, .inl rfl, (Option.some.inj there).symm⟩
      · rw [AList.lookup_insert_ne first] at there
        exact .inr there
    · exact .inr there

/-- The record grows by a listener that was bound. -/
theorem binds_bound (asked : listening payload = some (.forward bind wanted))
    (effects : next.effects = conn.effects ++ [.bound handle addr port]) :
    conn.binds next (.packet parked payload world) = some ⟨handle, bind, wanted, port⟩ := by
  simp only [Connection.binds, asked, effects, drop_left]

theorem binds_nothing (effects : next.effects = conn.effects) : conn.binds next event = none := by
  unfold Connection.binds
  split
  · simp only [effects, drop_length]
    split
    · rename_i clash
      cases clash
    · rfl
  · rfl

theorem binds_unasked (unasked : ∀ bind port, event.listening ≠ some (.forward bind port)) :
    conn.binds next event = none := by
  unfold Connection.binds
  split
  · split
    · rename_i bind wanted _ _ _ asked _
      exact absurd asked (unasked bind wanted)
    · rfl
  · rfl

/-- A listener that ran still does, unless it was just stopped. -/
theorem runs_later (runs : hosting.Runs binding)
    (effects : later.conn.effects = hosting.conn.effects ++ more) (bindings : binding ∈ later.bindings)
    (unstopped : .closed binding.handle ∉ more) : later.Runs binding := by
  refine ⟨bindings, fun stopped => ?_⟩
  rw [effects] at stopped
  rcases mem_append.mp stopped with before | last
  · exact runs.2 before
  · exact unstopped last

theorem forward_acts (tabled : Tabled hosting)
    (asked : listening payload = some (.forward bind port)) (fits : hosting.fits (.packet parked payload world) = true)
    (ran : hosting.step config (.packet parked payload world) = some later) :
    Tabled later ∧ ActsAsNamed config hosting later (.forward bind port) := by
  obtain ⟨next, moved, rfl⟩ := map_eq_some_iff.mp ran
  obtain ⟨wantReply, handled⟩ := forward_step asked moved
  simp only [Hosting.fits, asked, Listening.port, Bool.and_eq_true] at fits
  have small : port < 2 ^ 16 := of_decide_eq_true fits.1
  have honest := fits.2
  rcases tcpip_forward_cases handled with same | ⟨actual, bound, permitted, effects, listeners⟩
  · have aside : Aside hosting.conn next := { same with }
    rw [binds_nothing aside.effects, toList_none, append_nil]
    exact ⟨tabled.unlistened (.aside aside), .inl ⟨aside, rfl⟩⟩
  · dsimp only at effects listeners
    rw [binds_bound asked effects, toList_some]
    rw [fit_port_fits small] at permitted listeners
    have after := tabled.binds effects fun addr number handle found => insert_both (listeners ▸ found)
    refine ⟨after, .inr ⟨_, rfl, ?_, effects, rfl, rfl, ?_, permitted, ?_⟩⟩
    · refine ⟨mem_append_right _ (mem_singleton.mpr rfl), fun stopped => ?_⟩
      -- Nothing is stopped before it is bound.
      dsimp only at stopped
      rw [effects] at stopped
      rcases mem_append.mp stopped with before | last
      · obtain ⟨binding, there, same⟩ := tabled.stopped _ before
        have known := (List.getElem?_eq_some_iff.mp (tabled.recorded binding there)).1
        rw [same] at known
        exact Nat.lt_irrefl _ known
      · cases mem_singleton.mp last
    · intro chosen
      rw [bound, all_some, Bool.or_eq_true] at honest
      exact honest.elim (fun zero => absurd (of_decide_eq_true zero) chosen) fun same => of_decide_eq_true same
    · intro other runs
      refine runs_later runs effects (mem_append_left _ runs.1) fun last => ?_
      cases mem_singleton.mp last

theorem cancel_acts (tabled : Tabled hosting)
    (asked : listening payload = some (.cancel bind port)) (fits : hosting.fits (.packet parked payload world) = true)
    (ran : hosting.step config (.packet parked payload world) = some later) :
    Tabled later ∧ ActsAsNamed config hosting later (.cancel bind port) := by
  obtain ⟨next, moved, rfl⟩ := map_eq_some_iff.mp ran
  simp only [Hosting.fits, asked, Listening.port, Bool.and_eq_true] at fits
  have small : port < 2 ^ 16 := of_decide_eq_true fits.1
  have unasked : hosting.conn.binds next (.packet parked payload world) = none := by
    refine binds_unasked fun bind port forward => ?_
    cases asked.symm.trans forward
  rw [unasked, toList_none, append_nil]
  rcases cancel_step asked moved with same | ⟨handle, found, same⟩
  · refine ⟨tabled.unlistened (.aside same), rfl, fun other runs stopped => absurd ?_ stopped⟩
    exact runs_later runs (by rw [same.effects, append_nil]) runs.1 not_mem_nil
  · refine ⟨tabled.stops found same.listeners same.effects, rfl, fun other runs stopped => ?_⟩
    rw [fit_port_fits small] at found
    obtain ⟨binding, there, handled, address, either⟩ := tabled.listed _ _ _ found
    -- Only the listener with that handle is stopped.
    have closed : other.handle = handle := by
      by_contra apart
      refine stopped (runs_later runs same.effects runs.1 fun last => ?_)
      exact apart (Effect.closed.inj (mem_singleton.mp last))
    obtain rfl := tabled.distinct other runs.1 binding there (closed.trans handled.symm)
    exact ⟨address, either⟩

theorem tabled_step (tabled : Tabled hosting) (fits : hosting.fits event = true)
    (ran : hosting.step config event = some later) : Tabled later := by
  cases asked : event.listening with
  | none =>
    obtain ⟨next, moved, rfl⟩ := map_eq_some_iff.mp ran
    have nothing : hosting.conn.binds next event = none :=
      binds_unasked fun _ _ clash => by cases asked.symm.trans clash
    rw [nothing, toList_none, append_nil]
    exact tabled.unlistened (step_unlistened asked moved)
  | some request =>
    cases event with
    | packet parked payload world =>
      cases request with
      | forward bind port => exact (forward_acts tabled asked fits ran).1
      | cancel bind port => exact (cancel_acts tabled asked fits ran).1
    | order | tick | fall | submit | act | dialEnds => cases asked

/-- In every run in which each request for a listener names a port that is one, and the
system binds where it is told to, each such request acts on the port it names: one for a
listener binds it there with the policy's leave or changes nothing, and one to stop a
listener stops none but at that address and port. -/
theorem requests_act_as_named {events : List Event} {hosting later : Hosting} {event : Event} {request : Listening}
    (path : Path (guarded (Hosting.step config) Hosting.fits) .start events hosting)
    (asked : event.listening = some request)
    (ran : guarded (Hosting.step config) Hosting.fits hosting event = some later) :
    ActsAsNamed config hosting later request := by
  have tabled : Tabled hosting := by
    refine path_invariant (fun _ => Tabled) tabled_start ?_ path
    intro past hosting event later _ ran tabled
    obtain ⟨fits, moved⟩ := guarded_eq_some.mp ran
    exact tabled_step tabled fits moved
  obtain ⟨fits, moved⟩ := guarded_eq_some.mp ran
  cases event with
  | packet parked payload world =>
    cases request with
    | forward bind port => exact (forward_acts tabled asked fits moved).2
    | cancel bind port => exact (cancel_acts tabled asked fits moved).2
  | order | tick | fall | submit | act | dialEnds => cases asked

end Tables

section Samples

/-- A server that listens wherever it is asked to. -/
def openListener : Config where
  platform := ⟨true, true⟩
  policy := .denyAll
  listenPolicy := .allowAll
  agentPath := none
  forceCommand := none
  permitAgent := false
  keepaliveMaxMissed := 3

/-- A global request for a listener, on the wire. -/
def listenPacket (name bind : String) (port : Nat) : Bytes :=
  Writer.byte Msg.globalRequest ++ Writer.utf8 name ++ Writer.boolean true ++ Writer.utf8 bind ++ Writer.u32 port

/-- The peer asks for a listener, and the system finds it a port. -/
def listenOn (port bound : Nat) : Event :=
  .packet false (listenPacket "tcpip-forward" "localhost" port) ⟨none, some bound⟩

def stopOn (port : Nat) : Event := .packet false (listenPacket "cancel-tcpip-forward" "localhost" port) ⟨none, none⟩

theorem free_port_run :
    ([listenOn 0 40000].foldlM (guarded (Hosting.step openListener) Hosting.fits) .start).isSome =
    true := by decide +kernel

/-- A listener on a free port. -/
def freeListener : Hosting :=
  ([listenOn 0 40000].foldlM (guarded (Hosting.step openListener) Hosting.fits) .start).get free_port_run

/-- A listener was asked for on a port that there is not, and another one is stopped by
naming such a port. -/
theorem stray_ports : (∃ later, Hosting.start.step openListener (listenOn 65616 40000) = some later ∧
      (listenOn 65616 40000).listening = some (.forward "localhost" 65616) ∧
      ¬ActsAsNamed openListener .start later (.forward "localhost" 65616)) ∧
    ∃ later, Path (Hosting.step openListener) .start [listenOn 0 40000] freeListener ∧
      freeListener.step openListener (stopOn 65536) = some later ∧
      (stopOn 65536).listening = some (.cancel "localhost" 65536) ∧
      ¬ActsAsNamed openListener freeListener later (.cancel "localhost" 65536) := by
  constructor
  · have bound : (Hosting.start.step openListener (listenOn 65616 40000)).map Hosting.bindings =
        some [⟨0, "localhost", 65616, 40000⟩] := by decide +kernel
    obtain ⟨later, moved, bindings⟩ := map_eq_some_iff.mp bound
    refine ⟨later, moved, by decide +kernel, ?_⟩
    rintro (⟨_, none_⟩ | ⟨binding, same, _, _, _, _, port, _⟩)
    · cases bindings.symm.trans none_
    · obtain rfl := (List.cons.inj (bindings.symm.trans same)).1
      exact absurd (port (by decide)) (by decide)
  · have stopped : (freeListener.step openListener (stopOn 65536)).map (fun later =>
      (later.bindings, later.conn.effects)) =
        some ([⟨0, "localhost", 0, 40000⟩], [.bound 0 "127.0.0.1" 40000, .closed 0]) := by decide +kernel
    obtain ⟨later, moved, same⟩ := map_eq_some_iff.mp stopped
    obtain ⟨bindings, effects⟩ := Prod.mk.inj same
    refine ⟨later, (path_of_some _ free_port_run).unguarded, moved, by decide +kernel, ?_⟩
    rintro ⟨_, only⟩
    have ran : freeListener.Runs ⟨0, "localhost", 0, 40000⟩ := ⟨by decide +kernel, by decide +kernel⟩
    have ends : ¬later.Runs ⟨0, "localhost", 0, 40000⟩ := by
      rintro ⟨_, unstopped⟩
      rw [effects] at unstopped
      exact unstopped (by decide)
    exact absurd (only _ ran ends).2 (by decide)

/-- The listener on a free port is stopped by the port it is on. -/
theorem free_listener_stopped : ∃ later,
    guarded (Hosting.step openListener) Hosting.fits freeListener (stopOn 40000) = some later ∧
    later.conn.effects = [.bound 0 "127.0.0.1" 40000, .closed 0] ∧
    ActsAsNamed openListener freeListener later (.cancel "localhost" 40000) := by
  have stopped : (guarded (Hosting.step openListener) Hosting.fits freeListener (stopOn 40000)).map
      (fun later => later.conn.effects) = some [.bound 0 "127.0.0.1" 40000, .closed 0] := by decide +kernel
  obtain ⟨later, moved, effects⟩ := map_eq_some_iff.mp stopped
  exact ⟨later, moved, effects, requests_act_as_named (path_of_some _ free_port_run) (by decide +kernel) moved⟩

end Samples

end Shh.Connections
