import Shh.Dialogues

/-!
# Nothing of a window is lost between two ends

The order of a dialogue keeps data from where it would be passed over, and the flow
keeps every message fair, as long as both tasks run. Each needs the other: here they
are put together for the two ends of a forwarded stream and for a session, and the
exact account of both directions follows.
-/

namespace Shh.Channels

open Wire Semaphores Runs

section Exactness

variable {platform : Side → Platform} {pair next : Pair} {mover : Side} {label : End.Label}

/-- Nothing is passed over that has bytes. -/
theorem head_heeded {stay : End} {cause} (intact : cause ≠ .forward .writeFails)
    (heeds : ∀ message rest, stay.line.inbox = message :: rest → stay.task.passesOver message = false) :
    stay.leaks (.act cause) = false := by
  simp only [End.leaks, Bool.or_eq_false_iff, Bool.and_eq_false_iff]
  refine ⟨?_, .inl (decide_eq_false intact)⟩
  cases queued : stay.line.inbox with
  | nil => exact .inr rfl
  | cons message rest =>
    right
    simp [heeds message rest queued]

/-- Extended data has not reached an end whose peer sends none. -/
theorem no_stray {side : Side} (carried : pair.Carried) (received : Received (pair side))
    (single : Single (pair side.other)) {kind : Nat} {bytes : Bytes} :
    .extData kind bytes ∉ (pair side).line.inbox :=
  fun member => single.sent kind bytes ((carried side).subset (received _ member))

/-- The two ends of a forwarded stream, or a session's client and its server in step. -/
def Pair.Roles (pair : Pair) : Prop :=
  (∀ side, Single (pair side) ∧ ∃ task, (pair side).task = .forward task) ∨
    (Single (pair .opener) ∧ (∃ task, (pair .opener).task = .client task) ∧
      (∃ task, (pair .acceptor).task = .server task) ∧ (pair.Running → pair.InStep))

/-- No end ever leaks, as long as both run and their writes succeed. -/
theorem roles_tight (carried : pair.Carried) (received : ∀ side, Received (pair side)) (roles : pair.Roles)
    (running : pair.Running) (intact : label ≠ .act (.forward .writeFails)) : (pair mover).leaks label = false := by
  cases label with
  | hear | process | fall => rfl
  | act cause =>
    refine head_heeded (fun same => intact (same ▸ rfl)) ?_
    intro message rest queued
    have first : message ∈ (pair mover).line.inbox := queued ▸ List.mem_cons_self
    rcases roles with forwards | ⟨single, ⟨client, opens⟩, ⟨server, accepts⟩, inStep⟩
    · obtain ⟨task, same⟩ := (forwards mover).2
      rw [same]
      cases message with
      | extData kind bytes => exact absurd first (no_stray carried (received mover) (forwards mover.other).1)
      | _ => rfl
    · cases mover with
      | acceptor =>
        rw [accepts]
        cases message with
        | extData kind bytes => exact absurd first (no_stray carried (received .acceptor) single)
        | _ => rfl
      | opener =>
        obtain ⟨mine, theirs, same, _, stage⟩ := inStep running
        rw [same]
        have spoken {view} (seen : speech message.message = some view) :
            (pair.stream speech .opener).head? = some view := by
          simp [Pair.stream, queued, seen]
        have heeds (data : speech message.message = some true) :
            mine.phase ≠ .awaitingPty ∧ mine.phase ≠ .awaiting := by
          have head := spoken data
          have there : true ∈ pair.stream speech .opener := List.mem_of_head? head
          cases stage with
          | preparing _ _ silent _ => exact absurd there silent
          | asked _ ordered _ =>
            rcases ordered with ⟨_, silent⟩ | reply
            · exact absurd there silent
            · cases head.symm.trans reply
          | going phase =>
            rw [phase]
            exact ⟨(by simp), by simp⟩
        cases message with
        | data | extData =>
          obtain ⟨pty, reply⟩ := heeds rfl
          simp [Task.passesOver, pty, reply]
        | _ => rfl

/-- What holds of the two ends of a channel at all times. -/
structure Pair.Whole (pair : Pair) : Prop where
  carried : pair.Carried
  linked : ∀ side, Linked (pair side)
  received : ∀ side, Received (pair side)
  roles : pair.Roles
  flowing : pair.Running → pair.Flowing

/-- A session stays in step, whoever moves. -/
theorem in_step_step (whole : pair.Whole) (inStep : pair.InStep)
    (ran : pair.step platform (mover, label) = some next) (up : label ≠ .fall) (running : next.Running) :
    next.InStep := by
  have flowing := whole.flowing (Pair.running_before ran running)
  obtain ⟨client, server, opens, accepts, stage⟩ := inStep
  have sessions : ∀ side, (pair side).task.isSession = true := by
    intro side
    cases side with
    | opener => rw [opens]; rfl
    | acceptor => rw [accepts]; rfl
  have alive := (whole.linked mover).alive (flowing.unclosed mover).there
  obtain ⟨stay, moved, shape, _⟩ := Pair.step_cases ran
  by_cases acts : ∃ cause, label = .act cause
  · obtain ⟨cause, rfl⟩ := acts
    cases End.step_happens moved with
    | @acted _ task line took =>
      have runs := running mover
      rw [shape, Function.update_self] at runs
      cases mover with
      | opener =>
        rw [opens] at took
        obtain ⟨_, _, _, other, _⟩ | ⟨mine, label, later, same, stepped, rfl, _⟩ | ⟨_, _, _, other, _⟩ :=
          Task.step_cases took
        · cases other
        · obtain rfl := Task.client.inj same
          subst shape
          exact ⟨later, server, by rw [Function.update_self], accepts, client_in_step stage alive stepped runs⟩
        · cases other
      | acceptor =>
        have sound := (whole.linked .acceptor).sound
        rw [accepts] at took sound
        obtain ⟨_, _, _, other, _⟩ | ⟨_, _, _, other, _⟩ | ⟨mine, label, later, same, stepped, rfl, _⟩ :=
          Task.step_cases took
        · cases other
        · cases other
        · obtain rfl := Task.server.inj same
          subst shape
          exact ⟨client, later, opens, by rw [Function.update_self], server_in_step sound stage alive stepped runs⟩
  · have loop : ∀ cause, label ≠ .act cause := fun cause same => acts ⟨cause, same⟩
    have tasks : ∀ side, (next side).task = (pair side).task := by
      intro side
      rw [shape]
      refine Pair.after_move (fun stay => stay.task = (pair side).task) rfl ?_
      rintro rfl
      rcases step_task moved with ⟨cause, acts, _⟩ | ⟨_, task⟩
      · exact absurd acts (loop cause)
      · exact task
    refine ⟨client, server, (tasks _).trans opens, (tasks _).trans accepts, ?_⟩
    rw [Pair.stream_loop speech_inert whole.carried whole.linked flowing sessions ran up loop,
      Pair.stream_loop asks_inert whole.carried whole.linked flowing sessions ran up loop]
    exact stage

/-- A task keeps its kind. -/
theorem kind_step {platform} {stay later : End} (ran : stay.step platform label = some later) :
    (∀ task, stay.task = .forward task → ∃ task, later.task = .forward task) ∧
      (∀ task, stay.task = .client task → ∃ task, later.task = .client task) ∧
      (∀ task, stay.task = .server task → ∃ task, later.task = .server task) := by
  rcases step_task ran with ⟨cause, _, took⟩ | ⟨_, same⟩
  · obtain ⟨mine, _, result, before, _, after, _⟩ | ⟨mine, _, result, before, _, after, _⟩ |
      ⟨mine, _, result, before, _, after, _⟩ := Task.step_cases took
    all_goals
      rw [before, after]
      refine ⟨?_, ?_, ?_⟩
      all_goals
        intro task kind
        first
        | exact ⟨result, rfl⟩
        | cases kind
  · rw [same]
    exact ⟨fun task kind => ⟨task, kind⟩, fun task kind => ⟨task, kind⟩, fun task kind => ⟨task, kind⟩⟩

section

variable (whole : pair.Whole)
  (ran : pair.step platform (mover, label) = some next)
  (up : label ≠ .fall)

include whole ran up

theorem roles_step : next.Roles := by
  obtain ⟨stay, moved, rfl, _⟩ := Pair.step_cases ran
  have single {side} (before : Single (pair side)) : Single (Function.update pair mover stay side) := by
    refine Pair.after_move Single before ?_
    rintro rfl
    exact single_step (whole.linked side) before moved
  rcases whole.roles with forwards | ⟨singly, client, server, inStep⟩
  · refine .inl fun side => ⟨single (forwards side).1, ?_⟩
    refine Pair.after_move (fun stay => ∃ task, stay.task = .forward task) (forwards side).2 ?_
    rintro rfl
    obtain ⟨task, before⟩ := (forwards side).2
    exact (kind_step moved).1 task before
  · refine .inr ⟨single singly, ?_, ?_, fun running =>
      in_step_step whole (inStep (Pair.running_before ran running)) ran up running⟩
    · refine Pair.after_move (fun stay => ∃ task, stay.task = .client task) client ?_
      rintro rfl
      obtain ⟨task, before⟩ := client
      exact (kind_step moved).2.1 task before
    · refine Pair.after_move (fun stay => ∃ task, stay.task = .server task) server ?_
      rintro rfl
      obtain ⟨task, before⟩ := server
      exact (kind_step moved).2.2 task before

theorem whole_step (intact : label ≠ .act (.forward .writeFails)) : next.Whole := by
  have carried := Pair.carried_step whole.carried ran
  have roles := roles_step whole ran up
  have flowing : next.Running → next.Flowing := by
    intro running
    have before := Pair.running_before ran running
    exact Pair.flowing_step whole.carried whole.linked (whole.flowing before) ran up
      (roles_tight whole.carried whole.received whole.roles before intact) running
  obtain ⟨stay, moved, rfl, _⟩ := Pair.step_cases ran
  refine ⟨carried, fun side => ?_, fun side => ?_, roles, flowing⟩
  · exact Pair.after_move Linked (whole.linked side) fun _ => linked_step (whole.linked mover) moved
  · exact Pair.after_move Received (whole.received side) fun _ =>
      received_step (whole.linked mover) (whole.received mover) moved

end

/-- The tasks of the two ends of a channel: a forwarded stream, or a session. -/
inductive Joined : (Side → Task) → Prop where
  | streams : Joined fun _ => .forward .start
  | session (spec : SessionSpec) (resizing permitAgent : Bool) (forceCommand : Option String) : Joined fun
      | .opener => .client (.make spec resizing)
      | .acceptor => .server (.make permitAgent forceCommand)

/-- Two ends that have just been joined, each with the window this code advertises. -/
def Pair.make (platform : Side → Platform) (tasks : Side → Task) (endOnClose : Side → Bool) (ids : Side → Nat) : Pair :=
  fun side => .make (platform side) (tasks side) (endOnClose side) (ids side) localWindow maxChunk

theorem Joined.fresh {tasks : Side → Task} (joined : Joined tasks) (side : Side) : (tasks side).Fresh := by
  cases joined with
  | streams => exact .forward
  | session spec resizing permitAgent forceCommand =>
    cases side with
    | opener => exact .client spec resizing
    | acceptor => exact .server permitAgent forceCommand

theorem whole_start {tasks : Side → Task} (joined : Joined tasks) (endOnClose : Side → Bool) (ids : Side → Nat) :
    (Pair.make platform tasks endOnClose ids).Whole where
  carried := fun _ => List.prefix_rfl
  linked := fun side => .start (platform side) (joined.fresh side) _ _ _ _
  received := fun _ => nofun
  roles := by
    cases joined with
    | streams => exact .inl fun side => ⟨⟨trivial, nofun, nofun⟩, _, rfl⟩
    | session spec resizing permitAgent forceCommand =>
      exact .inr ⟨⟨rfl, nofun, nofun⟩, ⟨_, rfl⟩, ⟨_, rfl⟩, fun _ =>
        ⟨_, _, rfl, rfl, .preparing (.inl rfl) rfl nofun nofun⟩⟩
  flowing := by
    intro _
    refine ⟨fun side => ⟨nofun, ?_, nofun, nofun⟩, fun side => ?_, fun side => .start _ _ _ _ _ _,
      fun side => .start (platform side) (joined.fresh side) _ _ _ _⟩
    · intro chan same
      cases same
      rfl
    · have room : min localWindow (platform side).maxPermits = localWindow := by
        unfold Platform.maxPermits
        split <;> decide
      simp [Exact, Pair.make, End.make, Line.make, Line.outgoing, sizes, grants, room]

/-- Steps with connections that stay up and sockets that take what is written. -/
def Pair.steady (_ : Pair) (event : Side × End.Label) : Bool :=
  event.2 ≠ .fall ∧ event.2 ≠ .act (.forward .writeFails)

/-- A state of one direction of a channel in which every byte is accounted for. -/
structure Pair.Accounted (platform : Side → Platform) (pair : Pair) (side : Side) (record : Chan) : Prop where
  /-- Credit, queued commands, data on the way, data with the receiving task, reports
  queued and noted, and adjusts on the way back. -/
  sum : (pair side).line.credit.permits + (pair side).line.outgoing + sizes (pair.flight side.other) +
      ((pair side.other).line.incoming + (pair side.other).task.holding) + (pair side.other).line.reported +
      record.pendingConsumed + grants (pair.flight side) = localWindow
  /-- The next message keeps within the window. -/
  accepted : ∀ message, (pair.flight side.other).head? = some message →
    ∃ turn, record.deliver (platform side.other) (pair side.other).line message = .ok turn
  /-- Opening the window never reaches its limit. -/
  unsaturated : record.localWindow + record.pendingConsumed + (pair side.other).line.reported < windowMax
  /-- When everything was delivered and consumed, the sender need not wait. -/
  ready : (pair side).line.outgoing = 0 → sizes (pair.flight side.other) = 0 → grants (pair.flight side) = 0 →
    (pair side.other).line.incoming = 0 → (pair side.other).task.holding = 0 → (pair side.other).line.reported = 0 →
    localWindow - windowRefill < (pair side).line.credit.permits ∧
      ∀ ext left, ((pair side).line.sendCredited (pair side).remoteMax ext left).1 ≠ .waiting

/-- Flow control between two ends of this code is exact in both directions, for as
long as both tasks run and their writes succeed. -/
theorem flow_control_exact {tasks : Side → Task} (joined : Joined tasks) {endOnClose : Side → Bool} {ids : Side → Nat}
    {events : List (Side × End.Label)}
    (path : Path (guarded (Pair.step platform) Pair.steady) (Pair.make platform tasks endOnClose ids) events pair)
    (running : pair.Running) (side : Side) :
    maxChunk ≤ localWindow - windowRefill ∧
      ∃ record, (pair side.other).chan = some record ∧ pair.Accounted platform side record := by
  have whole : pair.Whole := by
    refine path_invariant (fun _ => Pair.Whole) (whole_start joined endOnClose ids) ?_ path
    intro past before event after _ ran whole
    obtain ⟨steady, ran⟩ := guarded_eq_some.mp ran
    obtain ⟨up, intact⟩ := of_decide_eq_true steady
    exact whole_step whole ran up intact
  have flowing := whole.flowing running
  obtain ⟨record, there⟩ := Option.ne_none_iff_exists'.mp (flowing.unclosed side.other).there
  have window := flowing.window whole.carried there
  have balanced := flowing.balanced side.other record there
  have little := (flowing.metered side.other record there).2
  rw [Side.other_other] at window
  simp only [End.total, Chan.account] at balanced
  refine ⟨by decide, record, there, ?_, ?_, ?_, ?_⟩
  · omega
  · intro message head
    have allowed : pair.allows side.other (.hear message) = true := decide_eq_true head
    exact (@Pair.Flowing.fair platform pair flowing whole.carried _ _ allowed).2.1 record there
  · have narrow : localWindow < windowMax := by decide
    omega
  · intro unqueued undelivered ungranted unread unheld unreported
    have room : windowRefill + maxChunk ≤ localWindow := by decide
    refine ⟨by omega, ?_⟩
    intro ext left waits
    have largest := (whole.linked side).bounded
    rcases send_credited_cases (pair side).line (pair side).remoteMax ext left with
      ⟨_, _, _, result⟩ | ⟨_, short, _⟩ | ⟨_, result⟩ | ⟨_, _, _, _, result⟩
    · cases result ▸ waits
    · omega
    · cases result ▸ waits
    · cases result ▸ waits

/-- Two ends of a forwarded stream on machines of different word sizes. -/
def mixedPlatforms : Side → Platform
  | .opener => ⟨true, true⟩
  | .acceptor => ⟨false, false⟩

/-- Three bytes are read by the opener, sent, delivered and written by the acceptor,
and reported as consumed. -/
def threeBytes : List (Side × End.Label) :=
  [(.opener, .act (.forward (.read [1, 2, 3]))), (.opener, .act (.forward .send)), (.opener, .process),
    (.acceptor, .hear (.data [1, 2, 3])), (.acceptor, .act (.forward .recv)), (.acceptor, .act (.forward (.wrote 3)))]

theorem flow_control_exact_once : ∃ pair,
    Path (guarded (Pair.step mixedPlatforms) Pair.steady)
      (Pair.make mixedPlatforms (fun _ => .forward .start) (fun _ => false) (fun _ => 0)) threeBytes pair ∧
    (pair .acceptor).line.reported = 3 ∧ ∃ record, (pair .acceptor).chan = some record ∧
      pair.Accounted mixedPlatforms .opener record := by
  have path := @path_of_foldlM _ _ (guarded (Pair.step mixedPlatforms) Pair.steady)
    (Pair.make mixedPlatforms (fun _ => .forward .start) (fun _ => false) (fun _ => 0)) _ threeBytes rfl
  exact ⟨_, path, rfl, (flow_control_exact .streams path (fun side => by cases side <;> rfl) .opener).2⟩

end Exactness

end Shh.Channels
