import Shh.Pipes

/-!
# How a forwarded stream is taken down

A forwarded stream's task asks for CLOSE when both of its loops have ended. The
reading loop ends with its socket. The writing loop ends when it is told that the
channel is closed, or when a write fails: the peer's EOF shuts the socket's write half
down and the loop goes on waiting. So between two ends of this code the first CLOSE
has to come from a failed write, and a channel whose two streams simply end stays.
-/

namespace Shh.Channels

open List Wire Semaphores Runs

namespace Pair

variable {platform : Side → Platform} {pair next : Pair} {event : Side × End.Label} {side : Side}

/-- What holds of two ends of this code whatever becomes of their tasks: neither
sends more than the other has room for. -/
structure Lawful (platform : Side → Platform) (pair : Pair) : Prop where
  carried : pair.Carried
  linked : ∀ side, Linked (pair side)
  credited : ∀ side, Credited (platform side) localWindow maxChunk (pair side)
  within : ∀ side, Within (pair side)
  metered : ∀ side, Metered (pair side)

theorem Lawful.start {tasks : Side → Task} (fresh : ∀ side, (tasks side).Fresh) (endOnClose : Side → Bool)
    (ids : Side → Nat) : (Pair.make platform tasks endOnClose ids).Lawful platform where
  carried := fun _ => prefix_rfl
  linked := fun side => .start (platform side) (fresh side) _ _ _ _
  credited := fun side => .start (platform side) (tasks side) _ _ (by decide)
  within := fun side => .start (platform side) (fresh side) _ _ _ _
  metered := fun _ => .start _ _ _ _ _ _

theorem lawful_step (lawful : pair.Lawful platform) (ran : pair.step platform event = some next) :
    next.Lawful platform := by
  have carried := carried_step lawful.carried ran
  obtain ⟨stay, moved, rfl, _⟩ := step_cases ran
  have linked := lawful.linked event.1
  refine ⟨carried, fun side => ?_, fun side => ?_, fun side => ?_, fun side => ?_⟩
  · exact after_move Linked (lawful.linked side) fun _ => linked_step linked moved
  · refine after_move (Credited (platform side) localWindow maxChunk) (lawful.credited side) ?_
    rintro rfl
    exact credited_step linked (lawful.credited _) moved
  · exact after_move Within (lawful.within side) fun _ => within_step linked (lawful.within _) moved
  · exact after_move Metered (lawful.metered side) fun _ => metered_step (lawful.within _) (lawful.metered _) moved

/-- The next message on its way is accepted. -/
theorem Lawful.accepts (lawful : pair.Lawful platform) {message : Message} {chan : Chan}
    (allowed : pair.allows side (.hear message) = true) (there : (pair side).chan = some chan) :
    ∃ turn, chan.deliver (platform side) (pair side).line message = .ok turn := by
  obtain ⟨rest, flight⟩ := allows_hear allowed
  have arrives {size} (event : ToTask) (part : size ≤ sizes (pair.flight side)) :
      ∃ turn, chan.onData (pair side).line size event = .ok turn := by
    -- What the other end has sent was granted, and what it was granted this end has sent.
    have sent := (lawful.credited side.other).within
    have granted := lawful.carried.sent_eq side.other
    have metered := (lawful.metered side chan there).1
    have total := lawful.within side chan there
    rw [lawful.carried.sent_eq side, sizes_append] at sent
    rw [Side.other_other] at granted
    rw [granted, grants_append] at metered
    simp only [End.total, Chan.account] at total
    have narrow : localWindow < 2 ^ 32 := by decide
    unfold Chan.onData
    rw [if_neg (by omega), if_neg (by omega)]
    exact ⟨_, rfl⟩
  cases message with
  | data bytes | extData kind bytes =>
    apply arrives
    rw [flight]
    exact Nat.le_add_right _ _
  | _ => exact ⟨_, rfl⟩

end Pair

section Closing

variable {platform : Platform} {stay next : End} {label : End.Label}

/-- A forwarded stream that has ended has asked for CLOSE. -/
theorem Forward.step_asks {remoteMax} {task next : Forward} {line after : Line} {label}
    (ran : task.step remoteMax line label = some (next, after)) (stopped : next.running = false)
    (alive : line.gone = false) : .close ∈ after.cmds := by
  have asks {task : Forward} {line : Line} (stopped : task.running = false) (alive : line.gone = false) :
      .close ∈ (task.join line).2.cmds := by
    simp [join, stopped, Line.send, alive]
  have reader {task : Forward} (stopped : task.running = false) : task.reader = .ended := by
    simp_all [running]
  have writer {task : Forward} (stopped : task.running = false) : task.writer = .ended := by
    simp_all [running]
  cases step_goes ran with
  | read => cases reader stopped
  | readEnds reading joined =>
    rw [joined]
    exact asks stopped ((send_same _ _).2.2.2.trans alive)
  | sent =>
    have ended := reader stopped
    dsimp only at ended
    split at ended <;> cases ended
  | waits sending => cases (reader stopped).symm.trans sending
  | refused sending shut joined =>
    rw [joined]
    exact asks stopped alive
  | lost sending dead => cases dead.symm.trans alive
  | @takes message rest _ _ waiting there result =>
    have ended := (message_writer waiting result).1.symm.trans (writer stopped)
    cases message with
    | close =>
      simp only [onMessage] at result
      have same : next = { task with writer := .ended } := by
        rw [← join_task { task with writer := .ended } { line with inbox := rest }, result]
      subst same
      have joined : after = (join { task with writer := .ended } { line with inbox := rest }).2 := by rw [result]
      rw [joined]
      exact asks stopped alive
    | data | eof | extData | request | reply => cases ended
  | hungUp waiting empty gone joined =>
    rw [joined]
    exact asks stopped alive
  | wrote | writes | shutdown => cases writer stopped
  | writeFails writing joined =>
    rw [joined]
    exact asks stopped alive

/-- How far an end is with closing its channel. -/
structure Closing (stay : End) : Prop where
  asked : stay.task.running = false → ∀ chan, stay.chan = some chan → .close ∈ stay.line.cmds ∨ chan.sentClose = true
  recorded : ∀ chan, stay.chan = some chan → chan.sentClose = true → .close ∈ stay.sent
  dropped : stay.chan = none → .close ∈ stay.sent
  heard : .close ∈ stay.heard → stay.chan = none

theorem closing_step (linked : Linked stay) (closing : Closing stay) (stream : ∃ task, stay.task = .forward task)
    (ran : stay.step platform label = some next) (up : label ≠ .fall)
    (accepted : ∀ message, label = .hear message → ∀ chan, stay.chan = some chan →
      ∃ turn, chan.deliver platform stay.line message = .ok turn) : Closing next := by
  cases End.step_happens ran with
  | unheard gone =>
    exact ⟨closing.asked, closing.recorded, closing.dropped, fun _ => gone⟩
  | @heard message chan turn there ok =>
    by_cases close : message = .close
    · -- CLOSE is answered by CLOSE, unless that was sent before.
      subst close
      cases ok
      have sent : .close ∈ stay.sent ++ (chan.onClose stay.line).sent := by
        rw [on_close_drops, mem_append]
        cases before : chan.sentClose with
        | true => exact .inl (closing.recorded chan there before)
        | false => exact .inr (by simp)
      have none : (End.take { stay with heard := stay.heard ++ [.close] } (chan.onClose stay.line)).chan = none := by
        unfold End.take
        dsimp only
        split <;> rfl
      refine ⟨fun _ chan there => (by cases none.symm.trans there),
        fun chan there => (by cases none.symm.trans there), fun _ => ?_, fun _ => none⟩
      rw [(take_logs _ _).1]
      exact sent
    · obtain ⟨kept, now, same, _, going⟩ := deliver_unclosed close ok
      have cmds := (deliver_grants ok).cmds
      rw [take_going going]
      refine ⟨?_, ?_, fun none => (by cases now.symm.trans none), ?_⟩
      · intro stopped record found
        cases now.symm.trans found
        rw [same]
        show _ ∈ turn.line.cmds ∨ _
        rw [cmds]
        exact closing.asked stopped chan there
      · intro record found closed
        cases now.symm.trans found
        exact mem_append_left _ (closing.recorded chan there (same ▸ closed))
      · intro member
        rcases mem_append.mp member with before | last
        · cases (closing.heard before).symm.trans there
        · exact absurd (mem_singleton.mp last).symm close
  | @broken message chan error there refused =>
    obtain ⟨turn, ok⟩ := accepted message rfl chan there
    cases ok.symm.trans refused
  | skipped queued gone =>
    exact ⟨fun _ chan there => (by cases gone.symm.trans there), closing.recorded, closing.dropped, closing.heard⟩
  | @processed cmd rest chan queued there =>
    have unheard : .close ∉ stay.heard := fun member => (by cases (closing.heard member).symm.trans there)
    by_cases close : cmd = .close
    · subst close
      have still := linked.still chan there
      simp only [Chan.command, Chan.closeIfDone, still, Bool.and_false, Bool.false_eq_true, if_false]
      rw [take_going rfl]
      have sent : .close ∈ stay.sent ++ if chan.sentClose then [] else [.close] := by
        rw [mem_append]
        cases before : chan.sentClose with
        | true => exact .inl (closing.recorded chan there before)
        | false => exact .inr (by simp)
      refine ⟨?_, fun _ _ _ => sent, (by simp), fun member => absurd member unheard⟩
      intro _ record found
      cases found
      exact .inr rfl
    · obtain ⟨kept, now, same, _, going, line⟩ := @command_unclosed chan { stay.line with cmds := rest } cmd close
      rw [take_going going]
      refine ⟨?_, ?_, fun none => (by cases now.symm.trans none), fun member => absurd member unheard⟩
      · intro stopped record found
        cases now.symm.trans found
        rw [same]
        show _ ∈ Line.cmds (Turn.line _) ∨ _
        rw [line]
        refine (closing.asked stopped chan there).imp_left fun member => ?_
        rw [queued] at member
        exact (mem_cons.mp member).resolve_left fun first => close first.symm
      · intro record found closed
        cases now.symm.trans found
        exact mem_append_left _ (closing.recorded chan there (same ▸ closed))
  | fell => exact absurd rfl up
  | acted moved =>
    refine ⟨?_, closing.recorded, closing.dropped, closing.heard⟩
    intro stopped chan there
    obtain ⟨task, kind⟩ := stream
    have alive := linked.alive (by rw [show stay.chan = _ from there]; exact nofun)
    rw [kind] at moved
    obtain ⟨mine, cause, later, same, stepped, rfl, _⟩ | ⟨_, _, _, other, _⟩ | ⟨_, _, _, other, _⟩ :=
      Task.step_cases moved
    · exact .inl (Forward.step_asks stepped stopped alive)
    · cases other
    · cases other

end Closing

section Teardown

open Pair

variable {platform : Side → Platform} {pair next : Pair} {mover : Side} {label : End.Label}
  {events : List (Side × End.Label)}

variable {stay : End}

/-- A write to an end's socket fails. -/
abbrev failure (side : Side) : Side × End.Label := (side, .act (.forward .writeFails))

/-- A writing loop that has ended has ended for good. -/
theorem Forward.step_writer_ended {remoteMax} {task next : Forward} {line after label}
    (ended : task.writer = .ended) (ran : task.step remoteMax line label = some (next, after)) :
    next.writer = .ended := by
  cases step_goes ran with
  | read | readEnds | sent | waits | refused | lost => exact ended
  | takes busy | hungUp busy | wrote busy | writes busy | writeFails busy | shutdown busy =>
    cases ended.symm.trans busy

/-- The writing loop of an end has ended. -/
def WriterEnded (stay : End) : Prop := ∃ task, stay.task = .forward task ∧ task.writer = .ended

theorem writer_ended_step {platform next} (ended : WriterEnded stay)
    (ran : stay.step platform label = some next) : WriterEnded next := by
  obtain ⟨task, kind, stopped⟩ := ended
  rcases step_task ran with ⟨cause, _, took⟩ | ⟨_, same⟩
  · rw [kind] at took
    obtain ⟨mine, _, later, same, stepped, now, _⟩ | ⟨_, _, _, other, _⟩ | ⟨_, _, _, other, _⟩ := Task.step_cases took
    · obtain rfl := Task.forward.inj same
      exact ⟨later, now, Forward.step_writer_ended stopped stepped⟩
    · cases other
    · cases other
  · exact ⟨task, same.trans kind, stopped⟩

/-- A failed write ends the loop. -/
theorem failure_ends {platform next}
    (ran : stay.step platform (.act (.forward .writeFails)) = some next) : WriterEnded next := by
  cases End.step_happens ran with
  | acted moved =>
    obtain ⟨mine, cause, later, _, stepped, rfl, same⟩ | ⟨_, _, _, _, _, _, other⟩ | ⟨_, _, _, _, _, _, other⟩ :=
      Task.step_cases moved
    · obtain rfl := Task.Label.forward.inj same
      cases Forward.step_goes stepped with
      | writeFails => exact ⟨_, rfl, rfl⟩
    · cases other
    · cases other

/-- The writing loop of an end goes on, and nothing tells it to end. -/
def WriterGoing (stay : End) : Prop :=
  .close ∉ stay.line.inbox ∧ ∃ task, stay.task = .forward task ∧ task.writer ≠ .ended

theorem WriterGoing.running (going : WriterGoing stay) : stay.task.running = true := by
  obtain ⟨_, task, kind, busy⟩ := going
  rw [kind]
  simp [Task.running, Forward.running, busy]

theorem writer_going_step {platform next} (linked : Linked stay) (there : stay.chan ≠ none)
    (going : WriterGoing stay) (ran : stay.step platform label = some next) (up : label ≠ .fall)
    (intact : label ≠ .act (.forward .writeFails)) (open_ : label ≠ .hear .close) : WriterGoing next := by
  obtain ⟨quiet, task, kind, busy⟩ := going
  cases End.step_happens ran with
  | unheard | broken | skipped => exact ⟨quiet, task, kind, busy⟩
  | @heard message chan turn before ok =>
    have plain : chan.isSession = false := by
      rw [linked.kind chan before, kind]
      rfl
    refine End.take_keeps WriterGoing (fun _ going => going) ⟨?_, task, kind, busy⟩
    show _ ∉ turn.line.inbox
    rw [deliver_event plain ok, mem_append, not_or]
    refine ⟨quiet, fun member => ?_⟩
    cases message with
    | close => exact open_ rfl
    | data | extData | adjust | eof | request | reply => simp [Message.event] at member
  | @processed cmd rest chan queued before =>
    refine End.take_keeps WriterGoing (fun _ going => going) ⟨?_, task, kind, busy⟩
    show _ ∉ Line.inbox (Turn.line _)
    rw [command_inbox]
    exact quiet
  | fell => exact absurd rfl up
  | acted moved =>
    have tethered : stay.line.hungUp = false := by
      rw [linked.hungUp, Option.isNone_eq_false_iff, Option.isSome_iff_ne_none]
      exact there
    rw [kind] at moved
    obtain ⟨mine, cause, later, same, stepped, rfl, cause_eq⟩ | ⟨_, _, _, other, _⟩ | ⟨_, _, _, other, _⟩ :=
      Task.step_cases moved
    · obtain rfl := Task.forward.inj same
      cases Forward.step_goes stepped with
      | read | sent | waits => exact ⟨quiet, _, rfl, busy⟩
      | readEnds _ joined =>
        refine ⟨?_, _, rfl, busy⟩
        show _ ∉ Line.inbox _
        rw [joined, Forward.join_inbox, (send_same _ _).2.1]
        exact quiet
      | refused _ _ joined | lost _ _ _ _ joined =>
        refine ⟨?_, _, rfl, busy⟩
        show _ ∉ Line.inbox _
        rw [joined, Forward.join_inbox]
        exact quiet
      | @takes message left _ _ waiting found result =>
        obtain ⟨writer, _, _, inbox⟩ := Forward.message_writer waiting result
        rw [found, mem_cons, not_or] at quiet
        refine ⟨by show _ ∉ Line.inbox _; rw [inbox]; exact quiet.2, _, rfl, ?_⟩
        rw [writer]
        cases message with
        | close => exact absurd rfl quiet.1
        | data | extData | eof | request | reply => rintro ⟨⟩
      | hungUp _ _ gone => cases tethered.symm.trans gone
      | wrote =>
        refine ⟨?_, _, rfl, by rintro ⟨⟩⟩
        show _ ∉ Line.inbox _
        rw [(send_same _ _).2.1]
        exact quiet
      | writes | shutdown => exact ⟨quiet, _, rfl, by rintro ⟨⟩⟩
      | writeFails => exact absurd (congrArg End.Label.act cause_eq) intact
    · cases other
    · cases other

/-- Steps with connections that stay up. -/
def Pair.up (_ : Pair) (event : Side × End.Label) : Bool := event.2 ≠ .fall

/-- Both streams have ended, both EOFs have been heard, and nothing is on its way to
an end, to a loop or to a task that would take it. -/
def Pair.Finished (pair : Pair) : Prop :=
  ∀ side, .eof ∈ (pair side).heard ∧ pair.flight side = [] ∧ (pair side).line.cmds = [] ∧
    ∃ task, (pair side).task = .forward task ∧ task.reader = .ended ∧
      ((pair side).line.inbox = [] ∨ task.writer = .ended)

/-- What holds of a forwarded stream after the events of a run. -/
structure Pair.Ending (platform : Side → Platform) (past : List (Side × End.Label)) (pair : Pair) : Prop where
  lawful : pair.Lawful platform
  piped : pair.Piped
  closing : ∀ side, Closing (pair side)
  failed : ∀ side, failure side ∈ past → WriterEnded (pair side)
  intact : (∀ side, failure side ∉ past) → pair.Whole ∧ ∀ side, WriterGoing (pair side)

theorem ending_start (endOnClose : Side → Bool) (ids : Side → Nat) :
    (Pair.make platform (fun _ => .forward .start) endOnClose ids).Ending platform [] where
  lawful := .start (fun _ => .forward) endOnClose ids
  piped := piped_start endOnClose ids (fun _ => localWindow) (fun _ => maxChunk)
  closing := fun _ => ⟨nofun, fun chan there closed => by
    cases there
    exact absurd closed nofun, nofun, nofun⟩
  failed := fun _ => nofun
  intact := fun _ => ⟨whole_start .streams endOnClose ids, fun _ => ⟨nofun, .start, rfl, nofun⟩⟩

theorem ending_step {past : List (Side × End.Label)} (ending : pair.Ending platform past)
    (ran : pair.step platform (mover, label) = some next) (up : label ≠ .fall) :
    next.Ending platform (past ++ [(mover, label)]) := by
  have lawful := lawful_step ending.lawful ran
  have piped := piped_step ending.piped ran
  have stream : ∃ task, (pair mover).task = .forward task := by
    obtain ⟨task, pours⟩ := ending.piped.pouring mover
    exact ⟨task, pours.kind⟩
  obtain ⟨stay, moved, shape, allowed⟩ := step_cases ran
  refine ⟨lawful, piped, fun side => ?_, fun side member => ?_, fun none => ?_⟩
  · rw [shape]
    refine after_move Closing (ending.closing side) fun _ => ?_
    refine closing_step (ending.lawful.linked mover) (ending.closing mover) stream moved up ?_
    rintro message rfl chan there
    exact ending.lawful.accepts allowed there
  · rw [shape]
    rcases mem_append.mp member with before | last
    · exact after_move WriterEnded (ending.failed side before) fun same =>
        writer_ended_step (ending.failed mover (same ▸ before)) moved
    · cases mem_singleton.mp last
      rw [Function.update_self]
      exact failure_ends moved
  · obtain ⟨whole, going⟩ := ending.intact fun side before => none side (mem_append_left _ before)
    have intact : label ≠ .act (.forward .writeFails) := by
      rintro rfl
      exact none mover (mem_append_right _ (mem_singleton.mpr rfl))
    have flowing := whole.flowing fun side => (going side).running
    refine ⟨whole_step whole ran up intact, fun side => ?_⟩
    rw [shape]
    refine after_move WriterGoing (going side) fun _ => ?_
    refine writer_going_step (whole.linked mover) (flowing.unclosed mover).there (going mover) moved up intact ?_
    rintro rfl
    exact (@Flowing.fair platform pair flowing whole.carried _ _ allowed).1 rfl

/-- When both streams have ended and everything has been dealt with, the channel is
gone from both ends if a write to one of the sockets has failed, and otherwise from
neither. -/
theorem ended_stream_dropped_iff {endOnClose : Side → Bool} {ids : Side → Nat}
    (path : Path (guarded (Pair.step platform) Pair.up) (Pair.make platform (fun _ => .forward .start) endOnClose ids)
      events pair)
    (finished : pair.Finished) :
    (∀ side, (pair side).chan = none) ↔ ∃ side, failure side ∈ events := by
  have ending : pair.Ending platform events := by
    refine path_invariant (fun past pair => pair.Ending platform past) (ending_start endOnClose ids) ?_ path
    intro past before event after _ ran ending
    obtain ⟨up, ran⟩ := guarded_eq_some.mp ran
    exact ending_step ending ran (of_decide_eq_true up)
  have all (side : Side) : (pair side.other).sent = (pair side).heard := by
    rw [ending.piped.carried.sent_eq side, (finished side).2.1, append_nil]
  constructor
  · intro dropped
    by_contra none
    obtain ⟨whole, going⟩ := ending.intact fun side failed => none ⟨side, failed⟩
    have flowing := whole.flowing fun side => (going side).running
    exact (flowing.unclosed .opener).there (dropped .opener)
  · rintro ⟨side, failed⟩
    obtain ⟨task, kind, writer⟩ := ending.failed side failed
    obtain ⟨_, _, idle, other, same, reader, _⟩ := finished side
    obtain rfl := Task.forward.inj (kind.symm.trans same)
    have stopped : (pair side).task.running = false := by
      rw [kind]
      simp [Task.running, Forward.running, reader, writer]
    -- Its CLOSE has been sent, so the other end has dropped the channel and answered.
    have sent : .close ∈ (pair side).sent := by
      cases there : (pair side).chan with
      | none => exact (ending.closing side).dropped there
      | some chan =>
        refine (ending.closing side).recorded chan there ?_
        refine ((ending.closing side).asked stopped chan there).resolve_left ?_
        rw [idle]
        intro clash
        cases clash
    have far : (pair side.other).chan = none := by
      apply (ending.closing side.other).heard
      rw [← all, Side.other_other]
      exact sent
    have near : (pair side).chan = none := by
      apply (ending.closing side).heard
      rw [← all]
      exact (ending.closing side.other).dropped far
    intro party
    rcases Side.eq_or_other party side with rfl | rfl
    · exact near
    · exact far

/-- Both sockets end, and both EOFs are heard and acted on. -/
def bothEnd : List (Side × End.Label) :=
  [(.opener, .act (.forward .readEnds)), (.acceptor, .act (.forward .readEnds)), (.opener, .process),
    (.acceptor, .process), (.opener, .hear .eof), (.acceptor, .hear .eof), (.opener, .act (.forward .recv)),
    (.acceptor, .act (.forward .recv)), (.opener, .act (.forward .shutdown)), (.acceptor, .act (.forward .shutdown))]

/-- The channel stays at both ends. -/
theorem ended_stream_stays : ∃ pair : Pair,
    Path (guarded (Pair.step mixedPlatforms) Pair.up)
      (Pair.make mixedPlatforms (fun _ => .forward .start) (fun _ => false) (fun _ => 0)) bothEnd pair ∧
    pair.Finished ∧ ∀ side, (pair side).chan ≠ none := by
  have path := @path_of_foldlM _ _ (guarded (Pair.step mixedPlatforms) Pair.up)
    (Pair.make mixedPlatforms (fun _ => .forward .start) (fun _ => false) (fun _ => 0)) _ bothEnd rfl
  refine ⟨_, path, ?_, ?_⟩
  · intro side
    cases side <;> exact ⟨.head _, rfl, rfl, _, rfl, rfl, .inl rfl⟩
  · intro side
    cases side <;> exact nofun

/-- A write fails after the acceptor's socket has ended. -/
def writeFailsAtEnd : List (Side × End.Label) :=
  [(.acceptor, .act (.forward .readEnds)), (.acceptor, .process), (.opener, .hear .eof),
    (.opener, .act (.forward .recv)), (.opener, .act (.forward .shutdown)), (.opener, .act (.forward (.read [1]))),
    (.opener, .act (.forward .send)), (.opener, .act (.forward .readEnds)), (.opener, .process), (.opener, .process),
    (.acceptor, .hear (.data [1])), (.acceptor, .hear .eof), (.acceptor, .act (.forward .recv)),
    (.acceptor, .act (.forward .writeFails)), (.acceptor, .process), (.opener, .hear .close),
    (.acceptor, .hear .close), (.opener, .act (.forward .recv)), (.opener, .process)]

theorem ended_stream_dropped_failing : ∃ pair : Pair,
    Path (guarded (Pair.step mixedPlatforms) Pair.up)
      (Pair.make mixedPlatforms (fun _ => .forward .start) (fun _ => false) (fun _ => 0)) writeFailsAtEnd pair ∧
    pair.Finished ∧ ∀ side, (pair side).chan = none := by
  have path := @path_of_foldlM _ _ (guarded (Pair.step mixedPlatforms) Pair.up)
    (Pair.make mixedPlatforms (fun _ => .forward .start) (fun _ => false) (fun _ => 0)) _ writeFailsAtEnd rfl
  refine ⟨_, path, ?finished, (ended_stream_dropped_iff path ?finished).mpr ⟨.acceptor, by decide⟩⟩
  intro side
  cases side with
  | opener => exact ⟨.head _, rfl, rfl, _, rfl, rfl, .inl rfl⟩
  | acceptor => exact ⟨.tail _ (.head _), rfl, rfl, _, rfl, rfl, .inr rfl⟩

end Teardown

end Shh.Channels
