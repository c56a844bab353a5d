import Shh.Endings

/-!
# The peer's window

What an end sends never exceeds what its peer has granted: every chunk is paid for
with permits before it is queued, and permits come only from the window the peer
advertised and from its WINDOW_ADJUSTs. The two queues and the semaphore between
task and loop are accounted for in one sum, which no step increases by more than
the peer has granted in it.
-/

namespace Shh.Channels

open List Wire Semaphores Runs

section Turns

variable {platform : Platform} {chan : Chan} {line : Line} {turn : Turn} {message : Message} {remoteMax : Nat}

/-- A message with data carries a chunk of a permitted size. -/
def Message.Fits (remoteMax : Nat) : Message → Prop
  | .data bytes | .extData _ bytes => bytes ≠ [] ∧ bytes.length ≤ remoteMax
  | _ => True

/-- An adjust is granted up to what a window or a semaphore can hold beside what is
available. -/
theorem adjust_permits (platform : Platform) (credit : Semaphore) (add : Nat) :
    (Chan.onWindowAdjust platform credit add).permits =
      credit.permits + min add (min windowMax platform.maxPermits - credit.available) := by
  unfold Chan.onWindowAdjust
  dsimp only
  split
  · rfl
  · omega

/-- A CLOSE of the peer drops the channel, whoever closed first. -/
theorem on_close_drops (chan : Chan) (line : Line) : chan.onClose line =
    ⟨none, (line.push .close).hangUp, if chan.sentClose then [] else [.close], chan.endOnClose⟩ := rfl

/-- What a message of the peer does to the sending side of a channel. -/
structure Grants (platform : Platform) (granted : Nat) (line : Line) (turn : Turn) : Prop where
  cmds : turn.line.cmds = line.cmds
  permits : turn.line.credit.permits =
    line.credit.permits + min granted (min windowMax platform.maxPermits - line.credit.available)
  waiting : turn.line.credit.waiting = line.credit.waiting
  closed : turn.line.credit.closed = false → line.credit.closed = false
  size : sizes turn.sent = 0
  fits : ∀ remoteMax, ∀ answer ∈ turn.sent, answer.Fits remoteMax

theorem deliver_grants (ok : chan.deliver platform line message = .ok turn) :
    Grants platform message.granted line turn := by
  have adjusted := adjust_permits platform line.credit
  constructor <;> cases message <;>
    grind [sizes, Message.size, Message.granted, Message.Fits, Semaphore.close, Semaphore.add, Chan.onWindowAdjust]

/-- What a command does to the sending side: its data, if any, is sent as it is. -/
structure Carries (remoteMax : Nat) (cmd : Cmd) (line : Line) (turn : Turn) : Prop where
  cmds : turn.line.cmds = line.cmds
  permits : turn.line.credit.permits = line.credit.permits
  waiting : turn.line.credit.waiting = line.credit.waiting
  closed : turn.line.credit.closed = false → line.credit.closed = false
  size : sizes turn.sent = cmd.size
  fits : cmd.Fits remoteMax → ∀ message ∈ turn.sent, message.Fits remoteMax

theorem command_carries (chan : Chan) (line : Line) (remoteMax : Nat) (cmd : Cmd) :
    Carries remoteMax cmd line (chan.command line cmd) := by
  constructor <;> cases cmd <;>
    grind [sizes, Message.size, Cmd.size, Message.Fits, Cmd.Fits, Semaphore.close]

end Turns

section Open

variable {platform : Platform} {chan : Chan} {line : Line} {turn : Turn} {message : Message} {stay next : End}
  {label : End.Label}

/-- A command on a channel that the peer has not closed keeps the channel. -/
theorem command_open (still : chan.peerClosed = false) (line : Line) (cmd : Cmd) :
    ∃ kept sent, chan.command line cmd = ⟨some kept, line, sent, false⟩ ∧ kept.peerClosed = false ∧
      kept.isSession = chan.isSession := by
  generalize turned : chan.command line cmd = turn
  cases cmd <;> grind

/-- The channel is kept and its line is as whole as it was. -/
def Turn.Keeps (chan : Chan) (line : Line) (turn : Turn) : Prop :=
  ∃ kept, turn.chan = some kept ∧ kept.peerClosed = false ∧ kept.isSession = chan.isSession ∧
  turn.line.hungUp = line.hungUp ∧
    turn.line.credit.closed = line.credit.closed ∧ turn.line.gone = line.gone ∧ turn.done = false

/-- A message of the peer keeps the channel, unless it is CLOSE. -/
theorem deliver_open (still : chan.peerClosed = false) (ok : chan.deliver platform line message = .ok turn) :
    turn.Keeps chan line ∨ (message = .close ∧ turn.chan = none ∧ turn.line = (line.push .close).hangUp) := by
  cases message <;> grind [Turn.Keeps, Chan.onWindowAdjust, Semaphore.add]

/-- The line tells the task whether the loop still has the channel; one that it has
was not closed by the peer. -/
structure Linked (stay : End) : Prop where
  sound : stay.task.Sound
  positive : 0 < stay.remoteMax
  bounded : stay.remoteMax ≤ maxChunk
  still : ∀ chan, stay.chan = some chan → chan.peerClosed = false
  kind : ∀ chan, stay.chan = some chan → chan.isSession = stay.task.isSession
  hungUp : stay.line.hungUp = stay.chan.isNone
  closed : stay.line.credit.closed = stay.chan.isNone
  alive : stay.chan ≠ none → stay.line.gone = false

theorem Linked.start (platform : Platform) {task : Task} (fresh : task.Fresh) (endOnClose : Bool)
    (peerId peerWindow peerMax : Nat) : Linked (.make platform task endOnClose peerId peerWindow peerMax) where
  sound := fresh.sound
  positive := Nat.lt_of_lt_of_le Nat.zero_lt_one (Nat.le_max_left _ _)
  bounded := Nat.max_le.mpr ⟨by decide, Nat.min_le_right _ _⟩
  still := by
    intro chan same
    cases same
    rfl
  kind := by
    intro chan same
    cases same
    rfl
  hungUp := rfl
  closed := rfl
  alive := fun _ => rfl

theorem Linked.falls (linked : Linked stay) : Linked stay.fallen :=
  ⟨linked.sound, linked.positive, linked.bounded, nofun, nofun, rfl, rfl, fun there => absurd rfl there⟩

theorem Linked.delivers (linked : Linked stay) (there : stay.chan = some chan)
    (ok : chan.deliver platform stay.line message = .ok turn) :
    Linked (.take { stay with heard := stay.heard ++ [message] } turn) := by
  refine End.take_keeps Linked (fun _ => Linked.falls) ?_
  rcases deliver_open (linked.still _ there) ok with
    ⟨kept, now, still, kind, hungUp, closed, gone, _⟩ | ⟨_, now, line⟩
  · have alive := linked.alive (by rw [there]; exact nofun)
    refine ⟨linked.sound, linked.positive, linked.bounded, ?_, ?_, ?_, ?_, fun _ => gone.trans alive⟩
    · intro other same
      cases now.symm.trans same
      exact still
    · intro other same
      cases now.symm.trans same
      exact kind.trans (linked.kind _ there)
    · rw [hungUp, linked.hungUp, there, now]
      rfl
    · rw [closed, linked.closed, there, now]
      rfl
  · rw [now, line]
    exact ⟨linked.sound, linked.positive, linked.bounded, nofun, nofun, rfl, rfl, fun there => absurd rfl there⟩

theorem Linked.commands {rest} (linked : Linked stay) (there : stay.chan = some chan) (cmd : Cmd) :
    Linked (.take { stay with line := { stay.line with cmds := rest } }
      (chan.command { stay.line with cmds := rest } cmd)) := by
  refine End.take_keeps Linked (fun _ => Linked.falls) ?_
  obtain ⟨kept, sent, result, still, kind⟩ :=
    command_open (linked.still _ there) { stay.line with cmds := rest } cmd
  rw [result]
  refine ⟨linked.sound, linked.positive, linked.bounded, ?_, ?_, ?_, ?_,
    fun _ => linked.alive (by rw [there]; exact nofun)⟩
  · intro other same
    cases same
    exact still
  · intro other same
    cases same
    exact kind.trans (linked.kind _ there)
  · exact linked.hungUp.trans (by rw [there]; rfl)
  · exact linked.closed.trans (by rw [there]; rfl)

theorem linked_step (linked : Linked stay) (ran : stay.step platform label = some next) : Linked next := by
  cases End.step_happens ran with
  | unheard | skipped => exact { linked with }
  | heard there ok => exact linked.delivers there ok
  | broken there refused => exact Linked.falls { linked with }
  | processed queued there => exact linked.commands there _
  | fell => exact linked.falls
  | acted moved =>
    have pays := (Task.step_does linked.sound moved).pays
    have kind := Task.step_isSession moved
    exact ⟨Task.step_sound linked.sound moved, linked.positive, linked.bounded, linked.still,
      fun chan there => (linked.kind chan there).trans kind.symm, pays.hungUp.trans linked.hungUp,
      pays.closed.trans linked.closed, fun there => pays.gone.trans (linked.alive there)⟩

theorem linked_path {task : Task} {endOnClose peerId peerWindow peerMax labels}
    (fresh : task.Fresh)
    (path : Path (End.step platform) (.make platform task endOnClose peerId peerWindow peerMax) labels stay) :
    Linked stay :=
  path_invariant (fun _ => Linked) (.start platform fresh _ _ _ _) (fun _ _ _ _ _ ran linked => linked_step linked ran)
    path

end Open

section Requests

variable {remoteMax : Nat} {line after : Line} (unshut : line.credit.closed = false) (alive : line.gone = false)

include unshut alive

/-! What a task has read stays unsent until there is credit for its next chunk: a forwarded
stream may still write to its socket, and a session does nothing else at all. -/

theorem Forward.step_unsent {task : Forward} {label} {result : Forward × Line} (some : task.unsent ≠ [])
    (ran : task.step remoteMax line label = .some result) : result.1.unsent = task.unsent ∨
      min task.unsent.length remoteMax ≤ line.credit.permits ∧ result.2.credit.waiting = 0 := by
  obtain ⟨next, after⟩ := result
  have busy (reading : task.reader = .reading) : False := some (by simp only [unsent, reading])
  cases step_goes ran with
  | read reading | readEnds reading => exact (busy reading).elim
  | sent sending enough => exact .inr ⟨by simpa only [unsent, sending] using enough, rfl⟩
  | refused _ shut => cases unshut.symm.trans shut
  | lost _ dead => cases alive.symm.trans dead
  | takes _ _ result => exact .inl (by simp only [unsent, message_reader result])
  | waits | hungUp | wrote | writes | writeFails | shutdown => exact .inl rfl

theorem Client.step_unsent {task : Client} {label} {result : Client × Line} (some : task.unsent ≠ [])
    (ran : task.step remoteMax line label = .some result) : result.1.unsent = task.unsent ∨
      min task.unsent.length remoteMax ≤ line.credit.permits ∧ result.2.credit.waiting = 0 := by
  have turn := send_credited_cases line remoteMax
  cases label <;> grind [Client.unsent, step, Work.unsent]

theorem Server.step_unsent {task : Server} {label} {result : Server × Line} (some : task.unsent ≠ [])
    (ran : task.step remoteMax line label = .some result) : result.1.unsent = task.unsent ∨
      min task.unsent.length remoteMax ≤ line.credit.permits ∧ result.2.credit.waiting = 0 := by
  have turn := send_credited_cases line remoteMax
  have pumped (line : Line) : (task.pump line).2.credit = line.credit := (pump_plain task line).2.alike.credit
  cases label <;> grind [Server.unsent, step, Work.unsent]

theorem Task.step_unsent {task next : Task} {label} (some : task.unsent ≠ [])
    (ran : task.step remoteMax line label = .some (next, after)) : next.unsent = task.unsent ∨
      min task.unsent.length remoteMax ≤ line.credit.permits ∧ after.credit.waiting = 0 := by
  obtain ⟨mine, cause, result, rfl, moved, rfl, _⟩ | ⟨mine, cause, result, rfl, moved, rfl, _⟩ |
    ⟨mine, cause, result, rfl, moved, rfl, _⟩ := Task.step_cases ran
  · exact Forward.step_unsent unshut alive some moved
  · exact Client.step_unsent unshut alive some moved
  · exact Server.step_unsent unshut alive some moved

/-- What a step does to the permits of a task whose request, if one waits, is for no more
than its next chunk. -/
theorem Does.requests {task : Task} {label held kept}
    (does : Does task label remoteMax held line kept after) (asks : line.credit.waiting ≤ min task.unsent.length remoteMax) :
    after.credit.waiting ≤ min task.unsent.length remoteMax ∧ after.credit.available ≤ line.credit.available := by
  have same (credit : after.credit = line.credit) :
      after.credit.waiting ≤ min task.unsent.length remoteMax ∧ after.credit.available ≤ line.credit.available := by
    rw [credit]
    exact ⟨asks, Nat.le_refl _⟩
  cases does with
  | said _ quietly | took _ _ _ quietly | discarded _ _ _ _ _ quietly | gaveUp _ _ quietly =>
    exact same quietly.alike.credit
  | noted _ _ _ quietly | reported _ quietly => exact same (quietly.alike.credit.trans (send_same _ _).1)
  | lost dead => cases alive.symm.trans dead
  | waited _ asked quietly =>
    have credit := quietly.alike.credit
    rw [asked unshut] at credit
    rw [credit]
    exact ⟨Nat.le_refl _, Nat.sub_le_sub_left asks _⟩
  | paid _ unsent _ _ _ _ quietly =>
    rw [quietly.alike.credit, ← unsent]
    exact ⟨Nat.zero_le _, Nat.sub_le_sub_left asks _⟩

end Requests

section Windows

variable {platform : Platform} {peerWindow peerMax : Nat} {stay next : End} {label : End.Label}

/-- The account of the bytes an end may send. -/
structure Credited (platform : Platform) (peerWindow peerMax : Nat) (stay : End) : Prop where
  largest : stay.remoteMax = max 1 (min peerMax maxChunk)
  /-- Sent, queued and still to be spent: no more than was granted. -/
  within : sizes stay.sent + stay.line.outgoing + stay.line.credit.permits ≤ peerWindow + grants stay.heard
  /-- A request that waits is for no more than the next chunk. -/
  asks : stay.line.credit.closed = false →
    stay.line.credit.waiting ≤ min stay.task.unsent.length stay.remoteMax
  ceiling : stay.line.credit.closed = false →
    stay.line.credit.available ≤ min windowMax platform.maxPermits
  queued : ∀ cmd ∈ stay.line.cmds, cmd.Fits stay.remoteMax
  chunks : ∀ message ∈ stay.sent, message.Fits stay.remoteMax

theorem Credited.start (platform : Platform) (task : Task) (endOnClose : Bool) (peerId : Nat)
    (word : peerWindow ≤ windowMax) :
    Credited platform peerWindow peerMax (End.make platform task endOnClose peerId peerWindow peerMax) where
  largest := rfl
  within := by
    simp only [End.make, Line.make, Line.outgoing, sizes, grants, Semaphore.make_permits, map_nil, sum_nil]
    omega
  asks := fun _ => Nat.zero_le _
  ceiling := fun _ => by
    simp only [End.make, Line.make, Semaphore.make, Semaphore.available]
    omega
  queued := nofun
  chunks := nofun

section

variable (credited : Credited platform peerWindow peerMax stay)

include credited

theorem Credited.falls :
    Credited platform peerWindow peerMax stay.fallen where
  largest := credited.largest
  within := by
    have within := credited.within
    simp only [End.fallen, Line.fall, Line.hangUp, Line.outgoing, Semaphore.close_permits, map_nil, sum_nil]
    omega
  asks := nofun
  ceiling := nofun
  queued := nofun
  chunks := credited.chunks

theorem Credited.hears (message : Message) :
    Credited platform peerWindow peerMax { stay with heard := stay.heard ++ [message] } :=
  { credited with
    within := by
      have within := credited.within
      dsimp only
      rw [grants_append]
      omega }

/-- A message of the peer adds to the credit no more than it grants. -/
theorem Credited.delivers {message} {chan : Chan} {turn}
    (ok : chan.deliver platform stay.line message = .ok turn) :
    Credited platform peerWindow peerMax (End.take { stay with heard := stay.heard ++ [message] } turn) := by
  have grant := deliver_grants ok
  refine End.take_keeps (Credited platform peerWindow peerMax) (fun _ => Credited.falls) ?_
  refine ⟨credited.largest, ?_, ?_, ?_, ?_, ?_⟩
  · have within := credited.within
    have added : grants [message] = message.granted := Nat.add_zero _
    simp only [Line.outgoing, grant.cmds, sizes_append, grants_append, grant.size, added, grant.permits] at within ⊢
    omega
  · intro unshut
    rw [grant.waiting]
    exact credited.asks (grant.closed unshut)
  · intro unshut
    have ceiling := credited.ceiling (grant.closed unshut)
    simp only [Semaphore.available, grant.permits, grant.waiting] at ceiling ⊢
    omega
  · rw [grant.cmds]
    exact credited.queued
  · intro answer member
    rcases mem_append.mp member with old | new
    · exact credited.chunks answer old
    · exact grant.fits _ answer new

end

/-- A command takes from the queue what it sends. -/
theorem Credited.commands {cmd rest} (chan : Chan)
    (credited : Credited platform peerWindow peerMax stay) (queued : stay.line.cmds = cmd :: rest) :
    Credited platform peerWindow peerMax (End.take { stay with line := { stay.line with cmds := rest } }
      (chan.command { stay.line with cmds := rest } cmd)) := by
  have carries := command_carries chan { stay.line with cmds := rest } stay.remoteMax cmd
  have first : cmd ∈ stay.line.cmds := queued ▸ mem_cons_self
  refine End.take_keeps (Credited platform peerWindow peerMax) (fun _ => Credited.falls) ?_
  refine ⟨credited.largest, ?_, ?_, ?_, ?_, ?_⟩
  · have within := credited.within
    simp only [Line.outgoing, queued, map_cons, sum_cons] at within
    simp only [Line.outgoing, carries.cmds, carries.permits, sizes_append, carries.size]
    omega
  · intro unshut
    rw [carries.waiting]
    exact credited.asks (carries.closed unshut)
  · intro unshut
    rw [Semaphore.available, carries.permits, carries.waiting]
    exact credited.ceiling (carries.closed unshut)
  · intro other member
    rw [carries.cmds] at member
    exact credited.queued other (queued ▸ mem_cons_of_mem _ member)
  · intro message member
    rcases mem_append.mp member with old | new
    · exact credited.chunks message old
    · exact carries.fits (credited.queued cmd first) message new

theorem credited_step (linked : Linked stay) (credited : Credited platform peerWindow peerMax stay)
    (ran : stay.step platform label = some next) : Credited platform peerWindow peerMax next := by
  cases End.step_happens ran with
  | unheard dropped => exact credited.hears _
  | heard there ok => exact credited.delivers ok
  | broken there refused => exact (credited.hears _).falls
  | skipped queued dropped =>
    refine { credited with within := ?_, queued := ?_ }
    · have within := credited.within
      simp only [Line.outgoing, queued, map_cons, sum_cons] at within ⊢
      omega
    · intro other member
      exact credited.queued other (queued ▸ mem_cons_of_mem _ member)
  | processed queued there => exact credited.commands _ queued
  | fell => exact credited.falls
  | acted moved =>
    have does := Task.step_does linked.sound moved
    have pays := does.pays
    have alive (unshut : stay.line.credit.closed = false) : stay.line.gone = false := by
      refine linked.alive fun dropped => ?_
      rw [linked.closed, dropped] at unshut
      cases unshut
    refine ⟨credited.largest, ?_, ?_, ?_, does.fits linked.positive credited.queued, credited.chunks⟩
    · have within := credited.within
      have paid := pays.paid
      dsimp only
      omega
    · intro unshut
      rw [pays.closed] at unshut
      have asks := credited.asks unshut
      have requests := does.requests unshut (alive unshut) asks
      dsimp only
      by_cases some : stay.task.unsent = []
      · rw [some] at requests
        exact Nat.le_trans requests.1 (by simp)
      · rcases Task.step_unsent unshut (alive unshut) some moved with same | ⟨_, none⟩
        · rw [same]
          exact requests.1
        · rw [none]
          exact Nat.zero_le _
    · intro unshut
      rw [pays.closed] at unshut
      have requests := does.requests unshut (alive unshut) (credited.asks unshut)
      exact Nat.le_trans requests.2 (credited.ceiling unshut)

/-- Where an adjust is no larger than what is left below the ceiling, counting the
permits set aside for a request that waits. -/
def End.roomy (platform : Platform) (stay : End) : End.Label → Bool
  | .hear (.adjust add) => stay.chan.isNone || stay.line.credit.waiting = 0 ||
      stay.line.credit.permits + add ≤ min windowMax platform.maxPermits
  | _ => true

/-- With such adjusts only, all permits together stay below the ceiling, and no more
than these are free when a request is given up. -/
theorem roomy_step {before after : End} {event} (linked : Linked before)
    (ran : guarded (End.step platform) (End.roomy platform) before event = some after)
    (ceiling : before.line.credit.permits ≤ min windowMax platform.maxPermits) :
    after.line.credit.permits ≤ min windowMax platform.maxPermits := by
  obtain ⟨roomy, moved⟩ := guarded_eq_some.mp ran
  have taken {stay : End} {turn : Turn} (kept : turn.line.credit.permits ≤ min windowMax platform.maxPermits) :
      (stay.take turn).line.credit.permits ≤ min windowMax platform.maxPermits :=
    End.take_keeps (·.line.credit.permits ≤ min windowMax platform.maxPermits) (fun _ kept => kept) kept
  cases End.step_happens moved with
  | unheard | broken | fell | skipped => exact ceiling
  | processed =>
    refine taken ?_
    rw [(command_carries _ _ 0 _).permits]
    exact ceiling
  | acted stepped => exact Nat.le_trans (Task.step_does linked.sound stepped).pays.spent ceiling
  | @heard message chan turn there ok =>
    refine taken ?_
    have grant := (deliver_grants ok).permits
    cases message with
    | adjust add =>
      simp only [End.roomy, there, Option.isNone_some, Bool.false_or, Bool.or_eq_true, decide_eq_true_eq] at roomy
      simp only [Message.granted, Semaphore.available] at grant
      omega
    | _ =>
      simp only [Message.granted, Nat.zero_min, Nat.add_zero] at grant
      rw [grant]
      exact ceiling

/-- At all times an end has sent no more data than the window its peer advertised
and the adjusts it has received, in chunks of a size the peer accepts; and while the
channel is open the free permits stay below what the semaphore can hold, also when
another adjust comes. They do so after the channel has closed too, when the permits of
a request given up then are free again, as long as every adjust left room for these. -/
theorem peer_window_respected (platform : Platform) {task : Task} (fresh : task.Fresh) (endOnClose : Bool)
    (peerId : Nat) (peerWindow peerMax : UInt32) {labels : List End.Label} {stay : End}
    (path : Path (End.step platform)
      (End.make platform task endOnClose peerId peerWindow.toNat peerMax.toNat) labels stay) :
    sizes stay.sent ≤ peerWindow.toNat + grants stay.heard ∧
      (∀ message ∈ stay.sent, message.Fits (max 1 (min peerMax.toNat maxChunk))) ∧
      (stay.line.credit.closed = false →
        stay.line.credit.available ≤ min (2 ^ 32 - 1) platform.maxPermits ∧
        ∀ add, (Chan.onWindowAdjust platform stay.line.credit add).available ≤ platform.maxPermits) ∧
      (Path (guarded (End.step platform) (End.roomy platform))
          (End.make platform task endOnClose peerId peerWindow.toNat peerMax.toNat) labels stay →
        stay.line.credit.available ≤ min (2 ^ 32 - 1) platform.maxPermits) := by
  have word : peerWindow.toNat ≤ windowMax := Nat.le_sub_one_of_lt peerWindow.toNat_lt
  have linked := Linked.start platform fresh endOnClose peerId peerWindow.toNat peerMax.toNat
  obtain ⟨_, credited⟩ := path_invariant
    (fun _ stay => Linked stay ∧ Credited platform peerWindow.toNat peerMax.toNat stay)
    ⟨linked, .start platform task _ _ word⟩
    (fun _ _ _ _ _ ran before => ⟨linked_step before.1 ran, credited_step before.1 before.2 ran⟩) path
  refine ⟨?_, ?_, ?_, ?_⟩
  · have within := credited.within
    omega
  · rw [← credited.largest]
    exact credited.chunks
  · intro unshut
    have ceiling := credited.ceiling unshut
    refine ⟨ceiling, fun add => ?_⟩
    have waiting : (Chan.onWindowAdjust platform stay.line.credit add).waiting = stay.line.credit.waiting := by
      unfold Chan.onWindowAdjust
      dsimp only
      split <;> rfl
    simp only [Semaphore.available, adjust_permits, waiting] at ceiling ⊢
    omega
  · intro roomy
    obtain ⟨_, below⟩ := path_invariant
      (fun _ stay => Linked stay ∧ stay.line.credit.permits ≤ min windowMax platform.maxPermits)
      ⟨linked, by simp only [End.make, Line.make, Semaphore.make_permits]; omega⟩
      (fun _ _ _ _ _ ran before =>
        ⟨linked_step before.1 (guarded_eq_some.mp ran).2, roomy_step before.1 ran before.2⟩) roomy
    exact Nat.le_trans (Nat.sub_le _ _) below

/-- A forwarded stream whose peer allows five bytes in chunks of three: four bytes
are read and sent in two chunks, and two more bytes are granted. -/
def smallChunks : List End.Label :=
  [.act (.forward (.read [1, 2, 3, 4])), .act (.forward .send), .act (.forward .send), .process, .process,
    .hear (.adjust 2)]

theorem peer_window_respected_small : ∃ stay,
    (smallChunks.foldlM (End.step ⟨true, true⟩) (.make ⟨true, true⟩ (.forward .start) false 0 5 3) = some stay ∧
      stay.sent = [.data [1, 2, 3], .data [4]] ∧ stay.line.credit = ⟨3, 0, false⟩) ∧
    sizes stay.sent ≤ 5 + grants stay.heard ∧ (∀ message ∈ stay.sent, message.Fits 3) ∧
    stay.line.credit.available ≤ min (2 ^ 32 - 1) (Platform.maxPermits ⟨true, true⟩) := by
  refine ⟨_, ⟨rfl, rfl, rfl⟩, ?_⟩
  obtain ⟨window, chunks, -, roomy⟩ :=
    peer_window_respected ⟨true, true⟩ .forward false 0 5 3 (path_of_foldlM smallChunks rfl)
  exact ⟨window, chunks, roomy (path_of_foldlM smallChunks rfl)⟩

/-- One permit is set aside for a chunk of two bytes when the peer grants all it can,
so that the adjust is cut to the whole ceiling, and the next one tops it up again. The
channel closes before the task has sent the chunk. -/
def givenUp : List End.Label :=
  [.act (.forward (.read [1, 2])), .act (.forward .send), .hear (.adjust (2 ^ 32 - 1)),
    .hear (.adjust (2 ^ 32 - 1)), .hear .close, .act (.forward .send)]

/-- The two permits of the request that is given up are free again beside a full
semaphore, on 64 bits beyond 2^32 - 1 and on 32 bits beyond what the semaphore holds. -/
theorem given_up_passes_ceiling :
    (∃ stay, givenUp.foldlM (End.step ⟨true, true⟩)
        (.make ⟨true, true⟩ (.forward .start) false 0 1 32768) = some stay ∧
      stay.line.credit.available = min (2 ^ 32 - 1) (Platform.maxPermits ⟨true, true⟩) + 2) ∧
    ∃ stay, givenUp.foldlM (End.step ⟨true, false⟩)
        (.make ⟨true, false⟩ (.forward .start) false 0 1 32768) = some stay ∧
      stay.line.credit.available = Platform.maxPermits ⟨true, false⟩ + 2 :=
  ⟨⟨_, rfl, rfl⟩, _, rfl, rfl⟩

end Windows

end Shh.Channels
