import Shh.Closings
import Shh.Outputs

/-!
# The channel and the process it was started for

Two decisions are made about a session's child. When it is started, its standard streams
are put on the terminal that was allocated, or on pipes; the server's own sftp is always on
pipes. Afterwards the task pumps the terminal if one was allocated, and the pipes
otherwise. The two agree unless sftp is asked for in a session that has a terminal: then
the task writes to a terminal that nobody reads, and the child's pipes lie still.

Where they agree, the child's standard input is the data of the channel, in order, and
what it writes to its standard output goes before the status, EOF and CLOSE.
-/

namespace Shh.Channels

open List Wire Semaphores Runs Server

namespace Server

/-- The child's standard streams are on the terminal. -/
def attached (task : Server) : Bool :=
  match task.program with
  | some (.shell _ _) => task.allocated
  | some .sftp | none => false

/-- The streams that are pumped are the child's. -/
def wired (task : Server) : Bool := task.attached = task.isPty

/-- What the child's standard input was given. -/
def reached (task : Server) : Bytes := if task.wired then task.fed else []

/-- Data taken from the queue and not yet written. -/
def inHand (task : Server) : Bytes :=
  match task.phase with
  | .early left | .pumping (.writing _ left _) => left
  | _ => task.earlyStdin

/-- Output that was read and not yet handed to the loop. -/
def emitting (task : Server) : Bytes :=
  match task.phase with
  | .pumping (.sending none left) => left
  | _ => []

end Server

/-- The standard output of a child: all that has come out of it, what of it was not read,
and whether all its writers are gone. On a terminal it is what the terminal makes of it. -/
structure Child where
  output : Bytes
  unread : Bytes
  closed : Bool
deriving DecidableEq, Repr

/-- What the streams of a child have the task see: writes succeed, and an output ends when
it was read to its end and has no writers. A stream that is not the child's is free. -/
def Child.lets (child : Child) (task : Server) : Server.Label → Bool
  | .writeFails => false
  | .readOut bytes => !task.wired || bytes.isPrefixOf child.unread
  | .outEnds => !task.wired || child.closed && child.unread.isEmpty
  | _ => true

/-- What is left to read. -/
def Child.after (child : Child) (task : Server) : Server.Label → Child
  | .readOut bytes => if task.wired then { child with unread := child.unread.drop bytes.length } else child
  | _ => child

/-- The server's end of a session, with the child it has started. -/
structure Hosted where
  stay : End
  child : Child
deriving DecidableEq, Repr

namespace Hosted

inductive Label where
  | stay (label : End.Label)
  /-- Bytes come out of the child. -/
  | writes (bytes : Bytes)
  /-- The child's output is closed by all who had it. -/
  | closes
deriving DecidableEq, Repr

def start (platform : Platform) (permitAgent : Bool) (forceCommand : Option String) (endOnClose : Bool)
    (peerId peerWindow peerMax : Nat) : Hosted :=
  ⟨.make platform (.server (.make permitAgent forceCommand)) endOnClose peerId peerWindow peerMax, [], [], false⟩

/-- A child was started. -/
def started (hosted : Hosted) : Bool :=
  match hosted.stay.task with
  | .server task => task.program.isSome
  | _ => false

def step (platform : Platform) (hosted : Hosted) : Label → Option Hosted
  | .stay (.act (.server label)) =>
    match hosted.stay.task with
    | .server task =>
      if hosted.child.lets task label then
        (hosted.stay.step platform (.act (.server label))).map fun stay => ⟨stay, hosted.child.after task label⟩
      else none
    | _ => none
  | .stay label => (hosted.stay.step platform label).map fun stay => { hosted with stay }
  | .writes bytes =>
    if hosted.started && !hosted.child.closed then
      some { hosted with child := ⟨hosted.child.output ++ bytes, hosted.child.unread ++ bytes, false⟩ }
    else none
  | .closes => if hosted.started then some { hosted with child := { hosted.child with closed := true } } else none

/-- The client sends no data after its EOF and closes the channel after the server, and no
sftp is asked for in a session that has a terminal and is free to run it. -/
def proper (hosted : Hosted) : Label → Bool
  | .stay (.hear (.data _)) => .eof ∉ hosted.stay.heard
  | .stay (.hear .close) => hosted.stay.chan.all Chan.sentClose
  | .stay (.act (.server (.recv _))) =>
    match hosted.stay.task, hosted.stay.line.inbox with
    | .server task, .request kind _ data :: _ =>
      !(task.phase = .waiting && task.allocated && task.forceCommand.isNone && kind = "subsystem" &&
        (Reader.utf8.parse data).toOption.getD "" = "sftp")
    | _, _ => true
  | _ => true

end Hosted

/-- Messages that say that there is no more to come. -/
def Message.final : Message → Bool
  | .eof | .close => true
  | .request kind _ _ => kind = "exit-status" || kind = "exit-signal"
  | _ => false

def Cmd.final : Cmd → Bool
  | .eof | .close => true
  | .request kind _ _ => kind = "exit-status" || kind = "exit-signal"
  | _ => false

/-- The channel is the child's standard input and output. -/
structure Hosted.Wired (platform : Platform) (hosted : Hosted) (task : Server) : Prop where
  /-- Nothing but the data of the channel reaches the child, in order. -/
  inOrder : task.reached <+: payloads hosted.stay.heard
  /-- While the channel is there, what has not reached the child is in hand or queued. -/
  whole : hosted.stay.chan ≠ none → payloads hosted.stay.heard =
    task.reached ++ task.inHand ++ payloads (hosted.stay.line.inbox.map ToTask.message)
  /-- A task that is not sending has only to go on for all of it to reach the child. -/
  goesOn : hosted.stay.chan ≠ none → task.running = true → (∀ ext left, task.phase ≠ .pumping (.sending ext left)) →
    ∃ (causes : List Server.Label) (later : Hosted) (fed : Server),
      Path (Hosted.step platform) hosted (causes.map fun cause => .stay (.act (.server cause))) later ∧
      later.stay.task = .server fed ∧ fed.reached = payloads hosted.stay.heard
  /-- The child's output goes before what ends the channel. -/
  drained : Licensed (fun before message => message.final = true →
    payloads before = hosted.child.output) hosted.stay.sent

section Input

/-- No data comes after EOF. -/
def Ordered (messages : List Message) : Prop :=
  Licensed (fun before message => message.payload ≠ [] → .eof ∉ before) messages

/-- What the task has taken from its queue has reached the stream it writes to or is in
hand, and input that was closed had ended. -/
structure Feeds (task : Server) (taken : List Message) : Prop where
  fed : payloads taken = task.fed ++ task.inHand
  settled : ∀ work, task.phase = .pumping work → task.earlyStdin = []
  ended : task.stdinEof = true → .eof ∈ taken
  shut : task.program ≠ none → task.isPty = false → task.stdinOpen = false → .eof ∈ taken
  pty : task.ptyOpen = task.isPty
  wired : task.program ≠ none → task.attached = task.isPty
  born : task.program = none → task.phase = .waiting ∨ task.phase = .ended
  unborn : task.phase = .waiting → task.program = none

variable {remoteMax : Nat} {task next : Server} {line after : Line} {label : Server.Label} {taken : List Message}

theorem feeds_start (permitAgent : Bool) (forceCommand : Option String) :
    Feeds (.make permitAgent forceCommand) [] where
  fed := rfl
  settled := nofun
  ended := nofun
  shut := fun clash => absurd rfl clash
  pty := rfl
  wired := fun clash => absurd rfl clash
  born := fun _ => .inl rfl
  unborn := fun _ => rfl

/-- A message without data. -/
theorem Feeds.more {message : Message} (feeds : Feeds task taken) (plain : message.payload = []) :
    Feeds task (taken ++ [message]) := by
  refine { feeds with fed := ?_, ended := ?_, shut := ?_ }
  · rw [payloads_snoc, feeds.fed, plain, append_nil]
  · exact fun ended => mem_append_left _ (feeds.ended ended)
  · exact fun runs pipes shut => mem_append_left _ (feeds.shut runs pipes shut)

/-- A task that neither waits nor has ended runs a child. -/
theorem Feeds.runs (feeds : Feeds task taken) (asked : task.phase ≠ .waiting) (going : task.phase ≠ .ended) :
    task.program ≠ none := by
  intro unborn
  rcases feeds.born unborn with clash | clash
  · exact asked clash
  · exact going clash

theorem with_phase {phase} (same : task.phase = phase) : { task with phase } = task := by
  rw [← same]

/-- The task ends. -/
theorem Feeds.ends (feeds : Feeds task taken) (empty : task.inHand = task.earlyStdin) :
    Feeds { task with phase := .ended } taken := by
  refine { feeds with fed := ?_, settled := ?_, born := ?_, unborn := ?_ }
  · rw [feeds.fed, empty]
    rfl
  · simp
  · exact fun _ => .inr rfl
  · simp

/-- Back to the head of the pump. -/
theorem Feeds.pumps (result : task.pump line = (next, after))
    (feeds : Feeds { task with phase := .pumping .select } taken) :
    Feeds next taken := by
  rcases pump_cases task line with ⟨_, _, _, _, done⟩ | ⟨_, going⟩
  · cases done.symm.trans result
    exact feeds.ends rfl
  · cases going.symm.trans result
    exact feeds

/-- What is in hand while the child is pumped and nothing is written. -/
theorem Feeds.idle {work} (feeds : Feeds task taken) (pumping : task.phase = .pumping work)
    (free : ∀ err left size, work ≠ .writing err left size) : task.inHand = [] := by
  simp only [inHand, pumping]
  split
  · rename_i clash
    cases clash
  · rename_i same
    exact absurd (Server.Phase.pumping.inj same) (free _ _ _)
  · exact feeds.settled work pumping

theorem pump_inbox (task : Server) (line : Line) : (task.pump line).2.inbox = line.inbox := by
  rcases pump_cases task line with ⟨_, _, _, _, result⟩ | ⟨_, result⟩
  · rw [result]
    simp only [(send_same _ _).2.1]
  · rw [result]

theorem started_inbox (task : Server) (line : Line) (program : Program) (piped : Bool) :
    (task.started line program piped).2.inbox = line.inbox := by
  unfold started
  dsimp only
  split
  · rfl
  · exact pump_inbox _ _

section

variable (feeds : Feeds task taken)

include feeds

/-- Input that ended before the child was started is closed before the pump starts. -/
theorem Feeds.settles (empty : task.inHand = []) (born : task.program ≠ none)
    (result : task.settle line = (next, after)) : Feeds next taken := by
  refine Feeds.pumps result { feeds with fed := ?_, settled := ?_, shut := ?_, born := ?_, unborn := ?_ }
  · rw [feeds.fed, empty]
    rfl
  · exact fun _ _ => rfl
  · intro runs pipes closed
    rcases Bool.and_eq_false_iff.mp closed with before | now
    · exact feeds.shut runs pipes before
    · exact feeds.ended ((Bool.and_eq_true _ _).mp ((Bool.not_eq_false' _).mp now)).1
  · exact fun unborn => absurd unborn born
  · simp

/-- The child starts with its streams where the task looks for them. -/
theorem Feeds.starts {kind : String} {data : Bytes} {program : Program} {piped : Bool}
    (waiting : task.phase = .waiting) (asked : Server.Asked task kind data program piped)
    (apt : program = .sftp → task.allocated = false)
    (result : task.started line program piped = (next, after)) : Feeds next taken := by
  have hand : payloads taken = task.fed ++ task.earlyStdin := by
    rw [feeds.fed]
    simp only [inHand, waiting]
  have joined : attached { task with program := some program } = task.allocated := by
    cases asked with
    | shell => rfl
    | sftp => exact (apt rfl).symm
  have feedable : (task.allocated || piped) = true := by
    cases asked with
    | shell => cases task.allocated <;> rfl
    | sftp => exact Bool.or_true _
  -- The child is there, and nothing has been written to it.
  have begun : Feeds { task with
      program := some program
      stdinOpen := piped
      isPty := task.allocated
      ptyOpen := task.allocated
      stderrEof := task.allocated
      phase := .early task.earlyStdin } taken := by
    refine { feeds with fed := hand, settled := ?_, shut := ?_, pty := rfl, wired := fun _ => joined, born := ?_, unborn := ?_ }
    · simp
    · intro _ pipes closed
      have pipes : task.allocated = false := pipes
      have closed : piped = false := closed
      rw [pipes, closed] at feedable
      cases feedable
    · simp
    · simp
  unfold started at result
  dsimp only at result
  split at result
  · obtain ⟨rfl, _⟩ := Prod.mk.inj result
    exact begun
  · rename_i unwritten
    have empty : task.earlyStdin = [] := by
      by_contra some_
      exact unwritten ⟨some_, feedable⟩
    refine Feeds.settles ({ begun with
      fed := ?_, settled := ?_, born := ?_, unborn := ?_ } : Feeds { task with
        program := some program
        stdinOpen := piped
        isPty := task.allocated
        ptyOpen := task.allocated
        stderrEof := task.allocated
        phase := .ended } taken) empty (by simp) result
    · exact hand
    all_goals simp

/-- A message before a program runs. -/
theorem Feeds.waits {allocated agentFwd stdinEof earlyStdin more} (waiting : task.phase = .waiting)
    (fed : payloads more = task.fed ++ earlyStdin) (ended : stdinEof = true → .eof ∈ more) :
    Feeds { task with allocated, agentFwd, earlyStdin, stdinEof } more := by
  refine { feeds with fed := ?_, settled := ?_, ended, shut := ?_, wired := ?_ }
  · simp only [inHand, waiting]
    exact fed
  · intro work pumping
    cases waiting.symm.trans pumping
  all_goals exact fun runs => absurd (feeds.unborn waiting) runs

/-- The task goes on with the child. -/
theorem Feeds.works {old work written more}
    (pumping : task.phase = .pumping old) (grows : ∀ message ∈ taken, message ∈ more)
    (fed : payloads more = written ++ Server.inHand { task with phase := .pumping work, fed := written }) :
    Feeds { task with phase := .pumping work, fed := written } more := by
  refine { feeds with
    fed, settled := ?_, ended := fun ended => grows _ (feeds.ended ended)
    shut := fun runs pipes shut => grows _ (feeds.shut runs pipes shut), born := ?_, unborn := ?_ }
  · exact fun _ _ => feeds.settled old pumping
  · refine fun unborn => absurd unborn (feeds.runs ?_ ?_)
    all_goals exact fun clash => by cases pumping.symm.trans clash
  · simp

/-- What came before the child was started is written to it. -/
theorem Feeds.writes {left : Bytes} (early : task.phase = .early left) (count : Nat) :
    Feeds { task with fed := task.fed ++ left.take count, phase := .early (left.drop count) } taken := by
  refine { feeds with fed := ?_, settled := ?_, born := ?_, unborn := ?_ }
  · rw [feeds.fed]
    simp only [inHand, early, append_assoc, take_append_drop]
  · simp
  · refine fun unborn => absurd unborn (feeds.runs ?_ ?_)
    all_goals exact fun clash => by cases early.symm.trans clash
  · simp

end

/-- What a step takes from the queue reaches the stream that the task writes to, or is in
hand. -/
theorem feeds_goes (goes : Server.Goes remoteMax task line label next after) (feeds : Feeds task taken)
    (ordered : Ordered (taken ++ line.inbox.map ToTask.message)) (able : label ≠ .writeFails)
    (apt : ∀ choices kind wantReply data rest, label = .recv choices →
      line.inbox = .request kind wantReply data :: rest →
      task.phase = .waiting → Server.Asked task kind data .sftp true → task.allocated = false) :
    ∃ more, line.inbox.map ToTask.message = more ++ after.inbox.map ToTask.message ∧ Feeds next (taken ++ more) := by
  have stays {next} {after : Line} (same : after.inbox = line.inbox) (kept : Feeds next taken) :
      ∃ more, line.inbox.map ToTask.message = more ++ after.inbox.map ToTask.message ∧ Feeds next (taken ++ more) :=
    ⟨[], by rw [same]; rfl, by rw [append_nil]; exact kept⟩
  have takes {message : ToTask} {rest next} {after : Line} (there : line.inbox = message :: rest)
      (same : after.inbox = rest) (kept : Feeds next (taken ++ [message.message])) :
      ∃ more, line.inbox.map ToTask.message = more ++ after.inbox.map ToTask.message ∧ Feeds next (taken ++ more) :=
    ⟨[message.message], by rw [there, same]; rfl, kept⟩
  have pumped {before : Server} {between : Line} (result : before.pump between = (next, after)) :
      after.inbox = between.inbox := by
    rw [← pump_inbox before between, result]
  have selected (selecting : task.phase = .pumping .select) : Feeds { task with phase := .pumping .select } taken := by
    rw [with_phase selecting]
    exact feeds
  -- Nothing is taken or written.
  have works {old work} (pumping : task.phase = .pumping old) (free : ∀ err left size, old ≠ .writing err left size)
      (still : ∀ err left size, work ≠ .writing err left size) : Feeds { task with phase := .pumping work } taken := by
    refine feeds.works pumping (fun _ member => member) ?_
    rw [feeds.fed, feeds.idle pumping free]
    simp only [inHand]
    split
    · rename_i clash
      cases clash
    · rename_i same
      exact absurd (Server.Phase.pumping.inj same) (still _ _ _)
    · rw [feeds.settled old pumping]
  have written {err} {left : Bytes} {size} (writing : task.phase = .pumping (.writing err left size)) (count : Nat) :
      payloads taken = task.fed ++ left.take count ++ left.drop count := by
    rw [feeds.fed, append_assoc, take_append_drop]
    simp only [inHand, writing]
  cases goes with
  | @gathers _ bytes _ _ waiting there minorly =>
    refine takes there minorly.inbox (feeds.waits waiting ?_ fun ended => mem_append_left _ (feeds.ended ended))
    rw [payloads_snoc, feeds.fed]
    simp only [inHand, waiting, append_assoc]
    rfl
  | endsEarly waiting there =>
    refine takes there rfl (feeds.waits waiting ?_ fun _ => mem_append_right _ mem_cons_self)
    rw [payloads_snoc, feeds.fed]
    simp only [inHand, waiting]
    exact append_nil _
  | passes waiting there plain _ minorly =>
    refine takes there minorly.inbox (feeds.waits waiting ?_ fun ended => mem_append_left _ (feeds.ended ended))
    rw [(feeds.more plain).fed]
    simp only [inHand, waiting]
  | @starts choices kind wantReply data rest program piped between _ _ waiting there minorly asked result =>
    have same : after.inbox = between.inbox := by
      rw [← started_inbox task between program piped, result]
    refine takes there (same.trans minorly.inbox) ((feeds.more rfl).starts waiting asked ?_ result)
    rintro rfl
    cases asked with
    | sftp requested free named =>
      exact apt choices kind wantReply data rest rfl there waiting (.sftp requested free named)
  | refuses waiting there minorly =>
    refine takes there ((send_same _ _).2.1.trans minorly.inbox) ((feeds.more rfl).ends ?_)
    simp only [inHand, waiting]
  | closed free there =>
    refine takes there rfl ((feeds.more rfl).ends ?_)
    rcases free with waiting | selecting
    · simp only [inHand, waiting]
    · simp only [inHand, selecting]
  | hungUp free =>
    refine stays rfl (feeds.ends ?_)
    rcases free with waiting | selecting
    · simp only [inHand, waiting]
    · simp only [inHand, selecting]
  | @takes _ bytes _ selecting there =>
    refine takes there rfl (feeds.works selecting (fun _ member => mem_append_left _ member) ?_)
    have empty := feeds.idle selecting nofun
    rw [payloads_snoc, feeds.fed, empty, append_nil]
    rfl
  | @drops _ bytes _ _ _ _ selecting there shut minorly result =>
    -- Input is closed only after EOF, and so this is no data.
    obtain ⟨noPty, noStdin⟩ := Bool.or_eq_false_iff.mp shut
    have runs := feeds.runs (fun clash => by cases selecting.symm.trans clash)
      (fun clash => by cases selecting.symm.trans clash)
    have ended := feeds.shut runs (feeds.pty.symm.trans noPty) noStdin
    have none_ : bytes = [] := by
      by_contra some_
      rw [there, map_cons] at ordered
      exact ordered taken (.data bytes) _ rfl some_ ended
    refine takes there ((pumped result).trans minorly.inbox) ?_
    exact Feeds.pumps result ((selected selecting).more none_)
  | endsInput selecting there result =>
    refine takes there (pumped result) (Feeds.pumps result { (selected selecting).more rfl with shut := ?_ })
    exact fun _ _ _ => mem_append_right _ mem_cons_self
  | notes selecting there plain _ minorly result =>
    refine takes there ((pumped result).trans minorly.inbox) ?_
    exact Feeds.pumps result ((selected selecting).more plain)
  | @wroteEarly left count _ _ early all result =>
    have same : after.inbox = line.inbox := pumped result
    refine stays same (Feeds.settles (feeds.writes early count) ?_ (feeds.runs ?_ ?_) result)
    · exact all
    all_goals exact fun clash => by cases early.symm.trans clash
  | writesEarly early => exact stays rfl (feeds.writes early _)
  | @wrote err left size count _ _ writing all result =>
    refine stays ((pumped result).trans (send_same _ _).2.1) (Feeds.pumps result ?_)
    refine feeds.works writing (fun _ member => member) ?_
    rw [written writing count, all]
    exact congrArg _ (feeds.settled _ writing).symm
  | writes writing => exact stays rfl (feeds.works writing (fun _ member => member) (written writing _))
  | writeFails => exact absurd rfl able
  | readsOut selecting | readsErr selecting =>
    exact stays rfl (works selecting (nofun) (nofun))
  | outEnds selecting result => exact stays (pumped result) (Feeds.pumps result { selected selecting with })
  | errEnds selecting result => exact stays (pumped result) (Feeds.pumps result { selected selecting with })
  | exits selecting result => exact stays (pumped result) (Feeds.pumps result { selected selecting with })
  | sent sending =>
    exact stays rfl (works sending (nofun) (nofun))
  | sentAll sending _ _ result =>
    have same := pumped result
    refine stays same (Feeds.pumps result (works sending ?_ ?_))
    · exact nofun
    · exact nofun
  | stays => exact stays rfl feeds
  | refused sending =>
    refine stays rfl (feeds.ends ?_)
    simp only [inHand, sending]

/-- The pump ends as soon as it can. -/
structure Lasts (task : Server) : Prop where
  young : task.phase = .waiting → task.exited = none
  unfinished : task.running = true → ¬(task.exited.isSome = true ∧ task.stdoutEof = true ∧ task.stderrEof = true)

theorem lasts_start (permitAgent : Bool) (forceCommand : Option String) : Lasts (.make permitAgent forceCommand) :=
  ⟨fun _ => rfl, fun _ done => by cases done.1⟩

theorem lasts_pump (result : task.pump line = (next, after)) : Lasts next := by
  rcases pump_cases task line with ⟨_, _, _, _, done⟩ | ⟨unfinished, going⟩
  · obtain ⟨rfl, _⟩ := Prod.mk.inj (done.symm.trans result)
    exact ⟨(by simp), nofun⟩
  · obtain ⟨rfl, _⟩ := Prod.mk.inj (going.symm.trans result)
    exact ⟨(by simp), fun _ => unfinished⟩

theorem lasts_goes (lasts : Lasts task) (goes : Server.Goes remoteMax task line label next after) : Lasts next := by
  have ends : Lasts { task with phase := .ended } := ⟨(by simp), nofun⟩
  have works {phase fed} (going : task.running = true) (asked : phase ≠ .waiting) :
      Lasts { task with phase, fed } :=
    ⟨fun clash => absurd clash asked, fun _ => lasts.unfinished going⟩
  have runs {phase} (same : task.phase = phase) (going : phase ≠ .ended) : task.running = true :=
    decide_eq_true (same ▸ going)
  cases goes with
  | gathers waiting | endsEarly waiting | passes waiting => exact ⟨fun _ => lasts.young waiting, lasts.unfinished⟩
  | starts waiting _ _ _ result =>
    unfold started at result
    dsimp only at result
    split at result
    · obtain ⟨rfl, _⟩ := Prod.mk.inj result
      refine ⟨fun clash => (by cases clash), fun _ done => ?_⟩
      rw [show task.exited = none from lasts.young waiting] at done
      cases done.1
    · exact lasts_pump result
  | refuses | closed | hungUp | refused => exact ends
  | takes selecting => exact works (runs selecting nofun) nofun
  | drops _ _ _ _ result => exact lasts_pump result
  | endsInput _ _ result => exact lasts_pump result
  | notes _ _ _ _ _ result => exact lasts_pump result
  | wroteEarly _ _ result => exact lasts_pump result
  | writesEarly early => exact works (runs early nofun) nofun
  | wrote _ _ result => exact lasts_pump result
  | writes writing => exact works (runs writing nofun) nofun
  | writeFails _ _ result => exact lasts_pump result
  | readsOut selecting | readsErr selecting =>
    exact works (runs selecting nofun) nofun
  | outEnds _ result => exact lasts_pump result
  | errEnds _ result => exact lasts_pump result
  | exits _ result => exact lasts_pump result
  | sent sending => exact works (runs sending nofun) nofun
  | sentAll _ _ _ result => exact lasts_pump result
  | stays => exact lasts

end Input

section GoingOn

variable {remoteMax : Nat} {task : Server} {line : Line} {taken : List Message}

/-- A task that has a child, and is free to take its input or is writing it. -/
structure Eager (task : Server) (line : Line) (taken : List Message) : Prop where
  feeds : Feeds task taken
  lasts : Lasts task
  ordered : Ordered (taken ++ line.inbox.map ToTask.message)
  unclosed : .close ∉ line.inbox
  born : task.program ≠ none
  going : task.running = true
  free : ∀ ext left, task.phase ≠ .pumping (.sending ext left)

/-- How far the task is from having taken all there is: two steps for each message, and
one for what is in hand. -/
def Server.distance (task : Server) (line : Line) : Nat :=
  2 * line.inbox.length + if task.phase = .pumping .select then 0 else 1

theorem Server.pump_goes_on (task : Server) (line : Line)
    (unfinished : ¬(task.exited.isSome = true ∧ task.stdoutEof = true ∧ task.stderrEof = true)) :
    task.pump line = ({ task with phase := .pumping .select }, line) := by
  rcases pump_cases task line with ⟨status, exited, out, err, _⟩ | ⟨_, going⟩
  · exact absurd ⟨by rw [exited]; rfl, out, err⟩ unfinished
  · exact going

/-- A message is taken. -/
theorem Server.recv_goes_on {message rest} (choices : Server.Choices)
    (selecting : task.phase = .pumping .select) (there : line.inbox = message :: rest) (open_ : message ≠ .close)
    (unfinished : ¬(task.exited.isSome = true ∧ task.stdoutEof = true ∧ task.stderrEof = true)) :
    ∃ next after, task.step remoteMax line (.recv choices) = some (next, after) ∧ after.inbox = rest ∧
      next.program = task.program ∧ ∃ work, next.phase = .pumping work ∧ ∀ ext left, work ≠ .sending ext left := by
  have took : line.recv = some (some message, { line with inbox := rest }) := by
    simp only [Line.recv, there]
  have ran : task.step remoteMax line (.recv choices) = some (task.onMessage
    { line with inbox := rest } (some message)) := by
    simp only [step, took, selecting]
  have pumps (before : Server) (between : Line) (same : between.inbox = rest)
      (kept : before.program = task.program ∧ before.exited = task.exited ∧ before.stdoutEof = task.stdoutEof ∧
        before.stderrEof = task.stderrEof)
      (result : task.onMessage { line with inbox := rest } (some message) = before.pump between) :
      ∃ next after, task.step remoteMax line (.recv choices) = some (next, after) ∧ after.inbox = rest ∧
        next.program = task.program ∧ ∃ work, next.phase = .pumping work ∧ ∀ ext left, work ≠ .sending ext left := by
    obtain ⟨program, exited, out, err⟩ := kept
    rw [result, pump_goes_on before between (by rw [exited, out, err]; exact unfinished)] at ran
    exact ⟨_, _, ran, same, program, .select, rfl, by simp⟩
  cases message with
  | data bytes =>
    by_cases feedable : (task.ptyOpen || task.stdinOpen) = true
    · simp only [onMessage, feedable, if_true] at ran
      exact ⟨_, _, ran, rfl, rfl, _, rfl, by simp⟩
    · refine pumps task (Line.send { line with inbox := rest } (.consumed bytes.length)) (send_same _ _).2.1
        ⟨rfl, rfl, rfl, rfl⟩ ?_
      simp only [onMessage, feedable, Bool.false_eq_true, if_false]
  | eof => exact pumps { task with stdinOpen := task.stdinOpen && task.isPty } _ rfl ⟨rfl, rfl, rfl, rfl⟩ rfl
  | close => exact absurd rfl open_
  | request kind wantReply data => exact pumps _ _ (Minorly.answer _ _ _).inbox ⟨rfl, rfl, rfl, rfl⟩ rfl
  | extData | reply => exact pumps _ _ rfl ⟨rfl, rfl, rfl, rfl⟩ rfl

/-- What is in hand is written. -/
theorem Server.wrote_goes_on {left : Bytes}
    (busy : task.phase = .early left ∨ ∃ err size, task.phase = .pumping (.writing err left size))
    (unfinished : ¬(task.exited.isSome = true ∧ task.stdoutEof = true ∧ task.stderrEof = true)) :
    ∃ next after, task.step remoteMax line (.wrote left.length) = some (next, after) ∧ after.inbox = line.inbox ∧
      next.program = task.program ∧ next.phase = .pumping .select := by
  rcases busy with early | ⟨err, size, writing⟩
  · have ran : task.step remoteMax line (.wrote left.length) =
        some (settle { task with fed := task.fed ++ left.take left.length } line) := by
      simp only [step, early, Nat.le_refl, if_true, drop_length]
    have settled := pump_goes_on { task with
      fed := task.fed ++ left.take left.length
      stdinOpen := task.stdinOpen && !(task.stdinEof && !task.isPty)
      earlyStdin := [] } line unfinished
    exact ⟨_, _, ran.trans (congrArg some settled), rfl, rfl, rfl⟩
  · have ran : task.step remoteMax line (.wrote left.length) =
        some (pump { task with fed := task.fed ++ left.take left.length } (line.send (.consumed size))) := by
      simp only [step, writing, Nat.le_refl, if_true, drop_length]
    have pumped := pump_goes_on { task with fed := task.fed ++ left.take left.length } (line.send (.consumed size))
      unfinished
    exact ⟨_, _, ran.trans (congrArg some pumped), (send_same _ _).2.1, rfl, rfl⟩

theorem Eager.moves {next : Server} {after : Line} {label work} (eager : Eager task line taken)
    (able : label ≠ .writeFails) (ran : task.step remoteMax line label = some (next, after))
    (same : next.program = task.program) (pumping : next.phase = .pumping work)
      (free : ∀ ext left, work ≠ .sending ext left) :
    ∃ later, Eager next after later ∧
      later ++ after.inbox.map ToTask.message = taken ++ line.inbox.map ToTask.message := by
  have goes := step_goes ran
  obtain ⟨more, split, feeds⟩ := feeds_goes goes eager.feeds eager.ordered able fun _ _ _ _ _ _ _ waiting =>
    absurd (eager.feeds.unborn waiting) eager.born
  have grown : taken ++ more ++ after.inbox.map ToTask.message = taken ++ line.inbox.map ToTask.message := by
    rw [split, append_assoc]
  refine ⟨taken ++ more, ⟨feeds, lasts_goes eager.lasts goes, grown ▸ eager.ordered, ?_,
    same ▸ eager.born, ?_, ?_⟩, grown⟩
  · intro member
    have queued : Message.close ∈ line.inbox.map ToTask.message :=
      split ▸ mem_append_right _ (mem_map.mpr ⟨.close, member, rfl⟩)
    obtain ⟨event, there, closes⟩ := mem_map.mp queued
    exact eager.unclosed (message_close closes ▸ there)
  · exact decide_eq_true (by rw [pumping]; exact nofun)
  · intro ext left clash
    exact free ext left (Server.Phase.pumping.inj (pumping.symm.trans clash))

/-- A step that every child allows brings the task closer to having written all. -/
def Nearer (remoteMax : Nat) (task : Server) (line : Line) (taken : List Message) : Prop :=
  ∃ label next after later, (∀ child : Child, child.lets task label = true ∧ child.after task label = child) ∧
    task.step remoteMax line label = some (next, after) ∧ Eager next after later ∧
    later ++ after.inbox.map ToTask.message = taken ++ line.inbox.map ToTask.message ∧
    next.distance after < task.distance line

/-- The task has written all there is, or a step brings it closer. -/
theorem Eager.advances (eager : Eager task line taken) :
    task.fed = payloads (taken ++ line.inbox.map ToTask.message) ∨ Nearer remoteMax task line taken := by
  have unfinished := eager.lasts.unfinished eager.going
  -- What is in hand goes first.
  have writes {left} (busy : task.phase = .early left ∨ ∃ err size, task.phase = .pumping (.writing err left size))
      (apart : task.phase ≠ .pumping .select) : Nearer remoteMax task line taken := by
    obtain ⟨next, after, ran, inbox, program, selecting⟩ := @wrote_goes_on remoteMax task line left busy unfinished
    obtain ⟨later, keeps, same⟩ := eager.moves (by simp) ran program selecting nofun
    refine ⟨_, next, after, later, fun _ => ⟨rfl, rfl⟩, ran, keeps, same, ?_⟩
    simp only [distance, inbox, selecting, if_true, if_neg apart]
    omega
  cases phase : task.phase with
  | waiting => exact absurd (eager.feeds.unborn phase) eager.born
  | ended => exact absurd phase (of_decide_eq_true eager.going)
  | early left => exact .inr (writes (.inl phase) fun clash => by cases phase.symm.trans clash)
  | pumping work =>
    cases work with
    | sending ext left => exact absurd phase (eager.free ext left)
    | writing err left size =>
      exact .inr (writes (.inr ⟨err, size, phase⟩) fun clash => by cases phase.symm.trans clash)
    | select =>
      cases queued : line.inbox with
      | nil =>
        refine .inl ?_
        have empty := eager.feeds.idle phase nofun
        rw [map_nil, append_nil, eager.feeds.fed, empty, append_nil]
      | cons message rest =>
        have open_ : message ≠ .close := by
          rintro rfl
          exact eager.unclosed (queued ▸ mem_cons_self)
        obtain ⟨next, after, ran, inbox, program, work, pumping, free⟩ :=
          recv_goes_on ⟨true, true, true, true⟩ phase queued open_ unfinished
        obtain ⟨later, keeps, same⟩ := eager.moves (by simp) ran program pumping free
        refine .inr ⟨_, next, after, later, fun _ => ⟨rfl, rfl⟩, ran, keeps, queued ▸ same, ?_⟩
        simp only [distance, inbox, queued, length_cons, phase, if_true]
        split <;> omega

theorem Feeds.reaches (feeds : Feeds task taken) (born : task.program ≠ none) : task.reached = task.fed :=
  if_pos (decide_eq_true (feeds.wired born))

/-- A task that goes on gives the child all there is. -/
theorem eager_goes_on (platform : Platform) {hosted : Hosted} (kind : hosted.stay.task = .server task)
    (eager : Eager task hosted.stay.line taken) :
    ∃ (causes : List Server.Label) (later : Hosted) (fed : Server),
      Path (Hosted.step platform) hosted (causes.map fun cause => .stay (.act (.server cause))) later ∧
      later.stay.task = .server fed ∧ fed.reached = payloads (taken ++ hosted.stay.line.inbox.map ToTask.message) := by
  induction size : task.distance hosted.stay.line using Nat.strong_induction_on generalizing hosted task taken with
  | h size ih =>
    rcases @Eager.advances hosted.stay.remoteMax task hosted.stay.line taken eager with
      done | ⟨label, next, after, later, allows, ran, keeps, same, closer⟩
    · exact ⟨[], hosted, task, .nil, kind, (eager.feeds.reaches eager.born).trans done⟩
    · have moved : hosted.step platform (.stay (.act (.server label))) =
          some ⟨{ hosted.stay with task := .server next, line := after }, hosted.child⟩ := by
        simp only [Hosted.step, kind, (allows hosted.child).1, (allows hosted.child).2, if_true,
          End.step, Task.step, ran,
          Option.map_some]
      obtain ⟨causes, last, fed, path, now, reached⟩ := @ih _ (size ▸ closer) next later
        ⟨{ hosted.stay with task := .server next, line := after }, hosted.child⟩ rfl keeps rfl
      exact ⟨label :: causes, last, fed, .cons moved path, now, reached.trans (congrArg payloads same)⟩

end GoingOn

section Output

variable {remoteMax : Nat} {task next : Server} {line after : Line} {label : Server.Label} {taken : List Message}
  {cmds more : List Cmd} {child : Child} {sent : List Message}

/-- The child's output is at its end, and these bytes are all of it. -/
def Child.Done (child : Child) (bytes : Bytes) : Prop := child.closed = true ∧ bytes = child.output

/-- Where the child's output is, on its way out of a channel that is there. -/
structure Flows (task : Server) (cmds : List Cmd) (child : Child) (sent : List Message) : Prop where
  account : payloads sent ++ cmds.flatMap Cmd.payload ++ task.emitting ++ child.unread = child.output
  queued : task.program ≠ none →
    Licensed (fun before cmd => cmd.final = true → child.Done (payloads sent ++ before.flatMap Cmd.payload)) cmds
  drained : task.stdoutEof = true → child.closed = true ∧ child.unread = []
  early : task.phase = .waiting → task.stdoutEof = false ∧ ∀ cmd ∈ cmds, cmd.final = false

/-- Commands that carry no output and end nothing. -/
theorem Flows.plain (flows : Flows task cmds child sent) (plain : ∀ cmd ∈ more, cmd.payload = [] ∧ cmd.final = false) :
    Flows task (cmds ++ more) child sent := by
  have empty : more.flatMap Cmd.payload = [] := flatMap_eq_nil_iff.mpr fun cmd member => (plain cmd member).1
  refine { flows with account := ?_, queued := ?_, early := ?_ }
  · rw [flatMap_append, empty, append_nil]
    exact flows.account
  · refine fun born => licensed_append (flows.queued born) fun before cmd after split ends => ?_
    rw [(plain cmd (split ▸ mem_append_right _ mem_cons_self)).2] at ends
    cases ends
  · refine fun waiting => ⟨(flows.early waiting).1, fun cmd member => ?_⟩
    exact (mem_append.mp member).elim ((flows.early waiting).2 cmd) fun new => (plain cmd new).2

theorem Flows.minor (adds : Adds Cmd.Minor line after) (flows : Flows task line.cmds child sent) :
    Flows task after.cmds child sent := by
  obtain ⟨more, grown, minor⟩ := adds
  rw [grown]
  refine flows.plain fun cmd member => ?_
  cases minor cmd member with
  | reply | consumed => exact ⟨rfl, rfl⟩

/-- The task ends with nothing in hand. What it still says carries no output, and goes
behind all of it if there is a child. -/
theorem Flows.ends (flows : Flows task cmds child sent) (empty : task.emitting = [])
    (blank : ∀ cmd ∈ more, cmd.payload = [])
    (done : more ≠ [] → task.program ≠ none → child.Done (payloads sent ++ cmds.flatMap Cmd.payload)) :
    Flows { task with phase := .ended } (cmds ++ more) child sent := by
  have nothing {part : List Cmd} (part_ : ∀ cmd ∈ part, cmd ∈ more) : part.flatMap Cmd.payload = [] :=
    flatMap_eq_nil_iff.mpr fun cmd member => blank cmd (part_ cmd member)
  refine ⟨?_, fun born => licensed_append (flows.queued born) fun before cmd after split _ => ?_, flows.drained,
    by simp⟩
  · rw [flatMap_append, nothing fun _ member => member, append_nil]
    have account := flows.account
    rw [empty] at account
    exact account
  · rw [flatMap_append, nothing fun _ member => split ▸ mem_append_left _ member, append_nil]
    refine done ?_ born
    rw [split]
    exact append_ne_nil_of_right_ne_nil _ (cons_ne_nil _ _)

/-- Back to the head of the pump: what ends the channel goes behind all output. -/
theorem Flows.pumps (result : task.pump line = (next, after)) (alive : line.gone = false)
    (flows : Flows { task with phase := .pumping .select } line.cmds child sent) : Flows next after.cmds child sent := by
  rcases pump_cases task line with ⟨status, _, out, _, done⟩ | ⟨_, going⟩
  · cases done.symm.trans result
    rw [finish_cmds status alive]
    refine flows.ends rfl ?_ fun _ _ => ?_
    · intro cmd member
      rcases mem_cons.mp member with rfl | last
      · cases status <;> rfl
      · rcases mem_pair.mp last with rfl | rfl <;> rfl
    · obtain ⟨closed, empty⟩ := flows.drained out
      have account := flows.account
      rw [empty, append_nil] at account
      exact ⟨closed, (append_nil _).symm.trans account⟩
  · cases going.symm.trans result
    exact flows

/-- The task goes on with nothing in hand that is output. -/
theorem Flows.works {phase} (flows : Flows task cmds child sent) (asked : phase ≠ .waiting)
    (same : Server.emitting { task with phase } = task.emitting) : Flows { task with phase } cmds child sent := by
  refine { flows with account := ?_, early := fun clash => absurd clash asked }
  rw [same]
  exact flows.account

/-- A chunk of what was read is handed to the loop. -/
theorem Flows.chunk {ext} {left : Bytes} (flows : Flows task cmds child sent)
    (sending : task.phase = .pumping (.sending ext left)) (size : Nat) :
    Flows { task with phase := .pumping (.sending ext (left.drop size)) }
      (cmds ++ [Line.chunk ext (left.take size)]) child sent := by
  have plain : (Line.chunk ext (left.take size)).final = false := by
    cases ext <;> rfl
  refine ⟨?_, fun born => licensed_snoc (flows.queued born) fun ends =>
    (by rw [plain] at ends; cases ends), flows.drained,
    by simp⟩
  have account := flows.account
  cases ext with
  | none =>
    have whole : left.take size ++ (left.drop size ++ child.unread) = left ++ child.unread := by
      rw [← append_assoc, take_append_drop]
    simp only [emitting, sending, append_assoc] at account
    simp only [emitting, flatMap_append, flatMap_singleton, Line.chunk, Cmd.payload, append_assoc, whole]
    exact account
  | some kind =>
    simp only [emitting, sending] at account
    simp only [emitting, flatMap_append, flatMap_singleton, Line.chunk, Cmd.payload, append_nil] at account ⊢
    exact account

/-- The child starts with no output before it, and nothing has ended. -/
theorem Flows.starts {program piped} (flows : Flows task line.cmds child sent)
    (waiting : task.phase = .waiting) (alive : line.gone = false)
    (result : task.started line program piped = (next, after)) :
    Flows next after.cmds child sent := by
  obtain ⟨more, open_⟩ := flows.early waiting
  have begun {phase allocated stdinOpen isPty ptyOpen stderrEof earlyStdin}
      (asked : phase ≠ .waiting) (none_ : emitting { task with phase } = []) :
      Flows { task with
        program := some program, stdinOpen, isPty, ptyOpen, stderrEof, phase, earlyStdin, allocated } line.cmds child sent := by
    refine ⟨?_, fun _ before cmd after split ends => ?_, flows.drained, fun clash => absurd clash asked⟩
    · have account := flows.account
      have idle : task.emitting = [] := by
        simp only [emitting, waiting]
      rw [idle] at account
      exact (congrArg (fun bytes => payloads sent ++ line.cmds.flatMap Cmd.payload ++ bytes ++
        child.unread) none_).trans account
    · rw [open_ cmd (split ▸ mem_append_right _ mem_cons_self)] at ends
      cases ends
  unfold started at result
  dsimp only at result
  split at result
  · cases result
    exact begun (by simp) rfl
  · exact Flows.pumps result alive (begun (by simp) rfl)

/-- Output moves on with each step of the task, and what ends the channel stays behind it. -/
theorem flows_goes (goes : Server.Goes remoteMax task line label next after) (flows : Flows task line.cmds child sent)
    (feeds : Feeds task taken) (alive : line.gone = false) (credited : line.credit.closed = false)
    (lets : child.lets task label = true) : Flows next after.cmds (child.after task label) sent := by
  have silent {phase} (same : task.phase = phase) (quiet : emitting { task with phase } = []) :
      task.emitting = [] := by
    rw [← with_phase same]
    exact quiet
  have ends (free : task.phase = .waiting ∨ task.phase = .pumping .select) :
      Flows { task with phase := .ended } line.cmds child sent := by
    have idle : task.emitting = [] := free.elim (fun same => silent same rfl) (fun same => silent same rfl)
    have ended := @Flows.ends _ _ [] _ _ flows idle (fun cmd member => absurd member not_mem_nil) fun clash =>
      absurd rfl clash
    rw [append_nil] at ended
    exact ended
  -- A child that is pumped has its streams where the task looks for them.
  have wired {work} (pumping : task.phase = .pumping work) : task.wired = true :=
    decide_eq_true (feeds.wired (feeds.runs (fun clash => by cases pumping.symm.trans clash) fun clash => by
      cases pumping.symm.trans clash))
  have selects {old} (same : task.phase = old) (quiet : emitting { task with phase := old } = []) :
      Flows { task with phase := .pumping .select } line.cmds child sent :=
    flows.works (by simp) (silent same quiet).symm
  cases goes with
  | gathers waiting _ minorly | passes waiting _ _ _ minorly => exact { Flows.minor minorly.adds flows with }
  | endsEarly waiting => exact { flows with }
  | starts waiting _ minorly _ result =>
    exact (Flows.minor minorly.adds flows).starts waiting (minorly.gone.trans alive) result
  | refuses waiting _ minorly =>
    rw [send_alive (minorly.gone.trans alive)]
    refine (Flows.minor minorly.adds flows).ends (silent waiting rfl) ?_ fun _ born => absurd
      (feeds.unborn waiting) born
    intro cmd member
    rw [mem_singleton.mp member]
    rfl
  | closed free | hungUp free => exact ends free
  | takes selecting | readsErr selecting => exact flows.works (by simp) (silent selecting rfl).symm
  | drops selecting _ _ minorly result | notes selecting _ _ _ minorly result =>
    exact Flows.pumps result (minorly.gone.trans alive) (Flows.minor minorly.adds (selects selecting rfl))
  | endsInput selecting _ result => exact Flows.pumps result alive { selects selecting rfl with }
  | wroteEarly early _ result => exact Flows.pumps result alive { selects early rfl with }
  | @writesEarly left count early =>
    have kept : Flows { task with phase := .early (left.drop count) } line.cmds child sent :=
      flows.works (by simp) (silent early rfl).symm
    exact { kept with }
  | @wrote err left size count _ _ writing _ result =>
    refine Flows.pumps result ((send_same _ _).2.2.2.trans alive) (Flows.minor (.send (.consumed size) line) ?_)
    exact { selects writing rfl with }
  | @writes err left size count writing =>
    have kept : Flows { task with phase := .pumping (.writing err (left.drop count) size) } line.cmds child sent :=
      flows.works (by simp) (silent writing rfl).symm
    exact { kept with }
  | writeFails => cases lets
  | @readsOut bytes selecting more =>
    simp only [Child.lets, Child.after, wired selecting, Bool.not_true, Bool.false_or, if_true] at lets ⊢
    obtain ⟨rest, whole⟩ := isPrefixOf_iff_prefix.mp lets
    have account := flows.account
    rw [silent selecting rfl, append_nil, ← whole, ← append_assoc] at account
    refine ⟨?_, flows.queued, fun ended => (by cases more.symm.trans ended), by simp⟩
    rw [← whole, drop_left]
    exact account
  | outEnds selecting result =>
    simp only [Child.lets, wired selecting, Bool.not_true, Bool.false_or] at lets
    obtain ⟨closed, empty⟩ := (Bool.and_eq_true _ _).mp lets
    exact Flows.pumps result alive { selects selecting rfl with
      drained := fun _ => ⟨closed, isEmpty_iff.mp empty⟩
      early := by simp }
  | errEnds selecting result | exits selecting result => exact Flows.pumps result alive { selects selecting rfl with }
  | sent sending => exact flows.chunk sending _
  | @sentAll ext left credit _ _ sending _ all result =>
    have chunked := flows.chunk sending (min left.length remoteMax)
    rw [all] at chunked
    refine Flows.pumps result alive (@Flows.works
      { task with phase := .pumping (.sending ext []) } _ _ _ (.pumping .select) chunked
      (by simp) ?_)
    cases ext <;> rfl
  | stays => exact flows
  | refused _ shut =>
    rcases shut with closed | gone
    · cases credited.symm.trans closed
    · cases alive.symm.trans gone

/-- The first command is off the queue, and its output was sent. -/
theorem Flows.pops {cmd : Cmd} {told} (flows : Flows task (cmd :: cmds) child sent)
    (same : payloads told = cmd.payload) : Flows task cmds child (sent ++ told) := by
  refine ⟨?_, fun born before other after split ends => ?_, flows.drained, fun waiting => ?_⟩
  · rw [payloads_append, same, append_assoc (payloads sent), ← flatMap_cons]
    exact flows.account
  · rw [payloads_append, same, append_assoc, ← flatMap_cons]
    exact flows.queued born (cmd :: before) other after (by rw [split]; rfl) ends
  · obtain ⟨more, open_⟩ := flows.early waiting
    exact ⟨more, fun other member => open_ other (mem_cons_of_mem _ member)⟩

end Output

section Hosting

variable {platform : Platform} {stay next : End} {label : End.Label} {task : Server} {taken missed : List Message}
  {child : Child}

variable {line : Line} {later : Server} {cause : Server.Label}

/-- What a command sends carries its output, and ends only what the command ends. -/
theorem command_sends (chan : Chan) (line : Line) (cmd : Cmd) :
    ((chan.command line cmd).sent = [] ∧ cmd.payload = []) ∨
      ∃ message, (chan.command line cmd).sent = [message] ∧ message.payload = cmd.payload ∧
      message.final = cmd.final := by
  generalize turned : chan.command line cmd = turn
  cases cmd <;> grind [Message.payload, Cmd.payload, Message.final, Cmd.final]

/-- A session's loop answers nothing itself, and closes only after its own CLOSE. -/
theorem deliver_silent {chan : Chan} {turn : Turn} {message} (session : chan.isSession = true)
    (polite : message = .close → chan.sentClose = true) (ok : chan.deliver platform line message = .ok turn) :
    turn.sent = [] := by
  by_cases close : message = .close
  · subst close
    cases ok
    rw [on_close_drops]
    exact if_pos (polite rfl)
  · exact (@deliver_stream Unit (fun _ => none) platform chan line turn message ⟨fun _ => rfl, rfl,
      rfl⟩ session close ok).1

theorem payloads_passed (messages : List Message) : payloads (messages.filter Message.passed) = payloads messages := by
  induction messages with
  | nil => rfl
  | cons message rest ih =>
    have step : payloads (message :: rest) = message.payload ++ payloads rest := rfl
    cases message with
    | adjust => exact ih
    | _ =>
      rw [step, ← ih]
      rfl

/-- A task that waits for a program has waited all along. -/
theorem waiting_goes {remoteMax after}
    (goes : Server.Goes remoteMax task line cause later after)
    (still : later.phase = .waiting) : task.phase = .waiting := by
  have pumped {before : Server} {between} (result : before.pump between = (later, after)) : task.phase = .waiting := by
    rcases pump_cases before between with ⟨_, _, _, _, done⟩ | ⟨_, going⟩
    · cases done.symm.trans result
      cases still
    · cases going.symm.trans result
      cases still
  cases goes with
  | gathers waiting | endsEarly waiting | passes waiting | starts waiting | refuses waiting => exact waiting
  | closed | hungUp | takes | writesEarly | writes | readsOut | readsErr | sent | refused => cases still
  | drops _ _ _ _ result => exact pumped result
  | endsInput _ _ result => exact pumped result
  | notes _ _ _ _ _ result => exact pumped result
  | wroteEarly _ _ result => exact pumped result
  | wrote _ _ result => exact pumped result
  | writeFails _ _ result => exact pumped result
  | outEnds _ result => exact pumped result
  | errEnds _ result => exact pumped result
  | exits _ result => exact pumped result
  | sentAll _ _ _ result => exact pumped result
  | stays => exact still

/-- What was heard, and how much of it the task has taken; messages that came after the
channel was gone are missed. -/
structure Fed (stay : End) (task : Server) (taken missed : List Message) : Prop where
  kind : stay.task = .server task
  heard : stay.heard.filter Message.passed = taken ++ stay.line.inbox.map ToTask.message ++ missed
  there : stay.chan ≠ none → missed = []
  ordered : Ordered (stay.heard.filter Message.passed)
  feeds : Feeds task taken
  lasts : Lasts task
  unclosed : task.running = true → .close ∉ stay.line.inbox

/-- The child's output was sent before what ends the channel. -/
structure Relays (stay : End) (task : Server) (child : Child) : Prop where
  quiet : task.phase = .waiting → ∀ message ∈ stay.sent, message.final = false
  marks : task.program ≠ none →
    Licensed (fun before message => message.final = true → child.Done (payloads before)) stay.sent
  flows : stay.chan ≠ none → Flows task stay.line.cmds child stay.sent

/-- Data that comes before EOF. -/
theorem Ordered.hears {heard : List Message} {message : Message} (ordered : Ordered (heard.filter Message.passed))
    (early : message.payload ≠ [] → .eof ∉ heard) : Ordered ((heard ++ [message]).filter Message.passed) := by
  rw [filter_append]
  cases passed : message.passed with
  | false =>
    rw [filter_cons_of_neg (by rw [passed]; exact Bool.false_ne_true), filter_nil, append_nil]
    exact ordered
  | true =>
    rw [filter_cons_of_pos passed, filter_nil]
    exact licensed_snoc ordered fun carries member => early carries (mem_filter.mp member).1

theorem Fed.falls (fed : Fed stay task taken missed) : Fed stay.fallen task taken missed :=
  { fed with there := fun there => absurd rfl there }

theorem Relays.falls (relays : Relays stay task child) : Relays stay.fallen task child :=
  { relays with flows := fun there => absurd rfl there }

/-- The loop hears a message or carries out a command. -/
theorem Fed.loops (linked : Linked stay) (tidied : Tidied stay) (fed : Fed stay task taken missed)
    (early : ∀ message, label = .hear message → message.payload ≠ [] → .eof ∉ stay.heard)
    (polite : label = .hear .close → ∀ chan, stay.chan = some chan → chan.sentClose = true)
    (loop : ∀ cause, label ≠ .act cause) (ran : stay.step platform label = some next) :
    ∃ missed, Fed next task taken missed := by
  -- A message that nobody takes.
  have misses {message : Message}
      (heard : message.payload ≠ [] → .eof ∉ stay.heard) :
      Fed { stay with chan := none, heard := stay.heard ++ [message] } task taken (missed ++
        [message].filter Message.passed) := by
    refine { fed with heard := ?_, there := fun there => absurd rfl there, ordered := fed.ordered.hears heard }
    rw [filter_append, fed.heard, append_assoc]
  cases End.step_happens ran with
  | @unheard message dropped =>
    have kept := misses (early message rfl)
    rw [← dropped] at kept
    exact ⟨_, kept⟩
  | @broken message chan error there refused =>
    have kept := misses (early message rfl)
    exact ⟨_, { kept.falls with }⟩
  | @heard message chan turn there ok =>
    have none_ : missed = [] := fed.there (by rw [there]; exact nofun)
    have session : chan.isSession = true := by
      rw [linked.kind chan there, fed.kind]
      rfl
    have inbox := deliver_session session ok
    refine ⟨[], End.take_keeps (fun stay => Fed stay task taken []) (fun _ => Fed.falls) { fed with
      heard := ?_, there := fun _ => rfl, ordered := fed.ordered.hears (early message rfl), unclosed := ?_ }⟩
    · rw [filter_append, fed.heard, inbox, none_]
      simp only [append_nil, append_assoc]
    · intro going member
      have queued : Message.close ∈ turn.line.inbox.map ToTask.message := mem_map.mpr ⟨.close, member, rfl⟩
      rw [inbox] at queued
      rcases mem_append.mp queued with old | new
      · obtain ⟨event, before, closes⟩ := mem_map.mp old
        exact fed.unclosed going (message_close closes ▸ before)
      · -- The peer closes after us, and then the task has ended.
        have close := mem_singleton.mp (mem_filter.mp new).1
        have ended := ((tidied chan there).closed (polite (by rw [close]) chan there)).1
        rw [fed.kind] at ended
        cases going.symm.trans ended
  | skipped _ dropped => exact ⟨missed, { fed with }⟩
  | @processed cmd rest chan queued there =>
    obtain ⟨kept, sent, result, _⟩ := @command_open chan (linked.still chan there) { stay.line with cmds := rest } cmd
    have none_ : missed = [] := fed.there (by rw [there]; exact nofun)
    rw [result, take_going rfl]
    exact ⟨missed, { fed with there := fun _ => none_ }⟩
  | fell => exact ⟨missed, fed.falls⟩
  | acted => exact absurd rfl (loop _)

/-- The task takes a step. -/
theorem Fed.acts (fed : Fed stay task taken missed) (able : cause ≠ .writeFails)
    (apt : ∀ choices kind wantReply data rest, cause = .recv choices →
    stay.line.inbox = .request kind wantReply data :: rest →
      task.phase = .waiting → Server.Asked task kind data .sftp true → task.allocated = false)
    (ran : task.step stay.remoteMax stay.line cause = some (later, line)) :
    ∃ taken, Fed { stay with task := .server later, line } later taken missed := by
  have goes := step_goes ran
  have ordered := fed.ordered
  rw [fed.heard] at ordered
  obtain ⟨more, split, feeds⟩ := feeds_goes goes fed.feeds ordered.earlier able apt
  refine ⟨taken ++ more, rfl, ?_, fed.there, fed.ordered, feeds, lasts_goes fed.lasts goes, ?_⟩
  · rw [fed.heard, split]
    simp only [append_assoc]
  · intro _ member
    have queued : Message.close ∈ stay.line.inbox.map ToTask.message :=
      split ▸ mem_append_right _ (mem_map.mpr ⟨.close, member, rfl⟩)
    obtain ⟨event, there, closes⟩ := mem_map.mp queued
    exact fed.unclosed (step_running ran) (message_close closes ▸ there)

theorem Relays.loops (linked : Linked stay) (kind : stay.task = .server task) (relays : Relays stay task child)
    (polite : label = .hear .close → ∀ chan, stay.chan = some chan → chan.sentClose = true)
    (loop : ∀ cause, label ≠ .act cause) (ran : stay.step platform label = some next) : Relays next task child := by
  cases End.step_happens ran with
  | unheard _ => exact { relays with }
  | broken _ _ => exact { relays.falls with }
  | @heard message chan turn there ok =>
    have session : chan.isSession = true := by
      rw [linked.kind chan there, kind]
      rfl
    have silent := deliver_silent session (fun same => polite (by rw [same]) chan there) ok
    have flows := relays.flows (by rw [there]; exact nofun)
    refine End.take_keeps (fun stay => Relays stay task child) (fun _ => Relays.falls) ?_
    rw [silent, append_nil]
    refine { relays with flows := fun _ => ?_ }
    rw [(deliver_grants ok).cmds]
    exact flows
  | skipped _ dropped => exact { relays with flows := fun there => absurd dropped there }
  | @processed cmd rest chan queued there =>
    have flows := relays.flows (by rw [there]; exact nofun)
    rw [queued] at flows
    refine End.take_keeps (fun stay => Relays stay task child) (fun _ => Relays.falls) ?_
    have left := (command_carries chan { stay.line with cmds := rest } 0 cmd).cmds
    rcases command_sends chan { stay.line with cmds := rest } cmd with ⟨sent, blank⟩ | ⟨message, sent, same, ends⟩
    · refine ⟨?_, ?_, fun _ => ?_⟩
      · rw [sent, append_nil]
        exact relays.quiet
      · rw [sent, append_nil]
        exact relays.marks
      · rw [left, sent]
        exact flows.pops blank.symm
    · refine ⟨fun waiting other member => ?_, fun born => ?_, fun _ => ?_⟩
      · rw [sent] at member
        rcases mem_append.mp member with old | new
        · exact relays.quiet waiting other old
        · rw [mem_singleton.mp new, ends]
          exact (flows.early waiting).2 cmd mem_cons_self
      · rw [sent]
        refine licensed_snoc (relays.marks born) fun final => ?_
        have done := flows.queued born [] cmd rest rfl (ends ▸ final)
        rw [flatMap_nil, append_nil] at done
        exact done
      · rw [left, sent]
        exact flows.pops ((append_nil _).trans same)
  | fell => exact relays.falls
  | acted => exact absurd rfl (loop _)

theorem after_done {bytes} (done : child.Done bytes) : (child.after task cause).Done bytes := by
  unfold Child.after
  split
  · split
    · exact done
    · exact done
  · exact done

theorem Relays.acts (linked : Linked stay) (feeds : Feeds task taken)
    (relays : Relays stay task child) (lets : child.lets task cause = true)
    (ran : task.step stay.remoteMax stay.line cause = some (later, line)) :
    Relays { stay with task := .server later, line } later (child.after task cause) := by
  have goes := step_goes ran
  refine ⟨fun still => relays.quiet (waiting_goes goes still),
    fun _ before message after split final => ?_, fun there => ?_⟩
  · by_cases born : task.program = none
    · -- The child has only now been started.
      rcases feeds.born born with waiting | ended
      · rw [relays.quiet waiting message (split ▸ mem_append_right _ mem_cons_self)] at final
        cases final
      · exact absurd ended (of_decide_eq_true (step_running ran))
    · exact after_done (relays.marks born before message after split final)
  · have closed : stay.line.credit.closed = false := by
      rw [linked.closed]
      exact Option.isNone_eq_false_iff.mpr (Option.ne_none_iff_isSome.mp there)
    exact flows_goes goes (relays.flows there) feeds (linked.alive there) closed lets

end Hosting

namespace Hosted

variable {platform : Platform} {hosted next : Hosted} {label : Label} {task : Server}

variable {taken missed : List Message}

/-- The ways a step can go. -/
inductive Happens (platform : Platform) (hosted : Hosted) : Label → Hosted → Prop where
  | acts {task : Server} {cause : Server.Label} {stay : End} (kind : hosted.stay.task = .server task)
      (lets : hosted.child.lets task cause = true)
      (ran : hosted.stay.step platform (.act (.server cause)) = some stay) :
      Happens platform hosted (.stay (.act (.server cause))) ⟨stay, hosted.child.after task cause⟩
  | loops {label : End.Label} {stay : End} (other : ∀ cause, label ≠ .act (.server cause))
      (ran : hosted.stay.step platform label = some stay) : Happens platform hosted (.stay label) { hosted with stay }
  | writes {bytes : Bytes} (open_ : hosted.child.closed = false) :
      Happens platform hosted (.writes bytes)
        { hosted with child := ⟨hosted.child.output ++ bytes, hosted.child.unread ++ bytes, false⟩ }
  | closes : Happens platform hosted .closes { hosted with child := { hosted.child with closed := true } }

theorem step_happens (ran : hosted.step platform label = some next) : Happens platform hosted label next := by
  have loops {label} (other : ∀ cause, label ≠ .act (.server cause))
      (ran : (hosted.stay.step platform label).map (fun stay => { hosted with stay }) = some next) :
      Happens platform hosted (.stay label) next := by
    obtain ⟨stay, moved, rfl⟩ := Option.map_eq_some_iff.mp ran
    exact .loops other moved
  cases label with
  | stay label =>
    cases label with
    | act cause =>
      cases cause with
      | server cause =>
        simp only [step] at ran
        split at ran
        · rename_i task kind
          split at ran
          · rename_i lets
            obtain ⟨stay, moved, rfl⟩ := Option.map_eq_some_iff.mp ran
            exact .acts kind lets moved
          · cases ran
        · cases ran
      | forward | client => exact loops (by simp) ran
    | hear | process | fall => exact loops (by simp) ran
  | writes bytes =>
    simp only [step] at ran
    split at ran
    · rename_i able
      cases ran
      exact .writes ((Bool.not_eq_true' _).mp ((Bool.and_eq_true _ _).mp able).2)
    · cases ran
  | closes =>
    simp only [step] at ran
    split at ran
    · cases ran
      exact .closes
    · cases ran

/-- What holds of a session and its child in every state of a proper run. -/
structure Kept (hosted : Hosted) (task : Server) (taken missed : List Message) : Prop where
  linked : Linked hosted.stay
  tidied : Tidied hosted.stay
  fed : Fed hosted.stay task taken missed
  relays : Relays hosted.stay task hosted.child

theorem kept_start (permitAgent : Bool) (forceCommand : Option String) (endOnClose : Bool)
    (peerId peerWindow peerMax : Nat) :
    (start platform permitAgent forceCommand endOnClose peerId peerWindow peerMax).Kept
      (.make permitAgent forceCommand) [] [] where
  linked := .start platform (.server permitAgent forceCommand) _ _ _ _
  tidied := by
    intro chan there
    cases there
    exact .start _ _ _ _
  fed := ⟨rfl, rfl, fun _ => rfl, licensed_nil _, feeds_start _ _, lasts_start _ _, fun _ => not_mem_nil⟩
  relays := ⟨fun _ _ member => absurd member not_mem_nil, fun _ => licensed_nil _, fun _ =>
    ⟨rfl, fun _ => licensed_nil _, fun clash => (by cases clash),
      fun _ => ⟨rfl, fun _ member => absurd member not_mem_nil⟩⟩⟩

/-- Bytes come out of a child whose output is open: nothing has ended. -/
theorem Kept.writes (kept : hosted.Kept task taken missed) (open_ : hosted.child.closed = false) (bytes : Bytes) :
    Kept { hosted with child := ⟨hosted.child.output ++ bytes, hosted.child.unread ++ bytes,
    false⟩ } task taken missed := by
  have undone {passed} (done : hosted.child.Done passed) : False := by
    cases open_.symm.trans done.1
  refine { kept with relays := { kept.relays with marks := ?_, flows := fun there => ?_ } }
  · exact fun born before message after split final => (undone
      (kept.relays.marks born before message after split final)).elim
  · have flows := kept.relays.flows there
    refine { flows with account := ?_, queued := ?_, drained := ?_ }
    · rw [← flows.account, append_assoc _ _ bytes]
    · exact fun born before cmd after split final => (undone (flows.queued born before cmd after split final)).elim
    · exact fun ended => by cases open_.symm.trans (flows.drained ended).1

theorem Kept.closes (kept : hosted.Kept task taken missed) :
    Kept { hosted with child := { hosted.child with closed := true } } task taken missed := by
  have still {passed} (done : hosted.child.Done passed) : Child.Done { hosted.child with closed := true } passed :=
    ⟨rfl, done.2⟩
  refine { kept with relays := { kept.relays with marks := ?_, flows := fun there => ?_ } }
  · exact fun born before message after split final => still (kept.relays.marks born before message after split final)
  · have flows := kept.relays.flows there
    refine { flows with queued := ?_, drained := fun ended => ⟨rfl, (flows.drained ended).2⟩ }
    exact fun born before cmd after split final => still (flows.queued born before cmd after split final)

theorem kept_step (kept : hosted.Kept task taken missed) (proper : hosted.proper label = true)
    (ran : hosted.step platform label = some next) : ∃ task taken missed, next.Kept task taken missed := by
  -- A session is never pressed for an answer.
  have fair {label : End.Label} : ∀ message chan, label = .hear message → hosted.stay.chan = some chan →
      chan.pressed message = false := by
    intro message chan _ there
    have session : chan.isSession = true := by
      rw [kept.linked.kind chan there, kept.fed.kind]
      rfl
    cases message with
    | request kind wantReply data => simp only [Chan.pressed, session, Bool.not_true, Bool.and_false, Bool.false_and]
    | _ => rfl
  cases step_happens ran with
  | @acts mine cause stay kind lets happened =>
    obtain rfl : mine = task := Task.server.inj (kind.symm.trans kept.fed.kind)
    have linked := linked_step kept.linked happened
    have tidied := tidied_step kept.linked kept.tidied fair happened
    cases End.step_happens happened with
    | acted moved =>
      rw [kind] at moved
      obtain ⟨⟨later, line⟩, stepped, same⟩ := Option.map_eq_some_iff.mp moved
      cases same
      have able : cause ≠ .writeFails := by
        rintro rfl
        cases lets
      have apt : ∀ choices request wantReply data rest, cause = .recv choices →
          hosted.stay.line.inbox = .request request wantReply data :: rest → mine.phase = .waiting →
          Server.Asked mine request data .sftp true → mine.allocated = false := by
        rintro choices request wantReply data rest rfl there waiting asked
        cases asked with
        | sftp requested free named =>
          simpa [Hosted.proper, kind, there, waiting, free, requested, named] using proper
      obtain ⟨taken, fed⟩ := kept.fed.acts able apt stepped
      exact ⟨later, taken, missed, linked, tidied, fed, kept.relays.acts kept.linked kept.fed.feeds lets stepped⟩
  | @loops label stay other happened =>
    have loop : ∀ cause, label ≠ .act cause := by
      rintro cause rfl
      cases cause with
      | server cause => exact other cause rfl
      | forward | client =>
        simp only [End.step, kept.fed.kind, Task.step, Option.map_none] at happened
        cases happened
    have early : ∀ message, label = .hear message → message.payload ≠ [] → .eof ∉ hosted.stay.heard := by
      rintro message rfl carries
      cases message with
      | data bytes => exact of_decide_eq_true proper
      | _ => exact absurd rfl carries
    have polite : label = .hear .close → ∀ chan, hosted.stay.chan = some chan → chan.sentClose = true := by
      rintro rfl chan there
      simpa only [Hosted.proper, there, Option.all_some] using proper
    obtain ⟨missed, fed⟩ := kept.fed.loops kept.linked kept.tidied early polite loop happened
    exact ⟨task, taken, missed, linked_step kept.linked happened, tidied_step kept.linked kept.tidied fair happened, fed,
      kept.relays.loops kept.linked kept.fed.kind polite loop happened⟩
  | writes open_ => exact ⟨task, taken, missed, kept.writes open_ _⟩
  | closes => exact ⟨task, taken, missed, kept.closes⟩

end Hosted

/-- In every run in which the client sends no data after its EOF and closes after the
server, and sftp is not started in a session that has a terminal, the channel is wired to
the child once there is one. -/
theorem channel_wired {platform : Platform} {permitAgent : Bool} {forceCommand : Option String} {endOnClose : Bool}
    {peerId peerWindow peerMax : Nat} {events : List Hosted.Label} {hosted : Hosted} {task : Server}
    (path : Path (guarded (Hosted.step platform) Hosted.proper)
      (.start platform permitAgent forceCommand endOnClose peerId peerWindow peerMax) events hosted)
    (kind : hosted.stay.task = .server task) (spawned : task.program ≠ none) : hosted.Wired platform task := by
  obtain ⟨mine, taken, missed, kept⟩ := path_invariant
    (fun _ hosted => ∃ task taken missed, Hosted.Kept hosted task taken missed)
    ⟨_, _, _, Hosted.kept_start permitAgent forceCommand endOnClose peerId peerWindow peerMax⟩
    (fun _ _ _ _ _ ran before => by
      obtain ⟨task, taken, missed, kept⟩ := before
      obtain ⟨proper, ran⟩ := guarded_eq_some.mp ran
      exact Hosted.kept_step kept proper ran) path
  obtain rfl : mine = task := Task.server.inj (kept.fed.kind.symm.trans kind)
  have fed := kept.fed
  have reached := fed.feeds.reaches spawned
  have heard : payloads hosted.stay.heard = mine.reached ++ mine.inHand ++
      payloads (hosted.stay.line.inbox.map ToTask.message) ++ payloads missed := by
    rw [← payloads_passed, fed.heard, payloads_append, payloads_append, fed.feeds.fed, reached]
  have whole (there : hosted.stay.chan ≠ none) : payloads hosted.stay.heard =
      mine.reached ++ mine.inHand ++ payloads (hosted.stay.line.inbox.map ToTask.message) := by
    rw [heard, fed.there there]
    exact append_nil _
  refine ⟨?_, whole, fun there going free => ?_, fun before message after split final => ?_⟩
  · rw [heard, append_assoc, append_assoc]
    exact prefix_append _ _
  · have ordered := fed.ordered
    rw [fed.heard] at ordered
    obtain ⟨causes, later, child, path, now, all⟩ := eager_goes_on platform kind
      ⟨fed.feeds, fed.lasts, ordered.earlier, fed.unclosed going, spawned, going, free⟩
    refine ⟨causes, later, child, path, now, ?_⟩
    rw [all, payloads_append, fed.feeds.fed, whole there, reached]
  · exact (kept.relays.marks spawned before message after split final).2

/-- A session whose client lets the server send a hundred bytes. -/
def bareSession : Hosted := .start ⟨true, true⟩ false none false 0 100 maxChunk

/-- A terminal is granted, and a shell started on it that is given one byte, writes another
and exits. -/
def shellOnTerminal : List Hosted.Label :=
  [.stay (.hear (.request "pty-req" false (List.replicate 20 0))),
  .stay (.act (.server (.recv ⟨true, true, true, true⟩))),
    .stay (.hear (.request "shell" false [])), .stay (.act (.server (.recv ⟨true, true, true, true⟩))),
    .stay (.hear (.data [7])), .stay (.act (.server (.recv ⟨true, true, true,
      true⟩))), .stay (.act (.server (.wrote 1))),
    .writes [9], .stay (.act (.server (.readOut [9]))), .stay (.act (.server .send)), .closes, .stay
      (.act (.server .outEnds)),
    .stay (.act (.server (.exits (.code 0)))), .stay .process, .stay .process, .stay .process, .stay .process, .stay .process]

/-- The task once its child has exited, if the terminal was pumped. -/
def terminalDone (program : Program) : Server :=
  { Server.make false none with
    phase := .ended, allocated := true, program := some program, stdinOpen := program =
      .sftp, isPty := true, ptyOpen := true,
    stdoutEof := true, stderrEof := true, exited := some (.code 0), fed := [7] }

theorem shell_on_terminal_run :
    (shellOnTerminal.foldlM (guarded (Hosted.step ⟨true, true⟩) Hosted.proper) bareSession).isSome = true := by
  decide +kernel

theorem channel_wired_shell : ∃ hosted,
    Path (guarded (Hosted.step ⟨true, true⟩) Hosted.proper) bareSession shellOnTerminal hosted ∧
    hosted.stay.task = .server (terminalDone (.shell none none)) ∧ (terminalDone (.shell none none)).reached = [7] ∧
    payloads hosted.stay.sent = [9] ∧ .close ∈ hosted.stay.sent ∧
    hosted.Wired ⟨true, true⟩ (terminalDone (.shell none none)) := by
  have path := path_of_some _ shell_on_terminal_run
  have kind : ((shellOnTerminal.foldlM (guarded (Hosted.step ⟨true, true⟩) Hosted.proper) bareSession).get
      shell_on_terminal_run).stay.task = .server (terminalDone (.shell none none)) := by
    decide +kernel
  exact ⟨_, path, kind, by decide +kernel, by decide +kernel, by decide +kernel,
    channel_wired path kind nofun⟩

/-- A terminal is granted, and then sftp is started, which is not on it. The terminal is
given the byte, and ends as nobody has it open. -/
def sftpBesideTerminal : List Hosted.Label :=
  [.stay (.hear (.request "pty-req" false (List.replicate 20 0))),
  .stay (.act (.server (.recv ⟨true, true, true, true⟩))),
    .stay (.hear (.request "subsystem" false [0, 0, 0, 4, 115, 102, 116, 112])),
    .stay (.act (.server (.recv ⟨true, true, true, true⟩))), .stay (.hear (.data [7])),
    .stay (.act (.server (.recv ⟨true, true, true, true⟩))), .stay (.act (.server (.wrote 1))), .writes [9], .closes,
    .stay (.act (.server .outEnds)), .stay (.act
      (.server (.exits (.code 0)))), .stay .process, .stay .process, .stay .process,
    .stay .process]

theorem sftp_beside_terminal_run :
    (sftpBesideTerminal.foldlM (Hosted.step ⟨true, true⟩) bareSession).isSome = true := by
  decide +kernel

/-- The child was given nothing, and nothing that it wrote was sent before CLOSE. -/
theorem sftp_unwired : ∃ hosted,
    Path (Hosted.step ⟨true, true⟩) bareSession sftpBesideTerminal hosted ∧
    hosted.stay.task = .server (terminalDone .sftp) ∧ hosted.stay.chan ≠ none ∧ payloads hosted.stay.heard = [7] ∧
    (terminalDone .sftp).reached = [] ∧ hosted.stay.line.inbox = [] ∧ hosted.child.output = [9] ∧
    payloads hosted.stay.sent = [] ∧ .close ∈ hosted.stay.sent ∧ ¬hosted.Wired ⟨true, true⟩ (terminalDone .sftp) := by
  generalize same : (sftpBesideTerminal.foldlM (Hosted.step ⟨true,
    true⟩) bareSession).get sftp_beside_terminal_run = hosted
  have path : Path (Hosted.step ⟨true, true⟩) bareSession sftpBesideTerminal hosted :=
    same ▸ path_of_some _ sftp_beside_terminal_run
  have there : hosted.stay.chan ≠ none := by
    rw [← same]
    decide +kernel
  have heard : payloads hosted.stay.heard = [7] := by
    rw [← same]
    decide +kernel
  have empty : hosted.stay.line.inbox = [] := by
    rw [← same]
    decide +kernel
  refine ⟨hosted, path, by rw [← same]; decide +kernel, there, heard, by decide, empty, by rw [← same]; decide +kernel,
    by rw [← same]; decide +kernel, by rw [← same]; decide +kernel, fun wired => ?_⟩
  have whole := wired.whole there
  rw [heard, empty] at whole
  revert whole
  decide

end Shh.Channels
