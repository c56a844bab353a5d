import Shh.Outputs

/-!
# What a client returns for its session

When the connection is over, `shh` asks the session's task for the status it has and
turns it into an exit code: the code of an exit status, read as a signed number, `255`
for a signal, and `0` for no status at all. The last of these is what a task reports whose
request was refused, whose channel was closed without a status, or that did not get to
the status in its queue.

So the code `0` says that the server said `0` only in a session that comes to a status.
Here is what that takes: no request is refused, no status comes before the requests are
granted, the channel is not closed before one has come, and the task is not cut off from
one by a CLOSE that finds it waiting for credit.
-/

namespace Shh.Channels

open List Wire Semaphores Runs Client

variable {message : Message} {later : Client} {line : Line}

/-- A number of 32 bits, read as a signed one. -/
def signed (code : Nat) : Int := if code < 2 ^ 31 then code else code - 2 ^ 32

/-- The exit code for a status. -/
def exitCode (status : ExitStatus) : Int :=
  match status.code, status.signal with
  | some code, _ => signed code
  | none, some _ => 255
  | none, none => 0

/-- What `shh` returns: an error if the connection failed or the task reported nothing. -/
def sessionResult (finished : Except String Unit) (exit : Option ExitStatus) : Except String Int := do
  finished
  match exit with
  | some status => return exitCode status
  | none => throw "session ended without an exit status"

/-- The exit code `0` means that the server said `0`, and the last status, if it is a
code, is what is returned. -/
def TellsStatus (heard : List Message) (result : Except String Int) : Prop :=
  (result = .ok 0 → ⟨some 0, none⟩ ∈ heard.filterMap Message.exit) ∧
    ∀ code : Nat, lastExit heard = some ⟨some code, none⟩ → result = .ok code

/-- Nothing that the task takes or ends with makes it miss a status: it is granted what it
asks for before one comes, and it has one, and none in its queue, when it ends. -/
def Client.heeds (task : Client) (line : Line) : Client.Label → Bool
  | .recv =>
    if task.phase = .awaitingPty ∨ task.phase = .awaiting then
      match line.inbox with
      | [] | .close :: _ => false
      | .reply success :: _ => success
      | message :: _ => message.message.exit = none
    else
      match line.inbox with
      | [] | .close :: _ => task.exitStatus.isSome
      | _ => true
  | .send =>
    !(line.credit.closed || line.gone) ||
      task.exitStatus.isSome && line.inbox.all fun event => event.message.exit = none
  | _ => true

/-- The server sends a status only on a channel that it has not closed, and with a code
that is not negative when it is read as a signed number. -/
def End.heeds (stay : End) : End.Label → Bool
  | .hear message =>
    match message.exit with
    | some status => stay.chan.isSome && status.code.all fun code => code < 2 ^ 31
    | none => true
  | .act (.client label) =>
    match stay.task with
    | .client task => task.heeds stay.line label
    | _ => true
  | _ => true

variable {platform : Platform} {stay next : End} {label : End.Label} {task : Client}

/-- What a client that heeds its server knows of what was said. -/
structure Heeded (stay : End) (task : Client) : Prop where
  kind : stay.task = .client task
  last : task.running = true →
    lastExit stay.heard = (lastExit (stay.line.inbox.map ToTask.message)).or task.exitStatus
  dropped : task.running = true → .close ∈ stay.line.inbox → stay.chan = none
  final : task.running = true → .close ∉ stay.line.inbox.dropLast
  fits : ∀ status ∈ stay.heard.filterMap Message.exit, status.code.all (fun code => code < 2 ^ 31) = true
  ended : task.running = false →
    stay.chan = none ∧ ∃ status, task.reported = some status ∧ lastExit stay.heard = some status

theorem last_exit_cons (message : Message) (rest : List Message) :
    lastExit (message :: rest) = (lastExit rest).or message.exit := by
  have single : lastExit [message] = message.exit := by
    cases found : message.exit <;> simp [lastExit, found]
  rw [← single, ← last_exit_append, singleton_append]

/-- A message without a status changes nothing. -/
theorem last_exit_snoc {messages : List Message} (none_ : message.exit = none) :
    lastExit (messages ++ [message]) = lastExit messages := by
  rw [last_exit_append, last_exit_cons, none_]
  rfl

theorem Heeded.start (platform : Platform) (spec : SessionSpec) (resizing endOnClose : Bool)
    (peerId peerWindow peerMax : Nat) :
    Heeded (.make platform (.client (.make spec resizing)) endOnClose peerId peerWindow peerMax)
      (.make spec resizing) where
  kind := rfl
  last := fun _ => rfl
  dropped := fun _ member => absurd member not_mem_nil
  final := fun _ => not_mem_nil
  fits := fun _ member => absurd member not_mem_nil
  ended := fun stopped => by cases stopped

/-- The end of the connection leaves what was said and what is queued. -/
theorem Heeded.falls (heeded : Heeded stay task) : Heeded stay.fallen task :=
  ⟨heeded.kind, heeded.last, fun _ _ => rfl, heeded.final, heeded.fits, fun stopped => ⟨rfl, (heeded.ended stopped).2⟩⟩

/-- A message without a status that is not queued. -/
theorem Heeded.unqueued (heeded : Heeded stay task) (none_ : message.exit = none) :
    Heeded { stay with heard := stay.heard ++ [message] } task := by
  have same := @last_exit_snoc message stay.heard none_
  refine ⟨heeded.kind, ?_, heeded.dropped, heeded.final, ?_, ?_⟩
  · intro running
    exact same.trans (heeded.last running)
  · intro status member
    rw [filterMap_append, filterMap_cons_none none_, filterMap_nil, append_nil] at member
    exact heeded.fits status member
  · intro stopped
    obtain ⟨gone, status, reported, last⟩ := heeded.ended stopped
    exact ⟨gone, status, reported, same.trans last⟩

theorem passed_of_exit (passed : ¬message.passed = true) : message.exit = none := by
  cases message with
  | adjust => rfl
  | data | extData | eof | close | request | reply => exact absurd rfl passed

/-- A message that the loop passes on. -/
theorem Heeded.delivers {chan : Chan} {turn} (linked : Linked stay) (heeded : Heeded stay task)
    (there : stay.chan = some chan) (ok : chan.deliver platform stay.line message = .ok turn)
    (heeds : stay.heeds (.hear message) = true) :
    Heeded (.take { stay with heard := stay.heard ++ [message] } turn) task := by
  refine End.take_keeps (fun stay => Heeded stay task) (fun _ => Heeded.falls) ?_
  have session : chan.isSession = true := by
    rw [linked.kind chan there, heeded.kind]
    rfl
  have queue := deliver_session session ok
  -- The channel is there, so the task runs and no CLOSE is queued yet.
  have running : task.running = true := by
    cases stopped : task.running with
    | true => rfl
    | false => cases there.symm.trans (heeded.ended stopped).1
  have unclosed : .close ∉ stay.line.inbox := fun member => by cases there.symm.trans (heeded.dropped running member)
  have said : lastExit (stay.heard ++ [message]) =
      (lastExit (turn.line.inbox.map ToTask.message)).or task.exitStatus := by
    rw [last_exit_append, heeded.last running, queue, last_exit_append, Option.or_assoc]
    by_cases passed : message.passed = true
    · rw [filter_cons_of_pos passed, filter_nil]
    · rw [filter_cons_of_neg passed, filter_nil, last_exit_cons, passed_of_exit passed]
      rfl
  have fits : ∀ status ∈ (stay.heard ++ [message]).filterMap Message.exit,
      status.code.all (fun code => code < 2 ^ 31) = true := by
    intro status member
    rw [filterMap_append] at member
    rcases mem_append.mp member with before | last
    · exact heeded.fits status before
    · obtain ⟨other, only, brings⟩ := mem_filterMap.mp last
      obtain rfl := mem_singleton.mp only
      simp only [End.heeds, brings, Bool.and_eq_true] at heeds
      exact heeds.2
  have unsaid : Message.close ∉ stay.line.inbox.map ToTask.message := by
    intro member
    obtain ⟨event, queued, same⟩ := mem_map.mp member
    exact unclosed (message_close same ▸ queued)
  refine ⟨heeded.kind, fun _ => said, ?_, ?_, fits, fun stopped => by cases running.symm.trans stopped⟩
  · intro _ member
    have heard : Message.close ∈ turn.line.inbox.map ToTask.message := mem_map.mpr ⟨.close, member, rfl⟩
    rw [queue] at heard
    rcases mem_append.mp heard with before | last
    · exact absurd before unsaid
    · obtain rfl := mem_singleton.mp (mem_filter.mp last).1
      cases ok
      rfl
  · intro _ member
    have heard : Message.close ∈ (turn.line.inbox.map ToTask.message).dropLast := by
      rw [← map_dropLast]
      exact mem_map.mpr ⟨.close, member, rfl⟩
    rw [queue] at heard
    by_cases passed : message.passed = true
    · rw [filter_cons_of_pos passed, filter_nil, dropLast_concat] at heard
      exact unsaid heard
    · rw [filter_cons_of_neg passed, filter_nil, append_nil] at heard
      exact unsaid (mem_of_mem_dropLast heard)

/-- The loop carries out a command. -/
theorem Heeded.commands {chan : Chan} {cmd rest} (linked : Linked stay) (heeded : Heeded stay task)
    (there : stay.chan = some chan) :
    Heeded (.take { stay with line := { stay.line with cmds := rest } }
      (chan.command { stay.line with cmds := rest } cmd))
      task := by
  refine End.take_keeps (fun stay => Heeded stay task) (fun _ => Heeded.falls) ?_
  obtain ⟨kept, sent, result, _, _⟩ := @command_open chan (linked.still chan there) { stay.line with cmds := rest } cmd
  rw [result]
  refine ⟨heeded.kind, heeded.last, ?_, heeded.final, heeded.fits, ?_⟩
  · intro running member
    cases there.symm.trans (heeded.dropped running member)
  · intro stopped
    cases there.symm.trans (heeded.ended stopped).1

/-- A step of the task that takes nothing from its queue. -/
theorem Heeded.keeps (heeded : Heeded stay task) (running : task.running = true)
    (still : later.running = true) (same : later.exitStatus = task.exitStatus) (queue : line.inbox = stay.line.inbox) :
    Heeded { stay with task := .client later, line } later := by
  refine ⟨rfl, ?_, ?_, ?_, heeded.fits, fun stopped => by cases still.symm.trans stopped⟩
  · intro _
    rw [queue, same]
    exact heeded.last running
  · intro _ member
    exact heeded.dropped running (queue ▸ member)
  · intro _ member
    exact heeded.final running (queue ▸ member)

/-- A step of the task that takes a message, and its status if it brings one. -/
theorem Heeded.takes {message : ToTask} (heeded : Heeded stay task)
    (running : task.running = true) (still : later.running = true) (queue : stay.line.inbox = message :: line.inbox)
    (noted : later.exitStatus = message.message.exit.or task.exitStatus) :
    Heeded { stay with task := .client later, line } later := by
  refine ⟨rfl, ?_, ?_, ?_, heeded.fits, fun stopped => by cases still.symm.trans stopped⟩
  · intro _
    rw [heeded.last running, queue, map_cons, last_exit_cons, Option.or_assoc, noted]
  · intro _ member
    exact heeded.dropped running (queue ▸ mem_cons_of_mem _ member)
  · intro _ member
    refine heeded.final running ?_
    rw [queue]
    cases rest : line.inbox with
    | nil =>
      rw [rest] at member
      cases member
    | cons first others =>
      rw [rest] at member
      rw [dropLast_cons_cons]
      exact mem_cons_of_mem _ member

/-- The task ends with a status, and leaves none in its queue. -/
theorem Heeded.ends (heeded : Heeded stay task) (running : task.running = true) (gone : stay.chan = none)
    (has : task.exitStatus.isSome = true) (unread : lastExit (stay.line.inbox.map ToTask.message) = none) :
    Heeded { stay with task := .client (task.stopped task.exitStatus), line } (task.stopped task.exitStatus) := by
  obtain ⟨status, known⟩ := Option.isSome_iff_exists.mp has
  refine ⟨rfl, fun clash => (by cases clash), fun clash => (by cases clash),
    fun clash => (by cases clash), heeded.fits, ?_⟩
  intro _
  refine ⟨gone, status, ?_, ?_⟩
  · simp only [stopped, known, Option.getD_some]
  · show lastExit stay.heard = some status
    rw [heeded.last running, unread, known]
    rfl

theorem head_closes (there : line.inbox.head? = some .close ∨ line.inbox = [] ∧ line.hungUp = true) :
    line.inbox = [] ∨ ∃ rest, line.inbox = .close :: rest := by
  rcases there with head | ⟨empty, _⟩
  · exact .inr ⟨_, eq_cons_of_mem_head? head⟩
  · exact .inl empty

/-- A step of the task. -/
theorem Heeded.acts {cause} (linked : Linked stay) (heeded : Heeded stay task)
    (heeds : task.heeds stay.line cause = true)
    (ran : task.step stay.remoteMax stay.line cause = some (later, line)) :
    Heeded { stay with task := .client later, line } later := by
  have running := Client.step_running ran
  by_cases failing : cause = .writeFails
  · -- What could not be written is passed over.
    subst failing
    simp only [Client.step] at ran
    split at ran
    · cases ran
      refine heeded.keeps running rfl rfl ?_
      simp only [Line.send]
      split <;> rfl
    · cases ran
  cases Client.step_goes ran with
  | starts created same =>
    refine heeded.keeps running ?_ rfl same
    unfold Client.running
    split <;> rfl
  | @passes message _ waits there open_ unanswered =>
    simp only [Client.heeds, if_pos waits, there] at heeds
    have silent : message.message.exit = none := by
      cases message with
      | close => exact absurd rfl open_
      | reply success => exact absurd rfl (unanswered success)
      | data | extData | eof => rfl
      | request => exact of_decide_eq_true heeds
    refine heeded.takes running running there ?_
    rw [silent]
    rfl
  | granted waits there =>
    refine heeded.takes running ?_ there rfl
    unfold Client.running
    split <;> rfl
  | declined waits there =>
    simp only [Client.heeds, if_pos waits, there] at heeds
    cases heeds
  | abandoned waits there =>
    rcases head_closes there with empty | ⟨rest, closing⟩
    · simp only [Client.heeds, if_pos waits, empty] at heeds
      cases heeds
    · simp only [Client.heeds, if_pos waits, closing] at heeds
      cases heeds
  | closed selecting there =>
    have pumping : ¬(task.phase = .awaitingPty ∨ task.phase = .awaiting) := by
      rw [selecting]
      rintro (clash | clash) <;> cases clash
    rcases head_closes there with empty | ⟨rest, closing⟩
    · simp only [Client.heeds, if_neg pumping, empty] at heeds
      have hungUp : stay.line.hungUp = true := by
        rcases there with head | both
        · rw [empty] at head
          cases head
        · exact both.2
      have gone : stay.chan = none := Option.isNone_iff_eq_none.mp (linked.hungUp.symm.trans hungUp)
      refine heeded.ends running gone heeds ?_
      rw [empty]
      rfl
    · simp only [Client.heeds, if_neg pumping, closing] at heeds
      have gone : stay.chan = none := heeded.dropped running (closing ▸ mem_cons_self)
      refine heeded.ends running gone heeds ?_
      -- CLOSE is the last thing in the queue.
      cases rest with
      | nil =>
        rw [closing]
        rfl
      | cons first others =>
        have final := heeded.final running
        rw [closing, dropLast_cons_cons] at final
        exact absurd mem_cons_self final
  | takes selecting there carries =>
    refine heeded.takes running rfl there ?_
    rcases carries with ⟨rfl, _⟩ | ⟨rfl, _⟩ <;> rfl
  | notes selecting there =>
    exact heeded.takes running running there rfl
  | wrote writing all same =>
    refine heeded.keeps running rfl ?_ same
    simp only [Client.write]
    split <;> rfl
  | writes writing =>
    refine heeded.keeps running rfl ?_ rfl
    simp only [Client.write]
    split <;> rfl
  | writeFails => exact absurd rfl failing
  | reads selecting =>
    exact heeded.keeps running rfl rfl rfl
  | aside selecting same =>
    exact heeded.keeps running running rfl same
  | sent sending _ same =>
    exact heeded.keeps running rfl rfl same
  | refused sending shut =>
    have cut : (stay.line.credit.closed || stay.line.gone) = true := (Bool.or_eq_true _ _).mpr shut
    simp only [Client.heeds, cut, Bool.not_true, Bool.false_or, Bool.and_eq_true] at heeds
    have gone : stay.chan = none := by
      rcases shut with closed | lost
      · exact Option.isNone_iff_eq_none.mp (linked.closed.symm.trans closed)
      · by_contra there
        cases (linked.alive there).symm.trans lost
    refine heeded.ends running gone heeds.1 ?_
    rw [lastExit, filterMap_eq_nil_iff.mpr]
    · rfl
    · intro message member
      obtain ⟨event, queued, rfl⟩ := mem_map.mp member
      exact of_decide_eq_true (all_eq_true.mp heeds.2 event queued)

theorem heeded_step (linked : Linked stay) (heeded : Heeded stay task) (heeds : stay.heeds label = true)
    (ran : stay.step platform label = some next) : ∃ later, Heeded next later := by
  cases End.step_happens ran with
  | @unheard message dropped =>
    refine ⟨task, heeded.unqueued ?_⟩
    simp only [End.heeds, dropped] at heeds
    split at heeds
    · cases heeds
    · assumption
  | heard there ok => exact ⟨task, heeded.delivers linked there ok heeds⟩
  | @broken message chan error there refused =>
    refine ⟨task, (heeded.unqueued ?_).falls⟩
    cases message with
    | request => cases refused
    | data | extData | adjust | eof | close | reply => rfl
  | skipped queued dropped => exact ⟨task, { heeded with }⟩
  | processed queued there => exact ⟨task, heeded.commands linked there⟩
  | fell => exact ⟨task, heeded.falls⟩
  | @acted cause later line moved =>
    rw [heeded.kind] at moved
    cases cause with
    | client cause =>
      obtain ⟨⟨after, queue⟩, stepped, same⟩ := Option.map_eq_some_iff.mp moved
      cases same
      simp only [End.heeds, heeded.kind] at heeds
      exact ⟨after, heeded.acts linked heeds stepped⟩
    | forward | server => cases moved

/-- A status that was read has a code or a signal. -/
theorem exit_of_code {status} (brings : message.exit = some status) :
    (∃ code, status = ⟨some code, none⟩) ∨ ∃ signal, status = ⟨none, some signal⟩ := by
  cases message with
  | request kind wantReply body =>
    simp only [Message.exit, exitOf] at brings
    split at brings
    · split at brings
      · exact .inl ⟨_, (Option.some.inj brings).symm⟩
      · cases brings
    · split at brings
      · split at brings
        · exact .inr ⟨_, (Option.some.inj brings).symm⟩
        · cases brings
      · cases brings
  | data | extData | adjust | eof | close | reply => cases brings

/-- A client that ended with the last status of its server tells it. -/
theorem Heeded.tells (heeded : Heeded stay task) (stopped : task.running = false) :
    TellsStatus stay.heard (sessionResult (.ok ()) task.reported) := by
  obtain ⟨_, status, reported, last⟩ := heeded.ended stopped
  have member : status ∈ stay.heard.filterMap Message.exit := mem_of_getLast? last
  obtain ⟨message, _, brings⟩ := mem_filterMap.mp member
  have result : sessionResult (.ok ()) task.reported = .ok (exitCode status) := by
    rw [reported]
    rfl
  rw [result]
  rcases exit_of_code brings with ⟨code, rfl⟩ | ⟨signal, rfl⟩
  · have fits : code < 2 ^ 31 := of_decide_eq_true (heeded.fits _ member)
    have same : exitCode ⟨some code, none⟩ = code := if_pos fits
    rw [same]
    constructor
    · intro zero
      have none_ : code = 0 := Int.natCast_eq_zero.mp (Except.ok.inj zero)
      subst none_
      exact member
    · intro other said
      rw [last] at said
      obtain rfl : code = other := by simpa using said
      rfl
  · have same : exitCode ⟨none, some signal⟩ = 255 := rfl
    rw [same]
    constructor
    · intro zero
      exact absurd (Except.ok.inj zero) (by decide)
    · intro code said
      rw [last] at said
      simp at said

/-- In every run of a session in which no request is refused, no status comes before the
requests are granted or after CLOSE, the task has taken a status when it ends and leaves
none in its queue, and codes are within 31 bits: once the task has ended and the connection
has not failed, the exit code tells the status. -/
theorem exit_code_tells_status {spec : SessionSpec} {resizing endOnClose : Bool} {peerId peerWindow peerMax : Nat}
    {labels : List End.Label}
    (path : Path (guarded (End.step platform) End.heeds)
      (.make platform (.client (.make spec resizing)) endOnClose peerId peerWindow peerMax) labels stay)
    (kind : stay.task = .client task) (stopped : task.running = false) :
    TellsStatus stay.heard (sessionResult (.ok ()) task.reported) := by
  have invariant : Linked stay ∧ ∃ task, Heeded stay task := by
    refine path_invariant (fun _ stay => Linked stay ∧ ∃ task, Heeded stay task)
      ⟨.start platform (.client spec resizing) _ _ _ _, _, .start platform spec resizing _ _ _ _⟩ ?_ path
    rintro past before label after _ ran ⟨linked, task, heeded⟩
    obtain ⟨heeds, moved⟩ := guarded_eq_some.mp ran
    exact ⟨linked_step linked moved, heeded_step linked heeded heeds moved⟩
  obtain ⟨_, mine, heeded⟩ := invariant
  obtain rfl := Task.client.inj (kind.symm.trans heeded.kind)
  exact heeded.tells stopped

/-- The server refuses to run the command. -/
def commandRefused : List End.Label :=
  [.act (.client .start), .process, .hear (.reply false), .act (.client .recv)]

/-- Success is returned for a command that was refused, and for one whose exit status came
while the client waited for credit and was followed by CLOSE. -/
theorem success_unsaid : (∃ stay task,
      Path (End.step ⟨true, true⟩) (.make ⟨true,
      true⟩ (.client (.make plainSpec false)) true 0 1 maxChunk) commandRefused
        stay ∧
      stay.task = .client task ∧ task.running = false ∧ sessionResult (.ok ()) task.reported = .ok 0 ∧
      stay.heard.filterMap Message.exit = [] ∧ ¬TellsStatus stay.heard (sessionResult (.ok ()) task.reported)) ∧
    ∃ stay task,
      Path (End.step ⟨true, true⟩) (.make ⟨true, true⟩ (.client (.make plainSpec false)) true 0 1 maxChunk)
        closedWhileSending stay ∧
      stay.task = .client task ∧ task.running = false ∧ sessionResult (.ok ()) task.reported = .ok 0 ∧
      lastExit stay.heard = some ⟨some 3, none⟩ ∧ ¬TellsStatus stay.heard (sessionResult (.ok ()) task.reported) := by
  constructor
  · have path := @path_of_foldlM _ _ (End.step ⟨true, true⟩)
      (.make ⟨true, true⟩ (.client (.make plainSpec false)) true 0 1 maxChunk) _ commandRefused rfl
    refine ⟨_, _, path, rfl, rfl, rfl, rfl, fun tells => ?_⟩
    exact absurd (tells.1 rfl) not_mem_nil
  · have path := @path_of_foldlM _ _ (End.step ⟨true, true⟩)
      (.make ⟨true, true⟩ (.client (.make plainSpec false)) true 0 1 maxChunk) _ closedWhileSending rfl
    refine ⟨_, _, path, rfl, rfl, rfl, by decide, fun tells => ?_⟩
    exact absurd (Except.ok.inj (tells.2 3 (by decide))) (by decide)

theorem exit_code_three : ∃ stay task,
    Path (guarded (End.step ⟨true, true⟩) End.heeds)
      (.make ⟨true, true⟩ (.client (.make plainSpec false)) true 0 2 maxChunk) closedAfterSending stay ∧
    stay.task = .client task ∧ task.running = false ∧ sessionResult (.ok ()) task.reported = .ok 3 ∧
    TellsStatus stay.heard (sessionResult (.ok ()) task.reported) := by
  have path := @path_of_foldlM _ _ (guarded (End.step ⟨true, true⟩) End.heeds)
    (.make ⟨true, true⟩ (.client (.make plainSpec false)) true 0 2 maxChunk) _ closedAfterSending rfl
  exact ⟨_, _, path, rfl, rfl, by decide +kernel, exit_code_tells_status path rfl rfl⟩

end Shh.Channels
