import Shh.Cipher
import Shh.Runs

/-!
# Packets on a byte stream

The reading half of a transport takes packets from a stream that delivers its bytes in
pieces, and the call that reads may be dropped wherever it waits and made again. What was
read of a packet is kept in the transport and not in the call. Here the call is a machine of
its own: it is made, waits, takes some of the bytes it wants, is dropped, and returns.

Whatever the pieces and the drops, it returns what one-shot parsing of the stream gives.
The same stream read with the sender's keys gives back what the sender sealed.
-/

namespace Shh

open List Wire Runs

/-- Progress of a packet that is being read: what is there of its header, or the header, the
size of the body and what is there of it. -/
inductive ReadState where
  | idle
  | header (first4 : Bytes)
  | body (first4 : Bytes) (size : Nat) (buf : Bytes)
deriving DecidableEq, Repr

namespace ReadState

/-- How many bytes are to be read before the next decision. -/
def wants : ReadState → Nat
  | .idle => 0
  | .header first4 => 4 - first4.length
  | .body _ size buf => size - buf.length

def take (bytes : Bytes) : ReadState → ReadState
  | .idle => .idle
  | .header first4 => .header (first4 ++ bytes)
  | .body first4 size buf => .body first4 size (buf ++ bytes)

/-- How many rounds of the loop are due for the packet, at most. -/
def rounds : ReadState → Nat
  | .idle => 3
  | .header _ => 2
  | .body _ _ _ => 1

/-- What is there of the packet. -/
def bytes : ReadState → Bytes
  | .idle => []
  | .header first4 => first4
  | .body first4 _ buf => first4 ++ buf

end ReadState

/-- The reading half of a transport and the stream that it has not read, with what was
returned to the caller: payloads, until the first error. -/
structure Reading where
  state : ReadState
  rx : Cipher
  rxSeq : Nat
  traffic : Nat
  /-- A call is being made. -/
  calling : Bool
  stream : Bytes
  payloads : List Bytes
  failure : Option Error
deriving DecidableEq, Repr

namespace Reading

inductive Event where
  | call
  /-- The call is dropped where it waits. -/
  | drop
  /-- The loop goes round without waiting. -/
  | turn
  /-- A read that the call waits for returns some bytes. -/
  | read (count : Nat)
  /-- It returns none, since the stream is at its end. -/
  | close
deriving DecidableEq, Repr

def start (rx : Cipher) (rxSeq : Nat) (stream : Bytes) : Reading :=
  ⟨.idle, rx, rxSeq, 0, false, stream, [], none⟩

section Machine

variable (prim : Primitives)
/- Between two calls the keys may change, as the payloads so far demand. -/
variable (rekey : List Bytes → Cipher → Nat → Cipher × Nat)

/-- A round of the loop that does not wait. -/
def turn (reading : Reading) : Reading :=
  match reading.state with
  | .idle => { reading with state := .header [] }
  | .header first4 =>
    match reading.rx.packetLength prim reading.rxSeq first4 with
    | .error reason => { reading with calling := false, failure := some reason }
    | .ok length => { reading with state := .body first4 (reading.rx.bodyLen length) [] }
  | .body first4 _ buf =>
    match reading.rx.openPacket prim reading.rxSeq first4 buf with
    | .error reason => { reading with state := .idle, calling := false, failure := some reason }
    | .ok payload =>
      let rx := reading.rx.advance
      let rxSeq := (reading.rxSeq + 1) % 2 ^ 32
      let traffic := reading.traffic + (4 + buf.length)
      if payload = [] then
        { reading with
          state := .idle, rx, rxSeq, traffic, calling := false
          failure := some (.protocol "empty packet payload") }
      else
        let payloads := reading.payloads ++ [payload]
        let keys := rekey payloads rx rxSeq
        { reading with state := .idle, rx := keys.1, rxSeq := keys.2, traffic, calling := false, payloads }

def step (closes : Bool) (reading : Reading) (event : Event) : Option Reading :=
  if reading.failure ≠ none then none
  else
    match event with
    | .call => if reading.calling then none else some { reading with calling := true }
    | .drop =>
      if reading.calling ∧ 0 < reading.state.wants then some { reading with calling := false } else none
    | .turn => if reading.calling ∧ reading.state.wants = 0 then some (reading.turn prim rekey) else none
    | .read count =>
      if reading.calling ∧ 0 < count ∧ count ≤ reading.state.wants ∧ count ≤ reading.stream.length then
        some { reading with
          state := reading.state.take (reading.stream.take count)
          stream := reading.stream.drop count }
      else none
    | .close =>
      if reading.calling ∧ 0 < reading.state.wants ∧ reading.stream = [] ∧ closes then
        some { reading with calling := false, failure := some (.protocol "connection closed mid-packet") }
      else none

/-- One-shot parsing of a stream: the payloads and the first error, for which the payloads
that came before count. -/
inductive Parses (closes : Bool) : List Bytes → Cipher → Nat → Bytes → List Bytes → Option Error → Prop
  | packet {past payloads : List Bytes} {rx : Cipher} {rxSeq size : Nat} {input payload rest : Bytes}
    {failure : Option Error} (read : readPacket prim rx rxSeq input = .packet payload size rest) (some_ : payload ≠ [])
    (more : Parses closes (past ++ [payload]) (rekey (past ++ [payload]) rx.advance ((rxSeq + 1) % 2 ^ 32)).1
      (rekey (past ++ [payload]) rx.advance ((rxSeq + 1) % 2 ^ 32)).2 rest payloads failure) :
    Parses closes past rx rxSeq input (payload :: payloads) failure
  | empty {past : List Bytes} {rx : Cipher} {rxSeq size : Nat} {input rest : Bytes}
    (read : readPacket prim rx rxSeq input = .packet [] size rest) :
    Parses closes past rx rxSeq input [] (some (.protocol "empty packet payload"))
  | failed {past : List Bytes} {rx : Cipher} {rxSeq : Nat} {input : Bytes} {reason : Error}
    (read : readPacket prim rx rxSeq input = .failed reason) : Parses closes past rx rxSeq input [] (some reason)
  | waits {past : List Bytes} {rx : Cipher} {rxSeq : Nat} {input : Bytes}
    (read : readPacket prim rx rxSeq input = .needMore) :
    Parses closes past rx rxSeq input [] (if closes then some (.protocol "connection closed mid-packet") else none)

/-- What is there of a packet is a header or less, or a header that announces the body. -/
def Fits (rx : Cipher) (rxSeq : Nat) : ReadState → Prop
  | .idle => True
  | .header first4 => first4.length ≤ 4
  | .body first4 size buf => first4.length = 4 ∧ buf.length ≤ size ∧
    ∃ length, rx.packetLength prim rxSeq first4 = .ok length ∧ size = rx.bodyLen length

end Machine

/-- The stream from the packet that is being read on. -/
def ahead (reading : Reading) : Bytes := reading.state.bytes ++ reading.stream

section Packets

variable {prim : Primitives} {rx : Cipher} {rxSeq : Nat}

variable {first4 : Bytes} {length : Nat}

/-- A length that is accepted has room for the padding length and the least padding. -/
theorem packet_length_enough (read : rx.packetLength prim rxSeq first4 = .ok length) :
    5 ≤ length := by
  have checked {length' align} (read : checkLength length' align = .ok length) : 5 ≤ length := by
    unfold checkLength at read
    split at read
    · rename_i range
      cases read
      exact range.1.1
    · cases read
  cases rx with
  | plain =>
    simp only [Cipher.packetLength] at read
    split at read
    · rename_i range
      cases read
      exact range.1.1
    · cases read
  | chachaPoly | gcm => exact checked read

/-- Less than a header is not enough. -/
theorem read_part_header (short : first4.length < 4) : readPacket prim rx rxSeq first4 = .needMore := by
  rw [readPacket, if_pos short]

theorem read_bad_header {reason} (header : first4.length = 4)
    (bad : rx.packetLength prim rxSeq first4 = .error reason) (rest : Bytes) :
    readPacket prim rx rxSeq (first4 ++ rest) = .failed reason := by
  have long : ¬(first4 ++ rest).length < 4 := by
    rw [length_append]
    omega
  simp only [readPacket, if_neg long, take_left' header, bad]

/-- Less than the body is not enough. -/
theorem read_part_body {buf : Bytes} (header : first4.length = 4)
    (announced : rx.packetLength prim rxSeq first4 = .ok length) (short : buf.length < rx.bodyLen length) :
    readPacket prim rx rxSeq (first4 ++ buf) = .needMore := by
  have long : ¬(first4 ++ buf).length < 4 := by
    rw [length_append]
    omega
  have missing : (buf.take (rx.bodyLen length)).length < rx.bodyLen length := by
    rw [length_take]
    omega
  simp only [readPacket, if_neg long, take_left' header, announced, drop_left' header, if_pos missing]

/-- With the whole body the packet is opened, and nothing behind it is touched. -/
theorem read_whole_body {buf : Bytes} (header : first4.length = 4)
    (announced : rx.packetLength prim rxSeq first4 = .ok length)
    (whole : buf.length = rx.bodyLen length) (rest : Bytes) :
    readPacket prim rx rxSeq (first4 ++ buf ++ rest) =
      match rx.openPacket prim rxSeq first4 buf with
      | .error reason => .failed reason
      | .ok payload => .packet payload (4 + buf.length) rest := by
  have long : ¬(first4 ++ (buf ++ rest)).length < 4 := by
    rw [length_append]
    omega
  rw [append_assoc, readPacket, if_neg long]
  cases opened : rx.openPacket prim rxSeq first4 buf with
  | error reason =>
    simp only [take_left' header, drop_left' header, announced, take_left' whole, whole,
      Nat.lt_irrefl, if_false, opened]
  | ok payload =>
    simp only [take_left' header, drop_left' header, announced, take_left' whole, drop_left' whole,
      whole, Nat.lt_irrefl, if_false, opened]

/-- A packet takes bytes. -/
theorem read_shortens {input payload rest : Bytes} {size}
    (read : readPacket prim rx rxSeq input = .packet payload size rest) : rest.length < input.length := by
  unfold readPacket at read
  split at read
  · cases read
  · rename_i long
    dsimp only at read
    split at read
    · cases read
    · split at read
      · cases read
      · split at read
        · cases read
        · obtain ⟨_, _, rfl⟩ := ReadResult.packet.inj read
          simp only [length_drop]
          omega

end Packets

section Parsing

variable {prim : Primitives} {rekey : List Bytes → Cipher → Nat → Cipher × Nat} {closes : Bool}
variable {past : List Bytes} {rx : Cipher} {rxSeq : Nat} {input : Bytes}

/-- Parsing has one outcome. -/
theorem Parses.unique {payloads payloads' failure failure'}
    (left : Parses prim rekey closes past rx rxSeq input payloads failure)
    (right : Parses prim rekey closes past rx rxSeq input payloads' failure') :
    payloads = payloads' ∧ failure = failure' := by
  induction left generalizing payloads' with
  | packet read some_ more ih =>
    cases right with
    | packet read' some_' more' =>
      obtain ⟨rfl, rfl, rfl⟩ := ReadResult.packet.inj (read.symm.trans read')
      obtain ⟨rfl, rfl⟩ := ih more'
      exact ⟨rfl, rfl⟩
    | empty read' => exact absurd (ReadResult.packet.inj (read.symm.trans read')).1 some_
    | failed read' => cases read.symm.trans read'
    | waits read' => cases read.symm.trans read'
  | empty read =>
    cases right with
    | packet read' some_' more' => exact absurd (ReadResult.packet.inj (read'.symm.trans read)).1 some_'
    | empty read' => exact ⟨rfl, rfl⟩
    | failed read' => cases read.symm.trans read'
    | waits read' => cases read.symm.trans read'
  | failed read =>
    cases right with
    | packet read' some_' more' => cases read.symm.trans read'
    | empty read' => cases read.symm.trans read'
    | failed read' => exact ⟨rfl, congrArg some (ReadResult.failed.inj (read.symm.trans read'))⟩
    | waits read' => cases read.symm.trans read'
  | waits read =>
    cases right with
    | packet read' some_' more' => cases read.symm.trans read'
    | empty read' => cases read.symm.trans read'
    | failed read' => cases read.symm.trans read'
    | waits read' => exact ⟨rfl, rfl⟩

/-- Parsing has an outcome. -/
theorem parses_total (input : Bytes) (past : List Bytes) (rx : Cipher) (rxSeq : Nat) :
    ∃ payloads failure, Parses prim rekey closes past rx rxSeq input payloads failure := by
  induction size : input.length using Nat.strongRecOn generalizing input past rx rxSeq with
  | _ size_ ih =>
    subst size
    cases read : readPacket prim rx rxSeq input with
    | needMore => exact ⟨_, _, .waits read⟩
    | failed reason => exact ⟨_, _, .failed read⟩
    | packet payload size rest =>
      by_cases empty : payload = []
      · subst empty
        exact ⟨_, _, .empty read⟩
      · obtain ⟨payloads, failure, more⟩ := ih rest.length (read_shortens read) rest (past ++ [payload])
          (rekey (past ++ [payload]) rx.advance ((rxSeq + 1) % 2 ^ 32)).1
          (rekey (past ++ [payload]) rx.advance ((rxSeq + 1) % 2 ^ 32)).2 rfl
        exact ⟨_, _, .packet read empty more⟩

end Parsing

section Steps

variable {prim : Primitives} {rekey : List Bytes → Cipher → Nat → Cipher × Nat} {closes : Bool}

/-- What a step does. -/
inductive Moves (prim : Primitives) (rekey : List Bytes → Cipher → Nat → Cipher × Nat) (closes : Bool)
    (reading : Reading) : Reading → Prop
  | called (called : Bool) : Moves prim rekey closes reading { reading with calling := called }
  | begins (idle : reading.state = .idle) : Moves prim rekey closes reading { reading with state := .header [] }
  | reads {count : Nat} (wanted : count ≤ reading.state.wants) (there : count ≤ reading.stream.length) :
    Moves prim rekey closes reading { reading with
      state := reading.state.take (reading.stream.take count)
      stream := reading.stream.drop count }
  | announces {first4 : Bytes} {length : Nat} (header : reading.state = .header first4) (whole : 4 ≤ first4.length)
    (read : reading.rx.packetLength prim reading.rxSeq first4 = .ok length) :
    Moves prim rekey closes reading { reading with state := .body first4 (reading.rx.bodyLen length) [] }
  | returns {first4 buf payload : Bytes} {size : Nat} (body : reading.state = .body first4 size buf)
    (whole : size ≤ buf.length) (opens : reading.rx.openPacket prim reading.rxSeq first4 buf = .ok payload)
    (some_ : payload ≠ []) :
    Moves prim rekey closes reading { reading with
      state := .idle
      rx := (rekey (reading.payloads ++ [payload]) reading.rx.advance ((reading.rxSeq + 1) % 2 ^ 32)).1
      rxSeq := (rekey (reading.payloads ++ [payload]) reading.rx.advance ((reading.rxSeq + 1) % 2 ^ 32)).2
      traffic := reading.traffic + (4 + buf.length)
      calling := false
      payloads := reading.payloads ++ [payload] }
  /-- An error: of the length, of the body, of the payload, or because the stream ends. -/
  | fails {next : Reading} {reason : Error} (payloads : next.payloads = reading.payloads)
    (failed : next.failure = some reason)
    (parses : Fits prim reading.rx reading.rxSeq reading.state →
      Parses prim rekey closes reading.payloads reading.rx reading.rxSeq reading.ahead [] (some reason)) :
    Moves prim rekey closes reading next

variable {reading next : Reading}

/-- While more is wanted and nothing is left, there is no whole packet. -/
theorem read_waiting (fits : Fits prim reading.rx reading.rxSeq reading.state) (wants : 0 < reading.state.wants)
    (exhausted : reading.stream = []) : readPacket prim reading.rx reading.rxSeq reading.ahead = .needMore := by
  rw [ahead, exhausted, append_nil]
  cases state : reading.state with
  | idle =>
    rw [state] at wants
    exact absurd wants (Nat.lt_irrefl 0)
  | header first4 =>
    rw [state] at wants
    exact read_part_header (Nat.lt_of_sub_pos wants)
  | body first4 size buf =>
    rw [state] at wants fits
    obtain ⟨header, _, length, announced, rfl⟩ := fits
    exact read_part_body header announced (Nat.lt_of_sub_pos wants)

/-- A round of the loop, when all it wants is there. -/
theorem turn_moves (settled : reading.state.wants = 0) :
    Moves prim rekey closes reading (reading.turn prim rekey) := by
  unfold turn
  cases state : reading.state with
  | idle => exact .begins state
  | header first4 =>
    rw [state] at settled
    have whole : 4 ≤ first4.length := Nat.le_of_sub_eq_zero settled
    dsimp only
    cases read : reading.rx.packetLength prim reading.rxSeq first4 with
    | ok length => exact .announces state whole read
    | error reason =>
      refine .fails rfl rfl fun fits => ?_
      rw [state] at fits
      have header : first4.length = 4 := Nat.le_antisymm fits whole
      rw [ahead, state]
      exact .failed (read_bad_header header read _)
  | body first4 size buf =>
    rw [state] at settled
    have whole : size ≤ buf.length := Nat.le_of_sub_eq_zero settled
    -- The bytes from the packet on are a whole packet and the rest of the stream.
    have reads (fits : Fits prim reading.rx reading.rxSeq reading.state) :
        readPacket prim reading.rx reading.rxSeq reading.ahead =
          match reading.rx.openPacket prim reading.rxSeq first4 buf with
          | .error reason => .failed reason
          | .ok payload => .packet payload (4 + buf.length) reading.stream := by
      rw [state] at fits
      obtain ⟨header, bound, length, announced, rfl⟩ := fits
      rw [ahead, state]
      exact read_whole_body header announced (Nat.le_antisymm bound whole) _
    dsimp only
    cases opens : reading.rx.openPacket prim reading.rxSeq first4 buf with
    | error reason =>
      refine .fails rfl rfl fun fits => ?_
      have read := reads fits
      rw [opens] at read
      exact .failed read
    | ok payload =>
      dsimp only
      split
      · rename_i empty
        subst empty
        refine .fails rfl rfl fun fits => ?_
        have read := reads fits
        rw [opens] at read
        exact .empty read
      · rename_i some_
        exact .returns state whole opens some_

theorem step_moves {event} (ran : reading.step prim rekey closes event = some next) :
    reading.failure = none ∧ Moves prim rekey closes reading next := by
  unfold step at ran
  split at ran
  · cases ran
  · rename_i running
    have running := not_not.mp running
    refine ⟨running, ?_⟩
    cases event with
    | call =>
      dsimp only at ran
      split at ran
      · cases ran
      · cases ran
        exact .called true
    | drop =>
      dsimp only at ran
      split at ran
      · cases ran
        exact .called false
      · cases ran
    | turn =>
      dsimp only at ran
      split at ran
      · rename_i settled
        cases ran
        exact turn_moves settled.2
      · cases ran
    | read count =>
      dsimp only at ran
      split at ran
      · rename_i can
        cases ran
        exact .reads can.2.2.1 can.2.2.2
      · cases ran
    | close =>
      dsimp only at ran
      split at ran
      · rename_i can
        cases ran
        refine .fails rfl rfl fun fits => ?_
        have read : readPacket prim reading.rx reading.rxSeq reading.ahead = .needMore :=
          read_waiting fits can.2.1 can.2.2.1
        have waits : Parses prim rekey closes reading.payloads reading.rx reading.rxSeq reading.ahead [] _ := .waits read
        rwa [if_pos can.2.2.2] at waits
      · cases ran

end Steps

section Runs

variable (prim : Primitives) (rekey : List Bytes → Cipher → Nat → Cipher × Nat) (closes : Bool)
variable (rx : Cipher) (rxSeq : Nat) (stream : Bytes)

/-- What was returned is what parsing the whole stream gives, as far as it was read. What
was read is the packets that were returned and a part of the next one. -/
structure Faithful (reading : Reading) : Prop where
  fits : reading.failure = none → Fits prim reading.rx reading.rxSeq reading.state
  left : reading.failure = none → ∀ payloads failure,
    Parses prim rekey closes reading.payloads reading.rx reading.rxSeq reading.ahead payloads failure →
      Parses prim rekey closes [] rx rxSeq stream (reading.payloads ++ payloads) failure
  ended : ∀ reason, reading.failure = some reason →
    Parses prim rekey closes [] rx rxSeq stream reading.payloads (some reason)
  consumed : reading.failure = none → ∃ done, stream = done ++ reading.ahead ∧ done.length = reading.traffic

variable {prim rekey closes rx rxSeq stream} {reading next : Reading}

/-- Taking bytes that are wanted keeps the progress sound and loses none of them. -/
theorem take_fits {count} (fits : Fits prim reading.rx reading.rxSeq reading.state)
    (wanted : count ≤ reading.state.wants) (there : count ≤ reading.stream.length) :
    Fits prim reading.rx reading.rxSeq (reading.state.take (reading.stream.take count)) ∧
      (reading.state.take (reading.stream.take count)).bytes ++ reading.stream.drop count = reading.ahead := by
  rw [ahead]
  cases state : reading.state with
  | idle =>
    rw [state] at wanted
    obtain rfl : count = 0 := Nat.le_zero.mp wanted
    exact ⟨trivial, rfl⟩
  | header first4 =>
    rw [state] at wanted fits
    simp only [ReadState.wants] at wanted
    simp only [Fits] at fits
    refine ⟨?_, ?_⟩
    · simp only [ReadState.take, Fits, length_append, length_take]
      omega
    · simp only [ReadState.take, ReadState.bytes, append_assoc, take_append_drop]
  | body first4 size buf =>
    rw [state] at wanted fits
    simp only [ReadState.wants] at wanted
    obtain ⟨header, bound, announced⟩ := fits
    refine ⟨⟨header, ?_, announced⟩, ?_⟩
    · rw [length_append, length_take]
      omega
    · simp only [ReadState.take, ReadState.bytes, append_assoc, take_append_drop]

theorem faithful_moves (running : reading.failure = none)
    (faithful : Faithful prim rekey closes rx rxSeq stream reading)
    (moves : Moves prim rekey closes reading next) : Faithful prim rekey closes rx rxSeq stream next := by
  have fits := faithful.fits running
  have left := faithful.left running
  obtain ⟨done, split, size⟩ := faithful.consumed running
  cases moves with
  | called => exact ⟨faithful.fits, faithful.left, faithful.ended, faithful.consumed⟩
  | begins idle =>
    have same : { reading with state := .header [] }.ahead = reading.ahead := by
      rw [ahead, ahead, idle]
      rfl
    refine ⟨fun _ => Nat.zero_le _, fun _ => ?_, faithful.ended, fun _ => ?_⟩
    · rw [same]
      exact left
    · rw [same]
      exact ⟨done, split, size⟩
  | reads wanted there =>
    obtain ⟨fits', same⟩ := take_fits fits wanted there
    refine ⟨fun _ => fits', fun _ => ?_, faithful.ended, fun _ => ⟨done, ?_, size⟩⟩
    · rw [ahead, same]
      exact left
    · rw [ahead, same]
      exact split
  | @announces first4 length header whole read =>
    rw [header] at fits
    have same : { reading with state := .body first4 (reading.rx.bodyLen length) [] }.ahead = reading.ahead := by
      rw [ahead, ahead, header]
      simp only [ReadState.bytes, append_nil]
    refine ⟨fun _ => ⟨Nat.le_antisymm fits whole, Nat.zero_le _, length, read, rfl⟩, fun _ => ?_, faithful.ended,
      fun _ => ?_⟩
    · rw [same]
      exact left
    · rw [same]
      exact ⟨done, split, size⟩
  | @returns first4 buf payload size' body whole opens some_ =>
    rw [body] at fits
    obtain ⟨header, bound, length, announced, rfl⟩ := fits
    have parts : reading.ahead = first4 ++ buf ++ reading.stream := by
      rw [ahead, body]
      rfl
    refine ⟨fun _ => trivial, fun _ => ?_, fun reason failed => absurd (running.symm.trans failed) nofun, fun _ => ?_⟩
    · intro payloads failure parses
      have read := read_whole_body header announced (Nat.le_antisymm bound whole) reading.stream
      rw [opens, ← parts] at read
      rw [append_assoc]
      exact left _ _ (.packet read some_ parses)
    · refine ⟨done ++ (first4 ++ buf), ?_, ?_⟩
      · rw [split, parts]
        simp only [ahead, ReadState.bytes, nil_append, append_assoc]
      · simp only [length_append, size, header]
  | fails payloads failed parses =>
    refine ⟨fun still => absurd (failed.symm.trans still) nofun,
      fun still => absurd (failed.symm.trans still) nofun, ?_,
      fun still => absurd (failed.symm.trans still) nofun⟩
    intro reason' failed'
    cases failed.symm.trans failed'
    have ends := left _ _ (parses fits)
    rwa [append_nil, ← payloads] at ends

/-- Reading is faithful along every run. -/
theorem faithful_path {events} (path : Path (step prim rekey closes) (start rx rxSeq stream) events reading) :
    Faithful prim rekey closes rx rxSeq stream reading := by
  refine path_invariant (fun _ reading => Faithful prim rekey closes rx rxSeq stream reading) ?_ ?_ path
  · exact ⟨fun _ => trivial, fun _ _ _ parses => parses, nofun, fun _ => ⟨[], rfl, rfl⟩⟩
  · intro past state event next _ ran faithful
    obtain ⟨running, moves⟩ := step_moves ran
    exact faithful_moves running faithful moves

/-- All that can be returned was returned: there is an error, or the stream is used up and
stays open. -/
def Complete (closes : Bool) (reading : Reading) : Prop :=
  reading.failure ≠ none ∨
    (closes = false ∧ reading.calling = true ∧ 0 < reading.state.wants ∧ reading.stream = [])

theorem complete_parses (faithful : Faithful prim rekey closes rx rxSeq stream reading)
    (complete : Complete closes reading) :
    Parses prim rekey closes [] rx rxSeq stream reading.payloads reading.failure := by
  cases failed : reading.failure with
  | some reason => exact faithful.ended reason failed
  | none =>
    obtain ⟨rfl, _, wants, exhausted⟩ := complete.resolve_left (not_not.mpr failed)
    have waits := faithful.left failed _ _ (.waits (read_waiting (faithful.fits failed) wants exhausted))
    rwa [append_nil] at waits

/-- The stream is delivered whole, and no call is dropped. -/
def undisturbed (reading : Reading) : Event → Bool
  | .drop => false
  | .read count => count = min reading.state.wants reading.stream.length
  | _ => true

/-- What is still to be done: bytes count before they are read and before they are parsed,
and then the rounds of the loop. -/
def weight (reading : Reading) : Nat :=
  if reading.failure = none then
    8 * (reading.ahead.length + reading.stream.length) + 2 * reading.state.rounds + if reading.calling then 0 else 1
  else 0

theorem weight_failed {reason} (failed : reading.failure = some reason) : reading.weight = 0 := by
  rw [weight, failed, if_neg nofun]

theorem weight_positive (running : reading.failure = none) : 0 < reading.weight := by
  have due : 0 < reading.state.rounds := by cases reading.state <;> exact Nat.succ_pos _
  rw [weight, if_pos running]
  omega

/-- A round of the loop that is called leaves less to be done. -/
theorem turn_weight (fits : Fits prim reading.rx reading.rxSeq reading.state) (running : reading.failure = none)
    (calling : reading.calling = true) : (reading.turn prim rekey).weight < reading.weight := by
  have positive := weight_positive running
  unfold turn
  split
  · rename_i state
    simp only [weight, running, if_true, ahead, state, ReadState.bytes, ReadState.rounds]
    omega
  · rename_i first4 state
    split
    · rw [weight_failed rfl]
      exact positive
    · simp only [weight, running, if_true, ahead, state, ReadState.bytes, ReadState.rounds, append_nil]
      omega
  · rename_i first4 size buf state
    split
    · rw [weight_failed rfl]
      exact positive
    · dsimp only
      split
      · rw [weight_failed rfl]
        exact positive
      · -- The packet is no longer ahead.
        rw [state] at fits
        have header := fits.1
        simp only [weight, running, calling, if_true, ahead, state, ReadState.bytes, ReadState.rounds, length_append,
          length_nil, header, Bool.false_eq_true, if_false]
        omega

/-- An undisturbed call that is not complete goes on. -/
theorem undisturbed_progress (fits : Fits prim reading.rx reading.rxSeq reading.state)
    (running : reading.failure = none)
    (incomplete : ¬Complete closes reading) : ∃ event next,
      guarded (step prim rekey closes) undisturbed reading event = some next ∧ next.weight < reading.weight := by
  have go : ¬reading.failure ≠ none := not_not.mpr running
  by_cases calling : reading.calling = true
  · by_cases settled : reading.state.wants = 0
    · refine ⟨.turn, reading.turn prim rekey, guarded_eq_some.mpr ⟨rfl, ?_⟩, turn_weight fits running calling⟩
      simp only [step, if_neg go, if_pos (And.intro calling settled)]
    · have wants : 0 < reading.state.wants := Nat.pos_of_ne_zero settled
      by_cases exhausted : reading.stream = []
      · have closed : closes = true := by
          by_contra open_
          exact incomplete (.inr ⟨(Bool.not_eq_true closes).mp open_, calling, wants, exhausted⟩)
        have ran : reading.step prim rekey closes .close = some { reading with
            calling := false, failure := some (.protocol "connection closed mid-packet") } := by
          simp only [step, if_neg go]
          exact if_pos ⟨calling, wants, exhausted, closed⟩
        refine ⟨.close, _, guarded_eq_some.mpr ⟨rfl, ran⟩, ?_⟩
        rw [weight_failed rfl]
        exact weight_positive running
      · have there : 0 < reading.stream.length := length_pos_of_ne_nil exhausted
        let count := min reading.state.wants reading.stream.length
        have can : reading.calling = true ∧ 0 < count ∧ count ≤ reading.state.wants ∧ count ≤ reading.stream.length :=
          ⟨calling, Nat.lt_min.mpr ⟨wants, there⟩, Nat.min_le_left _ _, Nat.min_le_right _ _⟩
        have ran : reading.step prim rekey closes (.read count) = some { reading with
            state := reading.state.take (reading.stream.take count)
            stream := reading.stream.drop count } := by
          simp only [step, if_neg go]
          exact if_pos can
        refine ⟨.read count, _, guarded_eq_some.mpr ⟨decide_eq_true rfl, ran⟩, ?_⟩
        have same := (take_fits fits can.2.2.1 can.2.2.2).2
        have rounds : (reading.state.take (reading.stream.take count)).rounds = reading.state.rounds := by
          cases reading.state <;> rfl
        simp only [ahead] at same
        simp only [weight, running, if_true, ahead, same, rounds, length_drop]
        omega
  · have ran : reading.step prim rekey closes .call = some { reading with calling := true } := by
      simp only [step, if_neg go]
      exact if_neg calling
    refine ⟨.call, _, guarded_eq_some.mpr ⟨rfl, ran⟩, ?_⟩
    simp only [weight, running, if_neg calling, if_true, ahead]
    omega

/-- From every point of a run an undisturbed one can go on and complete. -/
theorem undisturbed_completes {events}
    (path : Path (guarded (step prim rekey closes) undisturbed) (start rx rxSeq stream) events reading) :
    ∃ events whole, Path (guarded (step prim rekey closes) undisturbed) (start rx rxSeq stream) events whole ∧
      Complete closes whole := by
  induction size : reading.weight using Nat.strongRecOn generalizing reading events with
  | _ _ ih =>
    subst size
    by_cases complete : Complete closes reading
    · exact ⟨events, reading, path, complete⟩
    · have running : reading.failure = none := not_not.mp fun failed => complete (.inl failed)
      obtain ⟨event, next, ran, less⟩ :=
        undisturbed_progress ((faithful_path path.unguarded).fits running) running complete
      exact ih next.weight less (path.snoc ran) rfl

/-- For the authenticated ciphers a body that passed the length check has a tag and a block. -/
theorem body_holds_tag {first4 buf : Bytes} {size} (body : reading.state = .body first4 size buf)
    (fits : Fits prim reading.rx reading.rxSeq reading.state) (whole : size ≤ buf.length)
    (authenticated : reading.rx ≠ .plain) :
    tagLen + 5 ≤ buf.length := by
  rw [body] at fits
  obtain ⟨_, _, length, announced, rfl⟩ := fits
  have enough := packet_length_enough announced
  cases kind : reading.rx with
  | plain => exact absurd kind authenticated
  | chachaPoly | gcm =>
    rw [kind] at whole
    simp only [Cipher.bodyLen] at whole
    omega

/-- A stream that is delivered whole to calls that are never dropped is read to the end. Any
other run over the stream returns the same payloads and then the same error. It never reads
beyond the packet it is at, and what it opens with an authenticated cipher is never too short. -/
theorem reading_undisturbed (prim : Primitives) (rekey : List Bytes → Cipher → Nat → Cipher × Nat) (closes : Bool)
    (rx : Cipher) (rxSeq : Nat) (stream : Bytes) :
    ∃ events whole, Path (guarded (step prim rekey closes) undisturbed) (start rx rxSeq stream) events whole ∧
      Complete closes whole ∧
      ∀ events reading, Path (step prim rekey closes) (start rx rxSeq stream) events reading →
        reading.payloads <+: whole.payloads ∧
        (Complete closes reading → reading.payloads = whole.payloads ∧ reading.failure = whole.failure) ∧
        (reading.failure = none → Fits prim reading.rx reading.rxSeq reading.state ∧
          ∃ done, stream = done ++ reading.state.bytes ++ reading.stream ∧ done.length = reading.traffic) ∧
        (∀ first4 size buf, reading.failure = none → reading.state = .body first4 size buf → size ≤ buf.length →
          reading.rx ≠ .plain → tagLen + 5 ≤ buf.length) := by
  obtain ⟨events, whole, path, complete⟩ :=
    @undisturbed_completes prim rekey closes rx rxSeq stream _ _ .nil
  refine ⟨events, whole, path, complete, fun events reading path' => ?_⟩
  have parses := complete_parses (faithful_path path.unguarded) complete
  have faithful := faithful_path path'
  refine ⟨?_, ?_, ?_, ?_⟩
  · cases failed : reading.failure with
    | some reason =>
      obtain ⟨same, _⟩ := (faithful.ended reason failed).unique parses
      exact same ▸ prefix_refl _
    | none =>
      obtain ⟨payloads, failure, later⟩ := parses_total reading.ahead reading.payloads reading.rx reading.rxSeq
      obtain ⟨same, _⟩ := (faithful.left failed _ _ later).unique parses
      exact same ▸ prefix_append _ _
  · intro complete'
    exact (complete_parses faithful complete').unique parses
  · intro running
    obtain ⟨done, split, size⟩ := faithful.consumed running
    refine ⟨faithful.fits running, done, ?_, size⟩
    rw [split, ahead, append_assoc]
  · intro first4 size buf running body whole' authenticated
    exact body_holds_tag body (faithful.fits running) whole' authenticated

end Runs

end Reading

section Sealing

variable (prim : Primitives)

/-- The packets of a stream as they are sealed one after another, each a payload with its
padding. -/
def sealStream : Cipher → Nat → List (Bytes × Bytes) → List Bytes
  | _, _, [] => []
  | cipher, seq, (payload, pad) :: packets =>
    cipher.sealPacket prim seq payload pad :: sealStream cipher.advance ((seq + 1) % 2 ^ 32) packets

/-- The payloads of so many packets, each opened with its header and the bytes its length
asks for, and what follows them. -/
def openStream : Cipher → Nat → Nat → Bytes → Except Error (List Bytes × Bytes)
  | _, _, 0, input => .ok ([], input)
  | cipher, seq, count + 1, input => do
    let length ← cipher.packetLength prim seq (input.take 4)
    let payload ← cipher.openPacket prim seq (input.take 4) ((input.drop 4).take (cipher.bodyLen length))
    let (payloads, rest) ← openStream cipher.advance ((seq + 1) % 2 ^ 32) count
      ((input.drop 4).drop (cipher.bodyLen length))
    return (payload :: payloads, rest)

/-- A payload that is not too large, with the padding it gets. -/
def Padded (cipher : Cipher) (packet : Bytes × Bytes) : Prop :=
  packet.2.length = cipher.padFor packet.1.length ∧ 1 + packet.1.length + packet.2.length ≤ maxPacket

/-- The length of a packet as the cipher counts it for the alignment. -/
def Cipher.counted (cipher : Cipher) (length : Nat) : Nat := (if cipher.framing.2 then 4 else 0) + length

variable {prim} {cipher : Cipher} {seq : Nat} {packets : List (Bytes × Bytes)}

theorem framing_advance (cipher : Cipher) : cipher.advance.framing = cipher.framing := by
  cases cipher <;> rfl

theorem padded_advance {packet} (padded : Padded cipher packet) : Padded cipher.advance packet := by
  unfold Padded Cipher.padFor
  rw [framing_advance]
  exact padded

/-- A sealed packet in front is opened, and the rest of the stream follows. -/
theorem sealed_packet_frames {payload pad : Bytes} (padded : Padded cipher (payload, pad)) :
    ∃ first4 body, cipher.sealPacket prim seq payload pad = first4 ++ body ∧ first4.length = 4 ∧
      cipher.packetLength prim seq first4 = .ok (1 + payload.length + pad.length) ∧
      body.length = cipher.bodyLen (1 + payload.length + pad.length) ∧
      cipher.openPacket prim seq first4 body = .ok payload ∧ 4 ≤ pad.length ∧ pad.length ≤ 255 ∧
      cipher.counted (1 + payload.length + pad.length) % cipher.framing.1 = 0 := by
  have small : 1 + payload.length + pad.length ≤ maxPacket := padded.2
  have short : 1 + payload.length + pad.length < 2 ^ 32 := Nat.lt_of_le_of_lt small (by decide)
  obtain ⟨first4, body, frames⟩ := seal_frames prim cipher seq payload pad padded.1 short
  have announced := frames.announced
  rw [if_pos small] at announced
  obtain ⟨least, most, aligned⟩ := pad_length_spec payload.length _ cipher.framing.2 cipher.framing_aligned
  have size : pad.length = padLength payload.length cipher.framing.1 cipher.framing.2 := padded.1
  rw [← size] at least most aligned
  refine ⟨first4, body, frames.split, frames.header, announced, frames.size, frames.opens, least,
    Nat.le_of_lt_succ most, ?_⟩
  have same : cipher.counted (1 + payload.length + pad.length) =
      (if cipher.framing.2 then 4 else 0) + 1 + payload.length + pad.length := by
    rw [Cipher.counted]
    omega
  rw [same]
  exact aligned

theorem open_sealed_stream (padded : ∀ packet ∈ packets, Padded cipher packet) (rest : Bytes) :
    openStream prim cipher seq packets.length ((sealStream prim cipher seq packets).flatten ++ rest) =
      .ok (packets.map Prod.fst, rest) := by
  induction packets generalizing cipher seq with
  | nil => rfl
  | cons packet packets ih =>
    obtain ⟨payload, pad⟩ := packet
    obtain ⟨first4, body, wire, header, announced, size, opens, _⟩ :=
      @sealed_packet_frames prim _ seq _ _ (padded _ mem_cons_self)
    have others : openStream prim cipher.advance ((seq + 1) % 2 ^ 32) packets.length
        ((sealStream prim cipher.advance ((seq + 1) % 2 ^ 32) packets).flatten ++
        rest) = .ok (packets.map Prod.fst, rest) :=
      ih fun packet member => padded_advance (padded packet (mem_cons_of_mem _ member))
    simp only [sealStream, flatten_cons, length_cons, append_assoc, openStream, wire,
      take_left' header, drop_left' header, announced, bind, Except.bind, take_left' size,
      drop_left' size, opens, others]
    rfl

/-- The packets of a stream that was sealed with the receiver's keys and number: every header
is accepted and asks for exactly the bytes behind it, all payloads come back in order, and
padding and length are as they should be. -/
theorem sealed_stream_opens (number : seq < 2 ^ 32) (padded : ∀ packet ∈ packets, Padded cipher packet) (rest : Bytes) :
    openStream prim cipher seq packets.length ((sealStream prim cipher seq packets).flatten ++ rest) =
        .ok (packets.map Prod.fst, rest) ∧
      ∀ index payload pad, packets[index]? = some (payload, pad) →
        ∃ first4 body, (sealStream prim cipher seq packets)[index]? = some (first4 ++ body) ∧ first4.length = 4 ∧
          (Cipher.advance^[index] cipher).packetLength prim ((seq + index) % 2 ^ 32) first4 =
            .ok (1 + payload.length + pad.length) ∧
          body.length = cipher.bodyLen (1 + payload.length + pad.length) ∧ 4 ≤ pad.length ∧ pad.length ≤ 255 ∧
          cipher.counted (1 + payload.length + pad.length) % cipher.framing.1 = 0 := by
  refine ⟨open_sealed_stream padded rest, ?_⟩
  induction packets generalizing cipher seq with
  | nil => exact nofun
  | cons packet packets ih =>
    intro index payload pad there
    cases index with
    | zero =>
      cases there
      obtain ⟨first4, body, wire, header, announced, size, _, least, most, aligned⟩ :=
        @sealed_packet_frames prim _ seq _ _ (padded _ mem_cons_self)
      refine ⟨first4, body, congrArg some wire, header, ?_, size, least, most, aligned⟩
      rw [Nat.add_zero, Nat.mod_eq_of_lt number]
      exact announced
    | succ index =>
      obtain ⟨first4, body, wire, header, announced, size, least, most, aligned⟩ :=
        ih (Nat.mod_lt (seq + 1) (by decide))
          (fun packet member => padded_advance (padded packet (mem_cons_of_mem _ member))) index payload pad there
      refine ⟨first4, body, wire, header, ?_, ?_, least, most, ?_⟩
      · rw [Function.iterate_succ_apply, Nat.add_succ, ← Nat.succ_add, Nat.succ_eq_add_one, ← Nat.mod_add_mod]
        exact announced
      · rw [size]
        cases cipher <;> rfl
      · rw [Cipher.counted, framing_advance] at aligned
        exact aligned

/-- A counter and a number that both run over at the next packet. -/
def lastGcm : Cipher := .gcm ⟨[], List.replicate 12 255, rfl⟩

def twoPackets : List (Bytes × Bytes) := [([20, 1, 2], List.replicate 12 0), ([21], List.replicate 14 7)]

instance (cipher : Cipher) (packet : Bytes × Bytes) : Decidable (Padded cipher packet) :=
  inferInstanceAs (Decidable (packet.2.length = cipher.padFor packet.1.length ∧
    1 + packet.1.length + packet.2.length ≤ maxPacket))

theorem sealed_stream_gcm :
    openStream .transparent lastGcm 4294967295 twoPackets.length
        ((sealStream .transparent lastGcm 4294967295 twoPackets).flatten ++ [9]) =
      .ok ([[20, 1, 2], [21]], [9]) := by
  have padded : ∀ packet ∈ twoPackets, Padded lastGcm packet := by decide
  exact (sealed_stream_opens (by decide) padded [9]).1

end Sealing

end Shh
