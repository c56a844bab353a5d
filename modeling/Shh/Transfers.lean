import Shh.Sftp

/-!
# Transfers are exact

A client and a server are in step when nothing is on its way between them. Then a request
that fits a packet is read as it was written, and its reply is the next thing the client
reads: a round trip is a call of the server's handler. Over such calls both loops are
followed by what they have moved so far. An upload has written the source's bytes up to its
offset and nothing else, and a download has received the file's bytes up to its own.
-/

namespace Shh.Sftp

open List Option Wire Reader Writer Computations

section Packets

/-- What a packet can carry. -/
def Fits (payload : Bytes) : Prop := payload.length + 1 ≤ maxPacket

theorem packet_length (length : Nat) (body : Bytes) :
    fromBe ((Writer.u32 length ++ body).take 4) = length % 2 ^ 32 := by
  rw [take_left' (u32_length length)]
  exact from_be_bytes 4 length

/-- A packet is cut at the length that its first bytes state. -/
theorem read_packet_stated (length : Nat) (typ : UInt8) (rest : Bytes)
    (stated : 0 < length % 2 ^ 32) (bounded : length % 2 ^ 32 ≤ maxPacket) (there : length % 2 ^ 32 ≤ rest.length + 1) :
    readPacket (Writer.u32 length ++ typ :: rest) =
      .packet typ (rest.take (length % 2 ^ 32 - 1)) (rest.drop (length % 2 ^ 32 - 1)) := by
  have head := u32_length length
  have typed : (Writer.u32 length ++ typ :: rest).getD 4 0 = typ := by
    rw [getD_eq_getElem?_getD, List.getElem?_append_right (Nat.le_of_eq head), head]
    rfl
  have carried : (Writer.u32 length ++ typ :: rest).drop 5 = rest := by
    rw [drop_append, head, drop_eq_nil_of_le (by omega)]
    rfl
  have left : (Writer.u32 length ++ typ :: rest).drop (4 + length % 2 ^ 32) = rest.drop (length % 2 ^ 32 - 1) := by
    rw [show 4 + length % 2 ^ 32 = 5 + (length % 2 ^ 32 - 1) by omega, ← drop_drop, carried]
  unfold readPacket
  dsimp only
  rw [packet_length, typed, carried, left, length_append, head, length_cons]
  rw [if_neg (by omega), if_neg (by omega), if_neg (by omega)]

theorem read_packet_refused (length : Nat) (typ : UInt8) (rest : Bytes)
    (refused : length % 2 ^ 32 = 0 ∨ maxPacket < length % 2 ^ 32) :
    ∃ reason, readPacket (Writer.u32 length ++ typ :: rest) = .failed reason := by
  have head := u32_length length
  unfold readPacket
  dsimp only
  rw [packet_length, length_append, head, if_neg (by omega), if_pos refused]
  exact ⟨_, rfl⟩

/-- What was written is read back, and what follows is left. -/
theorem read_packet_written (typ : UInt8) (payload more : Bytes) (fits : Fits payload) :
    readPacket (writePacket typ payload ++ more) = .packet typ payload more := by
  unfold Fits at fits
  have length : (payload.length + 1) % 2 ^ 32 = payload.length + 1 := by
    unfold maxPacket at fits
    omega
  have there : payload.length + 1 ≤ (payload ++ more).length + 1 := by
    rw [length_append]
    omega
  have read := read_packet_stated (payload.length + 1) typ (payload ++ more)
    (by rw [length]; omega) (by rw [length]; exact fits) (by rw [length]; exact there)
  rw [length, Nat.add_sub_cancel, take_left, drop_left] at read
  rw [writePacket, append_assoc, cons_append]
  exact read

end Packets

section Requests

variable (world : World) (served : Nat) (session : Session) (fs : FileSystem) (id : Nat) (small : id < 2 ^ 32)

variable {α : Type}

/-- A whole body that a reader takes. -/
theorem parse_of_ok {reader : Reader α} {body left value}
    (ran : reader body = .ok (value, left)) : reader.parse body = .ok value :=
  parse_ok.mpr ⟨left, ran⟩

include small in
theorem handle_request (typ : UInt8) (body : Bytes) :
    handleRequest world served session fs typ (Writer.u32 id ++ body) =
      answer id (dispatch world served session fs typ id body) := by
  unfold handleRequest
  rw [(u32_ok _ body id).mpr ⟨rfl, small⟩]

theorem dispatch_close (handle : String) (short : (utf8Bytes handle).length < 2 ^ 32) :
    dispatch world served session fs fxpClose id (Writer.utf8 handle) =
      if (session.get handle).isSome then (.ok (statusReply id statusOk "closed"), session.remove handle, fs)
      else (.ok (statusReply id statusFailure "no such handle"), session, fs) := by
  have parsed : Reader.utf8.parse (Writer.utf8 handle) = .ok handle :=
    parse_of_ok ((utf8_ok _ [] handle).mpr ⟨(append_nil _).symm, short⟩)
  unfold dispatch
  rw [parsed]
  rfl

/-- A field that a flag announces is read back, and one that none announces is not. -/
theorem field_read (value : Option α) (reader : Reader α) (writer : α → Bytes) (rest : Bytes)
    (read : ∀ content ∈ value, reader (writer content ++ rest) = .ok (content, rest)) :
    Attrs.field value.isSome reader (value.elim [] writer ++ rest) = .ok (value, rest) := by
  cases value with
  | none => rfl
  | some content =>
    have ran := read content rfl
    simp only [Attrs.field, isSome_some, if_true, Option.elim, Functor.map, StateT.map, ran, bind, Except.bind,
      pure, Except.pure]

theorem pair_read (first second : Nat) (rest : Bytes) (firstSmall : first < 2 ^ 32) (secondSmall : second < 2 ^ 32) :
    Attrs.pair ((Writer.u32 first ++ Writer.u32 second) ++ rest) = .ok ((first, second), rest) := by
  rw [append_assoc, Attrs.pair, bind_of_ok ((u32_ok _ _ first).mpr ⟨rfl, firstSmall⟩),
    bind_of_ok ((u32_ok _ _ second).mpr ⟨rfl, secondSmall⟩)]
  rfl

/-- Attributes whose values fit their fields. -/
structure Attrs.Bounded (attrs : Attrs) : Prop where
  size : ∀ size ∈ attrs.size, size < 2 ^ 64
  uidGid : ∀ ids ∈ attrs.uidGid, ids.1 < 2 ^ 32 ∧ ids.2 < 2 ^ 32
  permissions : ∀ mode ∈ attrs.permissions, mode < 2 ^ 32
  times : ∀ times ∈ attrs.times, times.1 < 2 ^ 32 ∧ times.2 < 2 ^ 32

/-- The flags say which fields there are, and nothing of extended ones. -/
theorem flags_announce (attrs : Attrs) :
    attrs.flags < 2 ^ 32 ∧ decide (attrs.flags &&& attrSize ≠ 0) = attrs.size.isSome ∧
      decide (attrs.flags &&& attrUidGid ≠ 0) = attrs.uidGid.isSome ∧
      decide (attrs.flags &&& attrPermissions ≠ 0) = attrs.permissions.isSome ∧
      decide (attrs.flags &&& attrAcModTime ≠ 0) = attrs.times.isSome ∧ ¬ attrs.flags &&& attrExtended ≠ 0 := by
  unfold Attrs.flags
  generalize attrs.size.isSome = size
  generalize attrs.uidGid.isSome = uidGid
  generalize attrs.permissions.isSome = permissions
  generalize attrs.times.isSome = times
  revert size uidGid permissions times
  decide

/-- Attributes are read back as they were written. -/
theorem attrs_read_written (attrs : Attrs) (bounded : attrs.Bounded) (rest : Bytes) :
    Attrs.read (attrs.write ++ rest) = .ok (attrs, rest) := by
  obtain ⟨small, size, uidGid, permissions, times, plain⟩ := flags_announce attrs
  unfold Attrs.write Attrs.read
  simp only [append_assoc]
  rw [bind_of_ok ((u32_ok _ _ attrs.flags).mpr ⟨rfl, small⟩)]
  simp only [size, uidGid, permissions, times]
  rw [bind_of_ok (field_read attrs.size _ Writer.u64 _ fun value there =>
    (u64_ok _ _ value).mpr ⟨rfl, bounded.size value there⟩)]
  rw [bind_of_ok (field_read attrs.uidGid _ _ _ fun value there =>
    pair_read value.1 value.2 _ (bounded.uidGid value there).1 (bounded.uidGid value there).2)]
  rw [bind_of_ok (field_read attrs.permissions _ Writer.u32 _ fun value there =>
    (u32_ok _ _ value).mpr ⟨rfl, bounded.permissions value there⟩)]
  rw [bind_of_ok (field_read attrs.times _ _ _ fun value there =>
    pair_read value.1 value.2 _ (bounded.times value there).1 (bounded.times value there).2)]
  rw [if_neg plain]
  rfl

theorem dispatch_open (path : String) (pflags : Nat) (attrs : Attrs) (short : (utf8Bytes path).length < 2 ^ 32)
    (flagged : pflags < 2 ^ 32) (bounded : attrs.Bounded) :
    dispatch world served session fs fxpOpen id (Writer.utf8 path ++ (Writer.u32 pflags ++ attrs.write)) =
      openFile (world.outcome served) session fs id path pflags attrs := by
  unfold dispatch
  rw [if_pos rfl]
  dsimp only
  rw [@parse_of_ok _ _ _ [] (path, pflags, attrs)]
  rw [bind_of_ok ((utf8_ok _ _ path).mpr ⟨rfl, short⟩), bind_of_ok ((u32_ok _ _ pflags).mpr ⟨rfl, flagged⟩)]
  have read := attrs_read_written attrs bounded []
  rw [append_nil] at read
  rw [bind_of_ok read]
  rfl

section Opened

variable {handle : String} {file : OpenFile} (opened : session.get handle = some (.file file))
  (short : (utf8Bytes handle).length < 2 ^ 32) {offset : Nat} (reachable : offset < 2 ^ 64)

include opened short reachable

theorem dispatch_read (length : Nat) (sized : length < 2 ^ 32) :
    dispatch world served session fs fxpRead id (Writer.utf8 handle ++ (Writer.u64 offset ++ Writer.u32 length)) =
      readServed id session fs (file.readAt (min length (maxPacket - 1024)) offset (world.outcome served) fs) := by
  unfold dispatch
  rw [if_neg (by decide), if_neg (by decide), if_pos rfl]
  dsimp only
  rw [@parse_of_ok _ _ _ [] (handle, offset, length)]
  · simp only [opened]
  · rw [bind_of_ok ((utf8_ok _ _ handle).mpr ⟨rfl, short⟩),
      bind_of_ok ((u64_ok _ _ offset).mpr ⟨rfl, reachable⟩),
      bind_of_ok ((u32_ok _ [] length).mpr ⟨(append_nil _).symm, sized⟩)]
    rfl

theorem dispatch_write (data : Bytes) (sized : data.length < 2 ^ 32) :
    dispatch world served session fs fxpWrite id (Writer.utf8 handle ++ (Writer.u64 offset ++ Writer.string data)) =
      writeServed id session (file.writeAllAt data offset (world.outcome served) fs) := by
  unfold dispatch
  rw [if_neg (by decide), if_neg (by decide), if_neg (by decide), if_pos rfl]
  dsimp only
  rw [@parse_of_ok _ _ _ [] (handle, offset, data)]
  · simp only [opened]
  · rw [bind_of_ok ((utf8_ok _ _ handle).mpr ⟨rfl, short⟩),
      bind_of_ok ((u64_ok _ _ offset).mpr ⟨rfl, reachable⟩),
      bind_of_ok ((string_ok _ [] data).mpr ⟨(append_nil _).symm, sized⟩)]
    rfl

end Opened

end Requests

section Positions

variable {file : OpenFile} {data : Bytes} {offset : Nat} {outcome : Outcome} {fs : FileSystem}

theorem patch_end (old data : Bytes) : patch old old.length data = old ++ data := by
  unfold patch
  split
  · rename_i empty
    rw [empty, append_nil]
  · rw [Nat.sub_self, replicate_zero, append_nil, take_length,
      drop_eq_nil_of_le (Nat.le_add_right _ _), append_nil]

/-- What is written at the end of a file is added to it. -/
theorem write_at_end {after : FileSystem} (atEnd : offset = (fs.contents file.file).length)
    (wrote : file.writeAllAt data offset outcome fs = (.ok (), after)) :
    after.names = fs.names ∧ after.contents file.file = fs.contents file.file ++ data := by
  unfold OpenFile.writeAllAt at wrote
  split at wrote
  · rename_i empty
    obtain ⟨-, rfl⟩ := Prod.mk.inj wrote
    exact ⟨rfl, by rw [empty, append_nil]⟩
  · split at wrote
    · cases (Prod.mk.inj wrote).1
    · rw [atEnd, ite_self] at wrote
      unfold FileSystem.writeAt at wrote
      split at wrote
      · dsimp only at wrote
        split at wrote
        · cases (Prod.mk.inj wrote).1
        · obtain ⟨-, rfl⟩ := Prod.mk.inj wrote
          refine ⟨rfl, ?_⟩
          dsimp only [FileSystem.replace]
          rw [Function.update_self, patch_end]
      · cases (Prod.mk.inj wrote).1

/-- A read returns what stands at its position, and something before the end. -/
theorem read_at_position {length} (asked : 0 < length) (read : file.readAt length offset outcome fs = .ok data) :
    data <+: (fs.contents file.file).drop offset ∧ data.length ≤ length ∧
      (data = [] → (fs.contents file.file).length ≤ offset) := by
  unfold OpenFile.readAt at read
  split at read
  · cases read
  · split at read
    · cases read
    · split at read
      · cases read
      · cases read
        refine ⟨?_, ?_, ?_⟩
        · exact IsPrefix.trans ⟨_, take_append_drop _ _⟩ ⟨_, take_append_drop _ _⟩
        · rw [length_take, length_take]
          omega
        · intro nothing
          have none := congrArg List.length nothing
          rw [length_take, length_take, length_drop, length_nil] at none
          omega

end Positions

section Replies

/-- The answer changes nothing more than the request did. -/
theorem answer_state (id : Nat) (result : Except Fail Reply) (session : Session) (fs : FileSystem) :
    (answer id (result, session, fs)).2 = (session, fs) := by
  cases result with
  | ok reply => rfl
  | error reason => cases reason <;> rfl

theorem utf8_length (text : String) : (Writer.utf8 text).length = 4 + (utf8Bytes text).length :=
  string_length _

theorem status_reply_fits (id code : Nat) (message : String) (short : (utf8Bytes message).length ≤ 1024) :
    Fits (statusReply id code message).2 := by
  have tag : (utf8Bytes "").length = 0 := rfl
  simp only [Fits, statusReply, length_append, u32_length, utf8_length, maxPacket]
  omega

theorem status_read (id code : Nat) (message : String) (small : id < 2 ^ 32) (known : code < 2 ^ 32)
    (short : (utf8Bytes message).length ≤ 1024) : readStatus (statusReply id code message).2 = .ok (code, message) := by
  have text : Reader.utf8.parse (Writer.utf8 message ++ Writer.utf8 "") = .ok message :=
    parse_of_ok ((utf8_ok _ _ message).mpr ⟨rfl, by omega⟩)
  unfold readStatus statusReply
  apply @parse_of_ok _ _ _ []
  simp only [append_assoc]
  rw [bind_of_ok ((u32_ok _ _ id).mpr ⟨rfl, small⟩), bind_of_ok ((u32_ok _ _ code).mpr ⟨rfl, known⟩),
    bind_of_ok ((rest_ok _ _ _).mpr ⟨rfl, rfl⟩), text]
  rfl

/-- The client takes a status for a success exactly if it is one. -/
theorem check_status_ok (id code : Nat) (message : String) (small : id < 2 ^ 32) (known : code < 2 ^ 32)
    (short : (utf8Bytes message).length ≤ 1024) : checkStatus (statusReply id code message).2 = .ok
    () ↔ code = statusOk := by
  unfold checkStatus
  rw [status_read id code message small known short]
  by_cases fine : code = statusOk
  · simp [bind, Except.bind, fine, pure, Except.pure]
  · simp [bind, Except.bind, fine, throw, throwThe, MonadExceptOf.throw]

theorem errno_status_known (error : IoError) :
    errnoStatus error < 2 ^ 32 ∧ errnoStatus error ≠ statusOk ∧ errnoStatus error ≠ statusEof := by
  unfold errnoStatus
  cases error.kind <;> decide

/-- A handle's name is a number of 64 bits in decimal. -/
theorem handle_short (session : Session) : (utf8Bytes (toString session.nextHandle.toNat)).length ≤ 80 := by
  have digits : (Nat.toDigits 10 session.nextHandle.toNat).length ≤ 20 := by
    rw [Nat.length_toDigits_le_iff (by decide) (by decide)]
    exact Nat.lt_of_lt_of_le session.nextHandle.toNat_lt (by decide)
  have encoded : utf8Bytes (toString session.nextHandle.toNat) =
      (Nat.toDigits 10 session.nextHandle.toNat).flatMap String.utf8EncodeChar := by
    change ((String.ofList (Nat.toDigits 10 session.nextHandle.toNat)).toByteArray).data.toList = _
    rw [String.toByteArray_ofList, List.utf8Encode]
    simp
  have bounded (text : List Char) : (text.flatMap String.utf8EncodeChar).length ≤ text.length * 4 := by
    induction text with
    | nil => exact Nat.le_refl _
    | cons c rest ih =>
      have size := c.utf8Size_le_four
      rw [flatMap_cons, length_append, String.length_utf8EncodeChar, length_cons]
      omega
  rw [encoded]
  have total := bounded (Nat.toDigits 10 session.nextHandle.toNat)
  omega

end Replies

section Exchanges

variable {link : Link} {typ : UInt8} {body : Bytes}

variable {payload rest : Bytes}

/-- Nothing is on its way between the client and a server that takes requests. -/
structure Link.InStep (link : Link) : Prop where
  toServer : link.toServer = []
  toClient : link.toClient = []
  greeted : link.greeted = true
  alive : link.alive = true

variable {world : World}

/-- Without a request the server waits. -/
theorem serve_idle (budget : Nat) (link : Link) (idle : link.toServer = []) : link.serve world budget = link := by
  cases budget with
  | zero => rfl
  | succ budget =>
    have waits : readPacket link.toServer = .needMore := by
      rw [idle]
      rfl
    unfold Link.serve
    rw [waits]
    exact ite_self link

/-- The server only appends to what the client will read. -/
theorem serve_appends (budget : Nat) (link : Link) :
    ∃ more, (link.serve world budget).toClient = link.toClient ++ more := by
  induction budget generalizing link with
  | zero => exact ⟨[], (append_nil _).symm⟩
  | succ budget ih =>
    unfold Link.serve
    split
    · split
      · exact ⟨[], (append_nil _).symm⟩
      · exact ⟨[], (append_nil _).symm⟩
      · split
        · split
          · obtain ⟨more, appended⟩ := ih _
            exact ⟨_, appended.trans (append_assoc _ _ _)⟩
          · exact ⟨[], (append_nil _).symm⟩
        · obtain ⟨more, appended⟩ := ih _
          exact ⟨_, appended.trans (append_assoc _ _ _)⟩
    · exact ⟨[], (append_nil _).symm⟩

/-- The link once a request has been answered and the answer was read. -/
def Link.answered (world : World) (link : Link) (typ : UInt8) (body : Bytes) : Link :=
  let (_, session, fs) := handleRequest world link.served link.session link.fs typ body
  { link with session, fs, served := link.served + 1 }

theorem Link.InStep.emptied (inStep : link.InStep) : { link with toServer := [], toClient := [] } = link := by
  obtain ⟨toServer, toClient, -, -⟩ := inStep
  cases link
  dsimp only at toServer toClient
  rw [toServer, toClient]

theorem Link.InStep.answered (inStep : link.InStep) (typ : UInt8) (body : Bytes) :
    (link.answered world typ body).InStep :=
  ⟨inStep.toServer, inStep.toClient, inStep.greeted, inStep.alive⟩

/-- The reply to a packet that the server reads stands first in what the client reads. -/
theorem serve_request (budget : Nat) (inStep : link.InStep) {sent : Bytes}
    (read : readPacket sent = .packet typ payload rest) :
    Link.serve world (budget + 1) { link with toServer := sent } =
      Link.serve world budget { link.answered world typ payload with
        toServer := rest
        toClient := writePacket (handleRequest world link.served link.session link.fs typ payload).1.1
          (handleRequest world link.served link.session link.fs typ payload).1.2 } := by
  rw [Link.serve, if_pos inStep.alive, read]
  dsimp only [Link.answered]
  rw [inStep.greeted, inStep.toClient, if_neg (by decide)]
  rfl

theorem write_packet_length (typ : UInt8) (payload : Bytes) :
    (writePacket typ payload).length = payload.length + 4 + 1 := by
  rw [writePacket, length_append, u32_length, length_cons]
  omega

/-- The client reads the reply to what the server has read, whatever else there is. -/
theorem round_trip_replied (inStep : link.InStep) {sent : UInt8}
    (read : readPacket (writePacket sent body) = .packet typ payload rest)
    (replyFits : Fits (handleRequest world link.served link.session link.fs typ payload).1.2) :
    ∃ after, roundTrip world sent body link = .ok
      (handleRequest world link.served link.session link.fs typ payload).1 after := by
  unfold roundTrip
  dsimp only
  rw [inStep.toServer, nil_append, write_packet_length, serve_request _ inStep read]
  generalize startIs : ({ link.answered world typ payload with
    toServer := rest
    toClient := writePacket (handleRequest world link.served link.session link.fs typ payload).1.1
      (handleRequest world link.served link.session link.fs typ payload).1.2 } : Link) = start
  obtain ⟨more, appended⟩ := @serve_appends world (body.length + 4) start
  have first : start.toClient = writePacket (handleRequest world link.served link.session link.fs typ payload).1.1
      (handleRequest world link.served link.session link.fs typ payload).1.2 := by
    rw [← startIs]
  rw [appended, first, read_packet_written _ _ _ replyFits]
  exact ⟨_, rfl⟩

/-- A round trip between a client and a server in step is a call of the server's handler. -/
theorem round_trip_answered (inStep : link.InStep) (fits : Fits body)
    (replyFits : Fits (handleRequest world link.served link.session link.fs typ body).1.2) :
    roundTrip world typ body link =
      .ok (handleRequest world link.served link.session link.fs typ body).1 (link.answered world typ body) := by
  have read := read_packet_written typ body [] fits
  rw [append_nil] at read
  have replied := read_packet_written (handleRequest world link.served link.session link.fs typ body).1.1 _ [] replyFits
  rw [append_nil] at replied
  unfold roundTrip
  dsimp only
  rw [inStep.toServer, nil_append, write_packet_length, serve_request _ inStep read, serve_idle _ _ rfl]
  dsimp only
  rw [replied]
  dsimp only
  rw [(inStep.answered typ body).emptied]

/-- If a routine returns, its result and the link then have a property. -/
def Yields {α : Type} (routine : Remote α) (post : α → Link → Prop) (link : Link) : Prop :=
  wp routine post (fun _ _ => True) link

section Rules

variable {α β : Type} {post : α → Link → Prop} {last : β → Link → Prop} {link : Link}

variable {routine : Remote α}

theorem yields_bind (first : Remote α) (next : α → Remote β) :
    Yields (first >>= next) last link = Yields first (fun value => Yields (next value) last) link :=
  wp_bind first next link

/-- Whatever is done before it, a failure returns nothing. -/
theorem yields_abandon (first : Remote α) (reason : Error) : Yields (first >>= fun _ => throw reason) last link := by
  rw [yields_bind]
  unfold Yields wp
  split
  · trivial
  · trivial

theorem yields_attempt (result : Except Error α) (returned : ∀ value, result = .ok value → post value link) :
    Yields (attempt result) post link := by
  cases result with
  | error reason => trivial
  | ok value => exact returned value rfl

theorem Yields.weaken {weaker : α → Link → Prop} (yields : Yields routine post link)
    (weaken : ∀ value after, post value after → weaker value after) : Yields routine weaker link := by
  unfold Yields wp at yields ⊢
  cases ran : routine link with
  | error reason after => trivial
  | ok value after =>
    rw [ran] at yields
    exact weaken value after yields

theorem Yields.ok (yields : Yields routine post link) {value : α} {after : Link}
    (ran : routine link = .ok value after) : post value after := by
  unfold Yields wp at yields
  rw [ran] at yields
  exact yields

end Rules

/-- A number for a request, with the link unchanged in all that matters to the server. -/
theorem yields_next_id (inStep : link.InStep) {post : Nat → Link → Prop}
    (next : ∀ id after, id < 2 ^ 32 → after.InStep → after.session = link.session → after.fs = link.fs →
      after.served = link.served → post id after) :
    Yields nextId post link :=
  next link.nextId.toNat { link with nextId := link.nextId + 1 } link.nextId.toNat_lt
    ⟨inStep.toServer, inStep.toClient, inStep.greeted, inStep.alive⟩ rfl rfl rfl

/-- A request leads to what the server makes of it. -/
theorem yields_request (inStep : link.InStep) {id : Nat} (small : id < 2 ^ 32)
    (fits : Fits (Writer.u32 id ++ body)) {result : Except Fail Reply} {session : Session} {fs : FileSystem}
    (served : dispatch world link.served link.session link.fs typ id body = (result, session, fs))
    (replyFits : Fits (answer id (result, session, fs)).1.2) {post : Reply → Link → Prop}
    (next : ∀ after, after.InStep → after.session = session → after.fs = fs →
      post (answer id (result, session, fs)).1 after) :
    Yields (roundTrip world typ (Writer.u32 id ++ body)) post link := by
  have handled := handle_request world link.served link.session link.fs id small typ body
  rw [served] at handled
  unfold Yields wp
  rw [round_trip_answered inStep fits (by rw [handled]; exact replyFits)]
  dsimp only
  rw [handled]
  refine next _ (inStep.answered typ _) ?_ ?_
  · rw [Link.answered, handled]
    exact congrArg Prod.fst (answer_state id result session fs)
  · rw [Link.answered, handled]
    exact congrArg Prod.snd (answer_state id result session fs)

end Exchanges

section Calls

variable {world : World} {link : Link} (inStep : link.InStep) {handle : String} (short : (utf8Bytes handle).length ≤ 80)

include inStep short

/-- Closing a file changes none. -/
theorem close_keeps_files :
    Yields (close world (utf8Bytes handle)) (fun _ after => after.InStep ∧ after.fs = link.fs) link := by
  unfold close
  rw [yields_bind]
  apply yields_next_id inStep
  intro id between small inStep sameSession sameFiles sameServed
  have fits : Fits (Writer.u32 id ++ Writer.utf8 handle) := by
    simp only [Fits, length_append, u32_length, utf8_length, maxPacket]
    omega
  have served := dispatch_close world between.served between.session between.fs id handle (by omega)
  rw [yields_bind]
  split at served
  all_goals
    apply yields_request inStep small fits served (status_reply_fits _ _ _ (by decide +kernel))
    intro after inStep _ files
    exact yields_attempt _ fun _ _ => ⟨inStep, files.trans sameFiles⟩

variable {file : OpenFile} (opened : link.session.get handle = some (.file file)) {id : Nat} (small : id < 2 ^ 32)

include opened small

/-- A write at the end of the file that is reported as done has been. -/
theorem write_appends (data : Bytes) (chunked : data.length ≤ 32 * 1024) :
    Yields (roundTrip world fxpWrite (Writer.u32 id ++ Writer.string (utf8Bytes handle) ++
        Writer.u64 (link.fs.contents file.file).length ++ Writer.string data))
      (fun reply after => checkStatus reply.2 = .ok () → after.InStep ∧ after.session = link.session ∧
        after.fs.names = link.fs.names ∧ after.fs.contents file.file = link.fs.contents file.file ++ data) link := by
  have bounded := link.fs.bounded file.file
  unfold offsetLimit at bounded
  have body : Writer.u32 id ++ Writer.string (utf8Bytes handle) ++ Writer.u64 (link.fs.contents file.file).length ++
      Writer.string data = Writer.u32 id ++ (Writer.utf8 handle ++
        (Writer.u64 (link.fs.contents file.file).length ++ Writer.string data)) := by
    simp only [append_assoc, Writer.utf8]
  have fits : Fits (Writer.u32 id ++ (Writer.utf8 handle ++
      (Writer.u64 (link.fs.contents file.file).length ++ Writer.string data))) := by
    simp only [Fits, length_append, u32_length, u64_length, string_length, utf8_length, maxPacket]
    omega
  have served := dispatch_write world link.served link.session link.fs id opened (by omega)
    (Nat.lt_of_lt_of_le bounded (by decide)) data (by omega)
  rw [body]
  cases wrote : file.writeAllAt data (link.fs.contents file.file).length (world.outcome link.served) link.fs with
  | mk result fs =>
    rw [wrote] at served
    cases result with
    | error reason =>
      apply yields_request inStep small fits served (status_reply_fits _ _ _ reason.short)
      intro after _ _ _ fine
      obtain ⟨known, notOk, -⟩ := errno_status_known reason
      exact absurd ((check_status_ok _ _ _ small known reason.short).mp fine) notOk
    | ok done =>
      apply yields_request inStep small fits served (status_reply_fits _ _ _ (by decide +kernel))
      intro after inStep sameSession files _
      obtain ⟨names, contents⟩ := write_at_end rfl wrote
      rw [files]
      exact ⟨inStep, sameSession, names, contents⟩

/-- A read returns what stands at its position, and an end is reported only there. -/
theorem read_continues (offset : Nat) (inside : offset ≤ (link.fs.contents file.file).length) :
    Yields (roundTrip world fxpRead (Writer.u32 id ++ Writer.string (utf8Bytes handle) ++ Writer.u64 offset ++
        Writer.u32 chunkSize))
      (fun reply after => (after.InStep ∧ after.session = link.session ∧ after.fs = link.fs) ∧
        ((∃ data, reply = dataReply id data ∧ data ≠ [] ∧ data.length < 2 ^ 32 ∧
            data <+: (link.fs.contents file.file).drop offset) ∨
          (∃ code message, reply = statusReply id code message ∧ code < 2 ^ 32 ∧ (utf8Bytes message).length ≤ 1024 ∧
            (code = statusEof → offset = (link.fs.contents file.file).length)))) link := by
  have bounded := link.fs.bounded file.file
  unfold offsetLimit at bounded
  have body : Writer.u32 id ++ Writer.string (utf8Bytes handle) ++ Writer.u64 offset ++ Writer.u32 chunkSize =
      Writer.u32 id ++ (Writer.utf8 handle ++ (Writer.u64 offset ++ Writer.u32 chunkSize)) := by
    simp only [append_assoc, Writer.utf8]
  have fits : Fits (Writer.u32 id ++ (Writer.utf8 handle ++ (Writer.u64 offset ++ Writer.u32 chunkSize))) := by
    simp only [Fits, length_append, u32_length, u64_length, utf8_length, maxPacket]
    omega
  have reachable : offset < 2 ^ 64 := by omega
  have served := dispatch_read world link.served link.session link.fs id opened
    (by omega) reachable chunkSize (by decide)
  rw [body]
  cases read : file.readAt (min chunkSize (maxPacket - 1024)) offset (world.outcome link.served) link.fs with
  | error reason =>
    rw [read] at served
    apply yields_request inStep small fits served (status_reply_fits _ _ _ reason.short)
    intro after inStep sameSession files
    obtain ⟨known, -, notEof⟩ := errno_status_known reason
    exact ⟨⟨inStep, sameSession, files⟩, .inr ⟨_, _, rfl, known, reason.short, fun eof => absurd eof notEof⟩⟩
  | ok data =>
    obtain ⟨part, chunked, ended⟩ := read_at_position (by decide) read
    have size : min chunkSize (maxPacket - 1024) = 32768 := by decide
    rw [read, readServed] at served
    split at served
    · rename_i nothing
      apply yields_request inStep small fits served (status_reply_fits _ _ _ (by decide +kernel))
      intro after inStep sameSession files
      exact ⟨⟨inStep, sameSession, files⟩, .inr ⟨_, _, rfl, by decide, by decide +kernel,
        fun _ => Nat.le_antisymm inside (ended nothing)⟩⟩
    · rename_i something
      have replyFits : Fits (dataReply id data).2 := by
        simp only [Fits, dataReply, length_append, u32_length, string_length, maxPacket]
        omega
      apply yields_request inStep small fits served replyFits
      intro after inStep sameSession files
      exact ⟨⟨inStep, sameSession, files⟩, .inl ⟨data, rfl, something, by omega, part⟩⟩

end Calls

section Opening

variable {world : World} {link : Link}

variable {id : Nat} {path : String}

variable {tail : Bytes} {post : Bytes → Link → Prop}

/-- The start of a request to open a file is refused when it ends before the path does. -/
theorem cut_open_refused (served : Nat) (session : Session) (fs : FileSystem) {payload rest : Bytes}
    (cut : payload ++ rest = Writer.u32 id ++ (Writer.utf8 path ++ tail)) (short : payload.length ≤ maxPacket)
    (long : maxPacket < (utf8Bytes path).length) (writable : (utf8Bytes path).length < 2 ^ 32) :
    ∃ number message, (handleRequest world served session fs fxpOpen payload).1 =
      statusReply number statusBadMessage message ∧
      number < 2 ^ 32 ∧ (utf8Bytes message).length ≤ 1024 := by
  unfold handleRequest
  cases numbered : Reader.u32 payload with
  | error reason => exact ⟨0, _, rfl, by decide, by decide +kernel⟩
  | ok pair =>
    obtain ⟨number, body⟩ := pair
    obtain ⟨started, small⟩ := (u32_ok _ _ _).mp numbered
    dsimp only
    unfold dispatch
    rw [if_pos rfl]
    dsimp only
    split
    · exact ⟨number, _, rfl, small, by decide +kernel⟩
    · rename_i text pflags attrs parsed
      obtain ⟨_, read⟩ := parse_ok.mp parsed
      obtain ⟨_, left, ⟨bodyIs, textShort⟩, -⟩ := (utf8_bind_ok _ _ _).mp read
      -- The length that the body states is the path's.
      rw [started, bodyIs, Writer.utf8, Writer.utf8, Writer.string, Writer.string] at cut
      simp only [append_assoc] at cut
      obtain ⟨-, afterId⟩ := append_inj cut (by rw [u32_length, u32_length])
      obtain ⟨lengths, -⟩ := append_inj afterId (by rw [u32_length, u32_length])
      have same := congrArg fromBe lengths
      rw [Writer.u32, Writer.u32, from_be_bytes, from_be_bytes] at same
      have total := congrArg List.length started
      rw [bodyIs] at total
      simp only [length_append, u32_length, utf8_length] at total
      omega

/-- What a client makes of a status that is not a success. -/
theorem refusal_opens_nothing {code message} (small : id < 2 ^ 32) (known : code < 2 ^ 32)
    (short : (utf8Bytes message).length ≤ 1024) (refused : code ≠ statusOk) {typ : UInt8} {body : Bytes} {after : Link}
    (replied : roundTrip world typ body link = .ok (statusReply id code message) after) :
    Yields (openHandle world typ body) post link := by
  unfold openHandle
  rw [yields_bind]
  unfold Yields wp
  rw [replied]
  change Yields (if fxpStatus = fxpHandle then _ else if fxpStatus = fxpStatus then _ else _) post after
  rw [if_neg (by decide), if_pos rfl, yields_bind]
  apply yields_attempt
  intro _ fine
  exact absurd ((check_status_ok id code message small known short).mp fine) refused

theorem attrs_write_length (attrs : Attrs) : attrs.write.length ≤ 32 := by
  obtain ⟨size, uidGid, permissions, times⟩ := attrs
  simp only [Attrs.write, length_append, u32_length]
  cases size <;> cases uidGid <;> cases permissions <;> cases times <;>
    simp [Option.elim, u32_length, u64_length]

/-- A request that is too long for a packet opens nothing. -/
theorem oversized_opens_nothing (inStep : link.InStep) (writable : (utf8Bytes path).length < 2 ^ 32)
    (room : tail.length ≤ 36) (oversized : ¬ Fits (Writer.u32 id ++ (Writer.utf8 path ++ tail))) :
    Yields (openHandle world fxpOpen (Writer.u32 id ++ (Writer.utf8 path ++ tail))) post link := by
  generalize bodyIs : Writer.u32 id ++ (Writer.utf8 path ++ tail) = body at oversized ⊢
  have length : body.length = 4 + (4 + (utf8Bytes path).length + tail.length) := by
    rw [← bodyIs]
    simp only [length_append, u32_length, utf8_length]
  unfold Fits at oversized
  by_cases refused : (body.length + 1) % 2 ^ 32 = 0 ∨ maxPacket < (body.length + 1) % 2 ^ 32
  · -- The server ends, and the client reads no reply.
    obtain ⟨reason, failed⟩ := read_packet_refused (body.length + 1) fxpOpen body refused
    have none : ∃ reason after, roundTrip world fxpOpen body link = .error reason after := by
      unfold roundTrip
      dsimp only
      rw [inStep.toServer, nil_append, write_packet_length, Link.serve, if_pos inStep.alive]
      dsimp only [writePacket]
      rw [failed]
      dsimp only
      rw [inStep.toClient]
      exact ⟨_, _, rfl⟩
    obtain ⟨reason, after, ran⟩ := none
    unfold openHandle
    rw [yields_bind]
    unfold Yields wp
    rw [ran]
    trivial
  · -- The length has lost its high bits: the server reads the first bytes for the request.
    have stated : 0 < (body.length + 1) % 2 ^ 32 := by omega
    have there : (body.length + 1) % 2 ^ 32 ≤ body.length + 1 := Nat.mod_le _ _
    have read : readPacket (writePacket fxpOpen body) = _ :=
      read_packet_stated (body.length + 1) fxpOpen body stated (by omega) there
    have wrapped : 2 ^ 32 ≤ body.length + 1 := by
      by_contra below
      rw [Nat.mod_eq_of_lt (by omega)] at refused
      omega
    have cut : body.take ((body.length + 1) % 2 ^ 32 - 1) ++ body.drop ((body.length + 1) % 2 ^ 32 - 1) =
        Writer.u32 id ++ (Writer.utf8 path ++ tail) := by
      rw [take_append_drop, bodyIs]
    have short : (body.take ((body.length + 1) % 2 ^ 32 - 1)).length ≤ maxPacket := by
      rw [length_take]
      omega
    have long : maxPacket < (utf8Bytes path).length := by
      unfold maxPacket
      omega
    obtain ⟨number, message, replied, small, brief⟩ :=
      @cut_open_refused world _ _ _ link.served link.session link.fs _ _ cut short long writable
    obtain ⟨after, ran⟩ := round_trip_replied inStep read (by rw [replied]; exact status_reply_fits _ _ _ brief)
    rw [replied] at ran
    exact refusal_opens_nothing small (by decide) brief (by decide) ran

theorem insert_get {session after : Session} {handle name}
    (inserted : session.insert handle = some (name, after)) :
    name = toString session.nextHandle.toNat ∧ after.get name = some handle := by
  unfold Session.insert at inserted
  split at inserted
  · cases inserted
  · cases inserted
    exact ⟨rfl, by rw [Session.get, lookup_cons_self]⟩

/-- The server's part in opening a file: it refuses with a status, or there is a handle on
the file that the operating system has opened. -/
theorem open_file_cases (outcome : Outcome) (session : Session) (fs : FileSystem) (id : Nat)
    (path : String) (pflags : Nat)
    (attrs : Attrs) :
    (∃ code message, (answer id (openFile outcome session fs id path pflags attrs)).1 = statusReply id code message ∧
        code < 2 ^ 32 ∧ (utf8Bytes message).length ≤ 1024 ∧ code ≠ statusOk) ∨
      ∃ name session' fs' file, answer id (openFile outcome session fs id path pflags attrs) =
          (handleReply id name, session', fs') ∧ (utf8Bytes name).length ≤ 80 ∧ session'.get name = some (.file file) ∧
        (openOptions pflags attrs).open path outcome fs = .ok (file, fs') := by
  unfold openFile
  split
  · exact .inl ⟨_, _, rfl, by decide, by decide +kernel, by decide⟩
  · split
    · rename_i reason _
      obtain ⟨known, notOk, -⟩ := errno_status_known reason
      exact .inl ⟨_, _, rfl, known, reason.short, notOk⟩
    · rename_i file fs' done
      split
      · rename_i name session' inserted
        obtain ⟨named, found⟩ := insert_get inserted
        refine .inr ⟨name, session', fs', file, rfl, ?_, found, done⟩
        rw [named]
        exact handle_short session
      · exact .inl ⟨_, _, rfl, by decide, by decide +kernel, by decide⟩

/-- A handle that the client gets is one on the file that the operating system has opened. -/
theorem open_yields (inStep : link.InStep) (small : id < 2 ^ 32)
    (writable : (utf8Bytes path).length < 2 ^ 32) {pflags : Nat} (flagged : pflags < 2 ^ 32) {attrs : Attrs}
    (bounded : attrs.Bounded) :
    Yields (openHandle world fxpOpen (Writer.u32 id ++ Writer.utf8 path ++ Writer.u32 pflags ++ attrs.write))
      (fun handle after => after.InStep ∧ ∃ name file, handle = utf8Bytes name ∧ (utf8Bytes name).length ≤ 80 ∧
        after.session.get name = some (.file file) ∧
        (openOptions pflags attrs).open path (world.outcome link.served) link.fs = .ok (file, after.fs)) link := by
  simp only [append_assoc]
  by_cases fits : Fits (Writer.u32 id ++ (Writer.utf8 path ++ (Writer.u32 pflags ++ attrs.write)))
  · have handled := handle_request world link.served link.session link.fs id small fxpOpen
      (Writer.utf8 path ++ (Writer.u32 pflags ++ attrs.write))
    rw [dispatch_open world link.served link.session link.fs id path pflags attrs writable flagged bounded] at handled
    rcases open_file_cases (world.outcome link.served) link.session link.fs id path pflags attrs with
      ⟨code, message, answered, known, brief, refused⟩ | ⟨name, session, fs, file, answered, short, found, done⟩
    · rw [← handled] at answered
      have ran := round_trip_answered inStep fits (by rw [answered]; exact status_reply_fits _ _ _ brief)
      rw [answered] at ran
      exact refusal_opens_nothing small known brief refused ran
    · rw [answered] at handled
      have replyFits : Fits (handleReply id name).2 := by
        simp only [Fits, handleReply, length_append, u32_length, utf8_length, maxPacket]
        omega
      have ran := round_trip_answered inStep fits (by rw [handled]; exact replyFits)
      rw [handled] at ran
      have named : Reader.parse (do let _ ← Reader.u32; Reader.string)
        (handleReply id name).2 = .ok (utf8Bytes name) := by
        apply @parse_of_ok _ _ _ []
        dsimp only [handleReply]
        rw [bind_of_ok ((u32_ok _ _ id).mpr ⟨rfl, small⟩)]
        exact (string_ok _ [] _).mpr ⟨(append_nil _).symm, by omega⟩
      unfold openHandle
      rw [yields_bind]
      unfold Yields wp
      rw [ran]
      change Yields (if fxpHandle = fxpHandle then _ else _) _ _
      rw [if_pos rfl]
      apply yields_attempt
      intro handle read
      cases named.symm.trans read
      refine ⟨inStep.answered _ _, name, file, rfl, short, ?_, ?_⟩
      · rw [Link.answered, handled]
        exact found
      · rw [Link.answered, handled]
        exact done
  · refine oversized_opens_nothing inStep writable ?_ fits
    have size := attrs_write_length attrs
    rw [length_append, u32_length]
    omega

end Opening

section Loops

variable {world : World}

variable {path : String} {fs : FileSystem} {file : OpenFile}

variable {mode : Nat} {outcome : Outcome} {after : FileSystem} {link : Link} {handle : String}

/-- An upload on its way: the client has a handle on the named file, and the file has exactly
what was sent. -/
structure Uploading (link : Link) (path handle : String) (file : OpenFile) (sent : Bytes) : Prop where
  inStep : link.InStep
  short : (utf8Bytes handle).length ≤ 80
  opened : link.session.get handle = some (.file file)
  named : link.fs.names path = some file.file
  content : link.fs.contents file.file = sent

/-- A file that was opened to be written anew is empty. -/
theorem truncated_is_empty
    (done : OpenOptions.open ⟨false, true, false, true, true, false, mode⟩ path outcome fs = .ok (file, after)) :
    after.names path = some file.file ∧ after.contents file.file = [] := by
  unfold OpenOptions.open at done
  rw [if_neg (by simp [OpenOptions.valid])] at done
  dsimp only at done
  split at done
  · cases done
  · split at done
    · rw [if_pos (by decide)] at done
      cases done
      exact ⟨Function.update_self .., Function.update_self ..⟩
    · rename_i number found
      rw [if_neg (by decide), if_pos rfl] at done
      cases done
      exact ⟨found, Function.update_self ..⟩

/-- A file that was opened to be read is as it was. -/
theorem opened_as_it_was
    (done : OpenOptions.open ⟨true, false, false, false, false, false, mode⟩ path outcome fs = .ok (file, after)) :
    fs.names path = some file.file ∧ after = fs := by
  unfold OpenOptions.open at done
  rw [if_neg (by simp [OpenOptions.valid])] at done
  dsimp only at done
  split at done
  · cases done
  · split at done
    · rw [if_neg (by decide)] at done
      cases done
    · rename_i number found
      rw [if_neg (by decide), if_neg (by decide)] at done
      cases done
      exact ⟨found, rfl⟩

/-- However the source is cut, each round adds one piece. -/
theorem upload_loop_exact (failure : Option String) (reads : List Chunk)
    {sent : Bytes} (uploading : Uploading link path handle file sent) :
    Yields (uploadLoop world (utf8Bytes handle) failure sent.length reads)
      (fun _ after => after.InStep ∧ after.fs.read path = some (sent ++ reads.flatMap Chunk.bytes)) link := by
  induction reads generalizing link sent with
  | nil =>
    unfold uploadLoop
    cases failure with
    | none =>
      apply (close_keeps_files uploading.inStep uploading.short).weaken
      intro _ after closed
      refine ⟨closed.1, ?_⟩
      rw [closed.2, FileSystem.read, uploading.named, map_some, uploading.content, flatMap_nil, append_nil]
    | some reason => exact yields_abandon _ _
  | cons chunk reads ih =>
    unfold uploadLoop
    rw [yields_bind]
    apply yields_next_id uploading.inStep
    intro id between small inStep sameSession sameFiles _
    have opened : between.session.get handle = some (.file file) := by rw [sameSession, uploading.opened]
    have content : between.fs.contents file.file = sent := by rw [sameFiles, uploading.content]
    rw [yields_bind]
    have wrote := @write_appends world between inStep handle uploading.short file opened id small chunk.bytes chunk.short
    rw [content] at wrote
    apply wrote.weaken
    rintro ⟨_, payload⟩ after written
    dsimp only
    split
    · exact yields_abandon _ _
    · rename_i fine
      obtain ⟨inStep, session, names, appended⟩ := written fine
      have further : Uploading after path handle file (sent ++ chunk.bytes) := {
        inStep, short := uploading.short
        opened := by rw [session, opened]
        named := by rw [names, sameFiles, uploading.named]
        content := appended }
      have rest := ih further
      rw [length_append, append_assoc] at rest
      exact rest

/-- A download on its way: the client has a handle on the file, and has received what stands
before the rest of it. -/
structure Downloading (link : Link) (handle : String) (file : OpenFile) (fs : FileSystem)
    (received rest : Bytes) : Prop where
  inStep : link.InStep
  short : (utf8Bytes handle).length ≤ 80
  opened : link.session.get handle = some (.file file)
  files : link.fs = fs
  content : fs.contents file.file = received ++ rest

/-- What a download comes to: with enough rounds to it, the whole content. -/
def Delivered (content : Bytes) (fs : FileSystem) (needed rounds : Nat) : Option Bytes → Link → Prop
  | some received, after => after.InStep ∧ after.fs = fs ∧ received = content
  | none, _ => rounds ≤ needed

/-- However the file is cut, each round receives one piece, and the end comes after the last. -/
theorem download_loop_exact (sink : Sink) (rounds written : Nat)
    {received rest : Bytes} (downloading : Downloading link handle file fs received rest) :
    Yields (downloadLoop world sink (utf8Bytes handle) rounds written received.length received)
      (Delivered (fs.contents file.file) fs rest.length rounds) link := by
  induction rounds generalizing link received rest written with
  | zero => exact Nat.zero_le _
  | succ rounds ih =>
    have length := congrArg List.length downloading.content
    rw [length_append] at length
    unfold downloadLoop
    rw [yields_bind]
    apply yields_next_id downloading.inStep
    intro id between small inStep sameSession sameFiles _
    have opened : between.session.get handle = some (.file file) := by rw [sameSession, downloading.opened]
    have files : between.fs = fs := by rw [sameFiles, downloading.files]
    rw [yields_bind]
    have read := @read_continues world between inStep handle downloading.short file opened id small received.length
      (by rw [files]; omega)
    rw [files] at read
    apply read.weaken
    rintro _ after ⟨⟨inStep, session, files⟩,
      ⟨data, rfl, something, sized, part⟩ | ⟨code, message, rfl, known, brief, ended⟩⟩
    · rw [downloading.content, drop_left] at part
      obtain ⟨rest, rfl⟩ := part
      have parsed : Reader.parse (do let _ ← Reader.u32; Reader.string) (dataReply id data).2 = .ok data := by
        apply @parse_of_ok _ _ _ []
        dsimp only [dataReply]
        rw [bind_of_ok ((u32_ok _ _ id).mpr ⟨rfl, small⟩)]
        exact (string_ok _ [] _).mpr ⟨(append_nil _).symm, sized⟩
      dsimp only [dataReply] at parsed ⊢
      rw [if_pos rfl, parsed, yields_bind]
      apply yields_attempt
      intro _ same
      cases same
      split
      · exact yields_abandon _ _
      · have further : Downloading after handle file fs (received ++ data) rest := {
          inStep, short := downloading.short, files
          opened := by rw [session, opened]
          content := by rw [downloading.content, append_assoc] }
        have next := ih (written + 1) further
        rw [length_append] at next
        apply next.weaken
        intro result final delivered
        cases result with
        | some received => exact delivered
        | none =>
          have progress := length_pos_iff.mpr something
          change rounds + 1 ≤ (data ++ rest).length
          change rounds ≤ rest.length at delivered
          rw [length_append]
          omega
    · have status := status_read id code message small known brief
      dsimp only [statusReply] at status ⊢
      rw [if_neg (by decide), if_pos rfl, status]
      change Yields (if code = statusEof then _ else _) _ after
      split
      · rename_i eof
        split
        · exact trivial
        · rw [yields_bind]
          apply (close_keeps_files inStep downloading.short).weaken
          intro _ final closed
          refine ⟨closed.1, closed.2.trans files, ?_⟩
          -- The end stands where the client is.
          have nothing : rest = [] := by
            have whole := ended eof
            exact eq_nil_of_length_eq_zero (by omega)
          rw [downloading.content, nothing, append_nil]
      · exact yields_abandon _ _

end Loops

section Transfers

variable {world : World}

variable {link : Link}

theorem yields_check_path {remote} {post : Unit → Link → Prop}
    (next : (utf8Bytes remote).length < 2 ^ 32 → post () link) : Yields (checkPath remote) post link := by
  unfold checkPath
  split
  · rename_i writable
    exact next writable
  · trivial

theorem upload_exact (inStep : link.InStep) (source : Source) (remote : String) (mode : Nat) :
    Yields (upload world source remote mode)
      (fun _ after => after.InStep ∧ after.fs.read remote = some source.content) link := by
  unfold upload
  rw [yields_bind]
  apply yields_next_id inStep
  intro id between small inStep _ _ _
  rw [yields_bind]
  apply yields_check_path
  intro writable
  rw [yields_bind]
  have bounded : Attrs.Bounded { Attrs.none with permissions := some (mode &&& 0o7777) } := {
    size := nofun
    uidGid := nofun
    permissions := by
      rintro _ ⟨⟩
      exact Nat.lt_of_le_of_lt Nat.and_le_right (by decide)
    times := nofun }
  apply (open_yields inStep small writable (by decide) bounded).weaken
  rintro _ after ⟨inStep, name, file, rfl, short, opened, done⟩
  obtain ⟨named, empty⟩ := truncated_is_empty done
  have uploading : Uploading after remote name file [] := ⟨inStep, short, opened, named, empty⟩
  exact upload_loop_exact source.failure source.reads uploading

theorem download_exact (inStep : link.InStep) (remote : String) (sink : Sink) (rounds : Nat) :
    Yields (download world remote sink rounds)
      (fun result after => ∃ content, link.fs.read remote = some content ∧
        Delivered content link.fs content.length rounds result after) link := by
  unfold download
  rw [yields_bind]
  apply yields_next_id inStep
  intro id between small inStep _ sameFiles _
  rw [yields_bind]
  apply yields_check_path
  intro writable
  rw [yields_bind]
  have bounded : Attrs.none.Bounded := ⟨nofun, nofun, nofun, nofun⟩
  apply (open_yields inStep small writable (by decide) bounded).weaken
  rintro _ after ⟨inStep, name, file, rfl, short, opened, done⟩
  obtain ⟨named, files⟩ := opened_as_it_was done
  rw [sameFiles] at named files
  have downloading : Downloading after name file link.fs [] (link.fs.contents file.file) :=
    ⟨inStep, short, opened, files, rfl⟩
  apply (download_loop_exact sink rounds 0 downloading).weaken
  intro result final delivered
  exact ⟨_, by rw [FileSystem.read, named, map_some], delivered⟩

/-- An upload that returns has made the remote file's content the source's. A download that
returns has received the remote file's content; with more rounds than the file has bytes it
returns. So a download after an upload returns what was uploaded. Each leaves the client and
the server in step, and a download leaves the files as they were. -/
theorem transfers_are_exact (world : World) (source : Source) (remote : String) (mode : Nat)
    (sink : Sink) (rounds : Nat)
    (link : Link) (inStep : link.InStep) :
    (∀ after, upload world source remote mode link = .ok () after →
      after.fs.read remote = some source.content ∧ after.InStep) ∧
    (∀ received after, download world remote sink rounds link = .ok (some received) after →
      link.fs.read remote = some received ∧ after.fs = link.fs ∧ after.InStep) ∧
    (∀ after, download world remote sink rounds link = .ok none after →
      ∃ content, link.fs.read remote = some content ∧ rounds ≤ content.length) ∧
    ∀ between received after, upload world source remote mode link = .ok () between →
      download world remote sink rounds between = .ok (some received) after → received = source.content := by
  refine ⟨?_, ?_, ?_, ?_⟩
  · intro after ran
    exact ((upload_exact inStep source remote mode).ok ran).symm
  · intro received after ran
    obtain ⟨content, held, inStep, files, rfl⟩ := (download_exact inStep remote sink rounds).ok ran
    exact ⟨held, files, inStep⟩
  · intro after ran
    exact (download_exact inStep remote sink rounds).ok ran
  · intro between received after uploaded downloaded
    obtain ⟨inStep, held⟩ := (upload_exact inStep source remote mode).ok uploaded
    obtain ⟨content, read, -, -, rfl⟩ := (download_exact inStep remote sink rounds).ok downloaded
    exact Option.some.inj (read.symm.trans held)

/-- Files of which one is there already. -/
def sampleFiles : FileSystem where
  names path := if path = "notes" then some 0 else none
  contents _ := [9, 9, 9, 9, 9]
  modes _ := 0o644
  umask := 0o022
  fresh := 1
  bounded _ := by decide
  used path file named := by
    split at named
    · cases named
      decide
    · cases named

/-- An operating system that reads two bytes at a time. -/
def sampleWorld : World where
  outcome _ := ⟨none, .ok 2, none⟩
  others _ id _ session fs := (.ok (statusReply id statusOpUnsupported "operation not supported"), session, fs)

def sampleSource : Source := ⟨[⟨[1, 2], by decide, by decide⟩, ⟨[3], by decide, by decide⟩], none⟩

/-- The link of a client that has connected. -/
def Link.connected (fs : FileSystem) : Link := { Link.start fs with greeted := true }

/-- Connecting succeeds, and then client and server are in step. -/
theorem connect_in_step (world : World) (fs : FileSystem) :
    connect world (.start fs) = .ok () (.connected fs) ∧ (Link.connected fs).InStep :=
  ⟨rfl, rfl, rfl, rfl, rfl⟩

/-- What a routine returned, if it has. -/
def returned {α : Type} (result : EStateM.Result Error Link α) : Option α :=
  match result with
  | .ok value _ => some value
  | .error _ _ => none

theorem returned_some {α : Type} {result : EStateM.Result Error Link α} {value : α}
    (done : returned result = some value) :
    ∃ after, result = .ok value after := by
  cases result with
  | error reason after => cases done
  | ok got after =>
    cases done
    exact ⟨after, rfl⟩

/-- A file of five bytes is overwritten with three, which are then read back. -/
theorem notes_transferred : ∃ sampleLink between received after,
    connect sampleWorld (.start sampleFiles) = .ok () sampleLink ∧
    upload sampleWorld sampleSource "notes" 0o600 sampleLink = .ok () between ∧
    download sampleWorld "notes" ⟨fun _ => none, none⟩ 4 between = .ok (some received) after ∧
    between.fs.read "notes" = some [1, 2, 3] ∧ received = [1, 2, 3] := by
  obtain ⟨connected, inStep⟩ := connect_in_step sampleWorld sampleFiles
  obtain ⟨exactUpload, -, -, roundTrip⟩ :=
    transfers_are_exact sampleWorld sampleSource "notes" 0o600 ⟨fun _ => none, none⟩ 4 (.connected sampleFiles) inStep
  obtain ⟨between, uploaded⟩ : ∃ between, upload sampleWorld sampleSource "notes" 0o600
    (.connected sampleFiles) = .ok () between :=
    returned_some (by decide +kernel)
  have both : returned ((upload sampleWorld sampleSource "notes" 0o600 >>= fun _ =>
      download sampleWorld "notes" ⟨fun _ => none, none⟩ 4) (.connected sampleFiles)) = some (some [1, 2, 3]) := by
    decide +kernel
  simp only [bind, EStateM.bind, uploaded] at both
  obtain ⟨after, downloaded⟩ := returned_some both
  exact ⟨_, between, _, after, connected, uploaded, downloaded, (exactUpload between uploaded).1,
    roundTrip between _ after uploaded downloaded⟩

end Transfers

end Shh.Sftp
