import Shh.Wire

/-!
# File transfer

The client and the server of the file transfer protocol, version 3, joined by two byte
streams. A packet is a length, a type and a payload. The client sends one request at a time
and waits for its reply; the server answers requests as they come.

Files are byte arrays that are read and written at positions, behind handles that the server
gives out. What the operating system does with a call is a parameter: it may refuse to open
a file, read less than was asked for, or fail a write after part of it. So is the answer to
the requests that neither an upload nor a download sends.
-/

namespace Shh.Sftp

open Wire

/-- The protocol version. -/
def version : Nat := 3

/-- A bound on the length of a packet. -/
def maxPacket : Nat := 256 * 1024

def fxpInit : UInt8 := 1
def fxpVersion : UInt8 := 2
def fxpOpen : UInt8 := 3
def fxpClose : UInt8 := 4
def fxpRead : UInt8 := 5
def fxpWrite : UInt8 := 6
def fxpStatus : UInt8 := 101
def fxpHandle : UInt8 := 102
def fxpData : UInt8 := 103

def statusOk : Nat := 0
def statusEof : Nat := 1
def statusNoSuchFile : Nat := 2
def statusPermissionDenied : Nat := 3
def statusFailure : Nat := 4
def statusBadMessage : Nat := 5
def statusOpUnsupported : Nat := 8

def openRead : Nat := 0x1
def openWrite : Nat := 0x2
def openAppend : Nat := 0x4
def openCreat : Nat := 0x8
def openTrunc : Nat := 0x10
def openExcl : Nat := 0x20

section Attributes

def attrSize : Nat := 0x1
def attrUidGid : Nat := 0x2
def attrPermissions : Nat := 0x4
def attrAcModTime : Nat := 0x8
def attrExtended : Nat := 0x80000000

/-- A file's attributes, as many as were sent. -/
structure Attrs where
  size : Option Nat
  uidGid : Option (Nat × Nat)
  permissions : Option Nat
  times : Option (Nat × Nat)
deriving DecidableEq, Repr

namespace Attrs

def none : Attrs := ⟨.none, .none, .none, .none⟩

/-- Extended attributes are pairs of strings, which are skipped. -/
def skipExtended : Nat → Reader Unit
  | 0 => pure ()
  | count + 1 => do
    let _ ← Reader.string
    let _ ← Reader.string
    skipExtended count

def pair : Reader (Nat × Nat) := do
  let first ← Reader.u32
  let second ← Reader.u32
  return (first, second)

/-- A field that is there if its flag is. -/
def field {α : Type} (present : Bool) (reader : Reader α) : Reader (Option α) :=
  if present then some <$> reader else pure .none

def read : Reader Attrs := do
  let flags ← Reader.u32
  let size ← field (flags &&& attrSize ≠ 0) Reader.u64
  let uidGid ← field (flags &&& attrUidGid ≠ 0) pair
  let permissions ← field (flags &&& attrPermissions ≠ 0) Reader.u32
  let times ← field (flags &&& attrAcModTime ≠ 0) pair
  if flags &&& attrExtended ≠ 0 then
    let count ← Reader.u32
    skipExtended count
  return ⟨size, uidGid, permissions, times⟩

def flags (attrs : Attrs) : Nat :=
  (if attrs.size.isSome then attrSize else 0) ||| (if attrs.uidGid.isSome then attrUidGid else 0) |||
    (if attrs.permissions.isSome then attrPermissions else 0) ||| (if attrs.times.isSome then attrAcModTime else 0)

def write (attrs : Attrs) : Bytes :=
  Writer.u32 attrs.flags ++ attrs.size.elim [] Writer.u64 ++
    attrs.uidGid.elim [] (fun ids => Writer.u32 ids.1 ++ Writer.u32 ids.2) ++ attrs.permissions.elim [] Writer.u32 ++
    attrs.times.elim [] (fun times => Writer.u32 times.1 ++ Writer.u32 times.2)

end Attrs

end Attributes

section Packets

/-- The wire bytes of a packet. The length is reduced to four bytes. -/
def writePacket (typ : UInt8) (payload : Bytes) : Bytes := Writer.u32 (payload.length + 1) ++ typ :: payload

inductive Received where
  | needMore
  | failed (reason : String)
  | packet (typ : UInt8) (payload rest : Bytes)
deriving DecidableEq, Repr

/-- Read a packet from the bytes that have arrived. -/
def readPacket (input : Bytes) : Received :=
  if input.length < 4 then .needMore
  else
    let length := fromBe (input.take 4)
    if length = 0 ∨ maxPacket < length then .failed s!"bad SFTP packet length {length}"
    else if input.length < 4 + length then .needMore
    else .packet (input.getD 4 0) ((input.drop 5).take (length - 1)) (input.drop (4 + length))

end Packets

section Files

inductive IoKind where
  | notFound
  | permissionDenied
  | other
deriving DecidableEq, Repr

/-- An error of the operating system, with a text of moderate length. -/
structure IoError where
  kind : IoKind
  text : String
  short : (utf8Bytes text).length ≤ 1024
deriving DecidableEq, Repr

def noSuchFile : IoError := ⟨.notFound, "No such file or directory (os error 2)", by decide +kernel⟩
def fileExists : IoError := ⟨.other, "File exists (os error 17)", by decide +kernel⟩
def invalidArgument : IoError := ⟨.other, "Invalid argument (os error 22)", by decide +kernel⟩
def badDescriptor : IoError := ⟨.other, "Bad file descriptor (os error 9)", by decide +kernel⟩
def tooLarge : IoError := ⟨.other, "File too large (os error 27)", by decide +kernel⟩

/-- A number that file sizes and positions stay below. -/
def offsetLimit : Nat := 2 ^ 63

/-- Named files with their contents. -/
structure FileSystem where
  names : String → Option Nat
  contents : Nat → Bytes
  modes : Nat → Nat
  /-- What a new file's mode is kept from. -/
  umask : Nat
  /-- No file has this number or a higher one. -/
  fresh : Nat
  bounded : ∀ file, (contents file).length < offsetLimit
  used : ∀ path file, names path = some file → file < fresh

namespace FileSystem

/-- The content of a named file. -/
def read (fs : FileSystem) (path : String) : Option Bytes := (fs.names path).map fs.contents

def replace (fs : FileSystem) (file : Nat) (content : Bytes) (bound : content.length < offsetLimit) : FileSystem where
  names := fs.names
  contents := Function.update fs.contents file content
  modes := fs.modes
  umask := fs.umask
  fresh := fs.fresh
  bounded other := by
    by_cases same : other = file
    · rw [same, Function.update_self]
      exact bound
    · rw [Function.update_of_ne same]
      exact fs.bounded other
  used := fs.used

/-- A new empty file. -/
def create (fs : FileSystem) (path : String) (mode : Nat) : FileSystem where
  names := Function.update fs.names path (some fs.fresh)
  contents := Function.update fs.contents fs.fresh []
  modes := Function.update fs.modes fs.fresh (mode &&& (0o7777 - fs.umask))
  umask := fs.umask
  fresh := fs.fresh + 1
  bounded other := by
    by_cases same : other = fs.fresh
    · rw [same, Function.update_self]
      decide
    · rw [Function.update_of_ne same]
      exact fs.bounded other
  used other file named := by
    by_cases same : other = path
    · rw [same, Function.update_self] at named
      cases named
      exact Nat.lt_succ_self _
    · rw [Function.update_of_ne same] at named
      exact Nat.lt_succ_of_lt (fs.used other file named)

end FileSystem

/-- Bytes with others put over them from a position on. A gap is filled with zeros. -/
def patch (old : Bytes) (position : Nat) (data : Bytes) : Bytes :=
  if data = [] then old
  else (old ++ List.replicate (position - old.length) 0).take position ++ data ++ old.drop (position + data.length)

theorem patch_length (old : Bytes) (position : Nat) (data : Bytes) :
    (patch old position data).length ≤ max old.length (position + data.length) := by
  unfold patch
  split
  · exact Nat.le_max_left _ _
  · simp only [List.length_append, List.length_take, List.length_replicate, List.length_drop]
    omega

structure OpenOptions where
  read : Bool
  write : Bool
  append : Bool
  create : Bool
  truncate : Bool
  createNew : Bool
  mode : Nat
deriving DecidableEq, Repr

/-- Some way of access is asked for, and what is created or emptied is written to. -/
def OpenOptions.valid (options : OpenOptions) : Bool :=
  (options.read || options.write || options.append) &&
    if options.append then !(options.truncate && !options.createNew)
    else options.write || !(options.truncate || options.create || options.createNew)

/-- A file that was opened, and how. -/
structure OpenFile where
  file : Nat
  read : Bool
  write : Bool
  append : Bool
deriving DecidableEq, Repr

/-- What the operating system does with the calls of one request: it refuses to open a file,
it reads some number of bytes, it fails a write after some. -/
structure Outcome where
  refused : Option IoError
  read : Except IoError Nat
  cut : Option (Nat × IoError)

def OpenOptions.open (options : OpenOptions) (path : String) (outcome : Outcome) (fs : FileSystem) :
    Except IoError (OpenFile × FileSystem) :=
  if options.valid = false then .error invalidArgument
  else
    match outcome.refused with
    | some reason => .error reason
    | none =>
      let opened (file : Nat) : OpenFile := ⟨file, options.read, options.write || options.append, options.append⟩
      match fs.names path with
      | none =>
        if options.create || options.createNew then .ok (opened fs.fresh, fs.create path options.mode) else .error noSuchFile
      | some file =>
        if options.createNew then .error fileExists
        else if options.truncate then .ok (opened file, fs.replace file [] (by decide))
        else .ok (opened file, fs)

/-- Before the end of the file at least one byte is read. -/
def OpenFile.readAt (file : OpenFile) (length offset : Nat) (outcome : Outcome) (fs : FileSystem) :
    Except IoError Bytes :=
  if file.read = false then .error badDescriptor
  else if offsetLimit ≤ offset then .error invalidArgument
  else
    match outcome.read with
    | .error reason => .error reason
    | .ok count => .ok ((((fs.contents file.file).drop offset).take length).take (max 1 count))

/-- Put data at a position, all of it or a part. -/
def FileSystem.writeAt (fs : FileSystem) (file position : Nat) (data : Bytes) (outcome : Outcome) :
    Except IoError Unit × FileSystem :=
  if fits : position + data.length < offsetLimit then
    let written (part : Bytes) (short : part.length ≤ data.length) : FileSystem :=
      fs.replace file (patch (fs.contents file) position part) (by
        have bound := fs.bounded file
        have size := patch_length (fs.contents file) position part
        omega)
    match outcome.cut with
    | some (count, reason) => (.error reason, written (data.take count) (List.length_take_le' _ _))
    | none => (.ok (), written data (Nat.le_refl _))
  else (.error tooLarge, fs)

/-- Write all of the data, or fail with a part of it written. Whatever the offset, a file
that was opened for appending is written at its end. -/
def OpenFile.writeAllAt (file : OpenFile) (data : Bytes) (offset : Nat) (outcome : Outcome) (fs : FileSystem) :
    Except IoError Unit × FileSystem :=
  if data = [] then (.ok (), fs)
  else if file.write = false then (.error badDescriptor, fs)
  else fs.writeAt file.file (if file.append then (fs.contents file.file).length else offset) data outcome

end Files

section Serving

/-- Open handles that a session may have. -/
def maxHandles : Nat := 256

inductive Handle where
  | file (file : OpenFile)
  | dir (entries : List String) (next : Nat)
deriving DecidableEq, Repr

structure Session where
  handles : List (String × Handle)
  nextHandle : UInt64
deriving DecidableEq, Repr

def Session.insert (session : Session) (handle : Handle) : Option (String × Session) :=
  if maxHandles ≤ session.handles.length then none
  else
    let id := toString session.nextHandle.toNat
    some (id, {
      handles := (id, handle) :: session.handles.filter fun entry => entry.1 ≠ id
      nextHandle := session.nextHandle + 1 })

def Session.get (session : Session) (handle : String) : Option Handle := session.handles.lookup handle

def Session.remove (session : Session) (handle : String) : Session :=
  { session with handles := session.handles.filter fun entry => entry.1 ≠ handle }

/-- A type and a payload. -/
abbrev Reply := UInt8 × Bytes

inductive Fail where
  | wire
  | io (error : IoError)
  | unsupported

def statusReply (id code : Nat) (message : String) : Reply :=
  (fxpStatus, Writer.u32 id ++ Writer.u32 code ++ Writer.utf8 message ++ Writer.utf8 "")

def handleReply (id : Nat) (handle : String) : Reply := (fxpHandle, Writer.u32 id ++ Writer.utf8 handle)

def dataReply (id : Nat) (data : Bytes) : Reply := (fxpData, Writer.u32 id ++ Writer.string data)

def errnoStatus (error : IoError) : Nat :=
  match error.kind with
  | .notFound => statusNoSuchFile
  | .permissionDenied => statusPermissionDenied
  | .other => statusFailure

/-- What a request leads to: a reply or a failure, the session and the files. -/
abbrev Served := Except Fail Reply × Session × FileSystem

/-- What is outside: the operating system's part in each request, and the answer to the
requests that are not about opening, closing, reading and writing files. -/
structure World where
  outcome : Nat → Outcome
  others : UInt8 → Nat → Bytes → Session → FileSystem → Served

/-- How a file is to be opened. A file that is created has the mode that was asked for. -/
def openOptions (pflags : Nat) (attrs : Attrs) : OpenOptions where
  read := pflags &&& openRead ≠ 0
  write := pflags &&& openWrite ≠ 0
  append := pflags &&& openAppend ≠ 0
  create := pflags &&& openCreat ≠ 0
  truncate := pflags &&& openTrunc ≠ 0
  createNew := pflags &&& openExcl ≠ 0
  mode := attrs.permissions.getD 0o644 &&& 0o7777

def openFile (outcome : Outcome) (session : Session) (fs : FileSystem) (id : Nat) (path : String) (pflags : Nat)
    (attrs : Attrs) : Served :=
  if maxHandles ≤ session.handles.length then
    (.ok (statusReply id statusFailure "too many open handles"), session, fs)
  else
    match (openOptions pflags attrs).open path outcome fs with
    | .error reason => (.error (.io reason), session, fs)
    | .ok (file, fs) =>
      match session.insert (.file file) with
      | some (handle, session) => (.ok (handleReply id handle), session, fs)
      | none => (.ok (statusReply id statusFailure "too many open handles"), session, fs)

/-- The reply to a read. Nothing read means the end of the file. -/
def readServed (id : Nat) (session : Session) (fs : FileSystem) : Except IoError Bytes → Served
  | .error reason => (.error (.io reason), session, fs)
  | .ok data =>
    if data = [] then (.ok (statusReply id statusEof "end of file"), session, fs)
    else (.ok (dataReply id data), session, fs)

def writeServed (id : Nat) (session : Session) : Except IoError Unit × FileSystem → Served
  | (.error reason, fs) => (.error (.io reason), session, fs)
  | (.ok (), fs) => (.ok (statusReply id statusOk "written"), session, fs)

def dispatch (world : World) (served : Nat) (session : Session) (fs : FileSystem) (typ : UInt8)
    (id : Nat) (body : Bytes) :
    Served :=
  let outcome := world.outcome served
  if typ = fxpOpen then
    let request : Reader (String × Nat × Attrs) := do
      let path ← Reader.utf8
      let pflags ← Reader.u32
      let attrs ← Attrs.read
      return (path, pflags, attrs)
    match request.parse body with
    | .error _ => (.error .wire, session, fs)
    | .ok (path, pflags, attrs) => openFile outcome session fs id path pflags attrs
  else if typ = fxpClose then
    match Reader.utf8.parse body with
    | .error _ => (.error .wire, session, fs)
    | .ok handle =>
      if (session.get handle).isSome then (.ok (statusReply id statusOk "closed"), session.remove handle, fs)
      else (.ok (statusReply id statusFailure "no such handle"), session, fs)
  else if typ = fxpRead then
    let request : Reader (String × Nat × Nat) := do
      let handle ← Reader.utf8
      let offset ← Reader.u64
      let length ← Reader.u32
      return (handle, offset, length)
    match request.parse body with
    | .error _ => (.error .wire, session, fs)
    | .ok (handle, offset, length) =>
      match session.get handle with
      | some (.file file) =>
        -- The reply with its header must stay a packet.
        readServed id session fs (file.readAt (min length (maxPacket - 1024)) offset outcome fs)
      | _ => (.ok (statusReply id statusFailure "not an open file"), session, fs)
  else if typ = fxpWrite then
    let request : Reader (String × Nat × Bytes) := do
      let handle ← Reader.utf8
      let offset ← Reader.u64
      let data ← Reader.string
      return (handle, offset, data)
    match request.parse body with
    | .error _ => (.error .wire, session, fs)
    | .ok (handle, offset, data) =>
      match session.get handle with
      | some (.file file) => writeServed id session (file.writeAllAt data offset outcome fs)
      | _ => (.ok (statusReply id statusFailure "not an open file"), session, fs)
  else world.others typ id body session fs

/-- A failure becomes a status. -/
def answer (id : Nat) : Served → Reply × Session × FileSystem
  | (.ok reply, session, fs) => (reply, session, fs)
  | (.error .wire, session, fs) => (statusReply id statusBadMessage "malformed request", session, fs)
  | (.error (.io error), session, fs) => (statusReply id (errnoStatus error) error.text, session, fs)
  | (.error .unsupported, session, fs) => (statusReply id statusOpUnsupported "operation not supported", session, fs)

def handleRequest (world : World) (served : Nat) (session : Session) (fs : FileSystem) (typ : UInt8) (payload : Bytes) :
    Reply × Session × FileSystem :=
  match Reader.u32 payload with
  | .error _ => (statusReply 0 statusBadMessage "truncated request", session, fs)
  | .ok (id, body) => answer id (dispatch world served session fs typ id body)

end Serving

section Transferring

/-- A client and a server with the streams between them. -/
structure Link where
  nextId : UInt32
  toServer : Bytes
  toClient : Bytes
  session : Session
  fs : FileSystem
  /-- Requests that were served, each with its own part of the operating system's. -/
  served : Nat
  /-- The server has seen the client's version. -/
  greeted : Bool
  /-- The server still runs. -/
  alive : Bool

/-- A client and a server that have not spoken yet. -/
def Link.start (fs : FileSystem) : Link := ⟨0, [], [], ⟨[], 0⟩, fs, 0, false, true⟩

/-- The server's loop, for so many packets that have arrived. A packet it cannot read ends it. -/
def Link.serve (world : World) : Nat → Link → Link
  | 0, link => link
  | budget + 1, link =>
    if link.alive then
      match readPacket link.toServer with
      | .needMore => link
      | .failed _ => { link with alive := false }
      | .packet typ payload rest =>
        if link.greeted = false then
          if typ = fxpInit then
            Link.serve world budget { link with
              toServer := rest
              toClient := link.toClient ++ writePacket fxpVersion (Writer.u32 version)
              greeted := true }
          else { link with alive := false }
        else
          let (reply, session, fs) := handleRequest world link.served link.session link.fs typ payload
          Link.serve world budget { link with
            toServer := rest
            toClient := link.toClient ++ writePacket reply.1 reply.2
            session, fs
            served := link.served + 1 }
    else link

abbrev Remote := EStateM Error Link

def nextId : Remote Nat := fun link => .ok link.nextId.toNat { link with nextId := link.nextId + 1 }

/-- Send a request and read one reply. Where the server has ended there is none; where it
waits for more, neither is there one, and the stand-in for the client's waiting is a failure. -/
def roundTrip (world : World) (typ : UInt8) (body : Bytes) : Remote Reply := fun link =>
  let sent := { link with toServer := link.toServer ++ writePacket typ body }
  let link := sent.serve world sent.toServer.length
  match readPacket link.toClient with
  | .needMore => .error (.io "unexpected end of file") link
  | .failed reason => .error (.io reason) link
  | .packet typ payload rest => .ok (typ, payload) { link with toClient := rest }

/-- A computation that only reads a reply. -/
def attempt {α : Type} : Except Error α → Remote α
  | .ok value => pure value
  | .error reason => throw reason

def connect (world : World) : Remote Unit := do
  let (typ, payload) ← roundTrip world fxpInit (Writer.u32 version)
  if typ ≠ fxpVersion then throw (.sftp "server did not answer INIT with VERSION")
  let theirs ← attempt (Reader.u32.parse payload)
  if version < theirs then throw (.sftp s!"server speaks SFTP v{theirs}; we implement v{version}")

/-- The code and the message of a status. -/
def readStatus (payload : Bytes) : Except Error (Nat × String) :=
  Reader.parse (do
    let _ ← Reader.u32
    let code ← Reader.u32
    let rest ← Reader.rest
    return (code, (Reader.utf8.parse rest).toOption.getD "")) payload

def checkStatus (payload : Bytes) : Except Error Unit := do
  let (code, message) ← readStatus payload
  if code = statusOk then return () else throw (.sftp s!"status {code}: {message}")

/-- A step whose result does not matter. -/
def ignoring (routine : Remote Unit) : Remote Unit := fun link =>
  match routine link with
  | .ok _ link => .ok () link
  | .error _ link => .ok () link

def openHandle (world : World) (typ : UInt8) (body : Bytes) : Remote Bytes := do
  let (replied, payload) ← roundTrip world typ body
  if replied = fxpHandle then
    attempt (Reader.parse (do
      let _ ← Reader.u32
      Reader.string) payload)
  else if replied = fxpStatus then
    attempt (checkStatus payload)
    throw (.sftp "open returned an empty status")
  else throw (.sftp "unexpected reply to open")

def close (world : World) (handle : Bytes) : Remote Unit := do
  let id ← nextId
  let (_, payload) ← roundTrip world fxpClose (Writer.u32 id ++ Writer.string handle)
  attempt (checkStatus payload)

/-- A path that a string cannot hold ends the program. -/
def checkPath (remote : String) : Remote Unit :=
  if (utf8Bytes remote).length < 2 ^ 32 then pure () else throw (.io "wire string exceeds u32 length")

/-- What a read of the source returns: some bytes, no more than the buffer holds. -/
structure Chunk where
  bytes : Bytes
  nonempty : 0 < bytes.length
  short : bytes.length ≤ 32 * 1024

/-- A source: what its reads return, and whether they end with an error. -/
structure Source where
  reads : List Chunk
  failure : Option String

def Source.content (source : Source) : Bytes := source.reads.flatMap Chunk.bytes

def uploadLoop (world : World) (handle : Bytes) (failure : Option String) : Nat → List Chunk → Remote Unit
  | _, [] =>
    match failure with
    | none => close world handle
    | some reason => do
      ignoring (close world handle)
      throw (.io reason)
  | offset, chunk :: reads => do
    let id ← nextId
    let (_, payload) ← roundTrip world fxpWrite
      (Writer.u32 id ++ Writer.string handle ++ Writer.u64 offset ++ Writer.string chunk.bytes)
    match checkStatus payload with
    | .error reason => do
      ignoring (close world handle)
      throw reason
    | .ok () => uploadLoop world handle failure (offset + chunk.bytes.length) reads

def upload (world : World) (source : Source) (remote : String) (mode : Nat) : Remote Unit := do
  let id ← nextId
  checkPath remote
  let handle ← openHandle world fxpOpen
    (Writer.u32 id ++ Writer.utf8 remote ++ Writer.u32 (openWrite ||| openCreat ||| openTrunc) ++
      { Attrs.none with permissions := some (mode &&& 0o7777) }.write)
  uploadLoop world handle source.failure 0 source.reads

/-- Where a download goes: whether each write fails, and whether the last flush does. -/
structure Sink where
  write : Nat → Option String
  flush : Option String

/-- How much a download asks for at a time. -/
def chunkSize : Nat := 32 * 1024

/-- The rounds of a download, with what the sink has received. Without an end after so many
rounds there is no result yet. -/
def downloadLoop (world : World) (sink : Sink) (handle : Bytes) : Nat → Nat → Nat → Bytes → Remote (Option Bytes)
  | 0, _, _, _ => pure none
  | rounds + 1, written, offset, received => do
    let id ← nextId
    let (replied, payload) ← roundTrip world fxpRead
      (Writer.u32 id ++ Writer.string handle ++ Writer.u64 offset ++ Writer.u32 chunkSize)
    if replied = fxpData then
      let data ← attempt (Reader.parse (do
        let _ ← Reader.u32
        Reader.string) payload)
      match sink.write written with
      | some reason => do
        ignoring (close world handle)
        throw (.io reason)
      | none => downloadLoop world sink handle rounds (written + 1) (offset + data.length) (received ++ data)
    else if replied = fxpStatus then
      let (code, message) ← attempt (readStatus payload)
      if code = statusEof then
        match sink.flush with
        | some reason => throw (.io reason)
        | none => do
          close world handle
          return some received
      else
        ignoring (close world handle)
        throw (.sftp s!"read status {code}: {message}")
    else
      ignoring (close world handle)
      throw (.sftp "unexpected reply to READ")

/-- The bytes that the sink received, once the download has returned. -/
def download (world : World) (remote : String) (sink : Sink) (rounds : Nat) : Remote (Option Bytes) := do
  let id ← nextId
  checkPath remote
  let handle ← openHandle world fxpOpen
    (Writer.u32 id ++ Writer.utf8 remote ++ Writer.u32 openRead ++ Attrs.none.write)
  downloadLoop world sink handle rounds 0 0 []

end Transferring

end Shh.Sftp
