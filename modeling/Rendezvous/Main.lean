import Rendezvous.CommandLine
import Rendezvous.Configuration.Reading
import Rendezvous.KeyFile
import Rendezvous.Server.Basic
import Rendezvous.WebSocket.Assembly
import Rendezvous.WebSocket.Opening
import Std.Async.TCP
import Std.Sync.Channel
import Std.Sync.Mutex

/-!
The program. Every connection has a thread that reads and one that writes, and one that keeps the time;
what is read is given to the server one message after the other, and what the server sends is handed to
the writers.
-/

namespace Rendezvous.Program

open Std Std.Async

/-! ### Files -/

/-- The contents of a file, if it can be read. -/
def contents? (file : String) : IO (Option Bytes) := do
  try
    return some (← IO.FS.readBinFile file).toList
  catch _ =>
    return none

/-- Reads the configuration. A file that is not there stands for the defaults. -/
def readConfiguration (file : String) : IO Configuration := do
  let contents ←
    try pure (some (← IO.FS.readBinFile file).toList)
    catch
      | .noFileOrDirectory .. => return {}
      | _ => pure none
  match Configuration.load contents with
  | .ok c => return c
  | .error .unreadable => throw (.userError s!"failed to read config file {file}")
  | .error .malformed => throw (.userError s!"failed to parse config file {file}")
  | .error (.invalid e) => throw (.userError e.message)

/-- What is wrong with a key file, in words. -/
def keyFileMessage : KeyFileError → String
  | .unreadable => "cannot be read"
  | .occupied => "exists already"
  | .badKey e => e.message

def readKeys (files : List String) : IO (List KeyPair) :=
  files.mapM fun file => do
    match KeyFile.load (← contents? file) with
    | .ok keys => return keys
    | .error e => throw (.userError s!"permanent key {file}: {keyFileMessage e}")

def entropy (n : Nat) : IO Entropy := do
  return ⟨(← IO.getRandomBytes (USize.ofNat n)).toList⟩

/-- Writes a fresh key to a file and shows the public half. -/
def generate (file : String) : IO Unit := do
  match KeyFile.generate none (← entropy 32) with
  | .error e => throw (.userError s!"permanent key {file}: {keyFileMessage e}")
  | .ok (keys, text) =>
    let handle ← IO.FS.Handle.mk file .writeNew
    IO.setAccessRights file { user := { read := true, write := true } }
    handle.putStr text
    handle.flush
    IO.println keys.publicKey.hex

/-! ### Connections -/

/-- Something for the writer of a connection. -/
inductive Writing where
  | bytes (data : Bytes)
  | sent (item : Sent)
  | ping
  deriving Inhabited

/-- The server, and where its connections are written to. -/
structure Hub where
  server : Server
  writers : List (ClientId × Channel.Sync Writing)

/-- Hands all writers what was sent on their connections. -/
def handOut : AtomicT Hub IO Unit := do
  for (id, writer) in (← get).writers do
    let h ← get
    let (items, server) := h.server.fetch id
    set { h with server }
    for item in items do
      writer.send (.sent item)
    if items.contains .endOfStream then
      modify fun h => { h with writers := h.writers.filter (·.1 ≠ id) }

/-- Gives the server something that was read, and tells whether reading goes on. -/
def bring (hub : Mutex Hub) (id : ClientId) (m : Incoming) : IO Bool :=
  hub.atomically do
    modify fun h => { h with server := h.server.receive id m }
    handOut
    return ((← get).server.link? id).any (·.reading)

/-- The bytes of a frame of the server. -/
def frameBytes (opcode : WebSocket.Opcode) (payload : Bytes) : Bytes :=
  (WebSocket.Frame.mk true opcode payload).write

def sendBytes (socket : TCP.Socket.Client) (bytes : Bytes) : IO Unit :=
  (socket.send ⟨bytes.toArray⟩).block

/-- Writes what it is given until the end of the stream. -/
partial def writeLoop (socket : TCP.Socket.Client) (writer : Channel.Sync Writing)
    (period : IO.Ref Nat) : IO Unit := do
  match ← writer.recv with
  | .bytes data => sendBytes socket data
  | .ping => sendBytes socket (frameBytes .ping [])
  | .sent (.binary frame) => sendBytes socket (frameBytes .binary frame)
  | .sent (.pong data) => sendBytes socket (frameBytes .pong data)
  | .sent (.close code) =>
    sendBytes socket
      (frameBytes .close (BigEndian.encode 2 code.code.toNat ++ Text.utf8 code.reason))
  | .sent (.keepAlive seconds) => period.set seconds
  | .sent .endOfStream =>
    socket.shutdown.block
    return
  writeLoop socket writer period

/-- Counts the seconds of a connection: tells the server when the time for the handshake is over, and
has pings sent when they are due. -/
partial def clock (hub : Mutex Hub) (id : ClientId) (writer : Channel.Sync Writing)
    (period : IO.Ref Nat) (deadline : Nat) (second sincePing : Nat) : IO Unit := do
  IO.sleep 1000
  if second + 1 = deadline then
    let _ ← bring hub id .deadline
  let goesOn ← hub.atomically do
    return ((← get).server.link? id).any (·.writing)
  if goesOn then
    let due ← period.get
    if due ≠ 0 ∧ due ≤ sincePing + 1 then
      writer.send .ping
      clock hub id writer period deadline (second + 1) 0
    else
      clock hub id writer period deadline (second + 1) (sincePing + 1)

/-- Reads messages until the connection ends. -/
partial def readLoop (hub : Mutex Hub) (socket : TCP.Socket.Client) (id : ClientId) (limit : Nat)
    (a : WebSocket.Assembly) (bytes : Bytes) : IO Unit := do
  let (messages, a, rest) := a.read limit bytes
  let mut goesOn := true
  for m in messages do
    if goesOn then
      goesOn ← bring hub id m
  if goesOn then
    match ← (socket.recv? 65536).block with
    | some more => readLoop hub socket id limit a (rest ++ more.toList)
    | none =>
      let _ ← bring hub id .gone

/-- How many bytes the head of a request may have. -/
def maxHead : Nat := 65536

/-- Reads the head of a request, unless it is too long or the client leaves. -/
partial def readHead (socket : TCP.Socket.Client) (bytes : Bytes) : IO (Option (List Bytes × Bytes)) := do
  match WebSocket.splitHead? bytes with
  | some result => return some result
  | none =>
    if maxHead < bytes.length then return none
    match ← (socket.recv? 4096).block with
    | some more => readHead socket (bytes ++ more.toList)
    | none => return none

def draw : IO Relay.Draw := do
  let (session, e) := (← entropy 52).drawKeyPair
  let (cookie, e) := e.drawCookie
  return ⟨session, cookie, e.drawSequenceNumber.1⟩

/-- Serves one connection from its request to its end. -/
def serveSocket (hub : Mutex Hub) (socket : TCP.Socket.Client) : IO Unit := do
  let some (lines, rest) ← readHead socket [] | return
  let some head := WebSocket.RequestHead.ofLines? lines | return
  let some key := head.key? | return
  let drawn ← draw
  let writer ← Channel.Sync.new
  let period ← IO.mkRef 0
  let (opening, limits) ← hub.atomically do
    let h ← get
    let (opening, server) := h.server.request head.request drawn
    set { h with server }
    match opening with
    | .rejected => writer.send (.bytes WebSocket.rejectedAnswer)
    | .unshared => writer.send (.bytes (WebSocket.upgradedAnswer key none))
    | .opened id subprotocol =>
      writer.send (.bytes (WebSocket.upgradedAnswer key (some subprotocol)))
      modify fun h => { h with writers := (id, writer) :: h.writers }
      handOut
    return (opening, server.configuration.limits)
  match opening with
  | .rejected => writer.send (.sent .endOfStream)
  | .unshared => for item in Server.unsharedSent do writer.send (.sent item)
  | .opened id _ =>
    let deadline := limits.handshakeTimeout.toNat
    let _ ← IO.asTask (clock hub id writer period deadline 0 0) .dedicated
    let _ ← IO.asTask (do
      try readLoop hub socket id limits.maxMessageSize.toNat .empty rest
      catch _ => let _ ← bring hub id .gone) .dedicated
  try writeLoop socket writer period
  catch _ => match opening with
    | .opened id _ => let _ ← bring hub id .gone
    | _ => pure ()

/-! ### The server -/

/-- The address of the machine to listen on. -/
def socketAddress (a : ListenAddress) : Except String Net.SocketAddress :=
  match a.host with
  | .v4 w x y z => .ok (.v4 ⟨.ofParts w x y z, a.port⟩)
  | .v6 groups =>
    if h : groups.toArray.size = 8 then .ok (.v6 ⟨⟨⟨groups.toArray, h⟩⟩, a.port⟩)
    else .error "not an address"
  | .name _ =>
    if a.isLocal then .ok (.v4 ⟨.ofParts 127 0 0 1, a.port⟩) else .error "unknown host"

/-- Accepts connections forever. -/
partial def acceptLoop (hub : Mutex Hub) (listener : TCP.Socket.Server) : IO Unit := do
  let socket ← listener.accept.block
  let _ ← IO.asTask (do try serveSocket hub socket catch _ => pure ()) .dedicated
  acceptLoop hub listener

/-- Why the server cannot start, in words. -/
def startMessage (address : String) : StartError → String
  | .invalid e => e.message
  | .address => s!"failed to bind {address}"
  | .pool => "the worker pool is too large"

def serve (c : Configuration) : IO Unit := do
  let keys ← readKeys c.keys.permanent
  let anywhere : Network := ⟨fun _ => true, fun _ => true⟩
  match Server.start anywhere c keys with
  | .error e => throw (.userError (startMessage c.server.bindAddress e))
  | .ok server =>
    match socketAddress server.address with
    | .error reason => throw (.userError s!"failed to bind {c.server.bindAddress}: {reason}")
    | .ok address =>
      let listener ← TCP.Socket.Server.mk
      listener.bind address
      listener.listen 128
      acceptLoop (← Mutex.new ⟨server, []⟩) listener

def run : Command → IO Unit
  | .help => IO.println Command.usage
  | .generate file => generate file
  | .serve file bind keys => do serve (Command.configure (← readConfiguration file) bind keys)

end Rendezvous.Program

open Rendezvous in
/-- Reads the command line and runs the command. -/
def main (args : List String) : IO UInt32 := do
  match Command.parse args with
  | .error e =>
    IO.eprintln s!"error: {e.message}\n\n{Command.usage}"
    return 2
  | .ok command =>
    try
      Program.run command
      return 0
    catch e =>
      IO.eprintln s!"Error: {e}"
      return 1
