import Std.Async.TCP
import Std.Sync.Mutex
import Synod.Errand
import Synod.Options
import Synod.Shell.Session

/-!
The program: `serve` runs a node, `shell` drives nodes by hand. This layer reads, writes and waits;
what is answered, saved and sent is decided elsewhere, by the functions that the theory is about.

No file is synced here, since there is no such call to be made: the steps of a save that sync do
nothing. What is said about crashes is therefore true of this program if it is killed, but not if
the machine stops before the system has written the new record out.
-/
namespace Synod.Program

open Std.Async

/-- The system's number for a failure, which some of its parts give negated. -/
def systemCode? : IO.Error → Option Nat
  | .noFileOrDirectory _ n _ | .alreadyExists _ n _ | .inappropriateType _ n _ | .resourceBusy n _
  | .noSuchThing _ n _ | .otherError n _ | .resourceVanished n _ | .unsatisfiedConstraints n _ =>
    some (if n < 0x80000000 then n.toNat else (0 - n).toNat)
  | _ => none

/-- The cause of a failure, told by the system's number where it is known here. -/
def ioError (e : IO.Error) : IoError :=
  match (systemCode? e).bind OsError.ofCode? with
  | some cause => .os cause
  | none => .other (toString e)

/-- Runs an action and gives its failure as a value. -/
def attempt {α : Type} (action : IO α) : IO (Except IoError α) := do
  try return .ok (← action)
  catch e => return .error (ioError e)

def loadLayout (path : String) : IO (Except LoadError Layout) := do
  match ← attempt (IO.FS.readBinFile path) with
  | .ok content => return Layout.ofOpened path (.file content.toList)
  | .error (.os .isADirectory) => return Layout.ofOpened path .folder
  | .error cause => return Layout.ofOpened path (.refused cause)

/-- What stands at a path. -/
def entryAt (path : String) : IO (Option Entry) := do
  try return some (.file (← IO.FS.readBinFile path).toList)
  catch e =>
    match ioError e with
    | .os .isADirectory => return some .folder
    | .os .notFound => return none
    | _ => throw e

/-- A directory whose lock is held. -/
structure Disk where
  /-- The store as it was acquired. -/
  store : FileStore
  lock : IO.FS.Handle

namespace Disk

/-- The directory at a path once its lock was tried for. -/
def look (path : String) (taken : Bool) : IO Directory := do
  let entry (name : String) := entryAt (Path.join path name)
  return {
    record := ← entry Directory.recordName
    temp := ← entry Directory.tempName
    lock := ← entry Directory.lockName
    held := !taken }

def acquire (path : String) : IO (Except StorageError Disk) := do
  let found ← attempt do
    unless path.isEmpty do IO.FS.createDirAll path
    let lock ← IO.FS.Handle.mk (Path.join path Directory.lockName) .append
    let taken ← lock.tryLock
    return (lock, ← look path taken)
  match found with
  | .error e => return .error (.io e)
  | .ok (lock, d) =>
    match FileStore.acquire path (some d) with
    | .error (e, _) => return .error e
    | .ok store =>
      -- A temporary file that the store is acquired without is to be removed.
      let cleared := d.temp.isSome && (store.place.bind Directory.temp).isNone
      let removed ← attempt (if cleared then IO.FS.removeFile (Path.join path Directory.tempName)
        else return ())
      return (removed.mapError .io).map fun _ => ⟨store, lock⟩

/-- Takes one step of a save. Data is handed to the operating system with the write, and is not
synced. -/
def take (d : Disk) (step : SaveStep) : IO (Except IoError Unit) :=
  let name (file : String) := Path.join d.store.path file
  attempt <| match step with
  | .createTemp => IO.FS.writeBinFile (name Directory.tempName) ByteArray.empty
  | .writeTemp content => IO.FS.writeBinFile (name Directory.tempName) content.toByteArray
  | .renameTemp => IO.FS.rename (name Directory.tempName) (name Directory.recordName)
  | .syncTemp | .syncDirectory => return ()

def save (d : Disk) (s : State) : IO (Except StorageError Unit) :=
  FileStore.saveBy d.take d.store.path s

end Disk

/-- A node and the directory that it saves to, if any. -/
structure Desk where
  node : Node Unit
  disk : Option Disk

namespace Desk

/-- Saves to a directory, or to a store in memory. That one is not kept, since the node holds what it
would hold. -/
def saveTo : Option Disk → State → IO (Except StorageError Unit)
  | some disk, s => disk.save s
  | none, s => return (MemoryStore.save s {}).1

/-- Brings a node up over a directory, or anew in memory. -/
def start (directory : Option String) (seed : Option Layout) : IO (Except StorageError Desk) := do
  let acquired ← directory.mapM Disk.acquire
  match acquired.mapM id with
  | .error e => return .error e
  | .ok disk =>
    let content := disk.elim (MemoryStore.load {}) fun d => d.store.load
    let started ← Node.recoverBy (saveTo disk) content seed
    return started.map fun node => ⟨node, disk⟩

def take (d : Desk) (body : Bytes) : IO (Option Bytes × Desk) := do
  let (out, node) ← d.node.takeBy (saveTo d.disk) body
  return (out, { d with node })

end Desk

def localAddress (port : UInt16) : Std.Net.SocketAddress := .v4 ⟨.ofParts 127 0 0 1, port⟩

/-- Answers the requests of one connection in order, until it ends or cannot be understood. Requests
of different connections are answered one at a time. -/
def serveConnection (desk : Std.Mutex Desk) (socket : TCP.Socket.Client) : Async Unit := do
  let take (body : Bytes) : Async (Option Bytes) := do
    let taken : IO (Option Bytes) := desk.atomically do
      let (out, d) ← (← get).take body
      set d
      return out
    let out ← taken
    if let some frame := out then socket.send frame.toByteArray
    return out
  let mut left : Bytes := []
  repeat
    let some chunk ← socket.recv? 65536 | return
    let (_, rest, closed) ← Frame.each take (left ++ chunk.toList)
    if closed then return
    left := rest

def accept (desk : Std.Mutex Desk) (server : TCP.Socket.Server) : Async Unit := do
  repeat
    let socket ← server.accept
    background do
      try serveConnection desk socket
      catch _ => return ()

def complain (text : String) : IO UInt32 := do
  IO.eprintln s!"[ERROR]: {text}"
  return 1

def usage : IO UInt32 := do
  IO.eprintln "usage: serve -p PORT [-d DIRECTORY] [-l LAYOUT] [-v]... | shell [-p PORT]"
  return 1

def serve (args : List String) : IO UInt32 := do
  let some options := Options.node? args | usage
  let loaded ← options.layout.mapM loadLayout
  match loaded.mapM id with
  | .error e => complain e.message
  | .ok seed =>
    match ← Desk.start options.directory seed with
    | .error e => complain e.message
    | .ok d =>
      let desk ← Std.Mutex.new d
      let run : IO Unit := do
        let server ← TCP.Socket.Server.mk
        server.bind (localAddress options.port)
        server.listen 128
        (accept desk server).block
      match ← attempt run with
      | .ok () => return 0
      | .error e => complain (Error.io e).message

/-- A connection of the shell. -/
structure Wired where
  socket : TCP.Socket.Client
  client : Client

namespace Wired

def dial (port : UInt16) : IO (Except Error Wired) := do
  let outcome ← attempt do
    let socket ← TCP.Socket.Client.mk
    (socket.connect (localAddress port)).block
    return socket
  return match outcome with
  | .ok socket => .ok ⟨socket, {}⟩
  | .error e => .error (.io e)

/-- Sends a frame, and reads until a reply can be taken or the stream ends. -/
def deliver (w : Wired) (frame : Bytes) : IO (Bytes × Bool) := do
  (w.socket.send frame.toByteArray).block
  let mut got : Bytes := []
  while Frame.front (w.client.inbound ++ got) = .unfinished do
    let some chunk ← (w.socket.recv? 65536).block | return (got, true)
    got := got ++ chunk.toList
  return (got, false)

def ask (w : Wired) (request : Request) : IO (Except Error Response × Wired) := do
  match ← attempt (w.client.sendBy w.deliver request) with
  | .error e => return (.error (.io e), w)
  | .ok (reply, client) => return (reply, { w with client })

end Wired

/-- A shell at work and its connection. -/
structure Terminal where
  session : Shell.Session
  wired : Option Wired

namespace Terminal

def dial (t : Terminal) (port : UInt16) : IO Terminal := do
  let found ← Wired.dial port
  let (line, session) := t.session.dialled port (found.map fun _ => ())
  IO.println line
  return ⟨session, found.toOption⟩

def ask (t : Terminal) (request : Request) : IO Terminal := do
  match t.wired with
  | none => return t
  | some w =>
    let (outcome, w) ← w.ask request
    let (line, session) := t.session.heard outcome
    IO.println line
    return ⟨session, if session.connection.isSome then some w else none⟩

/-- The files that a command may name. -/
def pathOf? : Shell.Command → Option String
  | .bootstrap path | .propose _ _ path | .commit _ _ path => some path
  | _ => none

/-- Does what a line of input asks for. The file that it names is read if it will be needed. -/
def enter (t : Terminal) (text : String) : IO Terminal := do
  let named := (Shell.Command.parse? text).bind pathOf?
  let loaded ← (if t.session.connection.isSome then named else none).mapM loadLayout
  let load (path : String) := loaded.getD (.error (.opening path (.os .notFound)))
  match t.session.enter load text with
  | (.say lines, session) =>
    lines.forM (IO.println ·)
    return ⟨session, if session.connection.isSome then t.wired else none⟩
  | (.dial port, session) => dial { t with session } port
  | (.ask lines request, session) =>
    lines.forM (IO.println ·)
    ask { t with session } request

end Terminal

/-- The next line of input with its end, and the bytes read beyond it. -/
def nextLine (input : IO.FS.Stream) (ahead : Bytes) : IO (Bytes × Bytes) := do
  let mut ahead := ahead
  repeat
    let rest := ahead.dropWhile (· ≠ 0x0A)
    if !rest.isEmpty then return (ahead.takeWhile (· ≠ 0x0A) ++ [0x0A], rest.drop 1)
    let chunk ← input.read 4096
    if chunk.isEmpty then break
    ahead := ahead ++ chunk.toList
  return (ahead, [])

/-- Sixteen random bytes, marked as such in the way identities are. -/
def newProposer : IO ProposerId := do
  let bytes := (← IO.getRandomBytes 16).toList
  return .ofBytes (bytes.mapIdx fun i b =>
    if i = 6 then (b &&& 0x0F) ||| 0x40 else if i = 8 then (b &&& 0x3F) ||| 0x80 else b)

def shell (args : List String) : IO UInt32 := do
  let some options := Options.shell? args | usage
  let mut t : Terminal := ⟨{ proposer := ← newProposer }, none⟩
  if let some port := options.port then t ← t.dial port
  IO.println t.session.greeting
  let input ← IO.getStdin
  let output ← IO.getStdout
  let mut ahead : Bytes := []
  repeat
    output.putStr Shell.Session.prompt
    output.flush
    let (line, rest) ← nextLine input ahead
    if line.isEmpty then break
    ahead := rest
    match Text.decode line with
    | .error e =>
      IO.println (Shell.Session.unreadable e)
      break
    | .ok text => t ← t.enter text
  return 0

end Synod.Program

def main (args : List String) : IO UInt32 :=
  match args with
  | "serve" :: rest => Synod.Program.serve rest
  | "shell" :: rest => Synod.Program.shell rest
  | _ => Synod.Program.usage
