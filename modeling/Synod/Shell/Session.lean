import Synod.Peer
import Synod.Shell.Command
import Synod.Workspace

/-!
A session of the shell: it proposes under one identity, holds at most one connection, and remembers
the highest rank it has sent in a first phase or been told of.
-/
namespace Synod.Shell

structure Session where
  proposer : ProposerId
  seen : Option Rank := none
  /-- The port of the node that the session is connected to. -/
  connection : Option UInt16 := none
deriving DecidableEq, Inhabited

/-- The rank that a response reports. -/
def reported : Response → Option Rank
  | .prepareReject rank => rank
  | .prepareAck rank _ => rank
  | .proposeReject promised accepted => max promised accepted
  | _ => none

/-- The highest rank known after a response, given the highest known before it. -/
def observe (seen : Option Rank) (response : Response) : Option Rank := max seen (reported response)

/-- The highest rank known after each of several responses. -/
def observations (seen : Option Rank) : List Response → List (Option Rank)
  | [] => []
  | response :: responses =>
    let seen := observe seen response
    seen :: observations seen responses

/-- What a command leads to. -/
inductive Turn where
  | say (lines : List String)
  | dial (port : UInt16)
  | ask (lines : List String) (request : Request)
deriving DecidableEq

def dashes : String := String.ofList (List.replicate 71 '-')

def usage : List String := [
  dashes,
  "Possible commands:",
  "connect <PORT>                  | c  -- Connect to server at <PORT>",
  "disconnect                      | d  -- Disconnect from current server",
  "layout                          | l  -- Fetch committed layout and epoch",
  "bootstrap <FILE>                | b  -- Bootstrap with layout in <FILE>",
  "epoch <EPOCH>                   | e  -- Seal the server at <EPOCH>",
  "prepare <SEQ> <EPOCH>           | p  -- Send phase one at rank <SEQ>",
  "retry <EPOCH>                   | r  -- Send phase one above the highest rank seen",
  "propose <SEQ> <EPOCH> <FILE>    | a  -- Send phase two with <FILE>",
  "commit <SEQ> <EPOCH> <FILE>     | m  -- Announce <FILE> as committed",
  "help                            | h  -- Print this message",
  dashes]

namespace Session

def greeting (s : Session) : String := s!"[INFO]: proposing as {s.proposer.text}"

def prompt : String := "> "

def notUnderstood : String := "[ERROR]: could not parse command"

def unreadable (e : Text.Utf8Error) : String := s!"[ERROR]: could not read input: {e.message}"

/-- A request that needs the layout in a file. -/
def withLayout (s : Session) (loaded : Except LoadError Layout) (request : Layout → Request) :
    Turn × Session :=
  match loaded with
  | .ok layout => (.ask [] (request layout), s)
  | .error e => (.say [s!"[ERROR]: {e.message}"], s)

/-- What a command asks of the node that the session is connected to. -/
def request (s : Session) (load : String → Except LoadError Layout) : Command → Turn × Session
  | .layout => (.ask [] .getLayout, s)
  | .epoch epoch => (.ask [] (.setEpoch epoch), s)
  | .prepare sequence epoch =>
    let rank : Rank := ⟨sequence, s.proposer⟩
    (.ask [] (.prepare rank epoch), { s with seen := max s.seen (some rank) })
  | .retry epoch =>
    match Rank.above s.seen s.proposer with
    | some rank =>
      (.ask [s!"[INFO]: preparing at {rank.text}"] (.prepare rank epoch),
        { s with seen := some rank })
    | none => (.say [s!"[ERROR]: no rank above {shown s.seen} is available"], s)
  | .bootstrap path => s.withLayout (load path) .bootstrap
  | .propose sequence epoch path =>
    s.withLayout (load path) fun layout => .propose ⟨sequence, s.proposer⟩ layout epoch
  | .commit sequence epoch path =>
    s.withLayout (load path) fun layout => .committed ⟨sequence, s.proposer⟩ layout epoch
  | .help | .connect _ | .disconnect => (.say [], s)

def turn (s : Session) (load : String → Except LoadError Layout) (command : Command) :
    Turn × Session :=
  match command with
  | .help => (.say usage, s)
  | .connect port => (.dial port, s)
  | .disconnect =>
    match s.connection with
    | some port =>
      (.say [s!"[RESPONSE]: disconnected from 127.0.0.1:{port.toNat}"],
        { s with connection := none })
    | none => (.say ["[ERROR]: not connected"], s)
  | _ =>
    match s.connection with
    | some _ => s.request load command
    | none => (.say ["[ERROR]: not connected to any server"], s)

/-- What a line of input asks for. A blank one is passed over. -/
def enter (s : Session) (load : String → Except LoadError Layout) (text : String) :
    Turn × Session :=
  if text.toList.all Text.isBlank then (.say [], s)
  else match Command.parse? text with
    | none => (.say [notUnderstood], s)
    | some command => s.turn load command

/-- After an attempt to connect. -/
def dialled (s : Session) (port : UInt16) : Except Error Unit → String × Session
  | .ok () =>
    (s!"[RESPONSE]: connected to server at port {port.toNat}", { s with connection := some port })
  | .error e =>
    (s!"[ERROR]: failed to connect to server at port {port.toNat}: {e.message}",
      { s with connection := none })

/-- After a request was answered, or the connection failed. -/
def heard (s : Session) : Except Error Response → String × Session
  | .ok response =>
    (s!"[RESPONSE]: {shown response}", { s with seen := observe s.seen response })
  | .error e => (s!"[ERROR]: {e.message}; dropping connection", { s with connection := none })

end Session
end Synod.Shell
