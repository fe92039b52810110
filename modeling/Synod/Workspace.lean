import Synod.Json.Layout
import Synod.Store.File

/-!
A tree of files: how a path leads through it, how the directories on a path are made, and how the
directory of a node is seen in it and put back. Layouts are loaded from its files.
-/
namespace Synod

/-- What opening a path for reading leads to. -/
inductive Opened where
  | refused (cause : IoError)
  | folder
  | file (content : Bytes)
deriving DecidableEq

/-- A tree of files, told by what stands at each path. The root is a directory. -/
structure Workspace where
  entries : List (Path × Entry) := []
  /-- Where a path begins that does not begin at the root. -/
  home : Path := []
deriving Inhabited

namespace Workspace

variable (w : Workspace)

def entry? (p : Path) : Option Entry :=
  if p = [] then some .folder else (w.entries.find? fun (q, _) => q = p).map Prod.snd

/-- The names in a directory, in order. -/
def names (p : Path) : List String :=
  (w.entries.filterMap fun (q, _) => if q.dropLast = p then q.getLast? else none).mergeSort

/-- Removes what stands at a path and below it. -/
def erase (p : Path) : Workspace :=
  { w with entries := w.entries.filter fun (q, _) => !p.isPrefixOf q }

/-- Sets what stands at a path. A directory that is there already keeps what is in it. -/
def withEntry (p : Path) : Option Entry → Workspace
  | none => w.erase p
  | some e =>
    if w.entry? p = some .folder ∧ e = .folder then w
    else { w with entries := (p, e) :: (w.erase p).entries }

/-- Puts a directory at a path and at every path above it. -/
def withFolder (p : Path) : Workspace :=
  (List.range p.length).foldl (fun w n => w.withEntry (p.take (n + 1)) (some .folder)) w

def withFile (p : Path) (content : Bytes) : Workspace :=
  (w.withFolder p.dropLast).withEntry p (some (.file content))

/-- Follows names from a path on. All but the last must be there, and lead through directories. -/
def walk : Path → List String → Except OsError Path
  | here, [] => .ok here
  | here, name :: names =>
    match w.entry? here with
    | none => .error .notFound
    | some (.file _) => .error .notADirectory
    | some .folder =>
      if name = "" ∨ name = "." then walk here names
      else if name = ".." then walk here.dropLast names
      else if Path.nameLimit < name.utf8ByteSize then .error .nameTooLong
      else walk (here ++ [name]) names

/-- Where the names of a text are followed from. -/
def origin (text : String) : Path := if text.toList.head? = some '/' then [] else w.home

/-- The path that a text names; whether something stands there is another matter. -/
def resolve (text : String) : Except IoError Path :=
  match Path.fault? text with
  | some e => .error e
  | none => (w.walk (w.origin text) (Path.names text)).mapError .os

def opened (text : String) : Opened :=
  match w.resolve text with
  | .error e => .refused e
  | .ok p =>
    match w.entry? p with
    | none => .refused (.os .notFound)
    | some .folder => .folder
    | some (.file content) => .file content

/-- Makes one directory. -/
def makeFolder (start : Path) (names : List String) : Except OsError Workspace :=
  match w.walk start (Path.trimmed names) with
  | .error e => .error e
  | .ok p => if (w.entry? p).isSome then .error .fileExists else .ok (w.withEntry p (some .folder))

def leadsToFolder (start : Path) (names : List String) : Bool :=
  match w.walk start names with
  | .error _ => false
  | .ok p => w.entry? p = some .folder

/-- Makes the first of several directories, and before it the next ones if it cannot be made without
them. A directory that is there already will do. -/
def makeFolders (w : Workspace) (start : Path) :
    List (List String) → Except OsError Unit × Workspace
  | [] => (.ok (), w)
  | names :: above =>
    match w.makeFolder start names with
    | .ok w => (.ok (), w)
    | .error .notFound =>
      match makeFolders w start above with
      | (.error e, w) => (.error e, w)
      | (.ok (), w) =>
        match w.makeFolder start names with
        | .ok w => (.ok (), w)
        | .error e => (if w.leadsToFolder start names then .ok () else .error e, w)
    | .error e => (if w.leadsToFolder start names then .ok () else .error e, w)

/-- Makes the directory that a text names, with those above it, and tells its path. -/
def makePath (text : String) : Except IoError Path × Workspace :=
  if text = "" then (.ok w.home, w)
  else match Path.fault? text with
    | some e => (.error e, w)
    | none =>
      let names := Path.names text
      match w.makeFolders (w.origin text) (names :: Path.above names) with
      | (.ok (), w) => (w.resolve text, w)
      | (.error e, w) => (.error (.os e), w)

/-- The directory at a path as a store sees it, nobody holding its lock. -/
def directory? (p : Path) : Place :=
  match w.entry? p with
  | some .folder => some {
      record := w.entry? (p ++ [Directory.recordName])
      temp := w.entry? (p ++ [Directory.tempName])
      lock := w.entry? (p ++ [Directory.lockName]) }
  | _ => none

/-- Puts back what has become of a directory. -/
def withDirectory (p : Path) : Place → Workspace
  | none => if w.entry? p = some .folder then w.erase p else w
  | some d =>
    (((w.withFolder p).withEntry (p ++ [Directory.recordName]) d.record).withEntry
      (p ++ [Directory.tempName]) d.temp).withEntry (p ++ [Directory.lockName]) d.lock

end Workspace

/-- Why a file gives no layout. -/
inductive LoadError where
  | opening (path : String) (cause : IoError)
  | reading (path : String) (cause : IoError)
  | parsing (path : String) (cause : Json.Error)
deriving DecidableEq

def LoadError.message : LoadError → String
  | opening path cause => s!"could not open {path}: {cause.message}"
  | reading path cause => s!"could not parse {path}: {cause.message}"
  | parsing path cause => s!"could not parse {path}: {cause.message}"

namespace Layout

/-- The layout in what a path leads to. -/
def ofOpened (path : String) : Opened → Except LoadError Layout
  | .refused cause => .error (.opening path cause)
  | .folder => .error (.reading path (.os .isADirectory))
  | .file content => (Json.parse content).mapError (.parsing path)

def load (w : Workspace) (path : String) : Except LoadError Layout := ofOpened path (w.opened path)

end Layout
end Synod
