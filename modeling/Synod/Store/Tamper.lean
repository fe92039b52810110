import Synod.Store.File

/-! What may happen to a node's directory from outside, whether or not a store is open in it. -/
namespace Synod

inductive Tamper where
  | write (content : Bytes)
  | flip (index : Nat) (mask : UInt8)
  | truncate (length : Nat)
  | append (content : Bytes)
  | remove
  | writeTemp (content : Bytes)
  | makeRecordFolder
  | makeTempFolder
  | removeRecordFolder
  | removeTempFolder
  | removeDirectory
deriving DecidableEq

namespace Tamper

def flipAt (index : Nat) (mask : UInt8) (content : Bytes) : Bytes :=
  content.modify index (· ^^^ mask)

def onContent (change : Bytes → Bytes) : Option Entry → Option Entry
  | some (.file content) => some (.file (change content))
  | other => other

def dropFolder : Option Entry → Option Entry
  | some .folder => none
  | other => other

def onDirectory (d : Directory) : Tamper → Option Directory
  | write content => some { d with record := some (.file content) }
  | flip index mask => some { d with record := onContent (flipAt index mask) d.record }
  | truncate length => some { d with record := onContent (·.take length) d.record }
  | append content => some { d with record := onContent (· ++ content) d.record }
  | remove => some { d with record := none }
  | writeTemp content => some { d with temp := some (.file content) }
  | makeRecordFolder => some { d with record := some .folder }
  | makeTempFolder => some { d with temp := some .folder }
  | removeRecordFolder => some { d with record := dropFolder d.record }
  | removeTempFolder => some { d with temp := dropFolder d.temp }
  | removeDirectory => none

/-- Whether something new is put into the directory, which is then made if it is missing. -/
def creates : Tamper → Bool
  | write _ | writeTemp _ | makeRecordFolder | makeTempFolder => true
  | _ => false

/-- The effect on a place. -/
def apply (t : Tamper) : Place → Place
  | some d => onDirectory d t
  | none => if t.creates then onDirectory {} t else none

end Tamper

namespace FileStore

/-- Once its directory is gone, a store no longer holds a lock that others could meet. -/
def tamper (t : Tamper) (f : FileStore) : FileStore :=
  let place := t.apply f.place
  { f with place, owner := f.owner && f.place.isSome && place.isSome }

end FileStore

def Storage.tamper (t : Tamper) : Storage → Storage
  | memory m => memory m
  | file f => file (f.tamper t)

namespace Storage

/-- What another party would acquire while this store is open. -/
def outside : Storage → Medium
  | memory _ => .memory {}
  | file f => .directory f.path f.place

/-- The store after another party has left the directory in a certain state. -/
def withOutside : Medium → Storage → Storage
  | .directory _ place, file f => file { f with place }
  | _, s => s

end Storage

end Synod
