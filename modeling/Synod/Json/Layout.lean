import Synod.Json.Number
import Synod.Json.Skip
import Synod.Json.Text
import Synod.Layout

/-!
Layouts as JSON: an object with the member `epoch` and up to three lists, in any order and beside
others, or a list of the same four in order. Lists that are left out are empty.
-/
namespace Synod.Json

/-- Matches the letters of a word. -/
def word : Bytes → Bytes → Except Error Bytes
  | [], bs => .ok bs
  | _ :: _, [] => .error .endInValue
  | c :: letters, b :: bs => if b = c then word letters bs else .error .expectedWord

/-- The complaint about a value that is not of the expected kind. It is read first if it is a word,
a number or a string, and so may be at fault itself. -/
def wrongType (expected : Expected) (bs : Bytes) : Error :=
  let told (found : Found) : Error := .wrongType found expected
  let afterWord (letters : List Char) (r : Bytes) (found : Found) : Error :=
    match word (letters.map code) r with
    | .ok _ => told found
    | .error e => e
  match bs with
  | [] => .expectedValue
  | b :: r =>
    if b = code 'n' then afterWord ['u', 'l', 'l'] r .null
    else if b = code 't' then afterWord ['r', 'u', 'e'] r (.boolean true)
    else if b = code 'f' then afterWord ['a', 'l', 's', 'e'] r (.boolean false)
    else if b = code '-' ∨ isDigit b then
      match number bs with
      | .ok (n, _) => told (.number n)
      | .error e => e
    else if b = code '"' then
      match text r with
      | .ok (s, _) => told (.text s)
      | .error e => e
    else if b = code '[' then told .sequence
    else if b = code '\x7b' then told .object
    else .expectedValue

def readWord64 : Parser UInt64 := fun bs =>
  match skipSpace bs with
  | [] => .error .endInValue
  | b :: r =>
    if b = code '-' ∨ isDigit b then
      match number (b :: r) with
      | .ok (.natural n, rest) => .ok (n, rest)
      | .ok (.negative n, _) => .error (.wrongValue (.negative n) .natural)
      | .ok (n, _) => .error (.wrongType (.number n) .natural)
      | .error e => .error e
    else .error (wrongType .natural (b :: r))

def readText : Parser String := fun bs =>
  match skipSpace bs with
  | [] => .error .endInValue
  | b :: r => if b = code '"' then text r else .error (wrongType .text (b :: r))

/-- Goes to the next item of a list: whether there is one, and the text from it on. -/
def nextItem (first : Bool) : Parser Bool := fun bs =>
  match skipSpace bs with
  | [] => .error .endInList
  | b :: r =>
    if b = code ']' then .ok (false, b :: r)
    else if first then .ok (true, b :: r)
    else if b = code ',' then
      match skipSpace r with
      | [] => .error .endInValue
      | c :: r => if c = code ']' then .error .trailingComma else .ok (true, c :: r)
    else .error .expectedCommaOrBracket

/-- Closes a list after its last expected item. -/
def endList : Parser Unit := fun bs =>
  match skipSpace bs with
  | [] => .error .endInList
  | b :: r =>
    if b = code ']' then .ok ((), r)
    else if b = code ',' then
      match skipSpace r with
      | c :: _ => .error (if c = code ']' then .trailingComma else .trailingCharacters)
      | [] => .error .trailingCharacters
    else .error .trailingCharacters

/-- Strings up to the end of their list, with those read so far in reverse. Each takes some of the
text, so that its length is fuel enough. -/
def readItems : Nat → List String → Parser (List String)
  | 0, _, _ => .error .endInList
  | fuel + 1, done, bs => do
    let (more, bs) ← nextItem done.isEmpty bs
    if more then
      let (s, bs) ← readText bs
      readItems fuel (s :: done) bs
    else return (done.reverse, bs)

def readTexts : Parser (List String) := fun bs =>
  match skipSpace bs with
  | [] => .error .endInValue
  | b :: r =>
    if b = code '[' then do
      let (items, r) ← readItems (r.length + 1) [] r
      let ((), r) ← endList r
      return (items, r)
    else .error (wrongType .sequence (b :: r))

/-- The members of a layout read so far. -/
structure Members where
  epoch : Option UInt64 := none
  layoutServers : Option (List String) := none
  sequencers : Option (List String) := none
  logServers : Option (List String) := none
deriving DecidableEq, Inhabited

/-- The layout, once no more members follow. -/
def Members.layout (m : Members) : Except Error Layout :=
  match m.epoch with
  | none => .error (.missingField "epoch")
  | some epoch =>
    .ok ⟨epoch, m.layoutServers.getD [], m.sequencers.getD [], m.logServers.getD []⟩

def readColon (bs : Bytes) : Except Error Bytes :=
  match skipSpace bs with
  | [] => .error .endInObject
  | b :: r => if b = code ':' then .ok r else .error .expectedColon

/-- Goes to the next key of an object: whether there is one, and the text after its quote. -/
def nextKey (first : Bool) : Parser Bool := fun bs =>
  match skipSpace bs with
  | [] => .error .endInObject
  | b :: r =>
    if b = code '\x7d' then .ok (false, b :: r)
    else if first then
      if b = code '"' then .ok (true, r) else .error .keyNotText
    else if b = code ',' then
      match skipSpace r with
      | [] => .error .endInValue
      | c :: r =>
        if c = code '"' then .ok (true, r)
        else if c = code '\x7d' then .error .trailingComma
        else .error .keyNotText
    else .error .expectedCommaOrBrace

/-- Reads the value of a member whose key may occur once. -/
def field {α : Type} (name : String) (earlier : Option α) (read : Parser α) : Parser α :=
  match earlier with
  | some _ => fun _ => .error (.duplicateField name)
  | none => fun bs => do read (← readColon bs)

/-- Reads the value of a member, which is passed over if the key is not one of a layout. -/
def member (key : String) (m : Members) : Parser Members := fun bs =>
  if key = "epoch" then do
    let (v, bs) ← field key m.epoch readWord64 bs
    return ({ m with epoch := some v }, bs)
  else if key = "layout_servers" then do
    let (v, bs) ← field key m.layoutServers readTexts bs
    return ({ m with layoutServers := some v }, bs)
  else if key = "sequencers" then do
    let (v, bs) ← field key m.sequencers readTexts bs
    return ({ m with sequencers := some v }, bs)
  else if key = "log_servers" then do
    let (v, bs) ← field key m.logServers readTexts bs
    return ({ m with logServers := some v }, bs)
  else do
    return (m, ← Skip.value (← readColon bs))

/-- Members up to the end of their object. Each takes some of the text, so that its length is fuel
enough. -/
def readMembers : Nat → Bool → Members → Parser Members
  | 0, _, _, _ => .error .endInObject
  | fuel + 1, first, m, bs => do
    let (more, bs) ← nextKey first bs
    if more then
      let (key, bs) ← text bs
      let (m, bs) ← member key m bs
      readMembers fuel false m bs
    else return (m, bs)

/-- An object after its opening brace. -/
def readObject : Parser Layout := fun bs => do
  let (m, bs) ← readMembers (bs.length + 1) true {} bs
  return (← m.layout, bs.drop 1)

/-- The next list of a layout that is written as a list; one that is left out is empty. -/
def readPlace : Parser (List String) := fun bs => do
  let (more, bs) ← nextItem false bs
  if more then readTexts bs else return ([], bs)

/-- A list after its opening bracket. -/
def readSequence : Parser Layout := fun bs => do
  let (more, bs) ← nextItem true bs
  if more then
    let (epoch, bs) ← readWord64 bs
    let (layoutServers, bs) ← readPlace bs
    let (sequencers, bs) ← readPlace bs
    let (logServers, bs) ← readPlace bs
    let ((), bs) ← endList bs
    return (⟨epoch, layoutServers, sequencers, logServers⟩, bs)
  else .error .noFields

def readLayout : Parser Layout := fun bs =>
  match skipSpace bs with
  | [] => .error .endInValue
  | b :: r =>
    if b = code '[' then readSequence r
    else if b = code '\x7b' then readObject r
    else .error (wrongType .layout (b :: r))

/-- The layout that a whole text holds. -/
def parse (bs : Bytes) : Except Error Layout := do
  let (layout, bs) ← readLayout bs
  match skipSpace bs with
  | [] => return layout
  | _ :: _ => .error .trailingCharacters

def writtenList (items : List String) : List Char :=
  '[' :: List.intercalate [','] (items.map writtenText) ++ [']']

def writtenMember (name : String) (value : List Char) : List Char :=
  writtenText name ++ ':' :: value

/-- A layout without spaces, its members in order. -/
def writtenLayout (l : Layout) : List Char :=
  '\x7b' :: List.intercalate [','] [
    writtenMember "epoch" (Nat.toDigits 10 l.epoch.toNat),
    writtenMember "layout_servers" (writtenList l.layoutServers),
    writtenMember "sequencers" (writtenList l.sequencers),
    writtenMember "log_servers" (writtenList l.logServers)] ++ ['\x7d']

def write (l : Layout) : String := String.ofList (writtenLayout l)

end Synod.Json
