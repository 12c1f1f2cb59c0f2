import AccountService.Json.Document
import AccountService.Text.Hex

/-!
# Reading values out of JSON documents

A string denotes a text when its octets are UTF-8 and every surrogate in its escapes is
half of a pair. A record is read by the names of its members; one that is asked for must
not occur twice.

## Main definitions

* `Json.Node.text?`, `Json.Node.int?`, `Json.Node.texts?` — typed views of a document
* `Json.Node.members?` — a record with its names read
* `Json.Occurrence`, `Json.occurrence` — how often a member occurs
* `Json.Ending`, `Json.Node.ending` — where the reading of a document stops
* `Json.Node.isPlain` — a document in which everything denotes something
-/

namespace AccountService.Json

/-- The character that a single letter after a backslash stands for. -/
def unescapeShort (c : Char) : Option Char :=
  if c = '"' then some '"'
  else if c = '\\' then some '\\'
  else if c = '/' then some '/'
  else if c = 'b' then some '\x08'
  else if c = 'f' then some '\x0c'
  else if c = 'n' then some '\n'
  else if c = 'r' then some '\r'
  else if c = 't' then some '\t'
  else none

/-- Where the reading of a string's contents stands. -/
inductive Unescape where
  /-- Between the parts of the string. -/
  | plain
  /-- After a backslash. -/
  | escape
  /-- Inside a `\u` escape that so far denotes `value`, with `missing + 1` digits to come. -/
  | unit (missing value : Nat)
  /-- After a high surrogate: a backslash must come. -/
  | high (lead : Nat)
  /-- After a high surrogate and a backslash: a `u` must come. -/
  | highEscape (lead : Nat)
  /-- Inside the escape that completes a pair. -/
  | low (lead missing value : Nat)

/-- The characters that the contents of a string denote; `out` holds those found so far, last
character first. -/
def unescapeFrom : Unescape → List Char → List Char → Option (List Char)
  | .plain, out, [] => some out.reverse
  | _, _, [] => none
  | .plain, out, c :: cs =>
    if c = '\\' then unescapeFrom .escape out cs else unescapeFrom .plain (c :: out) cs
  | .escape, out, c :: cs =>
    if c = 'u' then unescapeFrom (.unit 3 0) out cs
    else
      match unescapeShort c with
      | some d => unescapeFrom .plain (d :: out) cs
      | none => none
  | .unit missing value, out, c :: cs =>
    match Hex.value? c with
    | none => none
    | some d =>
      let n := 16 * value + d
      match missing with
      | missing + 1 => unescapeFrom (.unit missing n) out cs
      | 0 =>
        if 0xD800 ≤ n ∧ n ≤ 0xDBFF then unescapeFrom (.high n) out cs
        else if 0xDC00 ≤ n ∧ n ≤ 0xDFFF then none
        else unescapeFrom .plain (Char.ofNat n :: out) cs
  | .high lead, out, c :: cs => if c = '\\' then unescapeFrom (.highEscape lead) out cs else none
  | .highEscape lead, out, c :: cs =>
    if c = 'u' then unescapeFrom (.low lead 3 0) out cs else none
  | .low lead missing value, out, c :: cs =>
    match Hex.value? c with
    | none => none
    | some d =>
      let n := 16 * value + d
      match missing with
      | missing + 1 => unescapeFrom (.low lead missing n) out cs
      | 0 =>
        if 0xDC00 ≤ n ∧ n ≤ 0xDFFF then
          unescapeFrom .plain
            (Char.ofNat ((lead - 0xD800) * 0x400 + (n - 0xDC00) + 0x10000) :: out) cs
        else none

/-- The text that the octets between the quotes of a string denote. -/
def textOfRaw? (raw : Octets) : Option String :=
  raw.toText?.bind fun s => (unescapeFrom .plain [] s.toList).map String.ofList

/-- How often a member occurs in a record. -/
inductive Occurrence where
  | absent
  | once (v : Node)
  | repeated
  deriving Inhabited

/-- How often a member occurs in a record. -/
def occurrence (name : String) (members : List (String × Node)) : Occurrence :=
  match members.filter (·.1 == name) with
  | [] => .absent
  | [(_, v)] => .once v
  | _ => .repeated

/-- The last member of a name. -/
def last? (name : String) (members : List (String × Node)) : Option Node :=
  (members.reverse.find? (·.1 == name)).map (·.2)

/-- How the reading of a part of a document ends. -/
inductive Ending where
  /-- The part denotes something. -/
  | sound
  /-- The part denotes nothing, but the reading came to its end. -/
  | faulty
  /-- The part denotes nothing, and the reading stopped inside it. -/
  | lost
  deriving DecidableEq, Repr

/-- How the reading of the contents of a string ends. Whether they are UTF-8 is looked at last,
and half a pair at the end is missed only at the closing quote; all other faults are found
where they stand. -/
def Ending.ofRaw (raw : Octets) : Ending :=
  let octets : List Char := raw.map fun b => Char.ofNat b.toNat
  if (textOfRaw? raw).isSome then .sound
  else if (unescapeFrom .plain [] octets).isSome ||
      (unescapeFrom .plain [] (octets ++ "\\udc00".toList)).isSome then .faulty
  else .lost

/-- How the reading of a list or record ends, one of whose members ends this way: the first
fault ends it, and its own end is found only where no member is left. -/
def Ending.before (e : Ending) (isLast : Bool) (rest : Ending) : Ending :=
  match e with
  | sound => rest
  | faulty => if isLast then faulty else lost
  | lost => lost

namespace Node

/-- The text that a string denotes. -/
def text? : Node → Option String
  | text raw => textOfRaw? raw
  | _ => none

/-- The integer of 64 bits with a sign that a number is. -/
def int? : Node → Option Int
  | number x => x.int?.bind fun n => if n < Int.pow 2 63 then some n else none
  | _ => none

/-- The texts that a list of strings denotes. -/
def texts? : Node → Option (List String)
  | list items => items.mapM text?
  | _ => none

/-- A record with its names read. -/
def members? : Node → Option (List (String × Node))
  | record members => members.mapM fun (raw, v) => (textOfRaw? raw).map (·, v)
  | _ => none

mutual

/-- How the reading of a document ends whose lists and records may be nested so deep. -/
def ending (depth : Nat) : Node → Ending
  | null => .sound
  | bool _ => .sound
  | number x => if x.isFinite then .sound else if x.stopsShort then .lost else .faulty
  | text raw => Ending.ofRaw raw
  | list items =>
    match depth with
    | 0 => .lost
    | depth + 1 => endingOfItems depth items
  | record members =>
    match depth with
    | 0 => .lost
    | depth + 1 => endingOfMembers depth members

/-- How the reading of the items of a list ends. -/
def endingOfItems (depth : Nat) : List Node → Ending
  | [] => .sound
  | v :: rest => (v.ending depth).before rest.isEmpty (endingOfItems depth rest)

/-- How the reading of the members of a record ends. After a name that denotes no text it does
not find the colon. -/
def endingOfMembers (depth : Nat) : List (Octets × Node) → Ending
  | [] => .sound
  | (raw, v) :: rest =>
    if (textOfRaw? raw).isSome then
      (v.ending depth).before rest.isEmpty (endingOfMembers depth rest)
    else .lost

end

/-- Whether every string and name in a document denotes a text, every number can be held, and
lists and records are nested at most so deep. -/
def isPlain (depth : Nat) (v : Node) : Bool := v.ending depth == .sound

end Node

end AccountService.Json
