import AccountService.Json.Token

/-!
# JSON documents

The tokens of a document are put together with a stack of the lists and records that are
still open, one token at a time.

## Main definitions

* `Json.Node` — a document whose strings and numbers are kept as written
* `Json.Node.parse?` — the document that octets write
-/

namespace AccountService.Json

/-- A document whose strings and numbers are kept as written. -/
inductive Node where
  | null
  | bool (b : Bool)
  | number (x : Number)
  /-- A string, as the octets between its quotes. -/
  | text (raw : Octets)
  | list (items : List Node)
  | record (members : List (Octets × Node))
  deriving Inhabited

namespace Node

/-- A list or record that is still open; what it holds so far is kept last first. -/
inductive Frame where
  | list (items : List Node)
  | record (members : List (Octets × Node))
  /-- A record whose member of this name is being read. -/
  | field (members : List (Octets × Node)) (name : Octets)

/-- What may come next. -/
inductive Mode where
  /-- A value. -/
  | value
  /-- A value, or the end of a list without items. -/
  | firstItem
  /-- A name, or the end of a record without members. -/
  | firstName
  /-- A name. -/
  | name
  /-- The colon after a name. -/
  | colon
  /-- A comma or the end of what is open. -/
  | separator
  /-- Nothing: the document is complete. -/
  | done (v : Node)

/-- How far a document has been read. -/
structure Progress where
  /-- What may come next. -/
  mode : Mode
  /-- The lists and records still open, innermost first. -/
  stack : List Frame

/-- Puts a finished value where it belongs. -/
def Progress.place (v : Node) : List Frame → Option Progress
  | [] => some ⟨.done v, []⟩
  | .list items :: outer => some ⟨.separator, .list (v :: items) :: outer⟩
  | .field members name :: outer => some ⟨.separator, .record ((name, v) :: members) :: outer⟩
  | .record _ :: _ => none

/-- Reads a token where a value is wanted. -/
def Progress.begin (stack : List Frame) : Token → Option Progress
  | .beginList => some ⟨.firstItem, .list [] :: stack⟩
  | .beginRecord => some ⟨.firstName, .record [] :: stack⟩
  | .null => place .null stack
  | .bool b => place (.bool b) stack
  | .number x => place (.number x) stack
  | .text raw => place (.text raw) stack
  | _ => none

/-- Reads one token. -/
def Progress.step (p : Progress) (t : Token) : Option Progress :=
  match p.mode, p.stack, t with
  | .value, stack, t => begin stack t
  | .firstItem, .list _ :: outer, .endList => place (.list []) outer
  | .firstItem, stack, t => begin stack t
  | .firstName, .record _ :: outer, .endRecord => place (.record []) outer
  | .firstName, .record members :: outer, .text raw => some ⟨.colon, .field members raw :: outer⟩
  | .name, .record members :: outer, .text raw => some ⟨.colon, .field members raw :: outer⟩
  | .colon, stack, .colon => some ⟨.value, stack⟩
  | .separator, .list items :: outer, .comma => some ⟨.value, .list items :: outer⟩
  | .separator, .list items :: outer, .endList => place (.list items.reverse) outer
  | .separator, .record members :: outer, .comma => some ⟨.name, .record members :: outer⟩
  | .separator, .record members :: outer, .endRecord => place (.record members.reverse) outer
  | _, _, _ => none

/-- Reads tokens one after the other. -/
def Progress.run : Progress → List Token → Option Progress
  | p, [] => some p
  | p, t :: ts =>
    match p.step t with
    | some q => run q ts
    | none => none

/-- The document that tokens make up, if they make up exactly one. -/
def ofTokens? (ts : List Token) : Option Node :=
  match Progress.run ⟨.value, []⟩ ts with
  | some ⟨.done v, _⟩ => some v
  | _ => none

/-- The document that octets write. -/
def parse? (bs : Octets) : Option Node := (Token.scan bs).bind ofTokens?

end Node

end AccountService.Json
