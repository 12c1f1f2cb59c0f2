import AccountService.Text.Numeral
import AccountService.Text.Hex

/-!
# JSON values and their compact text

The service writes JSON in one compact form: no blanks, members in the order of the
value, and in strings only the escapes that JSON demands.

## Main definitions

* `Json` — the values that the service writes
* `Json.escape`, `Json.quote` — one character and a whole string inside a document
* `Json.render` — the compact text of a value
-/

namespace AccountService

/-- A JSON value as the service writes it: its numbers are integers, and the members of a
record keep their order. -/
inductive Json where
  | null
  | bool (b : Bool)
  | int (n : Int)
  | text (s : String)
  | list (items : List Json)
  | record (members : List (String × Json))
  deriving Inhabited

namespace Json

/-- A character inside a string. The quote, the backslash and the controls are escaped, the
latter by their short names where JSON has one; all else stands for itself. -/
def escape (c : Char) : List Char :=
  if c = '"' then ['\\', '"']
  else if c = '\\' then ['\\', '\\']
  else if c = '\x08' then ['\\', 'b']
  else if c = '\x0c' then ['\\', 'f']
  else if c = '\n' then ['\\', 'n']
  else if c = '\r' then ['\\', 'r']
  else if c = '\t' then ['\\', 't']
  else if c.toNat < 0x20 then ['\\', 'u'] ++ Hex.fixed 4 c.toNat
  else [c]

/-- A string inside a document, with its quotes. -/
def quote (s : String) : List Char := '"' :: (s.toList.flatMap escape ++ ['"'])

mutual

/-- The compact text of a value. -/
def chars : Json → List Char
  | null => "null".toList
  | bool b => if b then "true".toList else "false".toList
  | int n => Numeral.ofInt n
  | text s => quote s
  | list items => '[' :: (itemChars items ++ [']'])
  | record members => '\x7b' :: (memberChars members ++ ['\x7d'])

/-- The items of a list, separated by commas. -/
def itemChars : List Json → List Char
  | [] => []
  | [v] => chars v
  | v :: w :: rest => chars v ++ ',' :: itemChars (w :: rest)

/-- The members of a record, separated by commas. -/
def memberChars : List (String × Json) → List Char
  | [] => []
  | [(k, v)] => quote k ++ ':' :: chars v
  | (k, v) :: m :: rest => quote k ++ ':' :: (chars v ++ ',' :: memberChars (m :: rest))

end

/-- The compact text of a value. -/
def render (v : Json) : String := String.ofList (chars v)

/-- A list of strings as a value. -/
def texts (ss : List String) : Json := list (ss.map text)

end Json

end AccountService
