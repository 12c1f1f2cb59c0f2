import AccountService.Auth.Algorithm
import AccountService.Auth.Claims
import AccountService.Json.Reading
import AccountService.Text.Base64

/-!
# Tokens

A token is three texts joined by dots: a header that names algorithm and key, a payload that
carries claims, and a signature of the first two. Header and payload are JSON in base 64.
The header is read twice, first as a plain record in which the last of repeated members
counts, then with the types that its members must have. So is the payload: first for the
claims, then for the registered claims that decide whether the token still holds.

## Main definitions

* `Token.split?` — the three parts of a token
* `Token.headerJson`, `Token.payloadJson` — what is written
* `Token.headerMembers?`, `Token.isTypedHeader` — the two readings of a header
* `Token.isKey` — what a header may carry as a key
* `Token.Payload`, `Token.readPayload` — the two readings of a payload
-/

namespace AccountService.Token

open Auth (Claims)
open Json (Node Occurrence occurrence)

/-- The three parts of a token. -/
structure Parts where
  header : List Char
  payload : List Char
  signature : List Char
  deriving DecidableEq, Repr

/-- A text cut at its first dot. -/
def cut? (cs : List Char) : Option (List Char × List Char) :=
  let front := cs.takeWhile (· != '.')
  match cs.drop front.length with
  | [] => none
  | _ :: rest => some (front, rest)

/-- The three parts of a token: it has exactly two dots. -/
def split? (token : String) : Option Parts :=
  match cut? token.toList with
  | none => none
  | some (header, rest) =>
    match cut? rest with
    | none => none
    | some (payload, signature) =>
      if signature.contains '.' then none else some ⟨header, payload, signature⟩

/-- The text that a signature is made of. -/
def signingInput (header payload : List Char) : Octets :=
  Octets.ofText (String.ofList (header ++ '.' :: payload))

/-- The written form of a JSON value inside a token. -/
def encodeJson (v : Json) : List Char := Base64.encode Base64.urlSafe (Octets.ofText v.render)

/-! ### Writing -/

/-- The header of a token. -/
def headerJson (algorithm kid : String) : Json :=
  .record [("typ", .text "JWT"), ("alg", .text algorithm), ("kid", .text kid)]

/-- The payload of a token: the claims, with times in seconds. -/
def payloadJson (c : Claims) : Json :=
  .record
    [("sub", .text c.subject), ("iss", .text c.issuer), ("iat", .int c.issuedAt.seconds),
      ("exp", .int c.expiresAt.seconds), ("roles", .texts c.roles.toList)]

/-! ### Reading the header -/

/-- How deep the lists and records of a header may be nested. -/
def nestingLimit : Nat := 127

/-- The members of a header. Everything in it must denote something, also what nobody asks
for, and its lists and records may not be nested too deep. -/
def headerMembers? (octets : Octets) : Option (List (String × Node)) :=
  match Node.parse? octets with
  | none => none
  | some v => if v.isPlain nestingLimit then v.members? else none

/-- Whether a member occurs once and is of the type asked for. -/
def isRequired (isType : Node → Bool) (name : String) (members : List (String × Node)) : Bool :=
  match occurrence name members with
  | .once v => isType v
  | _ => false

/-- Whether a member, where it occurs, occurs once and is null or of the type asked for. -/
def isOptional (isType : Node → Bool) (name : String) (members : List (String × Node)) : Bool :=
  match occurrence name members with
  | .absent => true
  | .once .null => true
  | .once v => isType v
  | .repeated => false

/-- Whether a value is a text. -/
def isText (v : Node) : Bool := v.text?.isSome

/-- Whether a value is a list of texts. -/
def areTexts (v : Node) : Bool := v.texts?.isSome

/-- The word that a value stands for: a text, or the name of the only member of a record. -/
def word? : Node → Option String
  | .text raw => Json.textOfRaw? raw
  | .record [(raw, _)] => Json.textOfRaw? raw
  | _ => none

/-- Whether a value stands for a word. -/
def isWord (v : Node) : Bool := (word? v).isSome

/-- Whether the members of a key are those of its kind. Which curves there are is left open. -/
def isKeyOfKind (members : List (String × Node)) : Bool :=
  let kind := match occurrence "kty" members with
    | .once v => word? v
    | _ => none
  match kind with
  | some "EC" => isRequired isWord "crv" members && ["x", "y"].all (isRequired isText · members)
  | some "RSA" => ["n", "e"].all (isRequired isText · members)
  | some "oct" => isRequired isText "k" members
  | some "OKP" => isRequired isWord "crv" members && isRequired isText "x" members
  | _ => false

/-- Whether a value is a key. Which algorithms there are for it is left open. -/
def isKey (v : Node) : Bool :=
  match v.members? with
  | none => false
  | some members =>
    ["use", "kid", "x5u", "x5t", "x5t#S256"].all (isOptional isText · members) &&
      ["key_ops", "x5c"].all (isOptional areTexts · members) &&
      isOptional isWord "alg" members && isKeyOfKind members

/-- Whether the members that a header may have are of the types that they must have. -/
def isTypedHeader (members : List (String × Node)) : Bool :=
  isRequired isText "alg" members &&
    ["typ", "cty", "jku", "kid", "x5u", "x5t", "x5t#S256"].all (isOptional isText · members) &&
    isOptional areTexts "x5c" members && isOptional isKey "jwk" members

/-! ### Reading the payload -/

/-- The claims that a payload carries, as written. -/
structure Payload where
  subject : String
  /-- The issuer, if one is named. -/
  issuer : Option String
  issuedAt : Int
  expiresAt : Int
  roles : List String
  deriving DecidableEq, Repr

/-- A member that must be there. -/
def required {α : Type} (read : Node → Option α) : Occurrence → Option α
  | .once v => read v
  | _ => none

/-- A member that may be missing. -/
def optional {α : Type} (read : Node → Option α) : Occurrence → Option (Option α)
  | .absent => some none
  | .once v => (read v).map some
  | .repeated => none

/-- The claims in a payload. A record names them; a list has them in the order subject, issuer,
start, end and roles, the last of which may be missing. -/
def Payload.ofNode? : Node → Option Payload
  | .record members => do
    let ms ← (Node.record members).members?
    let subject ← required Node.text? (occurrence "sub" ms)
    let issuer ← optional Node.text? (occurrence "iss" ms)
    let issuedAt ← required Node.int? (occurrence "iat" ms)
    let expiresAt ← required Node.int? (occurrence "exp" ms)
    let roles ← optional Node.texts? (occurrence "roles" ms)
    return ⟨subject, issuer, issuedAt, expiresAt, roles.getD []⟩
  | .list (sub :: iss :: iat :: exp :: more) => do
    let subject ← sub.text?
    let issuer ← iss.text?
    let issuedAt ← iat.int?
    let expiresAt ← exp.int?
    match more with
    | [] => return ⟨subject, some issuer, issuedAt, expiresAt, []⟩
    | [roles] => return ⟨subject, some issuer, issuedAt, expiresAt, ← roles.texts?⟩
    | _ => none
  | _ => none

/-- Whether a not-before time lets the reading of the registered claims go on. It has no other
effect: a fault in it is passed over, but the reading goes on from where it stopped. Nothing
but a number is wanted, so a list or record is not read beyond its first bracket. -/
def isReadableTime : Node → Bool
  | .list items => items.isEmpty
  | .record members => members.isEmpty
  | v => v.ending nestingLimit != .lost

/-- Whether an audience lets the reading of the registered claims go on. It has no other
effect: a fault in it is passed over, but the reading goes on from where it stopped. -/
def isReadableAudience (v : Node) : Bool := v.ending (nestingLimit - 1) != .lost

/-- Whether a member that has no effect lets the reading go on. -/
def isReadable (read : Node → Bool) : Occurrence → Bool
  | .absent => true
  | .once v => read v
  | .repeated => false

/-- What the registered claims of a payload come to. -/
inductive Registered where
  /-- They cannot be read. -/
  | unreadable
  /-- They name no end. -/
  | endless
  /-- They name an end. -/
  | endsAt (seconds : Int)
  deriving DecidableEq, Repr

/-- The registered claims of a payload that carries claims. An end before 1970 counts as none,
and a list of claims is not understood. -/
def registered (v : Node) (p : Payload) : Registered :=
  match v with
  | .record _ =>
    match v.members? with
    | none => .unreadable
    | some ms =>
      if isReadable isReadableTime (occurrence "nbf" ms) &&
          isReadable isReadableAudience (occurrence "aud" ms) then
        if p.expiresAt < 0 then .endless else .endsAt p.expiresAt
      else .unreadable
  | .list items => if items.length = 5 then .endless else .unreadable
  | _ => .unreadable

/-- The claims that a payload carries and its registered claims. -/
def readPayload (octets : Octets) : Option (Payload × Registered) :=
  match Node.parse? octets with
  | none => none
  | some v => (Payload.ofNode? v).map fun p => (p, registered v p)

end AccountService.Token
