import AccountService.Auth.Error
import AccountService.Text.Base64
import AccountService.Text.Blank

/-!
# Credentials in a request

A request carries credentials in its first `Authorization` header: a token after `Bearer`, or
a name and a password after `Basic`. Blanks around the header and around what follows the
scheme do not count.

## Main definitions

* `Auth.bearerToken` — the token of a request
* `Auth.basicCredentials` — the name and the password of a request
-/

namespace AccountService.Auth

open Http

/-- The characters of a header value, if it is readable as text: every octet is a printable
ASCII character or a tab. -/
def headerText? (value : Octets) : Option (List Char) :=
  if value.all fun b => b == 0x09 || (decide (0x20 ≤ b.toNat) && decide (b.toNat ≤ 0x7E)) then
    some (value.map fun b => Char.ofNat b.toNat)
  else none

/-- What follows a scheme in a header value, without the blanks around it. -/
def afterScheme? (scheme : List Char) (value : Octets) : Option (List Char) :=
  match headerText? value with
  | none => none
  | some cs =>
    let cs := Text.trimChars cs
    if scheme.isPrefixOf cs then some (Text.trimChars (cs.drop scheme.length)) else none

/-- The token in a header value. -/
def parseBearer (value : Octets) : Except Error String :=
  match afterScheme? "Bearer ".toList value with
  | some (c :: cs) => .ok (String.ofList (c :: cs))
  | _ => .error .invalidAuthorization

/-- The name and the password in a text: they are separated by the first colon, and the name
is not empty. -/
def splitPair? (cs : List Char) : Option (String × String) :=
  let name := cs.takeWhile (· != ':')
  match cs.drop name.length with
  | [] => none
  | _ :: password => if name.isEmpty then none else some (String.ofList name, String.ofList password)

/-- The name and the password in a header value. -/
def parseBasic (value : Octets) : Except Error (String × String) :=
  match afterScheme? "Basic ".toList value with
  | none => .error .invalidAuthorization
  | some digits =>
    match (Base64.decode? Base64.standard digits).bind Octets.toText? with
    | none => .error .invalidAuthorization
    | some s =>
      match splitPair? s.toList with
      | some pair => .ok pair
      | none => .error .invalidAuthorization

/-- Reads the first `Authorization` header. -/
def authorization {α : Type} (parse : Octets → Except Error α) (headers : List Header) :
    Except Error α :=
  match firstHeader? "authorization" headers with
  | none => .error .missingAuthorization
  | some value => parse value

/-- The token of a request. -/
def bearerToken (headers : List Header) : Except Error String :=
  authorization parseBearer headers

/-- The name and the password of a request. -/
def basicCredentials (headers : List Header) : Except Error (String × String) :=
  authorization parseBasic headers

end AccountService.Auth
