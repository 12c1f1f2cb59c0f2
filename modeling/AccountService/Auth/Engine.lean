import AccountService.Auth.Token
import AccountService.Auth.KeyStore

/-!
# The token engine

An engine signs claims with one active key and accepts tokens signed with any key of a store,
under one algorithm fixed when it is made. A token that declares another algorithm is refused
before its signature is looked at.

## Main definitions

* `Auth.Engine`, `Auth.Engine.make` — an engine and its construction
* `Auth.Engine.generate` — the token that carries claims
* `Auth.Engine.checkHeader` — the checks that the header alone decides
* `Auth.Engine.accept`, `Auth.Engine.validate` — the claims that an accepted token carries
-/

namespace AccountService.Auth

open Json (Node)

/-- What signs claims and accepts tokens. -/
structure Engine where
  /-- The name of the key that signs. -/
  activeKid : String
  /-- The only algorithm of tokens. -/
  algorithm : Algorithm
  /-- The RSA scheme of the algorithm. -/
  scheme : Signature.Scheme
  /-- The issuer that a token which names one must name. -/
  issuer : Option String
  /-- How many seconds after its end a token is still accepted. -/
  leeway : Nat
  scheme_eq : algorithm.scheme? = some scheme

namespace Engine

/-- An engine whose active key is in the store. -/
def make (activeKid : String) (keys : KeyStore) (algorithm : Algorithm) (issuer : Option String)
    (leeway : Nat) : Except Error Engine :=
  match h : algorithm.scheme? with
  | none => .error (.unsupportedAlgorithm algorithm.name)
  | some scheme =>
    match keys.lookup activeKid with
    | .error e => .error e
    | .ok _ => .ok ⟨activeKid, algorithm, scheme, issuer, leeway, h⟩

/-! ### Signing -/

/-- The token that carries claims. The salt is used by salted schemes alone. -/
def generate (e : Engine) (keys : KeyStore) (salt : Octets) (c : Claims) :
    Except Error String :=
  match c.check with
  | .error err => .error err
  | .ok () =>
    match keys.lookup e.activeKid with
    | .error err => .error (.signing ("kid lookup failed: " ++ err.message))
    | .ok key =>
      let header := Token.encodeJson (Token.headerJson e.algorithm.name e.activeKid)
      let payload := Token.encodeJson (Token.payloadJson c)
      match Signature.sign e.scheme key salt (Token.signingInput header payload) with
      | .error fault => .error (.signing fault.message)
      | .ok signature =>
        .ok (String.ofList
          (header ++ '.' :: (payload ++ '.' :: Base64.encode Base64.urlSafe signature)))

/-! ### Accepting -/

/-- The name of the key that a header declares. -/
def declaredKid (members : List (String × Node)) : Except Error String :=
  match Json.last? "kid" members with
  | none => .error .missingKeyId
  | some v =>
    match v.text? with
    | some kid => .ok kid
    | none => .error .malformedKeyId

/-- Refuses a header that does not declare the algorithm of the engine. -/
def checkAlgorithm (e : Engine) (members : List (String × Node)) : Except Error Unit :=
  match (Json.last? "alg" members).bind Node.text? with
  | none => .error (.malformedToken "missing algorithm (alg) in token header")
  | some declared =>
    match Algorithm.ofName? declared with
    | none => .error (.unsupportedAlgorithm declared)
    | some algorithm =>
      if algorithm = e.algorithm then .ok ()
      else .error (.algorithmMismatch e.algorithm.name declared)

/-- The checks that the header of a token decides alone: it is JSON in base 64, names a key and
declares the algorithm of the engine. They yield the name of the key. -/
def checkHeader (e : Engine) (header : List Char) :
    Except Error (String × List (String × Node)) :=
  match Base64.decode? Base64.urlSafe header with
  | none => .error (.malformedToken "header encoding: not base 64")
  | some octets =>
    match Token.headerMembers? octets with
    | none => .error (.malformedToken "header json: not a record")
    | some members =>
      match declaredKid members with
      | .error err => .error err
      | .ok kid =>
        match e.checkAlgorithm members with
        | .error err => .error err
        | .ok () => .ok (kid, members)

/-- The payload of a token whose signature is genuine. -/
def openPayload (e : Engine) (key : Rsa.PublicKey) (members : List (String × Node))
    (t : Token.Parts) : Except Error (Token.Payload × Token.Registered) :=
  if !Token.isTypedHeader members then .error (.malformedToken "JSON error: header members")
  else
    match Base64.decode? Base64.urlSafe t.signature with
    | none => .error (.malformedToken "Base64 error: signature")
    | some signature =>
      if !Signature.verify e.scheme key (Token.signingInput t.header t.payload) signature then
        .error .invalidSignature
      else
        -- Only now is the payload looked at.
        match Base64.decode? Base64.urlSafe t.payload with
        | none => .error (.malformedToken "Base64 error: payload")
        | some octets =>
          match Token.readPayload octets with
          | none => .error (.malformedToken "JSON error: payload")
          | some p => .ok p

/-- Refuses registered claims that have ended more than the leeway ago. The service subtracts the
leeway from the clock in unsigned 64-bit numbers. This is its comparison only while the leeway
is not above the clock (`checkTime_eq_unsigned`): below, its subtraction overflows. -/
def checkTime (e : Engine) (now : Instant) : Token.Registered → Except Error Unit
  | .unreadable => .error (.malformedToken "JSON error: registered claims")
  | .endless => .error (.malformedToken "Missing required claim: exp")
  | .endsAt seconds =>
    if seconds < now.seconds - e.leeway then .error .expired else .ok ()

/-- Refuses a payload that names another issuer than the expected one. -/
def checkIssuer (e : Engine) (p : Token.Payload) : Except Error Unit :=
  match e.issuer, p.issuer with
  | some expected, some issuer =>
    if issuer = expected then .ok () else .error (.invalidIssuer "InvalidIssuer")
  | _, _ => .ok ()

/-- A time of a payload as an instant that a timestamp can hold. -/
def timestamp (claim : String) (seconds : Int) : Except Error Instant :=
  let t := Instant.ofSeconds seconds
  if t.isTimestamp then .ok t
  else .error (.invalidClaim claim (String.ofList (Numeral.ofInt seconds)))

/-- The claims that a payload stands for. -/
def rebuild (p : Token.Payload) : Except Error Claims :=
  match timestamp "iat" p.issuedAt with
  | .error err => .error err
  | .ok issuedAt =>
    match timestamp "exp" p.expiresAt with
    | .error err => .error err
    | .ok expiresAt =>
      let c : Claims := ⟨p.subject, p.issuer.getD "", issuedAt, expiresAt, .ofList p.roles⟩
      match c.check with
      | .error err => .error err
      | .ok () => .ok c

/-- The checks that follow those of the header, under the key that the header names. -/
def acceptUnder (e : Engine) (key : Rsa.PublicKey) (now : Instant)
    (members : List (String × Node)) (t : Token.Parts) : Except Error Claims :=
  match e.openPayload key members t with
  | .error err => .error err
  | .ok (p, r) =>
    match e.checkTime now r with
    | .error err => .error err
    | .ok () =>
      match e.checkIssuer p with
      | .error err => .error err
      | .ok () => rebuild p

/-- The claims that an accepted token carries, with the name of the key that signed it. -/
def accept (e : Engine) (keys : KeyStore) (now : Instant) (token : String) :
    Except Error (String × Claims) :=
  match Token.split? token with
  | none => .error (.malformedToken "token must have three segments")
  | some t =>
    match e.checkHeader t.header with
    | .error err => .error err
    | .ok (kid, members) =>
      match keys.lookup kid with
      | .error err => .error err
      | .ok key =>
        match e.acceptUnder key.public_ now members t with
        | .error err => .error err
        | .ok c => .ok (kid, c)

/-- The claims that an accepted token carries. -/
def validate (e : Engine) (keys : KeyStore) (now : Instant) (token : String) :
    Except Error Claims :=
  (e.accept keys now token).map (·.2)

end Engine

end AccountService.Auth
