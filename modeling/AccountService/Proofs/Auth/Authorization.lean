import AccountService.Proofs.Auth.Credentials

/-!
# The grammar of authorization

A request is authorized by its first `Authorization` header alone, and that header is read by one of
two grammars: a token after `Bearer`, or a pair in base 64 after `Basic`. Each grammar determines
what it describes, so that nothing is read in two ways, and no header is described by both. Whatever
they do not describe is malformed.

## Main definitions

* `Http.First` — the value of the first header of a name
* `Auth.WritesPair` — a header value that a name and a password are written in
* `Auth.TokensGrammatical`, `Auth.PairsGrammatical` — what is read from headers, and what is not

## Main statements

* `Auth.parseBearer_eq_ok_iff`, `Auth.parseBasic_eq_ok_iff` — values are read by their grammars
* `Auth.grammatical_bearerToken` — tokens are
* `Auth.grammatical_basicCredentials` — names and passwords are
-/

namespace AccountService

namespace Http

/-- The first header of a name, in whatever case that is written, has this value. -/
def First (name : String) (headers : List Header) (value : Octets) : Prop :=
  ∃ before h after, headers = before ++ h :: after ∧
    (∀ g ∈ before, Text.eqIgnoringCase g.name name = false) ∧
    Text.eqIgnoringCase h.name name = true ∧ h.value = value

variable {name : String} {headers : List Header} {value : Octets}

theorem firstHeader?_eq_some_iff :
    firstHeader? name headers = some value ↔ First name headers value := by
  rw [firstHeader?, Option.map_eq_some_iff]
  constructor
  · rintro ⟨h, hfind, rfl⟩
    obtain ⟨hname, before, after, rfl, hbefore⟩ := List.find?_eq_some_iff_append.1 hfind
    exact ⟨before, h, after, rfl, fun g hg => by simpa using hbefore g hg, hname, rfl⟩
  · rintro ⟨before, h, after, rfl, hbefore, hname, rfl⟩
    refine ⟨h, List.find?_eq_some_iff_append.2 ⟨hname, before, after, rfl, fun g hg => ?_⟩, rfl⟩
    rw [hbefore g hg, Bool.not_false]

theorem firstHeader?_eq_none_iff :
    firstHeader? name headers = none ↔ ∀ h ∈ headers, Text.eqIgnoringCase h.name name = false := by
  rw [firstHeader?, Option.map_eq_none_iff, List.find?_eq_none]
  simp only [Bool.not_eq_true]

/-- Whatever comes after the first header of a name is not looked at. -/
theorem First.append (h : First name headers value) (later : List Header) :
    First name (headers ++ later) value := by
  obtain ⟨before, g, after, rfl, hbefore, hname, hvalue⟩ := h
  exact ⟨before, g, after ++ later, by simp, hbefore, hname, hvalue⟩

end Http

namespace Auth

open Http

variable {headers : List Header} {value : Octets}

/-! ### Header values -/

theorem parseBearer_eq_ok_iff {token : String} :
    parseBearer value = .ok token ↔ Follows "Bearer " value token := by
  constructor
  · intro h
    rw [parseBearer] at h
    split at h
    · next c cs hafter =>
      cases h
      exact follows_of_afterScheme? isScheme_bearer hafter
    · cases h
  · intro h
    have hafter := afterScheme?_of_follows isScheme_bearer h
    cases hcs : token.toList with
    | nil => exact absurd (String.toList_inj.1 hcs) h.ne_empty
    | cons c cs =>
      rw [hcs] at hafter
      simp only [parseBearer, hafter]
      rw [← hcs, String.ofList_toList]

theorem parseBearer_eq_ok_or (value : Octets) :
    (∃ token, parseBearer value = .ok token) ∨ parseBearer value = .error .invalidAuthorization := by
  rw [parseBearer]
  split
  · exact .inl ⟨_, rfl⟩
  · exact .inr rfl

/-- A header value is readable and, without the blanks around it, `Basic`, a blank, perhaps more of
them, and in base 64 the octets of a name, a colon and a password. The name is not empty and has no
colon. -/
structure WritesPair (value : Octets) (name password : String) : Prop where
  follows : Follows "Basic " value
    (String.ofList (Base64.encode Base64.standard (Octets.ofText (name ++ ":" ++ password))))
  name_ne_empty : name ≠ ""
  colon_notMem : ':' ∉ name.toList

/-- A text is split where a pair is joined. -/
theorem splitPair?_eq_some_iff {cs : List Char} {name password : String} :
    splitPair? cs = some (name, password) ↔
      cs = (name ++ ":" ++ password).toList ∧ name ≠ "" ∧ ':' ∉ name.toList := by
  constructor
  · intro h
    simp only [splitPair?, Text.drop_length_takeWhile] at h
    have hcut := List.takeWhile_append_dropWhile (p := (· != ':')) (l := cs)
    split at h
    · cases h
    next c rest hrest =>
    -- What is left starts with the character that ended the name.
    have hcolon := List.head?_dropWhile_not (· != ':') cs
    rw [hrest] at hcolon hcut
    obtain rfl : c = ':' := by simpa using hcolon
    split at h
    · cases h
    · next hempty =>
      obtain ⟨rfl, rfl⟩ := Prod.mk.inj (Option.some.inj h)
      refine ⟨by simp [hcut], by simpa using hempty, fun hmem => ?_⟩
      rw [String.toList_ofList] at hmem
      simpa using List.mem_takeWhile_imp hmem
  · rintro ⟨rfl, hne, hcolon⟩
    exact splitPair?_pair hne hcolon password

theorem parseBasic_eq_ok_iff {name password : String} :
    parseBasic value = .ok (name, password) ↔ WritesPair value name password := by
  constructor
  · intro h
    rw [parseBasic] at h
    split at h
    · cases h
    next digits hdigits =>
    split at h
    · cases h
    next s hs =>
    split at h
    · next pair hpair =>
      cases h
      obtain ⟨octets, hoctets, hs⟩ := Option.bind_eq_some_iff.1 hs
      obtain ⟨hjoin, hne, hcolon⟩ := splitPair?_eq_some_iff.1 hpair
      obtain rfl := Octets.toText?_eq_some_iff.1 hs
      obtain rfl := String.toList_inj.1 hjoin
      obtain rfl := Base64.eq_encode_of_decode? hoctets
      exact ⟨follows_of_afterScheme? isScheme_basic hdigits, hne, hcolon⟩
    · cases h
  · rintro ⟨hfollows, hne, hcolon⟩
    have hafter := (afterScheme?_eq_some_iff isScheme_basic).2 hfollows
    simp only [parseBasic, hafter, Base64.decode?_encode Base64.lawful_standard, Option.bind_some,
      Octets.toText?_ofText, splitPair?_pair hne hcolon]

theorem parseBasic_eq_ok_or (value : Octets) :
    (∃ pair, parseBasic value = .ok pair) ∨ parseBasic value = .error .invalidAuthorization := by
  rw [parseBasic]
  split
  · exact .inr rfl
  · split
    · exact .inr rfl
    · split
      · exact .inl ⟨_, rfl⟩
      · exact .inr rfl

/-! ### Headers -/

section Header

variable {α : Type} {parse : Octets → Except Error α}

theorem authorization_of_first (h : First "authorization" headers value) :
    authorization parse headers = parse value := by
  rw [authorization, firstHeader?_eq_some_iff.2 h]

theorem authorization_of_missing
    (h : ∀ h ∈ headers, Text.eqIgnoringCase h.name "authorization" = false) :
    authorization parse headers = .error .missingAuthorization := by
  rw [authorization, firstHeader?_eq_none_iff.2 h]

/-- What is read is read from a first header. -/
theorem exists_first_of_authorization {a : α} (h : authorization parse headers = .ok a) :
    ∃ value, First "authorization" headers value ∧ parse value = .ok a := by
  rw [authorization] at h
  split at h
  · cases h
  · next value hvalue => exact ⟨value, firstHeader?_eq_some_iff.1 hvalue, h⟩

end Header

/-- How the token of a request is read. -/
structure TokensGrammatical (headers : List Header) : Prop where
  /-- Without a header there is nothing to read. -/
  missing : (∀ h ∈ headers, Text.eqIgnoringCase h.name "authorization" = false) →
    bearerToken headers = .error .missingAuthorization
  /-- A token is read if the first header is described by the grammar, and it is the token that the
  grammar describes. -/
  read_iff : ∀ value, First "authorization" headers value → ∀ token,
    bearerToken headers = .ok token ↔ Follows "Bearer " value token
  /-- Every other header is malformed. -/
  refused : ∀ value, First "authorization" headers value →
    (∀ token, ¬ Follows "Bearer " value token) →
    bearerToken headers = .error .invalidAuthorization
  /-- The grammar describes at most one token. -/
  unique : ∀ value token token', Follows "Bearer " value token → Follows "Bearer " value token' →
    token = token'
  /-- A token that was read is read again from the plainest header that has it. -/
  stable : ∀ token, bearerToken headers = .ok token → ∀ headers',
    First "authorization" headers' (Octets.ofText ("Bearer " ++ token)) →
    bearerToken headers' = .ok token
  /-- More blanks around the value change nothing. -/
  padded : ∀ value front back, First "authorization" headers value → Blanks front → Blanks back →
    ∀ headers', First "authorization" headers' (Octets.ofText front ++ value ++ Octets.ofText back) →
    bearerToken headers' = bearerToken headers
  /-- Nor do more headers after the first. -/
  later : ∀ value more, First "authorization" headers value →
    bearerToken (headers ++ more) = bearerToken headers
  /-- Nobody presents a token and a pair at once. -/
  exclusive : ∀ token pair, bearerToken headers = .ok token → basicCredentials headers ≠ .ok pair

/-- How the name and the password of a request are read. -/
structure PairsGrammatical (headers : List Header) : Prop where
  /-- Without a header there is nothing to read. -/
  missing : (∀ h ∈ headers, Text.eqIgnoringCase h.name "authorization" = false) →
    basicCredentials headers = .error .missingAuthorization
  /-- A pair is read if the first header is described by the grammar, and it is the pair that the
  grammar describes. -/
  read_iff : ∀ value, First "authorization" headers value → ∀ name password,
    basicCredentials headers = .ok (name, password) ↔ WritesPair value name password
  /-- Every other header is malformed. -/
  refused : ∀ value, First "authorization" headers value →
    (∀ name password, ¬ WritesPair value name password) →
    basicCredentials headers = .error .invalidAuthorization
  /-- The grammar describes at most one pair. -/
  unique : ∀ value name password name' password', WritesPair value name password →
    WritesPair value name' password' → name = name' ∧ password = password'
  /-- A pair is read from its encoding, whatever the password. -/
  recovered : ∀ name password, name ≠ "" → ':' ∉ name.toList →
    PresentsPair headers name password → basicCredentials headers = .ok (name, password)

/-- A request presents what the grammar of tokens describes in its first `Authorization` header, and
is refused whenever it describes nothing. -/
theorem grammatical_bearerToken (headers : List Header) : TokensGrammatical headers where
  missing := authorization_of_missing
  read_iff value hfirst token := by
    rw [bearerToken, authorization_of_first hfirst, parseBearer_eq_ok_iff]
  refused value hfirst hnone := by
    rw [bearerToken, authorization_of_first hfirst]
    refine (parseBearer_eq_ok_or value).resolve_left ?_
    rintro ⟨token, htoken⟩
    exact hnone token (parseBearer_eq_ok_iff.1 htoken)
  unique value token token' htoken htoken' := htoken.unique isScheme_bearer htoken'
  stable token h headers' hfirst' := by
    obtain ⟨value, -, hvalue⟩ := exists_first_of_authorization h
    rw [bearerToken, authorization_of_first hfirst', parseBearer_eq_ok_iff]
    exact (parseBearer_eq_ok_iff.1 hvalue).plain isScheme_bearer
  padded value front back hfirst hfront hback headers' hfirst' := by
    rw [bearerToken, bearerToken, authorization_of_first hfirst, authorization_of_first hfirst',
      parseBearer, parseBearer, afterScheme?_pad hfront hback]
  later value more hfirst := by
    rw [bearerToken, bearerToken, authorization_of_first hfirst,
      authorization_of_first (hfirst.append more)]
  exclusive token pair htoken hpair := by
    obtain ⟨value, hfirst, hvalue⟩ := exists_first_of_authorization htoken
    rw [basicCredentials, authorization_of_first hfirst] at hpair
    -- Without the blanks in front of it the value would start with both schemes.
    exact not_follows_of_follows isScheme_basic isScheme_bearer (by decide) (by decide)
      (parseBasic_eq_ok_iff.1 hpair).follows (parseBearer_eq_ok_iff.1 hvalue)

/-- Blanks do not count, nor does the case of the name, nor any later header. -/
example : bearerToken [⟨"AUTHORIZATION", Octets.ofText "\t Bearer   a.b.c "⟩,
    ⟨"Authorization", Octets.ofText "Bearer d.e.f"⟩] = .ok "a.b.c" := by
  decide

/-- A request presents the pair that the grammar of pairs describes in its first `Authorization`
header, and is refused whenever it describes nothing. -/
theorem grammatical_basicCredentials (headers : List Header) : PairsGrammatical headers where
  missing := authorization_of_missing
  read_iff value hfirst name password := by
    rw [basicCredentials, authorization_of_first hfirst, parseBasic_eq_ok_iff]
  refused value hfirst hnone := by
    rw [basicCredentials, authorization_of_first hfirst]
    refine (parseBasic_eq_ok_or value).resolve_left ?_
    rintro ⟨⟨name, password⟩, hpair⟩
    exact hnone name password (parseBasic_eq_ok_iff.1 hpair)
  unique value name password name' password' h h' := by
    have hread := parseBasic_eq_ok_iff.2 h
    rw [parseBasic_eq_ok_iff.2 h'] at hread
    obtain ⟨rfl, rfl⟩ := Prod.mk.inj (Except.ok.inj hread)
    exact ⟨rfl, rfl⟩
  recovered name password hne hcolon hpresents :=
    basicCredentials_of_presents hpresents hne hcolon

end Auth

end AccountService
