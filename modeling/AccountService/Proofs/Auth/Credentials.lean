import AccountService.Proofs.Auth.Schemes
import AccountService.Proofs.Auth.Token
import AccountService.Proofs.Text.Base64

/-!
# Credentials as clients write them

What a client writes into a header is what the service reads there: a token as it stands, and a
name and a password in base 64, whatever characters the password has, as long as the name is not
empty and has no colon.

## Main definitions

* `Auth.isGraph` — the characters that a token and base 64 consist of
* `Auth.PresentsToken`, `Auth.PresentsPair` — headers in which a client has written credentials

## Main statements

* `Auth.bearerToken_of_presents` — a token is read as it was written
* `Auth.basicCredentials_of_presents` — so are a name and a password
* `Auth.eq_of_basicCredentials_eq_error` — why a name and a password are not read
-/

namespace AccountService.Auth

open Http

/-! ### Characters -/

/-- A character that is printed in ASCII and is no blank. -/
def isGraph (c : Char) : Bool := decide (0x20 < c.toNat) && decide (c.toNat < 0x7F)

theorem isGraph_iff {c : Char} : isGraph c = true ↔ 0x20 < c.toNat ∧ c.toNat < 0x7F := by
  simp [isGraph]

theorem isBlank_of_isGraph {c : Char} (h : isGraph c = true) : Text.isBlank c = false := by
  rw [isGraph_iff] at h
  rw [Bool.eq_false_iff, Text.isBlank]
  simp only [ne_eq, Bool.or_eq_true, Bool.and_eq_true, decide_eq_true_eq, beq_iff_eq]
  omega

/-- Base 64 is written in such characters. -/
theorem isGraph_of_mem_encode {v : Base64.Variant} (hv : v = Base64.standard ∨ v = Base64.urlSafe)
    {bs : Octets} {c : Char} (h : c ∈ Base64.encode v bs) : isGraph c = true := by
  have hstandard : ∀ n < 64, isGraph (Base64.standard.digit n) = true := by decide
  have hurlSafe : ∀ n < 64, isGraph (Base64.urlSafe.digit n) = true := by decide
  rcases Base64.eq_fill_or_digit_of_mem_encode h with ⟨rfl, -⟩ | ⟨n, hn, rfl⟩
  · decide
  · rcases hv with rfl | rfl
    · exact hstandard n hn
    · exact hurlSafe n hn

/-- So is a token. -/
theorem isGraph_of_mem_join {header payload : Json} {signature : Octets} {c : Char}
    (h : c ∈ (Token.join (Token.encodeJson header) (Token.encodeJson payload)
      (Base64.encode Base64.urlSafe signature)).toList) : isGraph c = true := by
  rw [Token.join, String.toList_ofList, List.mem_append, List.mem_cons, List.mem_append,
    List.mem_cons] at h
  rcases h with h | rfl | h | rfl | h
  · exact isGraph_of_mem_encode (.inr rfl) h
  · decide
  · exact isGraph_of_mem_encode (.inr rfl) h
  · decide
  · exact isGraph_of_mem_encode (.inr rfl) h

/-! ### Headers -/

theorem isScheme_bearer : IsScheme "Bearer " where
  printed := isPrinted_of_all rfl
  first := by
    rintro c ⟨⟩
    rfl
  last := rfl

theorem isScheme_basic : IsScheme "Basic " where
  printed := isPrinted_of_all rfl
  first := by
    rintro c ⟨⟩
    rfl
  last := rfl

/-- A text of printed characters that are no blanks follows the scheme in front of it. -/
theorem follows_ofText {scheme text : String} (hscheme : IsScheme scheme)
    (htext : ∀ c ∈ text.toList, isGraph c = true) (hne : text ≠ "") :
    Follows scheme (Octets.ofText (scheme ++ text)) text := by
  have hprinted : ∀ c ∈ text.toList, IsPrinted c := by
    intro c hc
    obtain ⟨hlow, hhigh⟩ := isGraph_iff.1 (htext c hc)
    exact .inr ⟨hlow.le, Nat.le_of_lt_succ hhigh⟩
  have hends : ∀ c ∈ text.toList, c ≠ ' ' ∧ c ≠ '\t' := fun c hc =>
    ne_of_isBlank_eq_false (isBlank_of_isGraph (htext c hc))
  exact follows_append hscheme hprinted hne (fun c hc => hends c (List.mem_of_head? hc))
    fun c hc => hends c (List.mem_of_getLast? hc)

/-- The first `Authorization` header is a token after its scheme. -/
def PresentsToken (headers : List Header) (token : String) : Prop :=
  firstHeader? "authorization" headers = some (Octets.ofText ("Bearer " ++ token))

/-- The first `Authorization` header is a name and a password after their scheme: separated by a
colon, in UTF-8, and in base 64. -/
def PresentsPair (headers : List Header) (name password : String) : Prop :=
  firstHeader? "authorization" headers = some (Octets.ofText ("Basic " ++
    String.ofList (Base64.encode Base64.standard (Octets.ofText (name ++ ":" ++ password)))))

/-- The name of a header is found in whatever case a client writes it. -/
theorem firstHeader?_authorization (value : Octets) :
    firstHeader? "authorization" [⟨"Authorization", value⟩] = some value := by
  have hname : Text.eqIgnoringCase "Authorization" "authorization" = true := by decide
  simp only [firstHeader?, List.find?_cons, hname, Option.map_some]

variable {headers : List Header}

/-- A token is read as it was written. -/
theorem bearerToken_of_presents {token : String} (h : PresentsToken headers token)
    (hne : token ≠ "") (hgraph : ∀ c ∈ token.toList, isGraph c = true) :
    bearerToken headers = .ok token := by
  have hafter : afterScheme? "Bearer ".toList (Octets.ofText ("Bearer " ++ token)) =
      some token.toList :=
    afterScheme?_of_follows isScheme_bearer (follows_ofText isScheme_bearer hgraph hne)
  rw [bearerToken, authorization, h]
  cases hcs : token.toList with
  | nil => exact absurd (String.toList_inj.1 hcs) hne
  | cons c cs =>
    rw [hcs] at hafter
    simp only [parseBearer, hafter]
    rw [← hcs, String.ofList_toList]

/-- A text is split at its first colon. -/
theorem splitPair?_pair {name : String} (hne : name ≠ "") (hcolon : ':' ∉ name.toList)
    (password : String) : splitPair? (name ++ ":" ++ password).toList = some (name, password) := by
  have hchars : (name ++ ":" ++ password).toList = name.toList ++ ':' :: password.toList := by
    simp
  have hempty : name.toList.isEmpty = false := by
    rw [List.isEmpty_eq_false_iff]
    exact fun hnil => hne (String.toList_inj.1 hnil)
  rw [hchars]
  simp only [splitPair?, Text.takeWhile_ne hcolon, List.drop_left, hempty, Bool.false_eq_true,
    if_false, String.ofList_toList]

/-- A pair of which the name is not empty and has no colon is read as it was written. -/
theorem basicCredentials_of_presents {name password : String}
    (h : PresentsPair headers name password) (hne : name ≠ "") (hcolon : ':' ∉ name.toList) :
    basicCredentials headers = .ok (name, password) := by
  have hsome : Octets.ofText (name ++ ":" ++ password) ≠ [] := by
    intro hnil
    have hempty : name ++ ":" ++ password = "" := Octets.ofText_injective hnil
    have hlength := congrArg (fun s : String => s.toList.length) hempty
    simp at hlength
  -- The written form is all that matters about base 64 here.
  have hdecode := Base64.decode?_encode Base64.lawful_standard
    (Octets.ofText (name ++ ":" ++ password))
  have hgraph : ∀ c ∈ Base64.encode Base64.standard (Octets.ofText (name ++ ":" ++ password)),
      isGraph c = true := fun c hc => isGraph_of_mem_encode (.inl rfl) hc
  have hdigits := Base64.encode_ne_nil Base64.lawful_standard hsome
  rw [PresentsPair] at h
  generalize Base64.encode Base64.standard (Octets.ofText (name ++ ":" ++ password)) = digits
    at h hdecode hgraph hdigits
  have hafter : afterScheme? "Basic ".toList (Octets.ofText ("Basic " ++ String.ofList digits)) =
      some digits := by
    rw [afterScheme?_of_follows isScheme_basic (follows_ofText isScheme_basic
      (by simpa using hgraph) (by simpa using hdigits)), String.toList_ofList]
  rw [basicCredentials, authorization, h]
  simp only [parseBasic, hafter, hdecode, Option.bind_some, Octets.toText?_ofText,
    splitPair?_pair hne hcolon]

/-- Credentials that cannot be read are missing or malformed. -/
theorem eq_of_basicCredentials_eq_error {err : Error}
    (h : basicCredentials headers = .error err) :
    err = .missingAuthorization ∨ err = .invalidAuthorization := by
  rw [basicCredentials, authorization] at h
  split at h
  · exact .inl (Except.error.inj h).symm
  · rw [parseBasic] at h
    split at h
    · exact .inr (Except.error.inj h).symm
    · split at h
      · exact .inr (Except.error.inj h).symm
      · split at h
        · cases h
        · exact .inr (Except.error.inj h).symm

end AccountService.Auth
