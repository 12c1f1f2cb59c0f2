import AccountService.Auth.Token
import AccountService.Proofs.Json.Members
import AccountService.Proofs.Json.RoundTrip
import AccountService.Proofs.Text.Base64
import AccountService.Proofs.Text.Blank
import Mathlib.Algebra.Group.Int.Defs
import Mathlib.Algebra.Group.Nat.Defs
import Mathlib.Data.List.TakeWhile

/-!
# Tokens as written and as read

A token falls apart into the segments that it was joined from, its header names the key and the
algorithm that were written, and its payload carries the claims that were written. The other way
round, a header that passes both of its readings names each of the two once, and what a payload
is read as stands in it.

## Main definitions

* `Token.Declares` — a segment is a header that names an algorithm and a key, each once
* `Token.Carries` — a segment is a payload that has the claims in it
* `Token.Registered.ofEnd` — what an end in seconds is to the registered claims

## Main statements

* `Token.split?_eq_some_iff` — the segments of a token
* `Token.headerMembers?_headerJson`, `Token.isTypedHeader_headerJson` — a written header passes
  both readings
* `Token.readPayload_payloadJson` — a written payload is read as what was written
* `Token.declares_of_typed` — a header that passes both readings names both members once
* `Token.ofNode?_record_eq_some` — a payload is read as what stands in it
-/

namespace AccountService.Token

open Auth (Claims)
open Json (Node OccursOnce occurrence)

/-! ### Segments -/

/-- Three segments joined by dots. -/
def join (header payload signature : List Char) : String :=
  String.ofList (header ++ '.' :: (payload ++ '.' :: signature))

/-- A text is cut at its first dot. -/
theorem cut?_eq_some_iff {cs front rest : List Char} :
    cut? cs = some (front, rest) ↔ cs = front ++ '.' :: rest ∧ '.' ∉ front := by
  have hcut : ∀ front rest, '.' ∉ front → cut? (front ++ '.' :: rest) = some (front, rest) := by
    intro front rest hfront
    simp only [cut?, Text.takeWhile_ne hfront rest, List.drop_left]
  constructor
  · intro h
    -- Without a dot the front is everything, so there is no cut.
    by_cases hdot : '.' ∈ cs
    · obtain ⟨front', rest', rfl, hfront⟩ := List.eq_append_cons_of_mem hdot
      rw [hcut front' rest' hfront] at h
      obtain ⟨rfl, rfl⟩ := Prod.mk.inj (Option.some.inj h)
      exact ⟨rfl, hfront⟩
    · have hall : cs.takeWhile (· != '.') = cs := by
        refine List.takeWhile_eq_self_iff.2 fun c hc => ?_
        exact bne_iff_ne.2 fun hc' => hdot (hc' ▸ hc)
      rw [cut?, hall, List.drop_length] at h
      cases h
  · rintro ⟨rfl, hfront⟩
    exact hcut front rest hfront

/-- A token is read as three segments exactly if it is joined from them and none holds a
dot. -/
theorem split?_eq_some_iff {token : String} {header payload signature : List Char} :
    split? token = some ⟨header, payload, signature⟩ ↔
      token = join header payload signature ∧
        '.' ∉ header ∧ '.' ∉ payload ∧ '.' ∉ signature := by
  constructor
  · intro h
    rw [split?] at h
    split at h
    · cases h
    · next header' rest hcut =>
      split at h
      · cases h
      · next payload' signature' hcut' =>
        split at h
        · cases h
        · next hdot =>
          obtain ⟨rfl, rfl, rfl⟩ := Parts.mk.inj (Option.some.inj h)
          obtain ⟨htoken, hheader⟩ := cut?_eq_some_iff.1 hcut
          obtain ⟨rfl, hpayload⟩ := cut?_eq_some_iff.1 hcut'
          refine ⟨?_, hheader, hpayload, by simpa using hdot⟩
          rw [join, ← htoken, String.ofList_toList]
  · rintro ⟨rfl, hheader, hpayload, hsignature⟩
    -- Header and payload hold no dot, so both cuts are where the segments were joined.
    have hcut : cut? (join header payload signature).toList =
        some (header, payload ++ '.' :: signature) :=
      cut?_eq_some_iff.2 ⟨String.toList_ofList, hheader⟩
    have hcut' : cut? (payload ++ '.' :: signature) = some (payload, signature) :=
      cut?_eq_some_iff.2 ⟨rfl, hpayload⟩
    simp only [split?, hcut, hcut', List.contains_iff_mem, hsignature, if_false]

theorem dot_notMem_encodeJson (v : Json) : '.' ∉ encodeJson v := fun h =>
  Base64.dot_notMem_encode _ h

/-! ### The header -/

/-- The members of a written header. -/
def headerNodes (algorithm kid : String) : List (String × Node) :=
  [("typ", Json.node (.text "JWT")), ("alg", Json.node (.text algorithm)),
    ("kid", Json.node (.text kid))]

/-- A written header passes the first reading. -/
theorem headerMembers?_headerJson (algorithm kid : String) :
    headerMembers? (Octets.ofText (headerJson algorithm kid).render) =
      some (headerNodes algorithm kid) := by
  have hplain : (Json.node (headerJson algorithm kid)).isPlain nestingLimit = true :=
    Json.isPlain_node_texts 126 [("typ", "JWT"), ("alg", algorithm), ("kid", kid)]
  rw [headerMembers?, Json.parse?_render]
  simp only [hplain, if_true]
  rw [headerJson, Json.members?_node]
  rfl

@[simp] theorem last?_kid_headerNodes (algorithm kid : String) :
    Json.last? "kid" (headerNodes algorithm kid) = some (Json.node (.text kid)) := by
  simp [Json.last?, headerNodes]

@[simp] theorem last?_alg_headerNodes (algorithm kid : String) :
    Json.last? "alg" (headerNodes algorithm kid) = some (Json.node (.text algorithm)) := by
  simp [Json.last?, headerNodes]

theorem isOptional_of_occurrence {name s : String} {members : List (String × Node)}
    (h : occurrence name members = .once (Json.node (.text s))) :
    isOptional isText name members = true := by
  have hs := Json.text?_node s
  rw [Json.node] at h hs
  rw [isOptional, h]
  exact congrArg Option.isSome hs

/-- A written header passes the second reading. -/
theorem isTypedHeader_headerJson (algorithm kid : String) :
    isTypedHeader (headerNodes algorithm kid) = true := by
  have halg : isRequired isText "alg" (headerNodes algorithm kid) = true :=
    congrArg Option.isSome (Json.text?_node algorithm)
  have htyp : isOptional isText "typ" (headerNodes algorithm kid) = true :=
    isOptional_of_occurrence rfl
  have hkid : isOptional isText "kid" (headerNodes algorithm kid) = true :=
    isOptional_of_occurrence rfl
  -- Whatever else the second reading looks for is not there.
  have habsent : ∀ name ∈ ["cty", "jku", "x5u", "x5t", "x5t#S256"],
      isOptional isText name (headerNodes algorithm kid) = true := by
    intro name hname
    simp only [List.mem_cons, List.not_mem_nil, or_false] at hname
    rcases hname with rfl | rfl | rfl | rfl | rfl <;> rfl
  have hchain : isOptional areTexts "x5c" (headerNodes algorithm kid) = true := rfl
  have hkey : isOptional isKey "jwk" (headerNodes algorithm kid) = true := rfl
  simp only [List.forall_mem_cons] at habsent
  simp [isTypedHeader, halg, htyp, hkid, habsent, hchain, hkey]

/-! ### The payload -/

/-- What an end in seconds is to the registered claims: one before 1970 counts as none. -/
def Registered.ofEnd (seconds : Int) : Registered :=
  if seconds < 0 then .endless else .endsAt seconds

/-- A written payload is read as what was written, if its times fit into 64 bits. -/
theorem readPayload_payloadJson {c : Claims}
    (hstart : -2 ^ 63 ≤ c.issuedAt.seconds ∧ c.issuedAt.seconds < 2 ^ 63)
    (hend : -2 ^ 63 ≤ c.expiresAt.seconds ∧ c.expiresAt.seconds < 2 ^ 63) :
    readPayload (Octets.ofText (payloadJson c).render) =
      some (⟨c.subject, some c.issuer, c.issuedAt.seconds, c.expiresAt.seconds, c.roles.toList⟩,
        .ofEnd c.expiresAt.seconds) := by
  have hiat := Json.int?_node hstart.1 hstart.2
  have hexp := Json.int?_node hend.1 hend.2
  have hmembers := Json.members?_node
    [("sub", .text c.subject), ("iss", .text c.issuer), ("iat", .int c.issuedAt.seconds),
      ("exp", .int c.expiresAt.seconds), ("roles", .texts c.roles.toList)]
  rw [Json.node] at hmembers
  rw [readPayload, Json.parse?_render, payloadJson, Json.node]
  simp [Payload.ofNode?, registered, hmembers, occurrence, required, optional, isReadable, hiat,
    hexp, Registered.ofEnd]

/-! ### What a header that is read says -/

/-- A segment is a record in base 64 that names an algorithm and a key, each exactly once. -/
def Declares (segment : List Char) (algorithm kid : String) : Prop :=
  ∃ octets node members algorithmNode kidNode,
    segment = Base64.encode Base64.urlSafe octets ∧
    Node.parse? octets = some node ∧ node.members? = some members ∧
    OccursOnce "alg" algorithmNode members ∧ algorithmNode.text? = some algorithm ∧
    OccursOnce "kid" kidNode members ∧ kidNode.text? = some kid

theorem parse?_of_headerMembers? {octets : Octets} {members : List (String × Node)}
    (h : headerMembers? octets = some members) :
    ∃ node, Node.parse? octets = some node ∧ node.members? = some members := by
  rw [headerMembers?] at h
  split at h
  · cases h
  · next node hnode =>
    split at h
    · exact ⟨node, hnode, h⟩
    · cases h

theorem occursOnce_of_isRequired {name s : String} {members : List (String × Node)}
    (htyped : isRequired isText name members = true)
    (hlast : (Json.last? name members).bind Node.text? = some s) :
    ∃ v, OccursOnce name v members ∧ v.text? = some s := by
  rw [isRequired] at htyped
  split at htyped
  · next v honce =>
    have hv := Json.occurrence_eq_once_iff.1 honce
    rw [Json.last?_of_occursOnce hv] at hlast
    exact ⟨v, hv, hlast⟩
  · cases htyped

theorem occursOnce_of_isOptional {name s : String} {members : List (String × Node)}
    (htyped : isOptional isText name members = true)
    (hlast : (Json.last? name members).bind Node.text? = some s) :
    ∃ v, OccursOnce name v members ∧ v.text? = some s := by
  obtain ⟨v, hv, htext⟩ := Option.bind_eq_some_iff.1 hlast
  -- A member has been found, so `absent` is impossible, and `repeated` is refused.
  cases honce : occurrence name members with
  | absent => exact absurd honce (Json.occurrence_ne_absent_of_last? hv)
  | once w =>
    have hw := Json.occurrence_eq_once_iff.1 honce
    rw [Json.last?_of_occursOnce hw] at hv
    obtain rfl := Option.some.inj hv
    exact ⟨w, hw, htext⟩
  | repeated =>
    rw [isOptional, honce] at htyped
    cases htyped

/-- A header that passes both readings names the algorithm and the key that the first reading
took from it, each exactly once. -/
theorem declares_of_typed {segment : List Char} {octets : Octets}
    {members : List (String × Node)} {algorithm kid : String}
    (hdecode : Base64.decode? Base64.urlSafe segment = some octets)
    (hmembers : headerMembers? octets = some members)
    (halgorithm : (Json.last? "alg" members).bind Node.text? = some algorithm)
    (hkid : (Json.last? "kid" members).bind Node.text? = some kid)
    (htyped : isTypedHeader members = true) : Declares segment algorithm kid := by
  -- The first reading takes the last member of a name, but the second one refuses a header in which
  -- a name occurs twice. That is why both speak of the same member.
  have htypes : isRequired isText "alg" members = true ∧
      isOptional isText "kid" members = true := by
    simp only [isTypedHeader, List.all_cons, Bool.and_eq_true] at htyped
    exact ⟨htyped.1.1.1, htyped.1.1.2.2.2.2.1⟩
  obtain ⟨node, hparse, hnode⟩ := parse?_of_headerMembers? hmembers
  obtain ⟨a, honceA, htextA⟩ := occursOnce_of_isRequired htypes.1 halgorithm
  obtain ⟨k, honceK, htextK⟩ := occursOnce_of_isOptional htypes.2 hkid
  exact ⟨octets, node, members, a, k, Base64.eq_encode_of_decode? hdecode, hparse, hnode,
    honceA, htextA, honceK, htextK⟩

/-! ### What a payload that is read says -/

/-- A member occurs exactly once and reads as a value. -/
def Has {α : Type} (members : List (String × Node)) (name : String) (read : Node → Option α)
    (a : α) : Prop :=
  ∃ v, OccursOnce name v members ∧ read v = some a

/-- A segment is a record in base 64 that has the claims in it: subject and times each exactly
once, the issuer once or, where it is empty, not at all, and the set of roles once as a list or,
where it is empty, not at all. -/
def Carries (segment : List Char) (c : Claims) : Prop :=
  ∃ octets node members,
    segment = Base64.encode Base64.urlSafe octets ∧
    Node.parse? octets = some node ∧ node.members? = some members ∧
    Has members "sub" Node.text? c.subject ∧
    Has members "iat" Node.int? c.issuedAt.seconds ∧
    Has members "exp" Node.int? c.expiresAt.seconds ∧
    (Has members "iss" Node.text? c.issuer ∨
      "iss" ∉ members.map (·.1) ∧ c.issuer = "") ∧
    ((∃ roles, Has members "roles" Node.texts? roles ∧ ∀ r, r ∈ c.roles.toList ↔ r ∈ roles) ∨
      "roles" ∉ members.map (·.1) ∧ c.roles.toList = [])

theorem has_of_required {α : Type} {read : Node → Option α} {name : String}
    {members : List (String × Node)} {a : α}
    (h : required read (occurrence name members) = some a) : Has members name read a := by
  cases honce : occurrence name members with
  | absent => rw [honce] at h; cases h
  | once v =>
    rw [honce] at h
    exact ⟨v, Json.occurrence_eq_once_iff.1 honce, h⟩
  | repeated => rw [honce] at h; cases h

theorem has_of_optional {α : Type} {read : Node → Option α} {name : String}
    {members : List (String × Node)} {o : Option α}
    (h : optional read (occurrence name members) = some o) :
    (∃ a, o = some a ∧ Has members name read a) ∨ o = none ∧ name ∉ members.map (·.1) := by
  cases honce : occurrence name members with
  | absent =>
    rw [honce] at h
    obtain rfl := Option.some.inj h
    exact .inr ⟨rfl, Json.occurrence_eq_absent_iff.1 honce⟩
  | once v =>
    rw [honce] at h
    obtain ⟨a, hread, rfl⟩ := Option.map_eq_some_iff.1 h
    exact .inl ⟨a, rfl, v, Json.occurrence_eq_once_iff.1 honce, hread⟩
  | repeated => rw [honce] at h; cases h

/-- What a record is read as, member by member. -/
theorem ofNode?_record_eq_some {raw : List (Octets × Node)} {p : Payload}
    (h : Payload.ofNode? (.record raw) = some p) :
    ∃ members, (Node.record raw).members? = some members ∧
      Has members "sub" Node.text? p.subject ∧
      ((∃ i, p.issuer = some i ∧ Has members "iss" Node.text? i) ∨
        p.issuer = none ∧ "iss" ∉ members.map (·.1)) ∧
      Has members "iat" Node.int? p.issuedAt ∧ Has members "exp" Node.int? p.expiresAt ∧
      (Has members "roles" Node.texts? p.roles ∨
        p.roles = [] ∧ "roles" ∉ members.map (·.1)) := by
  simp only [Payload.ofNode?, bind, pure, Option.bind_eq_some_iff] at h
  obtain ⟨members, hmembers, subject, hsub, issuer, hiss, iat, hiat, exp, hexp, roles, hroles,
    hp⟩ := h
  obtain rfl := Option.some.inj hp
  refine ⟨members, hmembers, has_of_required hsub, has_of_optional hiss, has_of_required hiat,
    has_of_required hexp, ?_⟩
  rcases has_of_optional hroles with ⟨rs, rfl, hhas⟩ | ⟨rfl, habsent⟩
  · exact .inl hhas
  · exact .inr ⟨rfl, habsent⟩

/-- Only a record is read as claims that have an end, and the end is the one among the claims. -/
theorem record_of_endsAt {v : Node} {p : Payload} {s : Int} (h : registered v p = .endsAt s) :
    (∃ raw, v = .record raw) ∧ s = p.expiresAt := by
  -- A list may be read as claims too, but none of its items counts as an end.
  rw [registered.eq_def] at h
  split at h
  · next raw =>
    refine ⟨⟨raw, rfl⟩, ?_⟩
    split at h
    · cases h
    · split at h
      · split at h
        · cases h
        · exact (Registered.endsAt.inj h).symm
      · cases h
  · split at h <;> cases h
  · cases h

end AccountService.Token
