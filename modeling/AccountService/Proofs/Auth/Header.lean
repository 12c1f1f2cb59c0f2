import AccountService.Proofs.Auth.Genuine

/-!
# What the header of a token settles

An engine looks at the header of a token before anything else. A header that is not a record in
base 64, that does not name a key by a text, or that does not name the algorithm of the engine by
a text, settles the answer alone: no key, signature, payload, issuer, leeway or time has a part in
it. Of several faults the first one in a fixed order is reported.

## Main definitions

* `Token.Reads` — a segment is a record in base 64 with these members
* `Token.Faulty` — a header that no engine of an algorithm lets pass
* `Token.FirstFault` — the first fault of a header, with the error that reports it

## Main statements

* `Auth.Engine.checkHeader_eq_error_iff` — the check of the header fails with the first fault
* `Auth.Engine.first_fault_settles` — a faulty header settles the answer of all engines of an
  algorithm, and no token that declares another algorithm is accepted
-/

namespace AccountService

open Json (Node)
open Auth (Algorithm Error)

namespace Token

/-- A segment is a record in base 64 with these members. Everything in it denotes something, and
its lists and records are not nested deeper than a reader goes. -/
def Reads (segment : List Char) (members : List (String × Node)) : Prop :=
  ∃ octets node, segment = Base64.encode Base64.urlSafe octets ∧
    Node.parse? octets = some node ∧ node.isPlain nestingLimit = true ∧
    node.members? = some members

/-- A header that no engine of an algorithm lets pass. Of repeated members the last one counts. -/
def Faulty (a : Algorithm) (header : List Char) : Prop :=
  (∀ members, ¬ Reads header members) ∨
  ∃ members, Reads header members ∧
    ("kid" ∉ members.map (·.1) ∨
      (∃ v, Json.last? "kid" members = some v ∧ v.text? = none) ∨
      (Json.last? "alg" members).bind Node.text? = none ∨
      (∃ s, (Json.last? "alg" members).bind Node.text? = some s ∧ ∀ b : Algorithm, b.name ≠ s) ∨
      ∃ b : Algorithm, (Json.last? "alg" members).bind Node.text? = some b.name ∧ b ≠ a)

/-- The first fault of a header for engines of an algorithm, with the error that reports it. The
order is that of the constructors: each of them assumes that no earlier one applies. -/
inductive FirstFault (a : Algorithm) (header : List Char) : Error → Prop where
  /-- The header is not written in base 64. -/
  | encoding (h : ∀ octets, header ≠ Base64.encode Base64.urlSafe octets) :
      FirstFault a header (.malformedToken "header encoding: not base 64")
  /-- What is written is not a record. -/
  | record {octets : Octets} (h : header = Base64.encode Base64.urlSafe octets)
      (hmembers : ∀ members, ¬ Reads header members) :
      FirstFault a header (.malformedToken "header json: not a record")
  /-- No key is named. -/
  | missingKid {members : List (String × Node)} (h : Reads header members)
      (hkid : "kid" ∉ members.map (·.1)) : FirstFault a header .missingKeyId
  /-- The name of the key is not a text. -/
  | malformedKid {members : List (String × Node)} {v : Node} (h : Reads header members)
      (hkid : Json.last? "kid" members = some v) (hv : v.text? = none) :
      FirstFault a header .malformedKeyId
  /-- No algorithm is named by a text. -/
  | missingAlgorithm {members : List (String × Node)} {kid : String} (h : Reads header members)
      (hkid : (Json.last? "kid" members).bind Node.text? = some kid)
      (halg : (Json.last? "alg" members).bind Node.text? = none) :
      FirstFault a header (.malformedToken "missing algorithm (alg) in token header")
  /-- The name of the algorithm is not known. -/
  | unknownAlgorithm {members : List (String × Node)} {kid s : String} (h : Reads header members)
      (hkid : (Json.last? "kid" members).bind Node.text? = some kid)
      (halg : (Json.last? "alg" members).bind Node.text? = some s)
      (hs : ∀ b : Algorithm, b.name ≠ s) : FirstFault a header (.unsupportedAlgorithm s)
  /-- Another algorithm is named. -/
  | otherAlgorithm {members : List (String × Node)} {kid : String} {b : Algorithm}
      (h : Reads header members)
      (hkid : (Json.last? "kid" members).bind Node.text? = some kid)
      (halg : (Json.last? "alg" members).bind Node.text? = some b.name) (hb : b ≠ a) :
      FirstFault a header (.algorithmMismatch a.name b.name)

variable {header : List Char} {octets : Octets} {members members' : List (String × Node)}

/-- A header with a first fault is faulty. -/
theorem FirstFault.faulty {a : Algorithm} {err : Error} (h : FirstFault a header err) :
    Faulty a header := by
  cases h with
  | encoding h =>
    left
    rintro members ⟨octets, node, hencode, -⟩
    exact h octets hencode
  | record h hmembers => exact .inl hmembers
  | missingKid h hkid => exact .inr ⟨_, h, .inl hkid⟩
  | malformedKid h hkid hv => exact .inr ⟨_, h, .inr (.inl ⟨_, hkid, hv⟩)⟩
  | missingAlgorithm h hkid halg => exact .inr ⟨_, h, .inr (.inr (.inl halg))⟩
  | unknownAlgorithm h hkid halg hs =>
    exact .inr ⟨_, h, .inr (.inr (.inr (.inl ⟨_, halg, hs⟩)))⟩
  | otherAlgorithm h hkid halg hb => exact .inr ⟨_, h, .inr (.inr (.inr (.inr ⟨_, halg, hb⟩)))⟩

/-- A segment that is written in base 64 reads as what the reader of headers takes from it. -/
theorem reads_iff (h : Base64.decode? Base64.urlSafe header = some octets) :
    Reads header members ↔ headerMembers? octets = some members := by
  constructor
  · rintro ⟨octets', node, rfl, hparse, hplain, hmembers⟩
    rw [Base64.decode?_encode Base64.lawful_urlSafe] at h
    obtain rfl := Option.some.inj h
    simp only [headerMembers?, hparse, hplain, if_true, hmembers]
  · intro hread
    rw [headerMembers?] at hread
    split at hread
    · cases hread
    · next node hparse =>
      split at hread
      · next hplain =>
        exact ⟨octets, node, Base64.eq_encode_of_decode? h, hparse, hplain, hread⟩
      · cases hread

theorem decode?_eq_none_iff :
    Base64.decode? Base64.urlSafe header = none ↔
      ∀ octets, header ≠ Base64.encode Base64.urlSafe octets := by
  rw [Option.eq_none_iff_forall_ne_some]
  refine forall_congr' fun octets => not_congr ?_
  rw [Base64.decode?_eq_some_iff Base64.lawful_urlSafe]

theorem Reads.decode? (h : Reads header members) :
    ∃ octets, Base64.decode? Base64.urlSafe header = some octets ∧
      headerMembers? octets = some members := by
  obtain ⟨octets, node, rfl, _⟩ := id h
  have hdecode := Base64.decode?_encode Base64.lawful_urlSafe octets
  exact ⟨octets, hdecode, (reads_iff hdecode).1 h⟩

/-- A segment reads in one way at most. -/
theorem Reads.unique (h : Reads header members) (h' : Reads header members') :
    members = members' := by
  obtain ⟨octets, hdecode, hmembers⟩ := h.decode?
  exact Option.some.inj (hmembers.symm.trans ((reads_iff hdecode).1 h'))

end Token

namespace Auth

theorem Algorithm.ofName?_eq_none_iff {s : String} :
    ofName? s = none ↔ ∀ b : Algorithm, b.name ≠ s := by
  constructor
  · rintro h b rfl
    rw [ofName?_name] at h
    cases h
  · intro h
    cases hname : ofName? s with
    | none => rfl
    | some b => exact absurd (eq_of_ofName? hname) (h b)

namespace Engine

open Token (Faulty FirstFault Reads)

variable {e : Engine} {header : List Char} {members : List (String × Node)} {err : Error}

/-! ### How the check of a header fails -/

theorem declaredKid_eq_error_iff :
    declaredKid members = .error err ↔
      Json.last? "kid" members = none ∧ err = .missingKeyId ∨
        ∃ v, Json.last? "kid" members = some v ∧ v.text? = none ∧ err = .malformedKeyId := by
  rw [declaredKid]
  split
  · next h => simp [h, eq_comm]
  · next v h =>
    split
    · next kid hkid => simp [h, hkid]
    · next hkid => simp [h, hkid, eq_comm]

theorem checkAlgorithm_eq_error_iff :
    e.checkAlgorithm members = .error err ↔
      ((Json.last? "alg" members).bind Node.text? = none ∧
        err = .malformedToken "missing algorithm (alg) in token header") ∨
      (∃ s, (Json.last? "alg" members).bind Node.text? = some s ∧
        (∀ b : Algorithm, b.name ≠ s) ∧ err = .unsupportedAlgorithm s) ∨
      ∃ b : Algorithm, (Json.last? "alg" members).bind Node.text? = some b.name ∧
        b ≠ e.algorithm ∧ err = .algorithmMismatch e.algorithm.name b.name := by
  constructor
  · intro h
    rw [checkAlgorithm] at h
    split at h
    · next hnone => exact .inl ⟨hnone, (Except.error.inj h).symm⟩
    · next s hs =>
      split at h
      · next hname =>
        exact .inr (.inl ⟨s, hs, Algorithm.ofName?_eq_none_iff.1 hname,
          (Except.error.inj h).symm⟩)
      · next b hname =>
        split at h
        · cases h
        · next hb =>
          obtain rfl := Algorithm.eq_of_ofName? hname
          exact .inr (.inr ⟨b, hs, hb, (Except.error.inj h).symm⟩)
  · rintro (⟨hnone, rfl⟩ | ⟨s, hs, hunknown, rfl⟩ | ⟨b, hb, hne, rfl⟩)
    · simp only [checkAlgorithm, hnone]
    · simp only [checkAlgorithm, hs, Algorithm.ofName?_eq_none_iff.2 hunknown]
    · simp only [checkAlgorithm, hb, Algorithm.ofName?_name, if_neg hne]

theorem checkHeader_of_declaredKid (h : Reads header members)
    (herror : declaredKid members = .error err) : e.checkHeader header = .error err := by
  obtain ⟨octets, hdecode, hmembers⟩ := h.decode?
  simp only [checkHeader, hdecode, hmembers, herror]

theorem checkHeader_of_checkAlgorithm {kid : String} (h : Reads header members)
    (hkid : (Json.last? "kid" members).bind Node.text? = some kid)
    (herror : e.checkAlgorithm members = .error err) : e.checkHeader header = .error err := by
  obtain ⟨octets, hdecode, hmembers⟩ := h.decode?
  simp only [checkHeader, hdecode, hmembers, declaredKid_eq_ok_iff.2 hkid, herror]

theorem firstFault_of_checkHeader (h : e.checkHeader header = .error err) :
    FirstFault e.algorithm header err := by
  -- The stages of the check come in the order of the faults.
  rw [checkHeader] at h
  split at h
  · next hdecode =>
    obtain rfl := Except.error.inj h
    exact .encoding (Token.decode?_eq_none_iff.1 hdecode)
  · next octets hdecode =>
    split at h
    · next hmembers =>
      obtain rfl := Except.error.inj h
      refine .record (Base64.eq_encode_of_decode? hdecode) fun members hreads => ?_
      rw [(Token.reads_iff hdecode).1 hreads] at hmembers
      cases hmembers
    · next members hmembers =>
      have hreads := (Token.reads_iff hdecode).2 hmembers
      split at h
      · next err' herror =>
        obtain rfl := Except.error.inj h
        rcases declaredKid_eq_error_iff.1 herror with ⟨hkid, rfl⟩ | ⟨v, hkid, hv, rfl⟩
        · exact .missingKid hreads (Json.last?_eq_none_iff.1 hkid)
        · exact .malformedKid hreads hkid hv
      · next kid hok =>
        have hkid := declaredKid_eq_ok_iff.1 hok
        split at h
        · next err' herror =>
          obtain rfl := Except.error.inj h
          rcases checkAlgorithm_eq_error_iff.1 herror with
            ⟨halg, rfl⟩ | ⟨s, halg, hs, rfl⟩ | ⟨b, halg, hb, rfl⟩
          · exact .missingAlgorithm hreads hkid halg
          · exact .unknownAlgorithm hreads hkid halg hs
          · exact .otherAlgorithm hreads hkid halg hb
        · cases h

theorem checkHeader_of_firstFault (h : FirstFault e.algorithm header err) :
    e.checkHeader header = .error err := by
  cases h with
  | encoding h => simp only [checkHeader, Token.decode?_eq_none_iff.2 h]
  | @record octets h hmembers =>
    have hdecode : Base64.decode? Base64.urlSafe header = some octets := by
      rw [h, Base64.decode?_encode Base64.lawful_urlSafe]
    have hnone : Token.headerMembers? octets = none := by
      refine Option.eq_none_iff_forall_ne_some.2 fun members hsome => ?_
      exact hmembers members ((Token.reads_iff hdecode).2 hsome)
    simp only [checkHeader, hdecode, hnone]
  | missingKid h hkid =>
    refine checkHeader_of_declaredKid h (declaredKid_eq_error_iff.2 (.inl ⟨?_, rfl⟩))
    exact Json.last?_eq_none_iff.2 hkid
  | malformedKid h hkid hv =>
    exact checkHeader_of_declaredKid h (declaredKid_eq_error_iff.2 (.inr ⟨_, hkid, hv, rfl⟩))
  | missingAlgorithm h hkid halg =>
    refine checkHeader_of_checkAlgorithm h hkid (checkAlgorithm_eq_error_iff.2 (.inl ?_))
    exact ⟨halg, rfl⟩
  | unknownAlgorithm h hkid halg hs =>
    refine checkHeader_of_checkAlgorithm h hkid (checkAlgorithm_eq_error_iff.2 (.inr (.inl ?_)))
    exact ⟨_, halg, hs, rfl⟩
  | otherAlgorithm h hkid halg hb =>
    refine checkHeader_of_checkAlgorithm h hkid (checkAlgorithm_eq_error_iff.2 (.inr (.inr ?_)))
    exact ⟨_, halg, hb, rfl⟩

/-- The check of the header fails exactly if the header has a fault, and it reports the first. -/
theorem checkHeader_eq_error_iff :
    e.checkHeader header = .error err ↔ FirstFault e.algorithm header err :=
  ⟨firstFault_of_checkHeader, checkHeader_of_firstFault⟩

/-- A header that the check lets pass is not faulty. -/
theorem not_faulty_of_checkHeader {kid : String}
    (h : e.checkHeader header = .ok (kid, members)) : ¬ Faulty e.algorithm header := by
  obtain ⟨octets, hdecode, hmembers, hkid, halg⟩ := checkHeader_eq_ok_iff.1 h
  have hreads := (Token.reads_iff hdecode).2 hmembers
  rintro (hnone | ⟨members', hreads', hfault⟩)
  · exact hnone members hreads
  · obtain rfl := hreads.unique hreads'
    rw [halg] at hfault
    rcases hfault with hmissing | ⟨v, hlast, hv⟩ | hnone | ⟨s, hs, hunknown⟩ | ⟨b, hb, hne⟩
    · rw [Json.last?_eq_none_iff.2 hmissing] at hkid
      cases hkid
    · rw [hlast, Option.bind_some, hv] at hkid
      cases hkid
    · cases hnone
    · exact hunknown _ (Option.some.inj hs)
    · exact hne (Algorithm.name_injective (Option.some.inj hb)).symm

/-! ### What follows for tokens -/

/-- A fault of the header is the answer, whatever else the token holds and whatever keys are
registered. -/
theorem validate_of_firstFault {t : Token.Parts} {token : String} (keys : KeyStore) (now : Instant)
    (hsplit : Token.split? token = some t) (h : FirstFault e.algorithm t.header err) :
    e.validate keys now token = .error err := by
  have hcheck := checkHeader_of_firstFault h
  simp only [validate, accept, hsplit, hcheck]
  rfl

/-- The header of an accepted token names the algorithm of the engine wherever it names one. -/
theorem text?_of_validate {keys : KeyStore} {now : Instant} {token : String} {t : Token.Parts}
    {c : Claims} {v : Node} (h : e.validate keys now token = .ok c)
    (hsplit : Token.split? token = some t) (hreads : Reads t.header members)
    (hv : ("alg", v) ∈ members) : v.text? = some e.algorithm.name := by
  obtain ⟨kid, haccept⟩ := validate_eq_ok_iff.1 h
  obtain ⟨header, payload, segment, key, hvouches⟩ := vouches_of_accept haccept
  have hparts := Token.split?_eq_some_iff.2 ⟨hvouches.token_eq, hvouches.dot_notMem⟩
  obtain rfl := Option.some.inj (hsplit.symm.trans hparts)
  -- An accepted header names the algorithm once, so every member of that name is this one.
  obtain ⟨octets, node, members', a, _, hencode, hparse, hmembers, honce, ha, _⟩ :=
    hvouches.declares
  obtain rfl : members = members' := by
    obtain ⟨octets', hdecode', hmembers'⟩ := hreads.decode?
    rw [hencode, Base64.decode?_encode Base64.lawful_urlSafe] at hdecode'
    obtain rfl := Option.some.inj hdecode'
    obtain ⟨node', hparse', hmembers'⟩ := Token.parse?_of_headerMembers? hmembers'
    obtain rfl := Option.some.inj (hparse.symm.trans hparse')
    exact Option.some.inj (hmembers'.symm.trans hmembers)
  rw [honce.eq_of_mem hv, ha]

/-- The header of a token settles the answer alone if it is faulty: all engines of an algorithm
report its first fault, whatever payload and signature the token has and whatever keys, issuer,
leeway and time there are. No engine accepts a token whose header names another algorithm than
its own, or a text that is no algorithm, even once among several. -/
theorem first_fault_settles (e : Engine) :
    (∀ header, Faulty e.algorithm header →
      ∃ err, (∀ err', FirstFault e.algorithm header err' ↔ err' = err) ∧
        ∀ (e' : Engine) (keys : KeyStore) (now : Instant) (token : String) (t : Token.Parts),
          e'.algorithm = e.algorithm → Token.split? token = some t → t.header = header →
          e'.validate keys now token = .error err) ∧
    ∀ (keys : KeyStore) (now : Instant) (token : String) (t : Token.Parts)
      (members : List (String × Node)) (v : Node),
      Token.split? token = some t → Reads t.header members → ("alg", v) ∈ members →
      v.text? ≠ some e.algorithm.name → ∀ c, e.validate keys now token ≠ .ok c := by
  constructor
  · intro header hfaulty
    cases hcheck : e.checkHeader header with
    | ok r => exact absurd hfaulty (not_faulty_of_checkHeader hcheck)
    | error err =>
      have hfault := checkHeader_eq_error_iff.1 hcheck
      refine ⟨err, fun err' => ⟨fun hfault' => ?_, fun herr => herr ▸ hfault⟩, ?_⟩
      · have hcheck' := checkHeader_eq_error_iff.2 hfault'
        exact Except.error.inj (hcheck'.symm.trans hcheck)
      · rintro e' keys now token t halgorithm hsplit rfl
        exact validate_of_firstFault keys now hsplit (halgorithm ▸ hfault)
  · intro keys now token t members v hsplit hreads hv hother c h
    exact hother (text?_of_validate h hsplit hreads hv)

/-- The segments of a token that declares no signature and carries none. -/
def unsigned : Token.Parts :=
  ⟨Token.encodeJson (Token.headerJson "none" "key"), [], []⟩

theorem first_fault_settles_unsigned :
    Faulty (sample none).algorithm unsigned.header ∧
    Token.split? (Token.join unsigned.header [] []) = some unsigned ∧
    (sample none).validate sampleKeys (.ofSeconds 0) (Token.join unsigned.header [] []) =
      .error (.unsupportedAlgorithm "none") := by
  have hreads : Reads unsigned.header (Token.headerNodes "none" "key") :=
    (Token.reads_iff (Base64.decode?_encode Base64.lawful_urlSafe _)).2
      (Token.headerMembers?_headerJson "none" "key")
  have hkid : (Json.last? "kid" (Token.headerNodes "none" "key")).bind Node.text? =
      some "key" := by
    rw [Token.last?_kid_headerNodes, Option.bind_some, Json.text?_node]
  have halg : (Json.last? "alg" (Token.headerNodes "none" "key")).bind Node.text? =
      some "none" := by
    rw [Token.last?_alg_headerNodes, Option.bind_some, Json.text?_node]
  have hunknown (b : Algorithm) : b.name ≠ "none" := by cases b <;> decide
  have hfaulty : Faulty (sample none).algorithm unsigned.header :=
    .inr ⟨_, hreads, .inr (.inr (.inr (.inl ⟨"none", halg, hunknown⟩)))⟩
  have hsplit : Token.split? (Token.join unsigned.header [] []) = some unsigned :=
    Token.split?_eq_some_iff.2 ⟨rfl, Token.dot_notMem_encodeJson _, by simp, by simp⟩
  obtain ⟨err, hfirst, hanswer⟩ := (first_fault_settles (sample none)).1 unsigned.header hfaulty
  obtain rfl := (hfirst _).1 (.unknownAlgorithm hreads hkid halg hunknown)
  exact ⟨hfaulty, hsplit, hanswer _ _ _ _ _ rfl hsplit rfl⟩

end Engine

end Auth

end AccountService
