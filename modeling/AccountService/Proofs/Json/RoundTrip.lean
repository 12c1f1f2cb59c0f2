import AccountService.Proofs.Json.Numbers
import AccountService.Proofs.Json.Strings
import AccountService.Proofs.Text.Blank
import Mathlib.Algebra.Group.Int.Defs
import Mathlib.Algebra.Group.Nat.Defs

/-!
# Written JSON reads back

Every value that the service writes is read as the document that stands for it. The proof goes
the way of the reader: the written text is cut into the tokens of the value, and these tokens
build its document on whatever stack of open lists and records they meet.

## Main definitions

* `Json.node` — the document that stands for a value
* `Json.tokens` — the tokens that a value is written with
* `Json.Closed` — what may follow a number or a word
* `Json.Node.items?`, `Json.Node.textMembers?` — the items of a list, and a record of texts

## Main statements

* `Json.scanFrom_chars` — the written text of a value is cut into its tokens
* `Json.run_tokens` — the tokens of a value build its document
* `Json.parse?_render` — the written text of a value reads as its document
* `Json.text?_node`, `Json.int?_node`, `Json.texts?_node`, `Json.members?_node`,
  `Json.items?_node`, `Json.textMembers?_node` — what the document denotes
-/

namespace AccountService.Json

open Octets (ofChars)
open Node (Frame Progress)

mutual

/-- The document that stands for a value. -/
def node : Json → Node
  | null => .null
  | bool b => .bool b
  | int n => .number (Number.ofInt n)
  | text s => .text (rawOf s)
  | list items => .list (itemNodes items)
  | record members => .record (memberNodes members)

/-- The documents that stand for the items of a list. -/
def itemNodes : List Json → List Node
  | [] => []
  | v :: rest => node v :: itemNodes rest

/-- The documents that stand for the members of a record. -/
def memberNodes : List (String × Json) → List (Octets × Node)
  | [] => []
  | (k, v) :: rest => (rawOf k, node v) :: memberNodes rest

end

-- The recursion is that of `chars`. What follows a part is closed each time, since brackets, commas
-- and colons belong to no number and to no word.
mutual

/-- The tokens that a value is written with. -/
def tokens : Json → List Token
  | null => [.null]
  | bool b => [.bool b]
  | int n => [.number (Number.ofInt n)]
  | text s => [.text (rawOf s)]
  | list items => .beginList :: (itemTokens items ++ [.endList])
  | record members => .beginRecord :: (memberTokens members ++ [.endRecord])

/-- The tokens of the items of a list. -/
def itemTokens : List Json → List Token
  | [] => []
  | [v] => tokens v
  | v :: w :: rest => tokens v ++ .comma :: itemTokens (w :: rest)

/-- The tokens of the members of a record. -/
def memberTokens : List (String × Json) → List Token
  | [] => []
  | [(k, v)] => .text (rawOf k) :: .colon :: tokens v
  | (k, v) :: m :: rest =>
    .text (rawOf k) :: .colon :: (tokens v ++ .comma :: memberTokens (m :: rest))

end

/-! ### Cutting into tokens -/

/-- What may follow a number or a word: it begins with an octet of neither. -/
def Closed (rest : Octets) : Prop :=
  ∀ b ∈ rest.head?, Token.isNumberOctet b = false ∧ Token.isLetter b = false

theorem closed_nil : Closed [] := by
  intro b hb
  cases hb

theorem closed_cons {b : UInt8} {rest : Octets} (hnumber : Token.isNumberOctet b = false)
    (hletter : Token.isLetter b = false) : Closed (b :: rest) := by
  intro c hc
  obtain rfl : b = c := by simpa using hc
  exact ⟨hnumber, hletter⟩

theorem scanFrom_punctuation {b : UInt8} {t : Token} (done : List Token) (rest : Octets)
    (hspace : Token.isSpace b = false) (h : Token.punctuation? b = some t) :
    Token.scanFrom done (b :: rest) = Token.scanFrom (t :: done) rest := by
  rw [Token.scanFrom, if_neg (by simp [hspace]), h]

/-- A written string is one token. -/
theorem scanFrom_quote (s : String) (done : List Token) (rest : Octets) :
    Token.scanFrom done (ofChars (quote s) ++ rest) =
      Token.scanFrom (.text (rawOf s) :: done) rest := by
  have hquote : ofChars (quote s) ++ rest = 0x22 :: (rawOf s ++ 0x22 :: rest) := by
    rw [quote, Octets.ofChars_cons_ascii (by decide), Octets.ofChars_append,
      Octets.ofChars_cons_ascii (by decide), List.cons_append, List.append_assoc]
    rfl
  have htake := takeText_rawOf s rest
  rw [hquote, Token.scanFrom, if_neg (by decide)]
  simp only [show Token.punctuation? 0x22 = none from rfl, if_true]
  split
  · next h => rw [htake] at h; cases h
  · next raw rest' h =>
    rw [htake] at h
    obtain ⟨rfl, rfl⟩ := Prod.mk.inj (Option.some.inj h)
    rfl

theorem isNumberOctet_of_mem_numeral {n : Int} {b : UInt8}
    (h : b ∈ ofChars (Numeral.ofInt n)) : Token.isNumberOctet b = true := by
  have hdigit : ∀ b ∈ (Numeral.decimal n.natAbs).map Numeral.digitOctet,
      Token.isNumberOctet b = true := by
    intro b hb
    obtain ⟨d, hd, rfl⟩ := List.mem_map.1 hb
    rw [Token.isNumberOctet, Number.isDigit_digitOctet (Numeral.lt_of_mem_decimal hd)]
    rfl
  rw [Number.ofChars_numeral] at h
  split at h
  · rcases List.mem_cons.1 h with rfl | h
    · rfl
    · exact hdigit b h
  · exact hdigit b h

theorem token_of_isNumberOctet (b : UInt8) (h : Token.isNumberOctet b = true) :
    Token.isSpace b = false ∧ Token.punctuation? b = none ∧ b ≠ 0x22 := by
  -- There are 256 octets, and each of them is looked at.
  have hall : ∀ n < 256, Token.isNumberOctet (UInt8.ofNat n) = true →
      Token.isSpace (UInt8.ofNat n) = false ∧ Token.punctuation? (UInt8.ofNat n) = none ∧
        UInt8.ofNat n ≠ 0x22 := by
    decide +kernel
  have hb := hall b.toNat b.toNat_lt
  rw [UInt8.ofNat_toNat] at hb
  exact hb h

/-- A written integer is one token, as long as nothing continues it. -/
theorem scanFrom_numeral (n : Int) (done : List Token) {rest : Octets} (hrest : Closed rest) :
    Token.scanFrom done (ofChars (Numeral.ofInt n) ++ rest) =
      Token.scanFrom (.number (Number.ofInt n) :: done) rest := by
  have hread := Number.ofLexeme?_ofInt n
  have hall := fun b (hb : b ∈ ofChars (Numeral.ofInt n)) => isNumberOctet_of_mem_numeral hb
  -- The first octet says that a number begins, and `rest` where it ends.
  cases hbs : ofChars (Numeral.ofInt n) with
  | nil => rw [hbs] at hread; cases hread
  | cons b bs =>
    rw [hbs] at hread hall
    have hb : Token.isNumberOctet b = true := hall b (by simp)
    obtain ⟨hspace, hpunct, hquote⟩ := token_of_isNumberOctet b hb
    have hbs : ∀ x ∈ bs, Token.isNumberOctet x = true := (List.forall_mem_cons.1 hall).2
    obtain ⟨htake, hdrop⟩ := Text.cut_append hbs fun x hx => (hrest x hx).1
    rw [List.cons_append, Token.scanFrom, if_neg (by simp [hspace])]
    simp only [hpunct, if_neg hquote, hb, if_true, htake, hdrop, hread]

theorem token_of_isLetter (b : UInt8) (h : Token.isLetter b = true) (he : b ≠ 0x65) :
    Token.isSpace b = false ∧ Token.punctuation? b = none ∧ b ≠ 0x22 ∧
      Token.isNumberOctet b = false := by
  have hall : ∀ n < 256, Token.isLetter (UInt8.ofNat n) = true → UInt8.ofNat n ≠ 0x65 →
      Token.isSpace (UInt8.ofNat n) = false ∧ Token.punctuation? (UInt8.ofNat n) = none ∧
        UInt8.ofNat n ≠ 0x22 ∧ Token.isNumberOctet (UInt8.ofNat n) = false := by
    decide +kernel
  have hb := hall b.toNat b.toNat_lt
  rw [UInt8.ofNat_toNat] at hb
  exact hb h he

/-- A word is one token, as long as nothing continues it. -/
theorem scanFrom_word (b : UInt8) (bs : Octets) {t : Token} (done : List Token) {rest : Octets}
    (hword : Token.ofWord? (b :: bs) = some t) (hall : ∀ x ∈ b :: bs, Token.isLetter x = true)
    (hb : b ≠ 0x65) (hrest : Closed rest) :
    Token.scanFrom done (b :: bs ++ rest) = Token.scanFrom (t :: done) rest := by
  obtain ⟨hspace, hpunct, hquote, hnumber⟩ := token_of_isLetter b (hall b (by simp)) hb
  have hbs : ∀ x ∈ bs, Token.isLetter x = true := (List.forall_mem_cons.1 hall).2
  obtain ⟨htake, hdrop⟩ := Text.cut_append hbs fun x hx => (hrest x hx).2
  rw [List.cons_append, Token.scanFrom, if_neg (by simp [hspace])]
  simp only [hpunct, if_neg hquote, hnumber, Bool.false_eq_true, if_false, htake, hdrop, hword]

-- The recursion is that of `tokens`. A value touches nothing below the top of the stack, so the
-- frame of a list or a record is found again when the next item or member begins.
mutual

/-- The written text of a value is cut into its tokens. -/
theorem scanFrom_chars : ∀ (v : Json) (done : List Token) (rest : Octets), Closed rest →
    Token.scanFrom done (ofChars (chars v) ++ rest) =
      Token.scanFrom ((tokens v).reverse ++ done) rest
  | null, done, rest, hrest => by
    have hword := scanFrom_word 0x6E [0x75, 0x6C, 0x6C] (t := .null) done rfl
      (List.all_eq_true.1 rfl) (by decide) hrest
    exact hword
  | bool false, done, rest, hrest => by
    have hword := scanFrom_word 0x66 [0x61, 0x6C, 0x73, 0x65] (t := .bool false)
      done rfl (List.all_eq_true.1 rfl) (by decide) hrest
    exact hword
  | bool true, done, rest, hrest => by
    have hword := scanFrom_word 0x74 [0x72, 0x75, 0x65] (t := .bool true) done rfl
      (List.all_eq_true.1 rfl) (by decide) hrest
    exact hword
  | int n, done, rest, hrest => scanFrom_numeral n done hrest
  | text s, done, rest, _ => scanFrom_quote s done rest
  | list items, done, rest, _ => by
    rw [chars, Octets.ofChars_cons_ascii (by decide), Octets.ofChars_append,
      Octets.ofChars_cons_ascii (by decide), Octets.ofChars_nil, List.cons_append,
      List.append_assoc, List.singleton_append,
      scanFrom_punctuation (t := .beginList) _ _ rfl rfl,
      scanFrom_itemChars items _ _ (closed_cons (by decide) (by decide)),
      scanFrom_punctuation (t := .endList) _ _ rfl rfl, tokens]
    simp
  | record members, done, rest, _ => by
    rw [chars, Octets.ofChars_cons_ascii (by decide), Octets.ofChars_append,
      Octets.ofChars_cons_ascii (by decide), Octets.ofChars_nil, List.cons_append,
      List.append_assoc, List.singleton_append,
      scanFrom_punctuation (t := .beginRecord) _ _ rfl rfl,
      scanFrom_memberChars members _ _ (closed_cons (by decide) (by decide)),
      scanFrom_punctuation (t := .endRecord) _ _ rfl rfl, tokens]
    simp

theorem scanFrom_itemChars : ∀ (items : List Json) (done : List Token) (rest : Octets),
    Closed rest → Token.scanFrom done (ofChars (itemChars items) ++ rest) =
      Token.scanFrom ((itemTokens items).reverse ++ done) rest
  | [], _, _, _ => rfl
  | [v], done, rest, hrest => scanFrom_chars v done rest hrest
  | v :: w :: items, done, rest, hrest => by
    rw [itemChars, Octets.ofChars_append, Octets.ofChars_cons_ascii (by decide),
      List.append_assoc, List.cons_append,
      scanFrom_chars v _ _ (closed_cons (by decide) (by decide)),
      scanFrom_punctuation (t := .comma) _ _ rfl rfl,
      scanFrom_itemChars (w :: items) _ _ hrest, itemTokens]
    simp

theorem scanFrom_memberChars : ∀ (members : List (String × Json)) (done : List Token)
    (rest : Octets), Closed rest → Token.scanFrom done (ofChars (memberChars members) ++ rest) =
      Token.scanFrom ((memberTokens members).reverse ++ done) rest
  | [], _, _, _ => rfl
  | [(k, v)], done, rest, hrest => by
    rw [memberChars, Octets.ofChars_append, Octets.ofChars_cons_ascii (by decide),
      List.append_assoc, scanFrom_quote, List.cons_append,
      scanFrom_punctuation (t := .colon) _ _ rfl rfl, scanFrom_chars v _ _ hrest, memberTokens]
    simp
  | (k, v) :: m :: members, done, rest, hrest => by
    rw [memberChars, Octets.ofChars_append, Octets.ofChars_cons_ascii (by decide),
      Octets.ofChars_append, Octets.ofChars_cons_ascii (by decide), List.append_assoc,
      scanFrom_quote, List.cons_append, scanFrom_punctuation (t := .colon) _ _ rfl rfl,
      List.append_assoc, List.cons_append,
      scanFrom_chars v _ _ (closed_cons (by decide) (by decide)),
      scanFrom_punctuation (t := .comma) _ _ rfl rfl,
      scanFrom_memberChars (m :: members) _ _ hrest, memberTokens]
    simp

end

/-! ### Building the document -/

theorem run_cons (p : Progress) (t : Token) (ts : List Token) :
    Progress.run p (t :: ts) = (p.step t).bind fun q => Progress.run q ts := by
  rw [Progress.run]
  cases p.step t <;> rfl

theorem run_singleton (p : Progress) (t : Token) : Progress.run p [t] = p.step t := by
  rw [run_cons]
  exact Option.bind_fun_some _

theorem run_append (p : Progress) (ts us : List Token) :
    Progress.run p (ts ++ us) = (Progress.run p ts).bind fun q => Progress.run q us := by
  induction ts generalizing p with
  | nil => rfl
  | cons t ts ih =>
    rw [List.cons_append, run_cons, run_cons, Option.bind_assoc]
    congr 1
    funext q
    exact ih q

/-- The modes in which a value may begin. -/
def Opens (m : Node.Mode) : Prop := m = .value ∨ m = .firstItem

/-- The modes in which the name of a member may begin. -/
def OpensName (m : Node.Mode) : Prop := m = .firstName ∨ m = .name

theorem step_of_opens {m : Node.Mode} (hm : Opens m) (stack : List Frame) {t : Token}
    (ht : t ≠ .endList) : Progress.step ⟨m, stack⟩ t = Progress.begin stack t := by
  rcases hm with rfl | rfl
  · rfl
  · unfold Progress.step
    split <;> simp_all

theorem step_name {m : Node.Mode} (hm : OpensName m) (acc : List (Octets × Node))
    (stack : List Frame) (raw : Octets) :
    Progress.step ⟨m, .record acc :: stack⟩ (.text raw) =
      some ⟨.colon, .field acc raw :: stack⟩ := by
  rcases hm with rfl | rfl <;> rfl

mutual

/-- The tokens of a value build its document on whatever stack they meet. -/
theorem run_tokens : ∀ (v : Json) (m : Node.Mode) (stack : List Frame), Opens m →
    Progress.run ⟨m, stack⟩ (tokens v) = Progress.place v.node stack
  | null, m, stack, hm => by
    rw [tokens, run_singleton, step_of_opens hm stack (by simp)]
    rfl
  | bool b, m, stack, hm => by
    rw [tokens, run_singleton, step_of_opens hm stack (by simp)]
    rfl
  | int n, m, stack, hm => by
    rw [tokens, run_singleton, step_of_opens hm stack (by simp)]
    rfl
  | text s, m, stack, hm => by
    rw [tokens, run_singleton, step_of_opens hm stack (by simp)]
    rfl
  | list items, m, stack, hm => by
    rw [tokens, run_cons, step_of_opens hm stack (by simp), node]
    -- Only an empty list may end where its first item could begin.
    cases items with
    | nil =>
      exact run_singleton _ _
    | cons v items =>
      refine (run_append _ _ _).trans ?_
      rw [run_itemTokens (v :: items) .firstItem [] stack (.inr rfl) (by simp),
        Option.bind_some, run_singleton]
      simp [Progress.step]
  | record members, m, stack, hm => by
    rw [tokens, run_cons, step_of_opens hm stack (by simp), node]
    -- Only an empty record may end where its first name could begin.
    cases members with
    | nil =>
      exact run_singleton _ _
    | cons kv members =>
      refine (run_append _ _ _).trans ?_
      rw [run_memberTokens (kv :: members) .firstName [] stack (.inl rfl) (by simp),
        Option.bind_some, run_singleton]
      simp [Progress.step]

theorem run_itemTokens : ∀ (items : List Json) (m : Node.Mode) (acc : List Node)
    (stack : List Frame), Opens m → items ≠ [] →
    Progress.run ⟨m, .list acc :: stack⟩ (itemTokens items) =
      some ⟨.separator, .list ((itemNodes items).reverse ++ acc) :: stack⟩
  | [], _, _, _, _, h => absurd rfl h
  | [v], m, acc, stack, hm, _ => run_tokens v m _ hm
  | v :: w :: items, m, acc, stack, hm, _ => by
    rw [itemTokens, run_append, run_tokens v m _ hm]
    simp only [Progress.place, Option.bind_some]
    rw [run_cons]
    simp only [Progress.step, Option.bind_some]
    rw [run_itemTokens (w :: items) .value _ stack (.inl rfl) (by simp), itemNodes.eq_2 v]
    simp

theorem run_memberTokens : ∀ (members : List (String × Json)) (m : Node.Mode)
    (acc : List (Octets × Node)) (stack : List Frame), OpensName m → members ≠ [] →
    Progress.run ⟨m, .record acc :: stack⟩ (memberTokens members) =
      some ⟨.separator, .record ((memberNodes members).reverse ++ acc) :: stack⟩
  | [], _, _, _, _, h => absurd rfl h
  | [(k, v)], m, acc, stack, hm, _ => by
    rw [memberTokens, run_cons, step_name hm, Option.bind_some, run_cons]
    simp only [Progress.step, Option.bind_some]
    exact run_tokens v .value _ (.inl rfl)
  | (k, v) :: kv :: members, m, acc, stack, hm, _ => by
    rw [memberTokens, run_cons, step_name hm, Option.bind_some, run_cons]
    simp only [Progress.step, Option.bind_some]
    rw [run_append, run_tokens v .value _ (.inl rfl)]
    simp only [Progress.place, Option.bind_some]
    rw [run_cons]
    simp only [Progress.step, Option.bind_some]
    rw [run_memberTokens (kv :: members) .name _ stack (.inr rfl) (by simp), memberNodes.eq_2 k v]
    simp

end

/-- The written text of a value reads as its document. -/
theorem parse?_render (v : Json) : Node.parse? (Octets.ofText v.render) = some v.node := by
  have hscan := scanFrom_chars v [] [] closed_nil
  have hrun := run_tokens v .value [] (.inl rfl)
  rw [List.append_nil, List.append_nil, Token.scanFrom, List.reverse_reverse] at hscan
  rw [Node.parse?, render, Octets.ofText_ofList_eq, Token.scan, hscan, Option.bind_some,
    Node.ofTokens?, hrun]
  rfl

/-! ### What the document denotes -/

@[simp] theorem text?_node (s : String) : (node (.text s)).text? = some s := by
  rw [node]
  exact textOfRaw?_rawOf s

theorem int?_node {n : Int} (hlo : -2 ^ 63 ≤ n) (hhi : n < 2 ^ 63) :
    (node (.int n)).int? = some n := by
  have hbound : n < Int.pow 2 63 := hhi
  rw [node, Node.int?, Number.int?_ofInt hlo (by omega), Option.bind_some, if_pos hbound]

@[simp] theorem texts?_node (ss : List String) : (node (texts ss)).texts? = some ss := by
  rw [texts, node, Node.texts?]
  induction ss with
  | nil => rfl
  | cons s ss ih =>
    rw [List.map_cons, itemNodes, List.mapM_cons, text?_node, ih]
    rfl

theorem members?_node (members : List (String × Json)) :
    (node (.record members)).members? = some (members.map fun m => (m.1, node m.2)) := by
  rw [node, Node.members?]
  induction members with
  | nil => rfl
  | cons m members ih =>
    obtain ⟨k, v⟩ := m
    rw [memberNodes, List.mapM_cons, ih]
    simp only [textOfRaw?_rawOf]
    rfl

/-- The items of a list. -/
def Node.items? : Node → Option (List Node)
  | .list items => some items
  | _ => none

/-- The members of a record that holds nothing but texts, in order. -/
def Node.textMembers? (v : Node) : Option (List (String × String)) :=
  v.members?.bind (·.mapM fun m => m.2.text?.map (m.1, ·))

@[simp] theorem items?_node (items : List Json) : (node (.list items)).items? = some (items.map node) := by
  rw [node, Node.items?]
  induction items with
  | nil => rfl
  | cons v items ih => rw [itemNodes, List.map_cons, ← Option.some.inj ih]

@[simp] theorem textMembers?_node (members : List (String × String)) :
    (node (.record (members.map fun m => (m.1, .text m.2)))).textMembers? = some members := by
  rw [Node.textMembers?, members?_node, Option.bind_some, List.map_map]
  induction members with
  | nil => rfl
  | cons m members ih =>
    rw [List.map_cons, List.mapM_cons, ih]
    simp

@[simp] theorem Ending.ofRaw_rawOf (s : String) : Ending.ofRaw (rawOf s) = .sound := by
  rw [Ending.ofRaw, textOfRaw?_rawOf]
  rfl

/-- A record of texts denotes throughout. -/
theorem isPlain_node_texts (depth : Nat) (members : List (String × String)) :
    (node (.record (members.map fun m => (m.1, .text m.2)))).isPlain (depth + 1) = true := by
  have hsound : (node (.record (members.map fun m => (m.1, .text m.2)))).ending (depth + 1) =
      .sound := by
    rw [node, Node.ending]
    induction members with
    | nil => rfl
    | cons m members ih =>
      rw [List.map_cons, memberNodes, Node.endingOfMembers, ih, node, Node.ending,
        Ending.ofRaw_rawOf, textOfRaw?_rawOf]
      rfl
  rw [Node.isPlain, hsound, beq_self_eq_true]

end AccountService.Json
