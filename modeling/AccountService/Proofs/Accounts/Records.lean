import Mathlib.Data.List.Pairwise
import AccountService.Proofs.Accounts.Store
import AccountService.Proofs.Find
import AccountService.Proofs.Text.Blank
import AccountService.Proofs.Uuid

/-!
# What a store keeps of its registrations

A store that started empty is told by the registrations that succeeded since then: it keeps an
account for each of them, under the identifier that was drawn, and nothing else. An identifier is
random; if it is drawn a second time, the later registration is the one that stands.

No two accounts have emails that are equal up to the case of ASCII letters. Therefore the answer of
a search does not depend on the order in which the accounts are searched.

## Main definitions

* `Accounts.User.Proper`, `Accounts.Store.Orderly` — accounts and stores as they should be
* `Accounts.Registration`, `Accounts.Stands` — registrations, and those that still count
* `Accounts.Registration.Acceptable` — a registration of an acceptable submission
* `Accounts.Records` — a store keeps the registrations that stand

## Main statements

* `Accounts.Records.insert`, `Accounts.Records.create` — one more registration
* `Accounts.Records.byId_eq_ok_iff`, `Accounts.Records.byEmail_eq_ok_iff`,
  `Accounts.Records.authenticate_eq_ok_iff` — answers of the store in terms of registrations
-/

namespace AccountService.Accounts

/-! ### Accounts as they should be -/

/-- An account that is trimmed, is addressed, and has a role. -/
structure User.Proper (u : User) : Prop where
  name_trimmed : Text.trim u.name = u.name
  name_ne : u.name ≠ ""
  email_trimmed : Text.trim u.email = u.email
  email_ne : u.email ≠ ""
  at_mem : '@' ∈ u.email.toList
  role_mem : u.role ∈ Auth.knownRoles

/-- A submission is acceptable if none of its fields has a problem. -/
theorem NewUser.validate_eq_ok_iff {n : NewUser} :
    n.validate = .ok () ↔
      Text.isBlankText n.name = false ∧ Text.isBlankText n.email = false ∧
        '@' ∈ n.email.toList ∧ n.role ∈ Auth.knownRoles ∧
        Text.isBlankText n.password = false ∧ n.password = n.passwordConfirm := by
  have hproblem (holds : Bool) (field error : String) :
      problem holds field error = [] ↔ holds = false := by cases holds <;> simp [problem]
  have hvalid : n.validate = .ok () ↔ n.problems = [] := by
    rw [validate]
    split
    · next h => simpa using h
    · next h => simpa using h
  rw [hvalid, problems]
  simp only [List.append_eq_nil_iff, hproblem, Bool.and_eq_false_iff, Bool.not_eq_false',
    List.contains_iff_mem, bne_eq_false_iff_eq, and_assoc]
  constructor
  · rintro ⟨hname, hemail, hat, hrole, hpassword, hconfirm⟩
    exact ⟨hname, hemail, hat.resolve_left (by simp [hemail]), hrole, hpassword, hconfirm⟩
  · rintro ⟨hname, hemail, hat, hrole, hpassword, hconfirm⟩
    exact ⟨hname, hemail, .inr hat, hrole, hpassword, hconfirm⟩

/-- What an acceptable submission makes is as it should be. -/
theorem NewUser.proper_toUser {n : NewUser} (h : n.validate = .ok ()) (id : Uuid) :
    (n.toUser id).Proper := by
  obtain ⟨hname, hemail, hat, hrole, -, -⟩ := validate_eq_ok_iff.1 h
  exact
    { name_trimmed := Text.trim_trim _
      name_ne := Text.trim_ne_empty_iff.2 hname
      email_trimmed := Text.trim_trim _
      email_ne := Text.trim_ne_empty_iff.2 hemail
      at_mem := Text.mem_toList_trim hat (by decide)
      role_mem := hrole }

namespace Store

variable {s s' : Store} {a b : Account}

/-- A store as it should be: every account is under its own identifier, which no other is under,
and has an email of its own. -/
structure Orderly (s : Store) : Prop where
  keyed : ∀ entry ∈ s.entries, entry.2.user.id = entry.1
  keys : s.entries.Pairwise fun entry entry' => entry.1 ≠ entry'.1
  emails : s.accounts.Pairwise fun a b => Text.eqIgnoringCase a.user.email b.user.email = false
  proper : ∀ a ∈ s.accounts, a.user.Proper

theorem orderly_empty : empty.Orderly :=
  ⟨fun _ h => (List.not_mem_nil h).elim, .nil, .nil, fun _ h => (List.not_mem_nil h).elim⟩

/-- An account that is there is under its identifier. -/
theorem Orderly.mem_accounts_iff (h : s.Orderly) :
    a ∈ s.accounts ↔ (a.user.id, a) ∈ s.entries := by
  rw [accounts, List.mem_map]
  constructor
  · rintro ⟨⟨id, a⟩, hentry, rfl⟩
    obtain rfl : a.user.id = id := h.keyed _ hentry
    exact hentry
  · intro hentry
    exact ⟨_, hentry, rfl⟩

/-- An insertion replaces what was under the identifier of the account. -/
theorem Orderly.mem_insert (h : s.Orderly) :
    b ∈ (s.insert a).accounts ↔ b = a ∨ b ∈ s.accounts ∧ b.user.id ≠ a.user.id := by
  rw [accounts, insert, List.map_append, List.mem_append, List.map_singleton, List.mem_singleton,
    or_comm, List.mem_map]
  refine or_congr_right ⟨?_, ?_⟩
  · rintro ⟨⟨id, b⟩, hentry, rfl⟩
    obtain ⟨hthere, hne⟩ := List.mem_filter.1 hentry
    obtain rfl : b.user.id = id := h.keyed _ hthere
    exact ⟨List.mem_map.2 ⟨_, hthere, rfl⟩, bne_iff_ne.1 hne⟩
  · rintro ⟨hthere, hne⟩
    exact ⟨_, List.mem_filter.2 ⟨h.mem_accounts_iff.1 hthere, bne_iff_ne.2 hne⟩, rfl⟩

/-- An account with a free email is put into its place. -/
theorem Orderly.insert (h : s.Orderly) (hproper : a.user.Proper)
    (hfree : s.findEmail? a.user.email = none) : (s.insert a).Orderly := by
  rw [findEmail?_eq_none_iff] at hfree
  have hsub : (s.entries.filter (·.1 != a.user.id)).Sublist s.entries := List.filter_sublist
  refine ⟨fun entry hentry => ?_, ?_, ?_, fun b hb => ?_⟩
  · rcases List.mem_append.1 hentry with hentry | hentry
    · exact h.keyed entry (hsub.subset hentry)
    · obtain rfl := List.mem_singleton.1 hentry
      rfl
  · rw [Store.insert, List.pairwise_append]
    refine ⟨h.keys.sublist hsub, List.pairwise_singleton _ _, fun entry hentry entry' hlast => ?_⟩
    obtain rfl := List.mem_singleton.1 hlast
    exact bne_iff_ne.1 (List.mem_filter.1 hentry).2
  · rw [accounts, Store.insert, List.map_append, List.pairwise_append]
    have hsub' := hsub.map Prod.snd
    refine ⟨h.emails.sublist hsub', List.pairwise_singleton _ _, fun b hb c hc => ?_⟩
    obtain rfl := List.mem_singleton.1 hc
    exact hfree b (hsub'.subset hb)
  · obtain rfl | hthere := eq_or_mem_of_mem_insert hb
    · exact hproper
    · exact h.proper b hthere

/-- The order of the accounts does not matter. -/
theorem Orderly.perm (h : s.Orderly) {entries : List (Uuid × Account)}
    (hperm : entries.Perm s.entries) : Orderly ⟨entries⟩ where
  keyed entry hentry := h.keyed entry (hperm.subset hentry)
  keys := (hperm.pairwise_iff fun hne => Ne.symm hne).2 h.keys
  emails := ((hperm.map Prod.snd).pairwise_iff fun {x y} hne => by
    rw [Text.eqIgnoringCase_comm, hne]).2 h.emails
  proper a ha := h.proper a ((hperm.map Prod.snd).subset ha)

/-- Two accounts with one email are one account. -/
theorem Orderly.eq_of_email_eq (h : s.Orderly) (ha : a ∈ s.accounts) (hb : b ∈ s.accounts)
    (hemail : Text.eqIgnoringCase a.user.email b.user.email = true) : a = b := by
  by_contra hne
  have hsymm : Std.Symm fun a b : Account =>
      Text.eqIgnoringCase a.user.email b.user.email = false :=
    ⟨fun a b hab => by rw [Text.eqIgnoringCase_comm, hab]⟩
  rw [h.emails.forall ha hb hne] at hemail
  cases hemail

theorem Orderly.findEmail?_eq_some_iff (h : s.Orderly) {email : String} :
    s.findEmail? email = some a ↔
      a ∈ s.accounts ∧ Text.eqIgnoringCase a.user.email email = true := by
  apply find?_eq_some_iff_of_unique
  intro b hb c hc hpb hpc
  rw [Text.eqIgnoringCase_iff] at hpb hpc
  exact h.eq_of_email_eq hb hc ((Text.eqIgnoringCase_iff _ _).2 (hpb.trans hpc.symm))

theorem Orderly.findId?_eq_some_iff (h : s.Orderly) {id : Uuid} :
    s.findId? id = some a ↔ a ∈ s.accounts ∧ a.user.id = id := by
  have hunique : ∀ x ∈ s.entries, ∀ y ∈ s.entries, (x.1 == id) = true → (y.1 == id) = true →
      x = y := by
    intro x hx y hy hxid hyid
    by_contra hne
    have hsymm : Std.Symm fun x y : Uuid × Account => x.1 ≠ y.1 := ⟨fun _ _ => Ne.symm⟩
    exact h.keys.forall hx hy hne ((beq_iff_eq.1 hxid).trans (beq_iff_eq.1 hyid).symm)
  rw [findId?, Option.map_eq_some_iff, h.mem_accounts_iff]
  constructor
  · rintro ⟨⟨id', a⟩, hfind, rfl⟩
    obtain ⟨hentry, hid⟩ := (find?_eq_some_iff_of_unique hunique).1 hfind
    obtain rfl : a.user.id = id' := h.keyed _ hentry
    exact ⟨hentry, beq_iff_eq.1 hid⟩
  · rintro ⟨hentry, rfl⟩
    exact ⟨_, (find?_eq_some_iff_of_unique hunique).2 ⟨hentry, beq_self_eq_true _⟩, rfl⟩

end Store

/-! ### Registrations -/

/-- An account that was created: what was submitted for it, and who was shown. -/
structure Registration where
  submission : NewUser
  user : User
  deriving DecidableEq

/-- A registration is of an acceptable submission and shows the account that this makes. -/
def Registration.Acceptable (m : Registration) : Prop :=
  m.submission.validate = .ok () ∧ ∃ id, m.user = m.submission.toUser id

theorem acceptable_of_create {scheme : PasswordScheme} {n : NewUser} {u : User} {s s' : Store}
    {e e' : Entropy} (h : s.create scheme n e = (.ok u, s', e')) :
    Registration.Acceptable ⟨n, u⟩ := by
  obtain ⟨hvalid, -, -, huser, -⟩ := Store.create_eq_ok_iff.1 h
  exact ⟨hvalid, _, huser⟩

/-- The email of an account is that of its submission without the blanks around it. -/
theorem Registration.Acceptable.email {m : Registration} (h : m.Acceptable) :
    m.user.email = Text.trim m.submission.email := by
  obtain ⟨-, id, huser⟩ := h
  rw [huser]
  rfl

theorem Registration.Acceptable.proper {m : Registration} (h : m.Acceptable) : m.user.Proper := by
  obtain ⟨hvalid, id, huser⟩ := h
  rw [huser]
  exact NewUser.proper_toUser hvalid id

/-- An account is what is kept of a registration: who was shown, and the password that was
submitted in the form in which it is kept. -/
structure Registration.Keeps (scheme : PasswordScheme) (m : Registration) (a : Account) : Prop where
  user : a.user = m.user
  password : ∃ salt, scheme.hash salt m.submission.password = .ok a.password

/-- A registration stands as long as its identifier is not drawn again. -/
def Stands (ms : List Registration) (m : Registration) : Prop :=
  ∃ before later, ms = before ++ m :: later ∧ ∀ m' ∈ later, m'.user.id ≠ m.user.id

theorem stands_append_singleton {ms : List Registration} {m m' : Registration} :
    Stands (ms ++ [m]) m' ↔ m' = m ∨ Stands ms m' ∧ m'.user.id ≠ m.user.id := by
  constructor
  · rintro ⟨before, later, heq, hlater⟩
    rcases List.eq_nil_or_concat later with rfl | ⟨rest, last, rfl⟩
    · obtain ⟨-, hm⟩ := List.append_inj' heq rfl
      exact .inl (List.cons.inj hm).1.symm
    · rw [List.concat_eq_append] at heq hlater
      rw [← List.cons_append, ← List.append_assoc] at heq
      obtain ⟨rfl, hm⟩ := List.append_inj' heq rfl
      obtain rfl := (List.cons.inj hm).1
      refine .inr ⟨⟨before, rest, rfl, fun m₁ hm₁ => ?_⟩, fun hsame => ?_⟩
      · exact hlater m₁ (List.mem_append_left _ hm₁)
      · exact hlater m (List.mem_append_right _ (List.mem_singleton_self m)) hsame.symm
  · rintro (rfl | ⟨⟨before, later, rfl, hlater⟩, hne⟩)
    · exact ⟨ms, [], rfl, fun _ h => (List.not_mem_nil h).elim⟩
    · refine ⟨before, later ++ [m], by simp, fun m₁ hm₁ => ?_⟩
      rcases List.mem_append.1 hm₁ with hm₁ | hm₁
      · exact hlater m₁ hm₁
      · obtain rfl := List.mem_singleton.1 hm₁
        exact Ne.symm hne

theorem Stands.mem {ms : List Registration} {m : Registration} (h : Stands ms m) : m ∈ ms := by
  obtain ⟨before, later, rfl, -⟩ := h
  exact List.mem_append_right _ List.mem_cons_self

/-- As long as no identifier is drawn twice, every registration stands. -/
theorem stands_iff_mem {ms : List Registration} (h : (ms.map (·.user.id)).Nodup)
    {m : Registration} : Stands ms m ↔ m ∈ ms := by
  refine ⟨Stands.mem, fun hm => ?_⟩
  obtain ⟨before, later, rfl⟩ := List.append_of_mem hm
  refine ⟨before, later, rfl, fun m' hm' hsame => ?_⟩
  rw [List.map_append, List.map_cons] at h
  have hnot := (List.nodup_cons.1 (List.nodup_append.1 h).2.1).1
  exact hnot (hsame ▸ List.mem_map_of_mem hm')

/-- A store keeps the registrations that stand, and nothing else. -/
structure Records (scheme : PasswordScheme) (ms : List Registration) (s : Store) : Prop where
  orderly : s.Orderly
  sound : ∀ a ∈ s.accounts, ∃ m, Stands ms m ∧ m.Keeps scheme a
  complete : ∀ m, Stands ms m → ∃ a ∈ s.accounts, m.Keeps scheme a

variable {scheme : PasswordScheme} {ms : List Registration} {s s' : Store}

/-- A scheme that keeps every password as it is. -/
def PasswordScheme.plain : PasswordScheme where
  hash salt password := .ok ⟨salt, Octets.ofText password⟩
  verify password h := Octets.ofText password == h.digest

theorem PasswordScheme.faithful_plain : PasswordScheme.plain.Faithful := by
  intro salt p q h hhash
  obtain rfl := Except.ok.inj hhash
  exact beq_iff_eq.trans ⟨Octets.ofText_injective, congrArg Octets.ofText⟩

theorem records_empty : Records scheme [] .empty := by
  refine ⟨Store.orderly_empty, fun a ha => (List.not_mem_nil ha).elim, ?_⟩
  rintro m ⟨before, later, heq, -⟩
  exact absurd heq.symm (by simp)

namespace Records

/-- The order of the accounts does not matter. -/
theorem perm (h : Records scheme ms s) {entries : List (Uuid × Account)}
    (hperm : entries.Perm s.entries) : Records scheme ms ⟨entries⟩ where
  orderly := h.orderly.perm hperm
  sound a ha := h.sound a ((hperm.map Prod.snd).subset ha)
  complete m hm := by
    obtain ⟨a, ha, hkeeps⟩ := h.complete m hm
    exact ⟨a, (hperm.map Prod.snd).symm.subset ha, hkeeps⟩

/-- An account that is enrolled is one more registration. -/
theorem insert (h : Records scheme ms s) {m : Registration} {a : Account}
    (hkeeps : m.Keeps scheme a) (hproper : a.user.Proper)
    (hfree : s.findEmail? a.user.email = none) : Records scheme (ms ++ [m]) (s.insert a) := by
  refine ⟨h.orderly.insert hproper hfree, fun b hb => ?_, fun m' hm' => ?_⟩
  · obtain rfl | ⟨hthere, hne⟩ := h.orderly.mem_insert.1 hb
    · exact ⟨m, stands_append_singleton.2 (.inl rfl), hkeeps⟩
    · obtain ⟨m', hstands, hkeeps'⟩ := h.sound b hthere
      rw [hkeeps'.user, hkeeps.user] at hne
      exact ⟨m', stands_append_singleton.2 (.inr ⟨hstands, hne⟩), hkeeps'⟩
  -- A registration stands beside the new one if its account was not replaced.
  · obtain rfl | ⟨hstands, hne⟩ := stands_append_singleton.1 hm'
    · exact ⟨a, h.orderly.mem_insert.2 (.inl rfl), hkeeps⟩
    · obtain ⟨b, hb, hkeeps'⟩ := h.complete m' hstands
      rw [← hkeeps'.user, ← hkeeps.user] at hne
      exact ⟨b, h.orderly.mem_insert.2 (.inr ⟨hb, hne⟩), hkeeps'⟩

/-- A creation that succeeds is one more registration. -/
theorem create (h : Records scheme ms s) {n : NewUser} {u : User} {e e' : Entropy}
    (hcreate : Store.create scheme n s e = (.ok u, s', e')) :
    Records scheme (ms ++ [⟨n, u⟩]) s' := by
  obtain ⟨hvalid, password, hhash, rfl, hfree, rfl, -⟩ := Store.create_eq_ok_iff.1 hcreate
  exact h.insert ⟨rfl, _, hhash⟩ (NewUser.proper_toUser hvalid _) hfree

/-! ### Answers -/

/-- The account of an identifier is that of the registration that it stands for. -/
theorem byId_eq_ok_iff (h : Records scheme ms s) {text : String} {u : User} :
    s.byId text = .ok u ↔ ∃ m, Stands ms m ∧ m.user = u ∧ Uuid.parse? text = some u.id := by
  rw [Store.byId_eq_ok_iff]
  constructor
  · rintro ⟨id, a, hparse, hfind, rfl⟩
    obtain ⟨ha, rfl⟩ := h.orderly.findId?_eq_some_iff.1 hfind
    obtain ⟨m, hstands, hkeeps⟩ := h.sound a ha
    exact ⟨m, hstands, hkeeps.user.symm, hparse⟩
  · rintro ⟨m, hstands, rfl, hparse⟩
    obtain ⟨a, ha, hkeeps⟩ := h.complete m hstands
    have hfind := h.orderly.findId?_eq_some_iff.2 ⟨ha, congrArg User.id hkeeps.user⟩
    exact ⟨_, a, hparse, hfind, hkeeps.user⟩

/-- The account of an email is that of the registration that has it. -/
theorem byEmail_eq_ok_iff (h : Records scheme ms s) {email : String} {u : User} :
    s.byEmail email = .ok u ↔
      ∃ m, Stands ms m ∧ m.user = u ∧ Text.eqIgnoringCase u.email email = true := by
  rw [Store.byEmail_eq_ok_iff]
  constructor
  · rintro ⟨a, hfind, rfl⟩
    obtain ⟨ha, hemail⟩ := h.orderly.findEmail?_eq_some_iff.1 hfind
    obtain ⟨m, hstands, hkeeps⟩ := h.sound a ha
    exact ⟨m, hstands, hkeeps.user.symm, hemail⟩
  · rintro ⟨m, hstands, rfl, hemail⟩
    obtain ⟨a, ha, hkeeps⟩ := h.complete m hstands
    rw [← hkeeps.user] at hemail
    exact ⟨a, h.orderly.findEmail?_eq_some_iff.2 ⟨ha, hemail⟩, hkeeps.user⟩

/-- Credentials are those of an account if they are the email and the password of a registration
that stands. -/
theorem authenticate_eq_ok_iff (hfaithful : scheme.Faithful) (h : Records scheme ms s)
    {email password : String} {u : User} :
    s.authenticate scheme email password = .ok u ↔
      ∃ m, Stands ms m ∧ m.user = u ∧ Text.eqIgnoringCase u.email email = true ∧
        m.submission.password = password := by
  rw [Store.authenticate_eq_ok_iff]
  constructor
  · rintro ⟨a, hfind, hverify, rfl⟩
    obtain ⟨ha, hemail⟩ := h.orderly.findEmail?_eq_some_iff.1 hfind
    obtain ⟨m, hstands, hkeeps⟩ := h.sound a ha
    obtain ⟨salt, hhash⟩ := hkeeps.password
    have hpassword := (hfaithful _ _ _ _ hhash).1 hverify
    exact ⟨m, hstands, hkeeps.user.symm, hemail, hpassword.symm⟩
  · rintro ⟨m, hstands, rfl, hemail, rfl⟩
    obtain ⟨a, ha, hkeeps⟩ := h.complete m hstands
    obtain ⟨salt, hhash⟩ := hkeeps.password
    rw [← hkeeps.user] at hemail
    have hverify := (hfaithful _ _ _ _ hhash).2 rfl
    exact ⟨a, h.orderly.findEmail?_eq_some_iff.2 ⟨ha, hemail⟩, hverify, hkeeps.user⟩

end Records

end AccountService.Accounts
