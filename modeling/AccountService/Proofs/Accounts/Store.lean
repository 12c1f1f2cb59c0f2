import AccountService.Accounts.Store

/-!
# What the store of accounts does

Creation either puts one account under the identifier that was drawn for it or leaves the store
as it is.

## Main statements

* `Accounts.Store.findId?_insert` — an insertion changes what one identifier denotes
* `Accounts.Store.prepare_eq_ok_iff`, `Accounts.Store.enroll_eq_ok_iff` — when an account is made
  ready and when it is enrolled
* `Accounts.Store.create_eq_ok_iff` — when an account is created, and which
* `Accounts.Store.store_of_create_eq_error` — a creation that fails leaves the store as it is
-/

namespace AccountService.Accounts.Store

variable {s s' : Store} {a b : Account} {e e' : Entropy} {n : NewUser} {scheme : PasswordScheme}

/-! ### Insertion -/

/-- What is there after an insertion is what was put there or was there before. -/
theorem eq_or_mem_of_mem_insert (h : b ∈ (s.insert a).accounts) : b = a ∨ b ∈ s.accounts := by
  rw [accounts, insert, List.map_append, List.mem_append] at h
  rcases h with h | h
  · exact .inr ((List.filter_sublist.map Prod.snd).subset h)
  · exact .inl (List.mem_singleton.1 h)

/-- An insertion changes what one identifier denotes. -/
theorem findId?_insert (id : Uuid) :
    (s.insert a).findId? id = if id = a.user.id then some a else s.findId? id := by
  rw [findId?, insert, List.find?_append, List.find?_singleton]
  -- What was under the identifier is taken out before the account is put last.
  by_cases hid : id = a.user.id
  · subst hid
    have hnone : (s.entries.filter (·.1 != a.user.id)).find? (·.1 == a.user.id) = none := by
      rw [List.find?_eq_none]
      intro entry hentry
      have hother := (List.mem_filter.1 hentry).2
      simpa using hother
    rw [hnone, if_pos rfl, if_pos (beq_self_eq_true _), Option.none_or, Option.map_some]
  · have hsame : (s.entries.filter (·.1 != a.user.id)).find? (·.1 == id) =
        s.entries.find? (·.1 == id) := by
      rw [List.find?_filter]
      congr 1
      funext entry
      by_cases hentry : entry.1 = id
      · simp [hentry, hid]
      · simp [hentry]
    have hne : (a.user.id == id) = false := beq_false_of_ne (Ne.symm hid)
    rw [hsame, if_neg hid, hne, if_neg Bool.false_ne_true, Option.or_none, findId?]

/-- An account under an identifier that denoted nothing comes last. -/
theorem entries_insert_of_findId?_eq_none (h : s.findId? a.user.id = none) :
    (s.insert a).entries = s.entries ++ [(a.user.id, a)] := by
  rw [findId?, Option.map_eq_none_iff, List.find?_eq_none] at h
  have hkeep : s.entries.filter (·.1 != a.user.id) = s.entries := by
    rw [List.filter_eq_self]
    intro entry hentry
    have hother := h entry hentry
    simpa using hother
  rw [insert, hkeep]

theorem accounts_insert_of_findId?_eq_none (h : s.findId? a.user.id = none) :
    (s.insert a).accounts = s.accounts ++ [a] := by
  rw [accounts, entries_insert_of_findId?_eq_none h, List.map_append, accounts, List.map_singleton]

/-! ### Creation -/

/-- An account is made ready of a submission that is acceptable and whose password can be hashed,
under the identifier that is drawn for it. -/
theorem prepare_eq_ok_iff :
    n.prepare scheme e = (.ok a, e') ↔
      n.validate = .ok () ∧
        scheme.hash (e.take saltSize).1 n.password = .ok a.password ∧
        a.user = n.toUser (Uuid.draw (e.take saltSize).2).1 ∧
        e' = (Uuid.draw (e.take saltSize).2).2 := by
  obtain ⟨u, password⟩ := a
  rw [NewUser.prepare]
  cases n.validate with
  | error fields => simp
  | ok _ =>
    cases hhash : scheme.hash (e.take saltSize).1 n.password with
    | error detail => simp [hhash]
    | ok hashed =>
      simp only [hhash, Prod.mk.injEq, Except.ok.injEq, Account.mk.injEq, true_and]
      constructor
      · rintro ⟨⟨rfl, rfl⟩, rfl⟩
        exact ⟨rfl, rfl, rfl⟩
      · rintro ⟨rfl, rfl, rfl⟩
        exact ⟨⟨rfl, rfl⟩, rfl⟩

/-- An account is enrolled if its email is not taken. -/
theorem enroll_eq_ok_iff {u : User} :
    s.enroll a = (.ok u, s') ↔ s.findEmail? a.user.email = none ∧ u = a.user ∧ s' = s.insert a := by
  rw [enroll]
  cases s.findEmail? a.user.email with
  | some b => simp
  | none => simp [eq_comm]

/-- An account that is not enrolled leaves the store as it is; its email is taken. -/
theorem enroll_eq_error_iff {err : Error} :
    s.enroll a = (.error err, s') ↔
      (s.findEmail? a.user.email).isSome ∧ err = .duplicateEmail ∧ s' = s := by
  rw [enroll]
  cases s.findEmail? a.user.email with
  | some b => simp [eq_comm]
  | none => simp

theorem create_of_prepare_eq_error (s : Store) {err : Error}
    (h : n.prepare scheme e = (.error err, e')) : s.create scheme n e = (.error err, s, e') := by
  rw [create, h]

theorem create_of_prepare_eq_ok (s : Store) (h : n.prepare scheme e = (.ok a, e')) :
    s.create scheme n e = ((s.enroll a).1, (s.enroll a).2, e') := by
  rw [create, h]

/-- An account is created of a submission that is acceptable, whose password can be hashed, and
whose email is not taken. -/
theorem create_eq_ok_iff {u : User} :
    create scheme n s e = (.ok u, s', e') ↔
      n.validate = .ok () ∧ ∃ password,
        scheme.hash (e.take saltSize).1 n.password = .ok password ∧
        u = n.toUser (Uuid.draw (e.take saltSize).2).1 ∧ s.findEmail? u.email = none ∧
        s' = s.insert ⟨u, password⟩ ∧ e' = (Uuid.draw (e.take saltSize).2).2 := by
  rw [create]
  rcases hprepare : n.prepare scheme e with ⟨err | a, e₁⟩
  · simp only [Prod.mk.injEq, reduceCtorEq, false_and, false_iff]
    rintro ⟨hvalid, password, hhash, rfl, _, _, _⟩
    have hready := (prepare_eq_ok_iff (a := ⟨_, password⟩)).2 ⟨hvalid, hhash, rfl, rfl⟩
    rw [hready] at hprepare
    cases hprepare
  · obtain ⟨hvalid, hhash, huser, rfl⟩ := prepare_eq_ok_iff.1 hprepare
    obtain ⟨u', password⟩ := a
    rcases henroll : s.enroll ⟨u', password⟩ with ⟨result, s₁⟩
    simp only [henroll, Prod.mk.injEq]
    constructor
    · rintro ⟨rfl, rfl, rfl⟩
      obtain ⟨hfree, rfl, rfl⟩ := enroll_eq_ok_iff.1 henroll
      exact ⟨hvalid, password, hhash, huser, hfree, rfl, rfl⟩
    · rintro ⟨-, password', hhash', hu, hfree, rfl, rfl⟩
      -- Hashing and drawing give one result each, so this is the account that was made ready.
      obtain rfl : u' = u := huser.trans hu.symm
      obtain rfl : password = password' := Except.ok.inj (hhash.symm.trans hhash')
      obtain ⟨rfl, rfl⟩ := Prod.mk.inj (henroll.symm.trans (enroll_eq_ok_iff.2 ⟨hfree, rfl, rfl⟩))
      exact ⟨rfl, rfl, rfl⟩

/-- An email is free if no account has it. -/
theorem findEmail?_eq_none_iff {email : String} :
    s.findEmail? email = none ↔
      ∀ a ∈ s.accounts, Text.eqIgnoringCase a.user.email email = false := by
  rw [findEmail?, List.find?_eq_none]
  simp only [Bool.not_eq_true]

/-- If its password can be hashed, an account is created of every acceptable submission whose email
no account has. -/
theorem exists_create_eq_ok_iff {password : PasswordHash}
    (hhash : scheme.hash (e.take saltSize).1 n.password = .ok password) :
    (∃ u s' e', s.create scheme n e = (.ok u, s', e')) ↔
      n.validate = .ok () ∧
        ∀ a ∈ s.accounts, Text.eqIgnoringCase a.user.email (Text.trim n.email) = false := by
  rw [← findEmail?_eq_none_iff]
  constructor
  · rintro ⟨u, s', e', hcreate⟩
    obtain ⟨hvalid, _, _, rfl, hfree, -, -⟩ := create_eq_ok_iff.1 hcreate
    exact ⟨hvalid, hfree⟩
  · rintro ⟨hvalid, hfree⟩
    exact ⟨_, _, _, create_eq_ok_iff.2 ⟨hvalid, password, hhash, rfl, hfree, rfl, rfl⟩⟩

/-- A creation that fails leaves the store as it is. -/
theorem store_of_create_eq_error {err : Error} (h : create scheme n s e = (.error err, s', e')) :
    s' = s := by
  rw [create] at h
  rcases hprepare : n.prepare scheme e with ⟨err' | a, e₁⟩
  · rw [hprepare] at h
    cases h
    rfl
  · rcases henroll : s.enroll a with ⟨result, s₁⟩
    simp only [hprepare, henroll, Prod.mk.injEq] at h
    obtain ⟨rfl, rfl, rfl⟩ := h
    exact (enroll_eq_error_iff.1 henroll).2.2

/-- The account of an identifier is shown if a text denotes it. -/
theorem byId_eq_ok_iff {text : String} {u : User} :
    s.byId text = .ok u ↔
      ∃ id a, Uuid.parse? text = some id ∧ s.findId? id = some a ∧ a.user = u := by
  rw [byId]
  cases Uuid.parse? text with
  | none => simp
  | some id => cases h : s.findId? id <;> simp [h]

/-- The account of an email is shown if it is there. -/
theorem byEmail_eq_ok_iff {email : String} {u : User} :
    s.byEmail email = .ok u ↔ ∃ a, s.findEmail? email = some a ∧ a.user = u := by
  rw [byEmail]
  cases s.findEmail? email <;> simp

/-- Credentials are those of the account of an email if the password verifies. -/
theorem authenticate_eq_ok_iff {email password : String} {u : User} :
    s.authenticate scheme email password = .ok u ↔
      ∃ a, s.findEmail? email = some a ∧ scheme.verify password a.password = true ∧
        a.user = u := by
  rw [authenticate]
  cases s.findEmail? email with
  | none => simp
  | some a => cases hverify : scheme.verify password a.password <;> simp [hverify]

/-- Why credentials are refused is not told. -/
theorem eq_of_authenticate_eq_error {email password : String} {err : Error}
    (h : s.authenticate scheme email password = .error err) : err = .invalidCredentials := by
  rw [authenticate] at h
  split at h
  · exact (Except.error.inj h).symm
  · split at h
    · cases h
    · exact (Except.error.inj h).symm

end AccountService.Accounts.Store
