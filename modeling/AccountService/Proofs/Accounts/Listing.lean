import AccountService.Proofs.Accounts.Store
import Mathlib.Data.List.Forall2

/-!
# What of a store does not depend on the passwords

A store is listed by what is shown of its accounts. Everything that can be asked of a store but
whether credentials are right can be read off the list, and two stores that were filled with
accounts that differ only in their passwords have one list.

## Main definitions

* `Accounts.Store.listing` — what is shown of the accounts, under their identifiers
* `Accounts.drawnFor` — the identifier that is drawn for an account
* `Accounts.NewUser.Twins` — submissions that differ only in their passwords
* `Accounts.Store.filled` — the store after several creations

## Main statements

* `Accounts.Store.byId_congr`, `Accounts.Store.byEmail_congr` — what is looked up in the list
* `Accounts.Store.create_congr` — a creation, told by the list
* `Accounts.Store.listing_filled` — creations that differ only in the passwords
-/

namespace AccountService.Accounts

/-- The identifier that is drawn for an account. -/
def drawnFor (e : Entropy) : Uuid := (Uuid.draw (e.take saltSize).2).1

namespace Store

/-- What is shown of the accounts, under their identifiers. -/
def listing (s : Store) : List (Uuid × User) := s.entries.map fun entry => (entry.1, entry.2.user)

variable {s s' : Store}

/-! ### Looking up -/

theorem findId?_listing (s : Store) (id : Uuid) :
    (s.findId? id).map (·.user) = (s.listing.find? (·.1 == id)).map Prod.snd := by
  rw [listing, List.find?_map, findId?, Option.map_map, Option.map_map]
  rfl

theorem findEmail?_listing (s : Store) (email : String) :
    (s.findEmail? email).map (·.user) =
      (s.listing.find? fun shown => Text.eqIgnoringCase shown.2.email email).map Prod.snd := by
  rw [listing, List.find?_map, findEmail?, accounts, List.find?_map, Option.map_map, Option.map_map]
  rfl

theorem findEmail?_isSome_congr (h : s.listing = s'.listing) (email : String) :
    (s.findEmail? email).isSome = (s'.findEmail? email).isSome := by
  rw [← Option.isSome_map, findEmail?_listing, h, ← findEmail?_listing, Option.isSome_map]

/-- The account of an identifier is read off the list. -/
theorem byId_eq (s : Store) (text : String) :
    s.byId text =
      match Uuid.parse? text with
      | none => .error .invalidId
      | some id =>
        ((s.listing.find? (·.1 == id)).map Prod.snd).elim (.error .notFound) .ok := by
  rw [byId]
  cases Uuid.parse? text with
  | none => rfl
  | some id =>
    dsimp only
    rw [← findId?_listing]
    cases s.findId? id <;> rfl

/-- The account of an email is read off the list. -/
theorem byEmail_eq (s : Store) (email : String) :
    s.byEmail email =
      ((s.listing.find? fun shown => Text.eqIgnoringCase shown.2.email email).map Prod.snd).elim
        (.error .notFound) .ok := by
  rw [byEmail, ← findEmail?_listing]
  cases s.findEmail? email <;> rfl

theorem byId_congr (h : s.listing = s'.listing) (text : String) : s.byId text = s'.byId text := by
  rw [byId_eq, byId_eq, h]

theorem byEmail_congr (h : s.listing = s'.listing) (email : String) :
    s.byEmail email = s'.byEmail email := by
  rw [byEmail_eq, byEmail_eq, h]

/-! ### Creation -/

variable {a a' : Account} {n n' : NewUser} {e e' : Entropy} {scheme : PasswordScheme}

theorem listing_insert (a : Account) (s : Store) :
    (s.insert a).listing = s.listing.filter (·.1 != a.user.id) ++ [(a.user.id, a.user)] := by
  rw [listing, insert, List.map_append, listing, List.filter_map]
  rfl

theorem enroll_eq (a : Account) (s : Store) :
    s.enroll a =
      if (s.findEmail? a.user.email).isSome then (.error .duplicateEmail, s)
      else (.ok a.user, s.insert a) := by
  rw [enroll]
  cases s.findEmail? a.user.email <;> rfl

/-- Whether an account is enrolled, and the list after that, depend on what is shown of it. -/
theorem enroll_congr (h : s.listing = s'.listing) (huser : a.user = a'.user) :
    (s.enroll a).1 = (s'.enroll a').1 ∧ (s.enroll a).2.listing = (s'.enroll a').2.listing := by
  rw [enroll_eq, enroll_eq, ← huser, findEmail?_isSome_congr h]
  split
  · exact ⟨rfl, h⟩
  · refine ⟨rfl, ?_⟩
    rw [listing_insert, listing_insert, huser, h]

/-- A creation, told by the list: it depends on the list, on what is wrong with the submission, on
what would be shown of the account, and on the identifier that is drawn for it, as long as
passwords can be hashed. -/
theorem create_congr (hhash : ∀ salt password, ∃ hash, scheme.hash salt password = .ok hash)
    (h : s.listing = s'.listing) (hvalidate : n.validate = n'.validate)
    (huser : ∀ id, n.toUser id = n'.toUser id)
    (hdrawn : n.validate = .ok () → drawnFor e = drawnFor e') :
    (s.create scheme n e).1 = (s'.create scheme n' e').1 ∧
      (s.create scheme n e).2.1.listing = (s'.create scheme n' e').2.1.listing := by
  cases hvalid : n.validate with
  | error fields =>
    have hrefused : n.prepare scheme e = (.error (.validation fields), e) := by
      rw [NewUser.prepare, hvalid]
    have hrefused' : n'.prepare scheme e' = (.error (.validation fields), e') := by
      rw [NewUser.prepare, ← hvalidate, hvalid]
    rw [create_of_prepare_eq_error s hrefused, create_of_prepare_eq_error s' hrefused']
    exact ⟨rfl, h⟩
  | ok _ =>
    obtain ⟨password, hpassword⟩ := hhash (e.take saltSize).1 n.password
    obtain ⟨password', hpassword'⟩ := hhash (e'.take saltSize).1 n'.password
    have hready := (prepare_eq_ok_iff (a := ⟨n.toUser (drawnFor e), password⟩)).2
      ⟨hvalid, hpassword, rfl, rfl⟩
    have hready' := (prepare_eq_ok_iff (a := ⟨n'.toUser (drawnFor e'), password'⟩)).2
      ⟨hvalidate ▸ hvalid, hpassword', rfl, rfl⟩
    rw [create_of_prepare_eq_ok s hready, create_of_prepare_eq_ok s' hready']
    refine enroll_congr h ?_
    rw [hdrawn hvalid, huser]

end Store

/-! ### Submissions that differ in their passwords -/

/-- Submissions that differ only in their passwords, both of them acceptable as such: neither is
blank, and both are given twice. -/
structure NewUser.Twins (n n' : NewUser) : Prop where
  name : n.name = n'.name
  email : n.email = n'.email
  role : n.role = n'.role
  unblank : Text.isBlankText n.password = false
  unblank' : Text.isBlankText n'.password = false
  confirmed : n.password = n.passwordConfirm
  confirmed' : n'.password = n'.passwordConfirm

/-- What is wrong with a submission does not tell which acceptable password it has. -/
theorem NewUser.Twins.validate_eq {n n' : NewUser} (h : n.Twins n') : n.validate = n'.validate := by
  have hproblems : n.problems = n'.problems := by
    simp only [problems, h.name, h.email, h.role, h.unblank, h.unblank', ← h.confirmed,
      ← h.confirmed', bne_self_eq_false]
  rw [validate, validate, hproblems]

theorem NewUser.Twins.toUser_eq {n n' : NewUser} (h : n.Twins n') (id : Uuid) :
    n.toUser id = n'.toUser id := by
  rw [toUser, toUser, h.name, h.email, h.role]

/-- The store after several creations, each with randomness of its own. -/
def Store.filled (scheme : PasswordScheme) (calls : List (NewUser × Entropy)) : Store :=
  calls.foldl (fun s call => (s.create scheme call.1 call.2).2.1) .empty

/-- Creations that differ only in the passwords, with the same identifier drawn for each account
that is made ready. -/
def Paralleled (calls calls' : List (NewUser × Entropy)) : Prop :=
  List.Forall₂
    (fun call call' => call.1.Twins call'.1 ∧
      (call.1.validate = .ok () → drawnFor call.2 = drawnFor call'.2))
    calls calls'

/-- Creations that differ only in the passwords leave one list. -/
theorem Store.listing_filled {scheme : PasswordScheme}
    (hhash : ∀ salt password, ∃ hash, scheme.hash salt password = .ok hash)
    {calls calls' : List (NewUser × Entropy)} (h : Paralleled calls calls') :
    (filled scheme calls).listing = (filled scheme calls').listing := by
  -- On the calls, from whatever stores of one list they start.
  have hfold (s s' : Store) (hlisting : s.listing = s'.listing) :
      (calls.foldl (fun s call => (s.create scheme call.1 call.2).2.1) s).listing =
        (calls'.foldl (fun s call => (s.create scheme call.1 call.2).2.1) s').listing := by
    unfold Paralleled at h
    induction h generalizing s s' with
    | nil => exact hlisting
    | cons hcall _ ih =>
      obtain ⟨htwins, hdrawn⟩ := hcall
      exact ih _ _ (create_congr hhash hlisting htwins.validate_eq htwins.toUser_eq hdrawn).2
  exact hfold .empty .empty rfl

end AccountService.Accounts
