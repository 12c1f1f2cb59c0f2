import AccountService.Proofs.Accounts.Records
import AccountService.Proofs.Json.RoundTrip
import AccountService.Proofs.Service.Access

/-!
# Where the accounts of the service come from

The service starts without accounts. From then on accounts are created by requests, or by whoever
has the store in hand, and keys come and go. Whatever was done, the store keeps the registrations
that succeeded and nothing else.

## Main definitions

* `Accounts.User.told?` — the account in a body
* `Api.Reached` — the sites that the service can come to, with the registrations that succeeded

## Main statements

* `Accounts.User.told?_render`, `Accounts.User.eq_of_render_eq` — an account is told by what is
  shown of it
* `Api.registered_of_created` — what is answered as a creation is one
* `Api.Reached.records` — the store keeps the registrations
* `Api.Reached.acceptable` — every registration is of an acceptable submission
-/

namespace AccountService

namespace Accounts

/-- The account in a body: it writes a record of an identifier, a name, an email and a role, and
nothing else. -/
def User.told? (body : String) : Option User :=
  match (Json.Node.parse? (Octets.ofText body)).bind Json.Node.textMembers? with
  | some [("id", id), ("name", name), ("email", email), ("role", role)] =>
    (Uuid.parse? id).map (⟨·, name, email, role⟩)
  | _ => none

/-- An account that is shown reads back from the body. -/
theorem User.told?_render (u : User) : told? u.json.render = some u := by
  have hmembers := Json.textMembers?_node
    [("id", u.id.text), ("name", u.name), ("email", u.email), ("role", u.role)]
  simp only [List.map_cons, List.map_nil] at hmembers
  rw [told?, Json.parse?_render, Option.bind_some, json, hmembers]
  simp only [Uuid.parse?_text, Option.map_some]

/-- An account is told by what is shown of it. -/
theorem User.eq_of_render_eq {u v : User} (h : u.json.render = v.json.render) : u = v := by
  apply Option.some.inj
  rw [← told?_render, h, told?_render]

end Accounts

namespace Api

open Http Pipeline
open Accounts (NewUser Registration Records Store)

variable {scheme : Accounts.PasswordScheme} {s : Settings Store}
  {site : Site (World Store)} {clock : Instant} {r : Incoming}

theorem render_eq_of_shown_eq {v w : Json} {status status' : Status}
    (h : shown v status = shown w status') : v.render = w.render := (Response.mk.inj h).2.2

/-- What is answered as a creation is one: the submission in the body is registered, and who is
shown is who was created. -/
theorem registered_of_created (hbackend : s.backend = .memory scheme) {a : Response}
    (hresult : (site.run clock ((application s).serve r)).1 = .ok a)
    (hstatus : a.status = .created) :
    ∃ n user accounts e e', NewUser.ofBody? r.body = some n ∧
      site.world.accounts.create scheme n e = (.ok user, accounts, e') ∧
      a = shown user.json .created ∧
      (site.run clock ((application s).serve r)).2.1.world =
        { site.world with accounts := accounts } := by
  have hcode : a.status.code < 400 := by rw [hstatus]; decide
  obtain ⟨res, now, hproper, hpath, hanswers, hclock, hsent, hworld⟩ | ⟨hfailure, -⟩ :=
    run_cases s site clock r
  · obtain rfl := Except.ok.inj (hresult.symm.trans hsent)
    rw [status_sentFor] at hcode hstatus
    by_cases hres : res = .users
    · subst hres
      obtain hdeclines | ⟨c, y, -, -, hsame, hnext⟩ := exec_admin_cases s.engine (Api.create s)
        (arriving site clock now r .users) (opening site clock now r .users)
      · exact absurd hdeclines.code_answerOf (not_le.2 hcode)
      · have hcreate := exec_create_of_body
          (r := { arriving site clock now r .users with claims := some c })
          (context_arriving site clock now r .users) hbackend y
        rw [← hnext] at hcreate
        obtain hdeclines | ⟨n, user, accounts, e', hbody, hregister, hshown, hadded⟩ := hcreate
        · exact absurd hdeclines.code_answerOf (not_le.2 hcode)
        · rw [hsame] at hregister hadded
          refine ⟨n, user, accounts, y.entropy, e', hbody, hregister, ?_, hworld.trans hadded⟩
          -- Nothing that is bound to `POST` answers `HEAD`, so the answer is sent with its body.
          have hmethod : r.method = "POST" := hanswers.resolve_right fun h => absurd h.2 (by decide)
          have hanswer : answerOf (outcome s site clock now r .users).1 =
              shown user.json .created := congrArg answerOf hshown
          rw [hanswer, hmethod]
          exact sentFor_eq_self (by decide) (by decide) _
    -- Everything else is shown with the status 200.
    · obtain hdeclines | hgranted := outcome_cases clock now r res hbackend site
      · exact absurd hdeclines.code_answerOf (not_le.2 hcode)
      · obtain ⟨v, -, hshown⟩ := hgranted.shows hres
        rw [hshown] at hstatus
        exact absurd hstatus (show Status.ok ≠ Status.created by decide)
  · exact absurd (hfailure a hresult) (not_le.2 hcode)

/-- Who is shown to have been created was created of the submission in the body. -/
theorem create_of_shown (hbackend : s.backend = .memory scheme) {n : NewUser}
    {user : Accounts.User}
    (hresult : (site.run clock ((application s).serve r)).1 = .ok (shown user.json .created))
    (hbody : NewUser.ofBody? r.body = some n) :
    ∃ accounts e e', site.world.accounts.create scheme n e = (.ok user, accounts, e') ∧
      (site.run clock ((application s).serve r)).2.1.world =
        { site.world with accounts := accounts } := by
  have hstatus : (shown user.json .created).status = .created := rfl
  obtain ⟨n', user', accounts, e, e', hbody', hcreate, hshown, hworld⟩ :=
    registered_of_created hbackend hresult hstatus
  obtain rfl := Accounts.User.eq_of_render_eq (render_eq_of_shown_eq hshown)
  obtain rfl := Option.some.inj (hbody.symm.trans hbody')
  exact ⟨accounts, e, e', hcreate, hworld⟩

/-! ### Reachable sites -/

/-- The sites that an application over a store in memory can come to, with the registrations that
succeeded on the way, in their order. -/
inductive Reached (a : App (World Store)) (scheme : Accounts.PasswordScheme) :
    List Registration → Site (World Store) → Prop where
  /-- At first there are no accounts. -/
  | start (metrics : Metrics) (signalled : Bool) (entropy : Entropy) (keys : Auth.KeyStore) :
    Reached a scheme [] ⟨metrics, signalled, entropy, ⟨keys, .empty⟩⟩
  /-- Keys come and go. -/
  | rekeyed {ms : List Registration} {site : Site (World Store)} (keys : Auth.KeyStore) :
    Reached a scheme ms site →
    Reached a scheme ms { site with world := { site.world with keys := keys } }
  /-- An account is created without a request. -/
  | registered {ms : List Registration} {site : Site (World Store)} {n : NewUser}
    {user : Accounts.User} {accounts : Store} {entropy : Entropy} : Reached a scheme ms site →
    site.world.accounts.create scheme n site.entropy = (.ok user, accounts, entropy) →
    Reached a scheme (ms ++ [⟨n, user⟩])
      { site with entropy := entropy, world := { site.world with accounts := accounts } }
  /-- An account is not created without a request. -/
  | refused {ms : List Registration} {site : Site (World Store)} {n : NewUser}
    {err : Accounts.Error} {accounts : Store} {entropy : Entropy} : Reached a scheme ms site →
    site.world.accounts.create scheme n site.entropy = (.error err, accounts, entropy) →
    Reached a scheme ms
      { site with entropy := entropy, world := { site.world with accounts := accounts } }
  /-- A request is told that an account was created. -/
  | created {ms : List Registration} {site : Site (World Store)} {clock : Instant} {r : Incoming}
    {n : NewUser} {user : Accounts.User} : Reached a scheme ms site →
    (site.run clock (a.serve r)).1 = .ok (shown user.json .created) →
    NewUser.ofBody? r.body = some n →
    Reached a scheme (ms ++ [⟨n, user⟩]) (site.run clock (a.serve r)).2.1
  /-- A request is not told so. -/
  | served {ms : List Registration} {site : Site (World Store)} {clock : Instant} {r : Incoming} :
    Reached a scheme ms site →
    (∀ response, (site.run clock (a.serve r)).1 = .ok response → response.status ≠ .created) →
    Reached a scheme ms (site.run clock (a.serve r)).2.1

/-- The store keeps the registrations that succeeded, and nothing else. -/
theorem Reached.records (hbackend : s.backend = .memory scheme) {ms : List Registration}
    (h : Reached (application s) scheme ms site) : Records scheme ms site.world.accounts := by
  induction h with
  | start metrics signalled entropy keys => exact Accounts.records_empty
  | rekeyed keys _ ih => exact ih
  | registered _ hcreate ih => exact ih.create hcreate
  | refused _ hcreate ih =>
    rw [Store.store_of_create_eq_error hcreate]
    exact ih
  | created _ hresult hbody ih =>
    obtain ⟨accounts, e, e', hcreate, hworld⟩ := create_of_shown hbackend hresult hbody
    rw [hworld]
    exact ih.create hcreate
  | @served ms site clock r _ hnot ih =>
    obtain ⟨c, account, hcreates⟩ | ⟨hsame, -⟩ := creates_or_world_eq hbackend site clock r
    · exact absurd rfl (hnot _ hcreates.shown)
    · rw [hsame]
      exact ih

/-- Every registration is of an acceptable submission and shows the account made of it. -/
theorem Reached.acceptable (hbackend : s.backend = .memory scheme) {ms : List Registration}
    (h : Reached (application s) scheme ms site) : ∀ m ∈ ms, m.Acceptable := by
  induction h with
  | start => exact fun m hm => (List.not_mem_nil hm).elim
  | rekeyed _ _ ih => exact ih
  | registered _ hcreate ih =>
    exact List.forall_mem_append.2
      ⟨ih, List.forall_mem_singleton.2 (Accounts.acceptable_of_create hcreate)⟩
  | refused _ _ ih => exact ih
  | created _ hresult hbody ih =>
    obtain ⟨accounts, e, e', hcreate, -⟩ := create_of_shown hbackend hresult hbody
    exact List.forall_mem_append.2
      ⟨ih, List.forall_mem_singleton.2 (Accounts.acceptable_of_create hcreate)⟩
  | served _ _ ih => exact ih

end Api

end AccountService
