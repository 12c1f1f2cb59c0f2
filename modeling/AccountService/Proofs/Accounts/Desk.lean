import Mathlib.Data.List.Perm.Basic
import AccountService.Proofs.Accounts.Records

/-!
# Creations that overlap

Several callers may be at the store at once. A creation is then two steps, between which others may
come: the account is made ready while nobody needs the store, and later it is enrolled while nobody
else is at the store. Between any two steps the store may keep its accounts in another order.

As long as no identifier is drawn twice, the store nevertheless answers as a list of the creations
that succeeded, in the order in which they did.

## Main definitions

* `Accounts.Event`, `Accounts.Desk`, `Accounts.Desk.step` — what happens at a store that several
  callers use
* `Accounts.sought` — the answer of a search among registrations
* `Accounts.Refines` — a store answers as the list of its registrations

## Main statements

* `Accounts.Sound.step`, `Accounts.sound_run` — what events preserve
* `Accounts.refines_run` — the store answers as the list, after any events
-/

namespace AccountService.Accounts

/-! ### Events -/

/-- What happens at a store. -/
inductive Event where
  /-- A creation begins. Unless it is refused, an account is ready and waits. -/
  | prepare (n : NewUser) (e : Entropy)
  /-- One of the accounts that wait is enrolled. -/
  | enroll (k : Nat)
  | byId (text : String)
  | byEmail (email : String)
  | authenticate (email password : String)
  /-- The store keeps its accounts in another order. -/
  | reorder (entries : List (Uuid × Account))

/-- A store and those who wait for it. -/
structure Desk where
  store : Store
  /-- The accounts that are ready, each with what was submitted for it. -/
  waiting : List (NewUser × Account)
  /-- The creations that have succeeded, in their order. -/
  made : List Registration

namespace Desk

/-- A store without accounts, and nobody waiting. -/
def empty : Desk := ⟨.empty, [], []⟩

/-- The answer to an event, if it has one, and the desk after it. -/
def step (scheme : PasswordScheme) (d : Desk) : Event → Option (Except Error User) × Desk
  | .prepare n e =>
    match (n.prepare scheme e).1 with
    | .ok a => (none, { d with waiting := d.waiting ++ [(n, a)] })
    | .error err => (some (.error err), d)
  | .enroll k =>
    match d.waiting[k]? with
    | none => (none, d)
    | some (n, a) =>
      match d.store.enroll a with
      | (.ok u, store) => (some (.ok u), ⟨store, d.waiting.eraseIdx k, d.made ++ [⟨n, u⟩]⟩)
      | (.error err, store) => (some (.error err), ⟨store, d.waiting.eraseIdx k, d.made⟩)
  | .byId text => (some (d.store.byId text), d)
  | .byEmail email => (some (d.store.byEmail email), d)
  | .authenticate email password => (some (d.store.authenticate scheme email password), d)
  | .reorder entries =>
    (none, if entries.isPerm d.store.entries then { d with store := ⟨entries⟩ } else d)

/-- The desk after events, none of which is waited for. -/
def run (scheme : PasswordScheme) (d : Desk) (events : List Event) : Desk :=
  events.foldl (fun d event => (d.step scheme event).2) d

/-- The identifiers of the accounts that wait or were made. -/
def ids (d : Desk) : List Uuid := d.waiting.map (·.2.user.id) ++ d.made.map (·.user.id)

end Desk

/-- The identifier that an event draws for an account. -/
def Event.drawn (scheme : PasswordScheme) : Event → Option Uuid
  | .prepare n e =>
    match (n.prepare scheme e).1 with
    | .ok a => some a.user.id
    | .error _ => none
  | _ => none

/-! ### Single events -/

section Step

variable (scheme : PasswordScheme) (d : Desk)

/-- What is begun waits if the account can be made ready, and is refused otherwise. -/
theorem step_prepare_cases (n : NewUser) (e : Entropy) :
    (∃ a, (n.prepare scheme e).1 = .ok a ∧ (Event.prepare n e).drawn scheme = some a.user.id ∧
      d.step scheme (.prepare n e) = (none, { d with waiting := d.waiting ++ [(n, a)] })) ∨
    ∃ err, (n.prepare scheme e).1 = .error err ∧ (Event.prepare n e).drawn scheme = none ∧
      d.step scheme (.prepare n e) = (some (.error err), d) := by
  rw [Desk.step, Event.drawn]
  cases (n.prepare scheme e).1 with
  | ok a => exact .inl ⟨a, rfl, rfl, rfl⟩
  | error err => exact .inr ⟨err, rfl, rfl, rfl⟩

/-- An account that waits is put into the store if its email is free; otherwise nothing happens but
that it no longer waits. -/
theorem step_enroll_cases {d : Desk} {k : Nat} {n : NewUser} {a : Account}
    (hk : d.waiting[k]? = some (n, a)) :
    (d.store.findEmail? a.user.email = none ∧ d.step scheme (.enroll k) =
      (some (.ok a.user),
        ⟨d.store.insert a, d.waiting.eraseIdx k, d.made ++ [⟨n, a.user⟩]⟩)) ∨
    ((d.store.findEmail? a.user.email).isSome ∧ d.step scheme (.enroll k) =
      (some (.error .duplicateEmail), { d with waiting := d.waiting.eraseIdx k })) := by
  rw [Desk.step, hk]
  dsimp only
  rcases henroll : d.store.enroll a with ⟨err | u, store⟩
  · obtain ⟨htaken, rfl, rfl⟩ := Store.enroll_eq_error_iff.1 henroll
    exact .inr ⟨htaken, rfl⟩
  · obtain ⟨hfree, rfl, rfl⟩ := Store.enroll_eq_ok_iff.1 henroll
    exact .inl ⟨hfree, rfl⟩

end Step

variable {scheme : PasswordScheme} {d : Desk} {used : List Uuid}

/-- Whoever waits is answered as the store enrolls. -/
theorem step_enroll_eq {k : Nat} {n : NewUser} {a : Account} (hk : d.waiting[k]? = some (n, a)) :
    (d.step scheme (.enroll k)).1 = some (d.store.enroll a).1 ∧
      (d.step scheme (.enroll k)).2.store = (d.store.enroll a).2 := by
  rw [Desk.step, hk]
  dsimp only
  generalize d.store.enroll a = enrolled
  obtain ⟨_ | _, store⟩ := enrolled <;> exact ⟨rfl, rfl⟩

theorem step_enroll_of_getElem?_eq_none {k : Nat} (hk : d.waiting[k]? = none) :
    d.step scheme (.enroll k) = (none, d) := by
  rw [Desk.step, hk]

/-- A submission whose password can be hashed is refused at once exactly if it is not acceptable. -/
theorem step_prepare_eq_none_iff {n : NewUser} {e : Entropy} {password : PasswordHash}
    (hhash : scheme.hash (e.take saltSize).1 n.password = .ok password) :
    (d.step scheme (.prepare n e)).1 = none ↔ n.validate = .ok () := by
  obtain ⟨a, hready, -, hstep⟩ | ⟨err, hrefused, -, hstep⟩ := step_prepare_cases scheme d n e
  · rw [hstep]
    have hprepare : n.prepare scheme e = (.ok a, (n.prepare scheme e).2) := Prod.ext hready rfl
    exact iff_of_true rfl (Store.prepare_eq_ok_iff.1 hprepare).1
  · rw [hstep]
    refine iff_of_false (by simp) fun hvalid => ?_
    have hready := (Store.prepare_eq_ok_iff (a := ⟨_, password⟩)).2 ⟨hvalid, hhash, rfl, rfl⟩
    rw [hready] at hrefused
    cases hrefused

/-- A creation that nobody comes between is that of the store, in one step if it is refused at once
and in two otherwise. -/
theorem create_eq_steps (n : NewUser) (e : Entropy) :
    (∀ result, (d.step scheme (.prepare n e)).1 = some result →
      (d.store.create scheme n e).1 = result ∧ (d.store.create scheme n e).2.1 = d.store) ∧
    ((d.step scheme (.prepare n e)).1 = none →
      let next := (d.step scheme (.prepare n e)).2.step scheme (.enroll d.waiting.length)
      next.1 = some (d.store.create scheme n e).1 ∧
        next.2.store = (d.store.create scheme n e).2.1) := by
  obtain ⟨a, hready, -, hstep⟩ | ⟨err, hrefused, -, hstep⟩ :=
    step_prepare_cases scheme d n e
  · have hcreate := Store.create_of_prepare_eq_ok d.store (Prod.ext hready rfl)
    rw [hstep, hcreate]
    refine ⟨fun result hresult => (by cases hresult), fun _ => ?_⟩
    -- The account is the last of those who wait.
    have hlast : (d.waiting ++ [(n, a)])[d.waiting.length]? = some (n, a) :=
      List.getElem?_concat_length
    exact step_enroll_eq (d := { d with waiting := d.waiting ++ [(n, a)] }) hlast
  · have hcreate := Store.create_of_prepare_eq_error d.store (Prod.ext hrefused rfl)
    rw [hstep, hcreate]
    exact ⟨fun result hresult => ⟨Option.some.inj hresult, rfl⟩, fun hnone => (by cases hnone)⟩

/-- A failure changes neither the store nor what was made. -/
theorem step_of_eq_error {event : Event} {err : Error}
    (h : (d.step scheme event).1 = some (.error err)) :
    (d.step scheme event).2.store = d.store ∧ (d.step scheme event).2.made = d.made := by
  cases event with
  | prepare n e =>
    obtain ⟨a, -, -, hstep⟩ | ⟨err, -, -, hstep⟩ := step_prepare_cases scheme d n e
    · rw [hstep]
      exact ⟨rfl, rfl⟩
    · rw [hstep]
      exact ⟨rfl, rfl⟩
  | enroll k =>
    cases hk : d.waiting[k]? with
    | none =>
      rw [step_enroll_of_getElem?_eq_none hk]
      exact ⟨rfl, rfl⟩
    | some waiting =>
      obtain ⟨-, hstep⟩ | ⟨-, hstep⟩ := step_enroll_cases scheme hk
      · rw [hstep] at h
        cases h
      · rw [hstep]
        exact ⟨rfl, rfl⟩
  | reorder entries => cases h
  | _ => exact ⟨rfl, rfl⟩

/-- Nothing but an enrollment changes more than the order of the accounts. -/
theorem step_of_ne_enroll {event : Event} (h : ∀ k, event ≠ .enroll k) :
    (d.step scheme event).2.store.entries.Perm d.store.entries ∧
      (d.step scheme event).2.made = d.made := by
  cases event with
  | prepare n e =>
    obtain ⟨a, -, -, hstep⟩ | ⟨err, -, -, hstep⟩ := step_prepare_cases scheme d n e
    · rw [hstep]
      exact ⟨.refl _, rfl⟩
    · rw [hstep]
      exact ⟨.refl _, rfl⟩
  | enroll k => exact absurd rfl (h k)
  | reorder entries =>
    rw [Desk.step]
    dsimp only
    split
    · next hperm => exact ⟨List.isPerm_iff.1 hperm, rfl⟩
    · exact ⟨.refl _, rfl⟩
  | _ => exact ⟨.refl _, rfl⟩

/-- What was made stays made. -/
theorem made_prefix_step (event : Event) : d.made <+: (d.step scheme event).2.made := by
  by_cases henroll : ∃ k, event = .enroll k
  · obtain ⟨k, rfl⟩ := henroll
    cases hk : d.waiting[k]? with
    | none => simp only [step_enroll_of_getElem?_eq_none hk, List.prefix_rfl]
    | some waiting =>
      obtain ⟨-, hstep⟩ | ⟨-, hstep⟩ := step_enroll_cases scheme hk
      · simp only [hstep, List.prefix_append]
      · simp only [hstep, List.prefix_rfl]
  · simp only [(step_of_ne_enroll (not_exists.1 henroll)).2, List.prefix_rfl]

theorem made_prefix_run (events : List Event) : d.made <+: (d.run scheme events).made := by
  induction events generalizing d with
  | nil => exact List.prefix_rfl
  | cons event events ih => exact (made_prefix_step event).trans ih

/-! ### What events preserve -/

/-- An account that waits is that of an acceptable submission, under some identifier. -/
structure Ready (scheme : PasswordScheme) (n : NewUser) (a : Account) : Prop where
  valid : n.validate = .ok ()
  user : a.user = n.toUser a.user.id
  password : ∃ salt, scheme.hash salt n.password = .ok a.password

theorem ready_of_prepare {n : NewUser} {e : Entropy} {a : Account}
    (h : (n.prepare scheme e).1 = .ok a) : Ready scheme n a := by
  obtain ⟨hvalid, hhash, huser, -⟩ :=
    Store.prepare_eq_ok_iff.1 (Prod.ext_iff.2 ⟨h, rfl⟩ : n.prepare scheme e = (.ok a, _))
  exact ⟨hvalid, by rw [huser]; rfl, _, hhash⟩

/-- What is preserved: the store keeps the creations that succeeded, what waits is ready, and the
identifiers of all of them are different and among those drawn so far. -/
structure Sound (scheme : PasswordScheme) (d : Desk) (used : List Uuid) : Prop where
  records : Records scheme d.made d.store
  ready : ∀ n a, (n, a) ∈ d.waiting → Ready scheme n a
  nodup : d.ids.Nodup
  drawn : ∀ id ∈ d.ids, id ∈ used

theorem sound_empty : Sound scheme .empty [] :=
  ⟨records_empty, fun _ _ h => (List.not_mem_nil h).elim, .nil, fun _ h => h⟩

namespace Sound

theorem made_nodup (h : Sound scheme d used) : (d.made.map (·.user.id)).Nodup :=
  (List.nodup_append.1 h.nodup).2.1

/-- All registrations stand. -/
theorem stands_iff (h : Sound scheme d used) {m : Registration} :
    Stands d.made m ↔ m ∈ d.made := stands_iff_mem h.made_nodup

/-- No account of the store has the identifier of one that waits. -/
theorem findId?_eq_none (h : Sound scheme d used) {n : NewUser} {a : Account}
    (ha : (n, a) ∈ d.waiting) : d.store.findId? a.user.id = none := by
  cases hfind : d.store.findId? a.user.id with
  | none => rfl
  | some b =>
    obtain ⟨hb, hid⟩ := h.records.orderly.findId?_eq_some_iff.1 hfind
    obtain ⟨m, hstands, hkeeps⟩ := h.records.sound b hb
    -- The identifier would be both that of a registration and that of one who waits.
    have hmade : a.user.id ∈ d.made.map (·.user.id) :=
      List.mem_map.2 ⟨m, hstands.mem, by rw [← hkeeps.user, hid]⟩
    have hwaits : a.user.id ∈ d.waiting.map (·.2.user.id) := List.mem_map.2 ⟨(n, a), ha, rfl⟩
    exact absurd rfl ((List.nodup_append.1 h.nodup).2.2 _ hwaits _ hmade)

/-- One more account that waits, under an identifier that was not drawn before. -/
theorem prepare (h : Sound scheme d used) {n : NewUser} {a : Account} (hready : Ready scheme n a)
    (hfresh : a.user.id ∉ used) :
    Sound scheme { d with waiting := d.waiting ++ [(n, a)] } (used ++ [a.user.id]) := by
  have hperm : ({ d with waiting := d.waiting ++ [(n, a)] } : Desk).ids.Perm
      (a.user.id :: d.ids) := by
    rw [Desk.ids, List.map_append, List.append_assoc]
    exact List.perm_middle
  refine ⟨h.records, fun n' a' ha' => ?_, ?_, fun id hid => ?_⟩
  · rcases List.mem_append.1 ha' with ha' | ha'
    · exact h.ready n' a' ha'
    · cases List.mem_singleton.1 ha'
      exact hready
  · exact hperm.nodup_iff.2 (List.nodup_cons.2 ⟨fun hid => hfresh (h.drawn _ hid), h.nodup⟩)
  · rcases List.mem_cons.1 (hperm.subset hid) with rfl | hid
    · exact List.mem_append_right _ (List.mem_singleton_self _)
    · exact List.mem_append_left _ (h.drawn id hid)

/-- One account less that waits. -/
theorem leave (h : Sound scheme d used) (k : Nat) :
    Sound scheme { d with waiting := d.waiting.eraseIdx k } used := by
  have hsub : (({ d with waiting := d.waiting.eraseIdx k } : Desk).ids).Sublist d.ids :=
    ((List.eraseIdx_sublist d.waiting k).map _).append_right _
  exact ⟨h.records, fun n a ha => h.ready n a ((List.eraseIdx_sublist _ _).subset ha),
    h.nodup.sublist hsub, fun id hid => h.drawn id (hsub.subset hid)⟩

/-- One account is no longer waiting, but made. -/
theorem enroll (h : Sound scheme d used) {k : Nat} {n : NewUser} {a : Account}
    (hk : d.waiting[k]? = some (n, a)) (hfree : d.store.findEmail? a.user.email = none) :
    Sound scheme ⟨d.store.insert a, d.waiting.eraseIdx k, d.made ++ [⟨n, a.user⟩]⟩ used := by
  obtain ⟨hlt, hget⟩ := List.getElem?_eq_some_iff.1 hk
  have hready := h.ready n a (List.mem_of_getElem? hk)
  have hproper : a.user.Proper := by
    rw [hready.user]
    exact NewUser.proper_toUser hready.valid _
  have hperm : (⟨d.store.insert a, d.waiting.eraseIdx k, d.made ++ [⟨n, a.user⟩]⟩ : Desk).ids.Perm
      d.ids := by
    have hout := (List.getElem_cons_eraseIdx_perm hlt).map (·.2.user.id)
    rw [hget, List.map_cons] at hout
    refine List.Perm.trans ?_ (hout.append_right _)
    rw [Desk.ids, List.map_append, ← List.append_assoc]
    exact List.perm_append_comm
  exact ⟨h.records.insert ⟨rfl, hready.password⟩ hproper hfree, (h.leave k).ready,
    hperm.nodup_iff.2 h.nodup, fun id hid => h.drawn id (hperm.subset hid)⟩

/-- What every event preserves that draws no identifier a second time. -/
theorem step (h : Sound scheme d used) (event : Event)
    (hfresh : (used ++ (event.drawn scheme).toList).Nodup) :
    Sound scheme (d.step scheme event).2 (used ++ (event.drawn scheme).toList) := by
  have hsame : used ++ (none : Option Uuid).toList = used := List.append_nil used
  cases event with
  | prepare n e =>
    obtain ⟨a, hready, hdrawn, hstep⟩ | ⟨err, -, hdrawn, hstep⟩ :=
      step_prepare_cases scheme d n e
    · rw [hdrawn] at hfresh ⊢
      rw [hstep]
      refine h.prepare (ready_of_prepare hready) fun hused => ?_
      exact (List.nodup_append.1 hfresh).2.2 _ hused _ (List.mem_singleton_self _) rfl
    · rw [hdrawn, hstep, hsame]
      exact h
  | enroll k =>
    rw [show (Event.enroll k).drawn scheme = none from rfl, hsame]
    cases hk : d.waiting[k]? with
    | none =>
      rw [step_enroll_of_getElem?_eq_none hk]
      exact h
    | some waiting =>
      obtain ⟨hfree, hstep⟩ | ⟨-, hstep⟩ := step_enroll_cases scheme hk
      · rw [hstep]
        exact h.enroll hk hfree
      · rw [hstep]
        exact h.leave k
  | reorder entries =>
    rw [show (Event.reorder entries).drawn scheme = none from rfl, hsame, Desk.step]
    dsimp only
    split
    · next hperm => exact ⟨h.records.perm (List.isPerm_iff.1 hperm), h.ready, h.nodup, h.drawn⟩
    · exact h
  -- A search draws nothing and changes nothing.
  | _ =>
    show Sound scheme d (used ++ (none : Option Uuid).toList)
    rw [hsame]
    exact h

end Sound

/-- What events preserve that draw no identifier twice. -/
theorem sound_run (events : List Event) (hfresh : (events.filterMap (·.drawn scheme)).Nodup) :
    Sound scheme (Desk.empty.run scheme events) (events.filterMap (·.drawn scheme)) := by
  -- On the events from the last one back.
  induction events using List.reverseRecOn with
  | nil => exact sound_empty
  | append_singleton events event ih =>
    have hsplit : (events ++ [event]).filterMap (·.drawn scheme) =
        events.filterMap (·.drawn scheme) ++ (event.drawn scheme).toList := by
      rw [List.filterMap_append]
      cases hdrawn : event.drawn scheme <;> simp [hdrawn]
    rw [hsplit] at hfresh ⊢
    rw [Desk.run, List.foldl_append]
    exact (ih (List.nodup_append.1 hfresh).1).step event hfresh

/-! ### Answers -/

/-- The answer of a search among registrations. -/
def sought (ms : List Registration) (p : Registration → Bool) (missing : Error) :
    Except Error User :=
  match ms.find? p with
  | some m => .ok m.user
  | none => .error missing

theorem eq_sought {ms : List Registration} {p : Registration → Bool} {missing : Error}
    {result : Except Error User} (hok : ∀ u, result = .ok u ↔ ∃ m ∈ ms, m.user = u ∧ p m = true)
    (herror : ∀ err, result = .error err → err = missing) : result = sought ms p missing := by
  rw [sought]
  cases hfind : ms.find? p with
  | some m => exact (hok m.user).2 ⟨m, List.mem_of_find?_eq_some hfind, rfl, List.find?_some hfind⟩
  | none =>
    cases result with
    | error err => rw [herror err rfl]
    | ok u =>
      obtain ⟨m, hm, -, hp⟩ := (hok u).1 rfl
      exact absurd hp (List.find?_eq_none.1 hfind m hm)

/-- A store refines the list of its registrations: it is as it should be, creations do to it what
they would do to the list, and it answers as a search of the list does. -/
structure Refines (scheme : PasswordScheme) (d : Desk) : Prop where
  orderly : d.store.Orderly
  /-- An account is created of a submission whose password can be hashed exactly if it is acceptable
  and no account has its email. -/
  creation : ∀ n e password, scheme.hash (e.take saltSize).1 n.password = .ok password →
    ((∃ u s' e', d.store.create scheme n e = (.ok u, s', e')) ↔
      n.validate = .ok () ∧
        ∀ b ∈ d.store.accounts, Text.eqIgnoringCase b.user.email (Text.trim n.email) = false)
  /-- A creation that nobody comes between is that of the store, in one step if it is refused at
  once and in two otherwise. -/
  undisturbed : ∀ n e,
    (∀ result, (d.step scheme (.prepare n e)).1 = some result →
      (d.store.create scheme n e).1 = result ∧ (d.store.create scheme n e).2.1 = d.store) ∧
    ((d.step scheme (.prepare n e)).1 = none →
      let next := (d.step scheme (.prepare n e)).2.step scheme (.enroll d.waiting.length)
      next.1 = some (d.store.create scheme n e).1 ∧
        next.2.store = (d.store.create scheme n e).2.1)
  /-- A submission whose password can be hashed is refused at once exactly if it is not
  acceptable. -/
  prepared : ∀ n e password, scheme.hash (e.take saltSize).1 n.password = .ok password →
    ((d.step scheme (.prepare n e)).1 = none ↔ n.validate = .ok ())
  /-- Whatever waits was acceptable. -/
  waiting : ∀ n a, (n, a) ∈ d.waiting → n.validate = .ok () ∧ a.user = n.toUser a.user.id
  /-- An account that waits is created exactly if no account has its email. -/
  enrolled : ∀ k n a, d.waiting[k]? = some (n, a) →
    ((d.step scheme (.enroll k)).1 = some (.ok a.user) ↔
      ∀ b ∈ d.store.accounts, Text.eqIgnoringCase b.user.email (Text.trim n.email) = false)
  /-- What is created comes after all others, and they stay as they are. -/
  created : ∀ k u, (d.step scheme (.enroll k)).1 = some (.ok u) →
    ∃ n a, d.waiting[k]? = some (n, a) ∧ u = a.user ∧
      (d.step scheme (.enroll k)).2.store.entries = d.store.entries ++ [(a.user.id, a)] ∧
      (d.step scheme (.enroll k)).2.made = d.made ++ [⟨n, u⟩]
  /-- A failure changes nothing. -/
  failed : ∀ event err, (d.step scheme event).1 = some (.error err) →
    (d.step scheme event).2.store = d.store ∧ (d.step scheme event).2.made = d.made
  /-- Nothing but a creation changes more than the order of the accounts. -/
  kept : ∀ event, (∀ k, event ≠ .enroll k) →
    (d.step scheme event).2.store.entries.Perm d.store.entries ∧
      (d.step scheme event).2.made = d.made
  /-- Whoever was created is found. -/
  retrievable : ∀ m ∈ d.made,
    d.store.byId m.user.id.text = .ok m.user ∧ d.store.byEmail m.user.email = .ok m.user
  byId : ∀ text, (d.step scheme (.byId text)).1 = some (
    match Uuid.parse? text with
    | none => .error .invalidId
    | some id => sought d.made (·.user.id == id) .notFound)
  byEmail : ∀ email, (d.step scheme (.byEmail email)).1 =
    some (sought d.made (fun m => Text.eqIgnoringCase m.user.email email) .notFound)
  authenticate : scheme.Faithful → ∀ email password,
    (d.step scheme (.authenticate email password)).1 =
      some (sought d.made (fun m => Text.eqIgnoringCase m.user.email email &&
        m.submission.password == password) .invalidCredentials)

namespace Sound

variable (h : Sound scheme d used)

include h

theorem byId_eq (text : String) :
    d.store.byId text =
      match Uuid.parse? text with
      | none => .error .invalidId
      | some id => sought d.made (·.user.id == id) .notFound := by
  cases hparse : Uuid.parse? text with
  | none => rw [Store.byId, hparse]
  | some id =>
    apply eq_sought
    · intro u
      rw [h.records.byId_eq_ok_iff, hparse]
      constructor
      · rintro ⟨m, hstands, rfl, hid⟩
        exact ⟨m, hstands.mem, rfl, beq_iff_eq.2 (Option.some.inj hid).symm⟩
      · rintro ⟨m, hm, rfl, hid⟩
        exact ⟨m, h.stands_iff.2 hm, rfl, by rw [beq_iff_eq.1 hid]⟩
    · intro err herr
      rw [Store.byId, hparse] at herr
      dsimp only at herr
      split at herr
      · cases herr
      · exact (Except.error.inj herr).symm

theorem byEmail_eq (email : String) :
    d.store.byEmail email =
      sought d.made (fun m => Text.eqIgnoringCase m.user.email email) .notFound := by
  apply eq_sought
  · intro u
    rw [h.records.byEmail_eq_ok_iff]
    constructor
    · rintro ⟨m, hstands, rfl, hemail⟩
      exact ⟨m, hstands.mem, rfl, hemail⟩
    · rintro ⟨m, hm, rfl, hemail⟩
      exact ⟨m, h.stands_iff.2 hm, rfl, hemail⟩
  · intro err herr
    rw [Store.byEmail] at herr
    split at herr
    · cases herr
    · exact (Except.error.inj herr).symm

theorem authenticate_eq (hfaithful : scheme.Faithful) (email password : String) :
    d.store.authenticate scheme email password =
      sought d.made (fun m => Text.eqIgnoringCase m.user.email email &&
        m.submission.password == password) .invalidCredentials := by
  apply eq_sought
  · intro u
    rw [h.records.authenticate_eq_ok_iff hfaithful]
    constructor
    · rintro ⟨m, hstands, rfl, hemail, hpassword⟩
      exact ⟨m, hstands.mem, rfl, Bool.and_eq_true_iff.2 ⟨hemail, beq_iff_eq.2 hpassword⟩⟩
    · rintro ⟨m, hm, rfl, hboth⟩
      obtain ⟨hemail, hpassword⟩ := Bool.and_eq_true_iff.1 hboth
      exact ⟨m, h.stands_iff.2 hm, rfl, hemail, beq_iff_eq.1 hpassword⟩
  · intro err herr
    exact Store.eq_of_authenticate_eq_error herr

variable {k : Nat}

/-- An account that waits is created exactly if no account has its email. -/
theorem step_enroll_eq_ok_iff {n : NewUser} {a : Account} (hk : d.waiting[k]? = some (n, a)) :
    (d.step scheme (.enroll k)).1 = some (.ok a.user) ↔
      ∀ b ∈ d.store.accounts, Text.eqIgnoringCase b.user.email (Text.trim n.email) = false := by
  have hemail : a.user.email = Text.trim n.email := by
    rw [(h.ready n a (List.mem_of_getElem? hk)).user]
    rfl
  rw [← hemail, ← Store.findEmail?_eq_none_iff]
  obtain ⟨hfree, hstep⟩ | ⟨htaken, hstep⟩ := step_enroll_cases scheme hk
  · rw [hstep]
    exact iff_of_true rfl hfree
  · rw [hstep]
    exact iff_of_false (by simp) (Option.isSome_iff_ne_none.1 htaken)

/-- What is created comes after all others, and they stay as they are. -/
theorem entries_step_enroll {u : User} (hu : (d.step scheme (.enroll k)).1 = some (.ok u)) :
    ∃ n a, d.waiting[k]? = some (n, a) ∧ u = a.user ∧
      (d.step scheme (.enroll k)).2.store.entries = d.store.entries ++ [(a.user.id, a)] ∧
      (d.step scheme (.enroll k)).2.made = d.made ++ [⟨n, u⟩] := by
  cases hk : d.waiting[k]? with
  | none =>
    rw [step_enroll_of_getElem?_eq_none hk] at hu
    cases hu
  | some waiting =>
    obtain ⟨n, a⟩ := waiting
    obtain ⟨-, hstep⟩ | ⟨-, hstep⟩ := step_enroll_cases scheme hk
    · rw [hstep] at hu ⊢
      cases hu
      -- Nobody has its identifier, so nobody is replaced.
      have hnew := h.findId?_eq_none (List.mem_of_getElem? hk)
      exact ⟨n, a, rfl, rfl, Store.entries_insert_of_findId?_eq_none hnew, rfl⟩
    · rw [hstep] at hu
      cases hu

/-- What was made is found. -/
theorem retrievable {m : Registration} (hm : m ∈ d.made) :
    d.store.byId m.user.id.text = .ok m.user ∧ d.store.byEmail m.user.email = .ok m.user := by
  have hstands := h.stands_iff.2 hm
  exact ⟨h.records.byId_eq_ok_iff.2 ⟨m, hstands, rfl, Uuid.parse?_text _⟩,
    h.records.byEmail_eq_ok_iff.2 ⟨m, hstands, rfl, (Text.eqIgnoringCase_iff _ _).2 rfl⟩⟩

theorem refines : Refines scheme d where
  orderly := h.records.orderly
  creation _ _ _ hhash := Store.exists_create_eq_ok_iff hhash
  undisturbed := create_eq_steps
  prepared _ _ _ hhash := step_prepare_eq_none_iff hhash
  waiting n a ha := ⟨(h.ready n a ha).valid, (h.ready n a ha).user⟩
  enrolled _ _ _ hk := h.step_enroll_eq_ok_iff hk
  created _ _ hu := h.entries_step_enroll hu
  failed _ _ herr := step_of_eq_error herr
  kept _ hnot := step_of_ne_enroll hnot
  retrievable _ hm := h.retrievable hm
  byId text := congrArg some (h.byId_eq text)
  byEmail email := congrArg some (h.byEmail_eq email)
  authenticate hfaithful email password :=
    congrArg some (h.authenticate_eq hfaithful email password)

end Sound

/-- The store refines the list of its registrations after whatever happened at it, as long as no
identifier was drawn twice; and whoever was told at any time that an account was created still
finds it. -/
theorem refines_run (scheme : PasswordScheme) (events : List Event)
    (hfresh : (events.filterMap (·.drawn scheme)).Nodup) :
    Refines scheme (Desk.empty.run scheme events) ∧
      ∀ before k later u, events = before ++ .enroll k :: later →
        ((Desk.empty.run scheme before).step scheme (.enroll k)).1 = some (.ok u) →
        (Desk.empty.run scheme events).store.byId u.id.text = .ok u ∧
          (Desk.empty.run scheme events).store.byEmail u.email = .ok u := by
  have hsound := sound_run events hfresh
  refine ⟨hsound.refines, fun before k later u hevents hu => ?_⟩
  -- It was made when it was told so, and what was made stays made.
  have hbefore : (before.filterMap (·.drawn scheme)).Nodup := by
    rw [hevents, List.filterMap_append] at hfresh
    exact (List.nodup_append.1 hfresh).1
  obtain ⟨n, a, -, -, -, hmade⟩ := (sound_run before hbefore).entries_step_enroll hu
  have hrun : Desk.empty.run scheme events =
      ((Desk.empty.run scheme before).step scheme (.enroll k)).2.run scheme later := by
    rw [hevents, Desk.run, List.foldl_append, List.foldl_cons]
    rfl
  have hmem : (⟨n, u⟩ : Registration) ∈ (Desk.empty.run scheme events).made := by
    rw [hrun]
    apply (made_prefix_run later).subset
    rw [hmade]
    exact List.mem_append_right _ (List.mem_singleton_self _)
  have hfound := hsound.retrievable hmem
  exact hfound

/-! ### Two creations for one email -/

/-- Two submissions that differ in their names and in the case of their emails. -/
def sampleSubmission (name email : String) : NewUser := ⟨name, email, "USER", "secret", "secret"⟩

/-- Both creations begin before one of them ends, and the later one ends first. -/
def sampleEvents : List Event :=
  [.prepare (sampleSubmission "Ada" " ada@example.org ") ⟨fun _ => 0, 0⟩,
    .prepare (sampleSubmission "Eve" "ADA@example.org") ⟨fun _ => 1, 0⟩, .enroll 1, .enroll 0]

theorem refines_run_sampleEvents :
    (sampleEvents.filterMap (·.drawn .plain)).Nodup ∧
      Refines .plain (Desk.empty.run .plain sampleEvents) ∧
      ∃ m, (Desk.empty.run .plain sampleEvents).made = [m] ∧ m.user.name = "Eve" ∧
        (Desk.empty.run .plain sampleEvents).store.byEmail "ada@Example.org" = .ok m.user := by
  have hfresh : (sampleEvents.filterMap (·.drawn .plain)).Nodup := by decide +kernel
  obtain ⟨hrefines, -⟩ := refines_run .plain sampleEvents hfresh
  obtain ⟨m, hmade, hname, hemail⟩ : ∃ m, (Desk.empty.run .plain sampleEvents).made = [m] ∧
      m.user.name = "Eve" ∧ m.user.email = "ADA@example.org" := ⟨_, rfl, rfl, rfl⟩
  refine ⟨hfresh, hrefines, m, hmade, hname, ?_⟩
  have hfound := Option.some.inj (hrefines.byEmail "ada@Example.org")
  have hsame : Text.eqIgnoringCase m.user.email "ada@Example.org" = true := by
    rw [hemail]
    decide
  have hsearch : [m].find? (fun m => Text.eqIgnoringCase m.user.email "ada@Example.org") = some m :=
    List.find?_cons_of_pos hsame
  rw [hmade, sought, hsearch] at hfound
  exact hfound

end AccountService.Accounts
