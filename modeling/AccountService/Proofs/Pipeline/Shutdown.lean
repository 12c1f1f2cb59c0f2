import AccountService.Pipeline.Shutdown
import AccountService.Proofs.Pipeline.Exec
import Mathlib.Data.List.Basic

/-!
# What a shutdown signal tells

In any run of steps, what is answered depends on one thing only: whether a signal was given before.
The flag, the versions and the last handle that goes are what the channel makes of it, and are kept
together by an invariant.

## Main definitions

* `Shutdown.Raised` — a signal was given
* `Shutdown.Step.Tells` — what a step gives once a signal was given, and as long as none was
* `Shutdown.Tracks` — a signal is what steps have made of it
* `Shutdown.Reliable` — what is to be expected of a run

## Main statements

* `Shutdown.Tracks.await` — a call of the listener is over if and only if a signal was given
* `Shutdown.Tracks.step`, `Shutdown.Tracks.run` — one step, and a run of them
* `Shutdown.reliable_run` — what is seen of a run
* `Shutdown.exec_signalShutdown_eq_signal` — a pipeline that asks the service to stop
-/

namespace AccountService.Shutdown

/-- A signal was given, be it through a handle that is gone. -/
def Raised (past : List Step) : Prop := ∃ handle, .signal handle ∈ past

/-- A step polls a call of the listener. -/
def Step.Polls : Step → Prop
  | .recv | .again => True
  | _ => False

/-- What a step gives, after a signal was given or before. -/
def Step.Tells (raised : Prop) (told : Told) : Step → Prop
  | .signal _ => told.answer = .done ∧ (raised → told.log = []) ∧ (¬ raised → told.log = [warning])
  | .isSignalled _ => ∃ b, told = ⟨.signalled b, []⟩ ∧ (b = true ↔ raised)
  | .recv | .again => ∃ b, told = ⟨.polled b, []⟩ ∧ (b = true ↔ raised)
  | .clone .. | .drop _ => told = ⟨.done, []⟩

variable {s s' : Shutdown} {past steps later : List Step} {t : Step} {a : Told} {told : List Told}

theorem raised_append : Raised (past ++ later) ↔ Raised past ∨ Raised later := by
  simp only [Raised, List.mem_append, exists_or]

theorem raised_singleton : Raised [t] ↔ ∃ handle, t = .signal handle := by
  simp only [Raised, List.mem_singleton, eq_comm]

theorem raised_concat_of_ne (h : ∀ handle, t ≠ .signal handle) :
    Raised (past ++ [t]) ↔ Raised past := by
  rw [raised_append, raised_singleton]
  exact or_iff_left fun ⟨handle, ht⟩ => h handle ht

/-! ### The invariant -/

/-- A signal is what the steps have made of it. -/
structure Tracks (s : Shutdown) (past : List Step) : Prop where
  flag : s.flag = true ↔ Raised past
  /-- The flag is written only to be raised. -/
  written : s.flag = true ↔ s.version ≠ 0
  closed : s.closed = true ↔ s.handles = []
  /-- A call that waits has seen the flag before it was ever written. -/
  watching : s.wait = some .watching → s.seen = 0
  /-- A call that waits for good does so because no handle is left that could raise the flag. -/
  lapsed : s.wait = some .lapsed → s.closed = true ∧ s.flag = false

theorem tracks_new (handle : String) : Tracks (new handle) [] where
  flag := ⟨nofun, fun ⟨_, h⟩ => absurd h List.not_mem_nil⟩
  written := ⟨nofun, fun h => absurd rfl h⟩
  closed := ⟨nofun, nofun⟩
  watching := nofun
  lapsed := nofun

/-- A step that gives no signal, and leaves the signal as it is. -/
theorem Tracks.concat (h : Tracks s past) (ht : ∀ handle, t ≠ .signal handle) :
    Tracks s (past ++ [t]) :=
  { h with flag := h.flag.trans (raised_concat_of_ne ht).symm }

/-! ### Handles -/

theorem Tracks.signal (h : Tracks s past) {handle : String} (hlive : s.isLive handle = true) :
    Tracks s.signal.1 (past ++ [.signal handle]) where
  flag := iff_of_true rfl (raised_append.2 (.inr (raised_singleton.2 ⟨handle, rfl⟩)))
  written := iff_of_true rfl (Nat.succ_ne_zero _)
  closed := h.closed
  watching := h.watching
  lapsed := fun hwait => by
    -- As long as the handle is there, no call waits for good.
    have hnone := h.closed.1 (h.lapsed hwait).1
    simp [isLive, hnone] at hlive

theorem Tracks.clone (h : Tracks s past) {handle : String} (hlive : s.isLive handle = true)
    (further : String) : Tracks (s.clone further) past where
  flag := h.flag
  written := h.written
  closed := by
    have hopen : s.closed ≠ true := fun hclosed => by simp [isLive, h.closed.1 hclosed] at hlive
    exact iff_of_false hopen (List.cons_ne_nil _ _)
  watching := h.watching
  lapsed := h.lapsed

theorem Tracks.drop (h : Tracks s past) (handle : String) : Tracks (s.drop handle) past where
  flag := h.flag
  written := h.written
  closed := by
    have hnone : s.closed = true → s.handles.filter (· != handle) = [] := fun hclosed => by
      rw [h.closed.1 hclosed, List.filter_nil]
    rw [Shutdown.drop, Bool.or_eq_true, List.isEmpty_iff]
    exact or_iff_right_of_imp hnone
  watching := h.watching
  lapsed := fun hwait => by
    obtain ⟨hclosed, hflag⟩ := h.lapsed hwait
    exact ⟨by rw [Shutdown.drop, hclosed, Bool.true_or], hflag⟩

/-! ### The listener -/

/-- As long as the flag is not raised, a call that has seen all there is to see waits. -/
theorem Tracks.watch (h : Tracks s past) (hflag : s.flag = false) (hseen : s.seen = s.version) :
    s.watch ≠ none ∧ (s.watch = some .watching → s.seen = 0) ∧
      (s.watch = some .lapsed → s.closed = true ∧ s.flag = false) := by
  have hzero : s.version = 0 := by
    by_contra hwritten
    exact Bool.false_ne_true (hflag.symm.trans (h.written.2 hwritten))
  refine ⟨Option.some_ne_none _, fun _ => hseen.trans hzero, fun hlapsed => ⟨?_, hflag⟩⟩
  rw [Shutdown.watch] at hlapsed
  by_contra hopen
  rw [if_neg hopen] at hlapsed
  cases hlapsed

/-- A call looks at the flag and is over if it is raised. -/
theorem Tracks.look (h : Tracks s past) :
    Tracks { s.look.1 with wait := s.look.2 } past ∧ (s.look.2 = none ↔ s.flag = true) := by
  have hlook : Tracks { s with seen := s.version, wait := none } past :=
    { h with watching := nofun, lapsed := nofun }
  by_cases hflag : s.flag = true
  · rw [Shutdown.look, if_pos hflag]
    exact ⟨hlook, iff_of_true rfl hflag⟩
  · obtain ⟨hwaits, hwatching, hlapsed⟩ := hlook.watch (Bool.not_eq_true _ ▸ hflag) rfl
    rw [Shutdown.look, if_neg hflag]
    exact ⟨{ hlook with watching := hwatching, lapsed := hlapsed }, iff_of_false hwaits hflag⟩

/-- Whether it is new or was polled before, a call of the listener is over when it is polled if and
only if a signal was given. -/
theorem Tracks.await (h : Tracks s past) {w : Wait} (hw : w = .unpolled ∨ s.wait = some w) :
    Tracks (s.await w).1 past ∧ ((s.await w).2 = true ↔ Raised past) := by
  have hpoll : Tracks { (s.poll w).1 with wait := (s.poll w).2 } past ∧
      ((s.poll w).2 = none ↔ s.flag = true) := by
    cases w with
    | unpolled => exact h.look
    | watching =>
      have hzero : s.seen = 0 := h.watching (hw.resolve_left nofun)
      rw [poll]
      split
      · next hseen =>
        have hflag : s.flag = false := by
          by_contra hraised
          exact h.written.1 (eq_true_of_ne_false hraised) (hseen.symm.trans hzero)
        obtain ⟨hwaits, hwatching, hlapsed⟩ := h.watch hflag hseen
        exact ⟨{ h with watching := hwatching, lapsed := hlapsed },
          iff_of_false hwaits (Bool.not_eq_true _ ▸ hflag)⟩
      · exact h.look
    | lapsed =>
      obtain ⟨hclosed, hflag⟩ := h.lapsed (hw.resolve_left nofun)
      exact ⟨{ h with watching := nofun, lapsed := fun _ => ⟨hclosed, hflag⟩ },
        iff_of_false (Option.some_ne_none _) (Bool.not_eq_true _ ▸ hflag)⟩
  refine ⟨hpoll.1, ?_⟩
  rw [Shutdown.await, Option.isNone_iff_eq_none, hpoll.2, h.flag]

/-! ### Steps and runs -/

theorem through_eq_some {handle : String} {f : Shutdown → Shutdown × Told}
    (h : s.through handle f = some (s', a)) : s.isLive handle = true ∧ f s = (s', a) := by
  rw [through] at h
  split at h
  · next hlive => exact ⟨hlive, Option.some.inj h⟩
  · cases h

/-- What a step gives depends on whether a signal was given before it. -/
theorem Tracks.step (h : Tracks s past) (hstep : s.step t = some (s', a)) :
    Tracks s' (past ++ [t]) ∧ t.Tells (Raised past) a := by
  cases t with
  | signal handle =>
    rw [Shutdown.step] at hstep
    obtain ⟨hlive, heq⟩ := through_eq_some hstep
    obtain ⟨rfl, rfl⟩ := Prod.mk.inj heq
    refine ⟨h.signal hlive, rfl, fun hraised => ?_, fun hnone => ?_⟩
    · exact if_pos (h.flag.2 hraised)
    · exact if_neg fun hflag => hnone (h.flag.1 hflag)
  | clone handle further =>
    rw [Shutdown.step] at hstep
    obtain ⟨hlive, heq⟩ := through_eq_some hstep
    obtain ⟨rfl, rfl⟩ := Prod.mk.inj heq
    exact ⟨(h.clone hlive further).concat nofun, rfl⟩
  | drop handle =>
    rw [Shutdown.step] at hstep
    obtain ⟨hlive, heq⟩ := through_eq_some hstep
    obtain ⟨rfl, rfl⟩ := Prod.mk.inj heq
    exact ⟨(h.drop handle).concat nofun, rfl⟩
  | isSignalled handle =>
    rw [Shutdown.step] at hstep
    obtain ⟨hlive, heq⟩ := through_eq_some hstep
    obtain ⟨rfl, rfl⟩ := Prod.mk.inj heq
    exact ⟨h.concat nofun, _, rfl, h.flag⟩
  | recv =>
    obtain ⟨rfl, rfl⟩ := Prod.mk.inj (Option.some.inj hstep)
    obtain ⟨htracks, hready⟩ := h.await (.inl rfl)
    exact ⟨htracks.concat nofun, _, rfl, hready⟩
  | again =>
    obtain ⟨w, hwait, heq⟩ := Option.map_eq_some_iff.1 hstep
    obtain ⟨rfl, rfl⟩ := Prod.mk.inj heq
    obtain ⟨htracks, hready⟩ := h.await (.inr hwait)
    exact ⟨htracks.concat nofun, _, rfl, hready⟩

theorem run_cons : s.run (t :: later) = some (s', told) ↔
    ∃ s₁ first rest, s.step t = some (s₁, first) ∧ s₁.run later = some (s', rest) ∧
      told = first :: rest := by
  simp only [run, Option.bind_eq_bind, Option.bind_eq_some_iff, Option.pure_def, Option.some_inj,
    Prod.mk.injEq, Prod.exists]
  constructor
  · rintro ⟨s₁, first, hstep, s₂, rest, hrun, rfl, rfl⟩
    exact ⟨s₁, first, rest, hstep, hrun, rfl⟩
  · rintro ⟨s₁, first, rest, hstep, hrun, rfl⟩
    exact ⟨s₁, first, hstep, s', rest, hrun, rfl, rfl⟩

theorem run_append : s.run (past ++ later) = some (s', told) ↔
    ∃ s₁ first rest, s.run past = some (s₁, first) ∧ s₁.run later = some (s', rest) ∧
      told = first ++ rest := by
  induction past generalizing s told with
  | nil =>
    constructor
    · exact fun h => ⟨s, [], told, rfl, h, rfl⟩
    · rintro ⟨_, _, _, hnil, h, rfl⟩
      obtain ⟨rfl, rfl⟩ := Prod.mk.inj (Option.some.inj hnil)
      exact h
  | cons t past ih =>
    rw [List.cons_append, run_cons]
    constructor
    · rintro ⟨s₁, a, rest, hstep, hrun, rfl⟩
      obtain ⟨s₂, first, rest, hpast, hlater, rfl⟩ := ih.1 hrun
      exact ⟨s₂, a :: first, rest, run_cons.2 ⟨s₁, a, first, hstep, hpast, rfl⟩, hlater, rfl⟩
    · rintro ⟨s₂, _, rest, hrun, hlater, rfl⟩
      obtain ⟨s₁, a, first, hstep, hpast, rfl⟩ := run_cons.1 hrun
      exact ⟨s₁, a, first ++ rest, hstep, ih.2 ⟨s₂, first, rest, hpast, hlater, rfl⟩, rfl⟩

/-- What a run gives, step by step. -/
theorem Tracks.run (h : Tracks s past) (hrun : s.run steps = some (s', told)) :
    Tracks s' (past ++ steps) ∧ told.length = steps.length ∧
      ∀ i (t : Step), steps[i]? = some t →
        ∃ a, told[i]? = some a ∧ t.Tells (Raised (past ++ steps.take i)) a := by
  induction steps generalizing s past told with
  | nil =>
    obtain ⟨rfl, rfl⟩ := Prod.mk.inj (Option.some.inj hrun)
    exact ⟨by rwa [List.append_nil], rfl, nofun⟩
  | cons first later ih =>
    obtain ⟨s₁, a, rest, hstep, hlater, rfl⟩ := run_cons.1 hrun
    obtain ⟨hnext, htells⟩ := h.step hstep
    obtain ⟨hlast, hlength, htold⟩ := ih hnext hlater
    rw [List.append_assoc] at hlast
    refine ⟨hlast, congrArg _ hlength, fun i t ht => ?_⟩
    cases i with
    | zero =>
      obtain rfl := Option.some.inj ht
      exact ⟨a, rfl, by rwa [List.take_zero, List.append_nil]⟩
    | succ i =>
      have hi := htold i t ht
      rwa [List.append_assoc] at hi

/-- Only a first signal leaves a warning. -/
theorem Step.Tells.log {raised : Prop} (h : t.Tells raised a) :
    (Raised [t] → ¬ raised → a.log = [warning]) ∧ ((Raised [t] → raised) → a.log = []) := by
  have hquiet (hnot : ∀ handle, t ≠ .signal handle) (hlog : a.log = []) :
      (Raised [t] → ¬ raised → a.log = [warning]) ∧ ((Raised [t] → raised) → a.log = []) :=
    ⟨fun ht => (raised_singleton.1 ht).elim fun handle heq => absurd heq (hnot handle),
      fun _ => hlog⟩
  cases t with
  | signal handle =>
    obtain ⟨-, hagain, hfirst⟩ := h
    exact ⟨fun _ => hfirst, fun himp => hagain (himp (raised_singleton.2 ⟨handle, rfl⟩))⟩
  | isSignalled _ | recv | again =>
    obtain ⟨b, rfl, -⟩ := h
    exact hquiet nofun rfl
  | clone _ _ | drop _ =>
    obtain rfl := h
    exact hquiet nofun rfl

theorem Tracks.log (h : Tracks s past) (hrun : s.run steps = some (s', told)) :
    (Raised steps → ¬ Raised past → told.flatMap Told.log = [warning]) ∧
      ((Raised steps → Raised past) → told.flatMap Told.log = []) := by
  induction steps generalizing s past told with
  | nil =>
    obtain ⟨rfl, rfl⟩ := Prod.mk.inj (Option.some.inj hrun)
    exact ⟨fun ⟨_, hmem⟩ => absurd hmem List.not_mem_nil, fun _ => rfl⟩
  | cons t later ih =>
    obtain ⟨s₁, a, rest, hstep, hlater, rfl⟩ := run_cons.1 hrun
    obtain ⟨hnext, htells⟩ := h.step hstep
    obtain ⟨hwarns, hquiet⟩ := htells.log
    obtain ⟨hwarnsLater, hquietLater⟩ := ih hnext hlater
    have hsteps : Raised ([t] ++ later) ↔ Raised [t] ∨ Raised later := raised_append
    rw [List.singleton_append] at hsteps
    rw [raised_append] at hwarnsLater hquietLater
    rw [List.flatMap_cons, hsteps]
    constructor
    · intro hraised hnot
      by_cases ht : Raised [t]
      · rw [hwarns ht hnot, hquietLater fun _ => .inr ht, List.append_nil]
      · rw [hquiet fun h => absurd h ht,
          hwarnsLater (hraised.resolve_left ht) (not_or.2 ⟨hnot, ht⟩), List.nil_append]
    · intro himp
      rw [hquiet fun ht => himp (.inl ht), hquietLater fun hl => .inl (himp (.inr hl)),
        List.append_nil]

/-! ### Handles that are all gone -/

theorem handles_await (w : Wait) : (s.await w).1.handles = s.handles := by
  cases w with
  | unpolled | lapsed => rfl
  | watching =>
    show (s.poll .watching).1.handles = s.handles
    rw [poll]
    split <;> rfl

/-- Once no handle is left, none comes back, and nobody can give a signal. -/
theorem not_raised_of_handles_eq_nil (h : s.handles = []) (hrun : s.run later = some (s', told)) :
    ¬ Raised later := by
  have hdead (handle : String) (f : Shutdown → Shutdown × Told) {s : Shutdown}
      (h : s.handles = []) : s.through handle f = none := by
    rw [through, isLive, h]
    rfl
  induction later generalizing s told with
  | nil => exact fun ⟨_, hmem⟩ => absurd hmem List.not_mem_nil
  | cons t later ih =>
    obtain ⟨s₁, a, rest, hstep, hlater, rfl⟩ := run_cons.1 hrun
    cases t with
    | recv =>
      have hnot := ih ((handles_await (s := s) .unpolled).trans h)
        ((Prod.mk.inj (Option.some.inj hstep)).1 ▸ hlater)
      simpa [Raised] using hnot
    | again =>
      obtain ⟨w, hwait, heq⟩ := Option.map_eq_some_iff.1 hstep
      obtain ⟨rfl, rfl⟩ := Prod.mk.inj heq
      have hnot := ih ((handles_await _).trans h) hlater
      simpa [Raised] using hnot
    | signal | clone | drop | isSignalled =>
      rw [Shutdown.step, hdead _ _ h] at hstep
      cases hstep

/-! ### What is seen of a run -/

theorem Step.Tells.polled {raised : Prop} {ready : Bool} {log : List Log.Event}
    (h : t.Tells raised ⟨.polled ready, log⟩) : ready = true ↔ raised := by
  cases t with
  | recv | again =>
    obtain ⟨b, heq, hb⟩ := h
    obtain rfl : ready = b := Answer.polled.inj (Told.mk.inj heq).1
    exact hb
  | signal _ => cases h.1
  | isSignalled _ =>
    obtain ⟨b, heq, -⟩ := h
    cases heq
  | clone _ _ | drop _ => cases h

theorem raised_take {i j : Nat} (hij : i ≤ j) (h : Raised (steps.take i)) :
    Raised (steps.take j) := by
  obtain ⟨handle, hmem⟩ := h
  exact ⟨handle, (List.take_prefix_take_left hij).subset hmem⟩

theorem raised_of_take {i : Nat} (h : Raised (steps.take i)) : Raised steps := by
  obtain ⟨handle, hmem⟩ := h
  exact ⟨handle, List.mem_of_mem_take hmem⟩

/-- A run of steps that began with one handle ends in a signal, and gives what a signal has to. -/
structure Reliable (handle : String) (steps : List Step) (s : Shutdown) (told : List Told) :
    Prop where
  /-- Through whatever handle it is asked, it tells whether a signal was given before. -/
  signalled : ∀ i other, steps[i]? = some (.isSignalled other) →
    ∃ b, told[i]? = some ⟨.signalled b, []⟩ ∧ (b = true ↔ Raised (steps.take i))
  /-- It can be asked at any time through any handle that is there. -/
  live : ∀ other, s.isLive other = true →
    ∃ b, s.step (.isSignalled other) = some (s, ⟨.signalled b, []⟩) ∧ (b = true ↔ Raised steps)
  /-- A poll of the listener is ready if and only if a signal was given before. -/
  polled : ∀ i t, steps[i]? = some t → t.Polls →
    ∃ b, told[i]? = some ⟨.polled b, []⟩ ∧ (b = true ↔ Raised (steps.take i))
  /-- The listener can be polled at any time, also if no handle is left. -/
  recv : ∃ s' b, s.step .recv = some (s', ⟨.polled b, []⟩) ∧ (b = true ↔ Raised steps)
  /-- Once a poll was ready, every later one is. -/
  stays : ∀ (i j : Nat) (b : Bool) (log log' : List Log.Event), i ≤ j →
    told[i]? = some ⟨.polled true, log⟩ → told[j]? = some ⟨.polled b, log'⟩ → b = true
  /-- If no handle is left at some time and no signal was given, none will be, and no poll is ever
  ready. -/
  lost : ∀ n s₁ told₁, (new handle).run (steps.take n) = some (s₁, told₁) → s₁.handles = [] →
    ¬ Raised (steps.take n) → ¬ Raised steps ∧
      ∀ (i : Nat) (b : Bool) (log : List Log.Event), told[i]? = some ⟨.polled b, log⟩ → b = false
  /-- The run leaves one warning if a signal was given. -/
  warned : Raised steps → told.flatMap Told.log = [warning]
  /-- It leaves nothing in the log otherwise. -/
  quiet : ¬ Raised steps → told.flatMap Told.log = []

/-- Any run of steps over the handles of one signal and its listener gives what it has to. -/
theorem reliable_run {handle : String} (h : (new handle).run steps = some (s, told)) :
    Reliable handle steps s told := by
  obtain ⟨htracks, hlength, htells⟩ := (tracks_new handle).run h
  simp only [List.nil_append] at htracks htells
  obtain ⟨hwarned, hquiet⟩ := (tracks_new handle).log h
  have hpolled (i : Nat) (b : Bool) (log : List Log.Event) (hi : told[i]? = some ⟨.polled b, log⟩) :
      b = true ↔ Raised (steps.take i) := by
    have hlt : i < steps.length := hlength ▸ (List.getElem?_eq_some_iff.1 hi).1
    obtain ⟨a, ha, htold⟩ := htells i steps[i] (List.getElem?_eq_getElem hlt)
    obtain rfl := Option.some.inj (hi.symm.trans ha)
    exact htold.polled
  exact {
    signalled := fun i other hi => by
      obtain ⟨_, ha, b, rfl, hb⟩ := htells i _ hi
      exact ⟨b, ha, hb⟩
    live := fun other hlive => ⟨s.flag, if_pos hlive, htracks.flag⟩
    polled := fun i t hi hpolls => by
      obtain ⟨_, ha, htold⟩ := htells i t hi
      cases t with
      | recv | again =>
        obtain ⟨b, rfl, hb⟩ := htold
        exact ⟨b, ha, hb⟩
      | _ => exact hpolls.elim
    recv := ⟨_, _, rfl, (htracks.await (.inl rfl)).2⟩
    stays := fun i j b log log' hij hi hj =>
      (hpolled j b log' hj).2 (raised_take hij ((hpolled i true log hi).1 rfl))
    lost := fun n s₁ told₁ hfirst hnone hnot => by
      rw [← List.take_append_drop n steps] at h
      obtain ⟨_, _, _, hbefore, hlater, -⟩ := run_append.1 h
      obtain ⟨rfl, rfl⟩ := Prod.mk.inj (Option.some.inj (hfirst.symm.trans hbefore))
      have hnever : ¬ Raised steps := by
        rw [← List.take_append_drop n steps, raised_append]
        exact not_or.2 ⟨hnot, not_raised_of_handles_eq_nil hnone hlater⟩
      refine ⟨hnever, fun i b log hi => ?_⟩
      by_contra hb
      exact hnever (raised_of_take ((hpolled i b log hi).1 (eq_true_of_ne_false hb)))
    warned := fun hraised => hwarned hraised fun ⟨_, hmem⟩ => absurd hmem List.not_mem_nil
    quiet := fun hnot => hquiet fun hraised => absurd hraised hnot }

/-- A handle and a copy of it. The listener waits; the copy gives the signal and goes, and so does
the other handle before the listener is polled again. -/
def parting : List Step :=
  [.clone "api" "worker", .recv, .signal "worker", .drop "worker", .isSignalled "api",
    .signal "api", .drop "api", .again, .recv]

theorem reliable_run_parting :
    (new "api").run parting = some (⟨true, 2, [], true, 2, none⟩,
      [⟨.done, []⟩, ⟨.polled false, []⟩, ⟨.done, [warning]⟩, ⟨.done, []⟩, ⟨.signalled true, []⟩,
        ⟨.done, []⟩, ⟨.done, []⟩, ⟨.polled true, []⟩, ⟨.polled true, []⟩]) ∧
      Reliable "api" parting ⟨true, 2, [], true, 2, none⟩
        [⟨.done, []⟩, ⟨.polled false, []⟩, ⟨.done, [warning]⟩, ⟨.done, []⟩, ⟨.signalled true, []⟩,
          ⟨.done, []⟩, ⟨.done, []⟩, ⟨.polled true, []⟩, ⟨.polled true, []⟩] :=
  ⟨rfl, reliable_run rfl⟩

-- A listener that nobody can wake any more is polled in vain, as often as one likes.
example : (new "api").run [.recv, .drop "api", .again, .again, .recv] =
    some (⟨false, 0, [], true, 0, some .lapsed⟩,
      [⟨.polled false, []⟩, ⟨.done, []⟩, ⟨.polled false, []⟩, ⟨.polled false, []⟩,
        ⟨.polled false, []⟩]) := rfl

/-! ### The pipeline -/

/-- A pipeline that asks the service to stop raises the flag as any handle does, with the same
warning. -/
theorem exec_signalShutdown_eq_signal {σ : Type} {x : Pipeline.Exchange σ}
    (h : x.signalled = s.flag) :
    Pipeline.exec Pipeline.signalShutdown x =
      (.ok (), { x with signalled := s.signal.1.flag, logged := s.signal.2 ++ x.logged }) := by
  rw [Pipeline.exec_signalShutdown, Pipeline.Exchange.signalling, Shutdown.signal, ← h]
  by_cases hflag : x.signalled = true
  · rw [if_pos hflag, if_pos hflag]
    show (_, x) = (_, { x with signalled := true, logged := x.logged })
    rw [← hflag]
  · rw [if_neg hflag, if_neg hflag]
    rfl

end AccountService.Shutdown
