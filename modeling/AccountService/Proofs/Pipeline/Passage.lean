import AccountService.Proofs.Pipeline.Bindings

/-!
# The way through layers

A request goes through layers from the outside in until one of them answers itself, and back again
through the same layers. If each of them writes down when it is entered and when it is left, what is
written is the list of the layers that were reached, the handler if it was, and the same list in
reverse.

## Main definitions

* `Pipeline.Bracket` — a layer that calls what it wraps once, or answers itself
* `Pipeline.descend` — the layers that a request reaches, and what it comes to innermost
* `Pipeline.Mark`, `Pipeline.Recorder` — what is written down, and layers that write it
* `Pipeline.Passage` — the way of a request through layers

## Main statements

* `Pipeline.exec_compose` — what is reached innermost, as changed by the layers on the way out
* `Pipeline.record_compose` — what is written down on the way
* `Pipeline.ordered_compose` — the order of layers
-/

namespace AccountService.Pipeline

open Http

variable {σ : Type}

/-! ### Layers that call once or answer -/

/-- What a layer does with a request on the way in: it passes a request on, or it answers. -/
inductive Ruling where
  | passes (r : Request)
  | answers (outcome : Except Failure Response)

/-- Whether a ruling is an answer. -/
def Ruling.isAnswer : Ruling → Bool
  | passes _ => false
  | answers _ => true

theorem Ruling.isAnswer_eq_false_iff {ruling : Ruling} :
    ruling.isAnswer = false ↔ ∃ r, ruling = .passes r := by
  cases ruling <;> simp [isAnswer]

/-- What comes of a ruling in front of a handler. -/
def innermost (next : Handler σ) : Ruling × Exchange σ → Except Failure Response × Exchange σ
  | (.passes r, y) => exec (next r) y
  | (.answers outcome, y) => (outcome, y)

/-- A layer that calls what it wraps once, or answers itself. What it makes of the outcome on the way
out may depend on how it was entered. The equation holds whatever is wrapped, so what the layer does
on the way in cannot depend on that, and what it calls shows only through the outcome. -/
structure Bracket (σ : Type) where
  name : String
  layer : Layer σ
  enter : Request → Exchange σ → Ruling × Exchange σ
  leave : Request → Exchange σ → Except Failure Response × Exchange σ →
    Except Failure Response × Exchange σ
  exec_layer : ∀ next r x, exec (layer next r) x = leave r x (innermost next (enter r x))

/-- A layer that a request reaches, with the request and the state as they arrive there. -/
structure Visit (σ : Type) where
  bracket : Bracket σ
  request : Request
  before : Exchange σ

namespace Visit

/-- What the layer does on the way in. -/
def enter (v : Visit σ) : Ruling × Exchange σ := v.bracket.enter v.request v.before

/-- What the layer does on the way out. -/
def leave (v : Visit σ) (p : Except Failure Response × Exchange σ) :
    Except Failure Response × Exchange σ :=
  v.bracket.leave v.request v.before p

/-- Whether the layer answers itself. -/
def answers (v : Visit σ) : Bool := v.enter.1.isAnswer

end Visit

/-- The layers that a request reaches, outermost first, and the ruling that it comes to innermost:
each layer hands it on to the next, until one answers. -/
def descend : List (Bracket σ) → Request → Exchange σ → List (Visit σ) × (Ruling × Exchange σ)
  | [], r, x => ([], (.passes r, x))
  | b :: bs, r, x =>
    match b.enter r x with
    | (.passes r', y) => (⟨b, r, x⟩ :: (descend bs r' y).1, (descend bs r' y).2)
    | (.answers outcome, y) => ([⟨b, r, x⟩], (.answers outcome, y))

section Descent

variable {b : Bracket σ} {r r' : Request} {x y : Exchange σ} {outcome : Except Failure Response}

theorem descend_of_passes (h : b.enter r x = (.passes r', y)) (bs : List (Bracket σ)) :
    descend (b :: bs) r x = (⟨b, r, x⟩ :: (descend bs r' y).1, (descend bs r' y).2) := by
  rw [descend, h]

theorem descend_of_answers (h : b.enter r x = (.answers outcome, y)) (bs : List (Bracket σ)) :
    descend (b :: bs) r x = ([⟨b, r, x⟩], (.answers outcome, y)) := by
  rw [descend, h]

theorem answers_of_enter {ruling : Ruling} (h : b.enter r x = (ruling, y)) :
    (⟨b, r, x⟩ : Visit σ).answers = ruling.isAnswer := by
  rw [Visit.answers, Visit.enter, h]

-- In each of these inductions on the list the outermost layer passes the request on, and the rest is
-- the way from there, or it answers, and there is no rest.

/-- Layers are reached in the order of the list. -/
theorem reached_prefix (bs : List (Bracket σ)) (r : Request) (x : Exchange σ) :
    (descend bs r x).1.map (·.bracket) <+: bs := by
  induction bs generalizing r x with
  | nil => exact List.prefix_refl []
  | cons b bs ih =>
    rcases h : b.enter r x with ⟨r' | outcome, y⟩
    · rw [descend_of_passes h]
      exact (List.prefix_cons_inj b).2 (ih r' y)
    · rw [descend_of_answers h]
      exact (List.prefix_cons_inj b).2 List.nil_prefix

/-- No layer is reached after one that answers. -/
theorem not_answers_of_mem_dropLast (bs : List (Bracket σ)) (r : Request) (x : Exchange σ) :
    ∀ v ∈ (descend bs r x).1.dropLast, v.answers = false := by
  induction bs generalizing r x with
  | nil => exact fun v hv => absurd hv List.not_mem_nil
  | cons b bs ih =>
    rcases h : b.enter r x with ⟨r' | outcome, y⟩
    · have hrest := ih r' y
      rw [descend_of_passes h]
      -- This layer is not the last one, unless nothing is reached inside it.
      cases hvisits : (descend bs r' y).1 with
      | nil => exact fun v hv => absurd hv List.not_mem_nil
      | cons w ws =>
        rw [hvisits] at hrest
        rw [List.dropLast_cons_cons]
        exact List.forall_mem_cons.2 ⟨answers_of_enter h, hrest⟩
    · rw [descend_of_answers h]
      exact fun v hv => absurd hv List.not_mem_nil

/-- If no layer answers, all are reached. -/
theorem reached_all (bs : List (Bracket σ)) (r : Request) (x : Exchange σ)
    (hnone : (descend bs r x).1.any (·.answers) = false) :
    (descend bs r x).1.map (·.bracket) = bs := by
  induction bs generalizing r x with
  | nil => rfl
  | cons b bs ih =>
    rcases h : b.enter r x with ⟨r' | outcome, y⟩
    · rw [descend_of_passes h] at hnone ⊢
      rw [List.any_cons, answers_of_enter h, Ruling.isAnswer, Bool.false_or] at hnone
      rw [List.map_cons, ih r' y hnone]
    · rw [descend_of_answers h, List.any_cons, answers_of_enter h] at hnone
      cases hnone

/-- The innermost ruling is that of the last layer that is reached. -/
theorem innermost_ruling (bs : List (Bracket σ)) (r : Request) (x : Exchange σ) :
    (descend bs r x).2 = ((descend bs r x).1.getLast?.map Visit.enter).getD (.passes r, x) := by
  induction bs generalizing r x with
  | nil => rfl
  | cons b bs ih =>
    rcases h : b.enter r x with ⟨r' | outcome, y⟩
    · have hrest := ih r' y
      rw [descend_of_passes h]
      cases hvisits : (descend bs r' y).1 with
      | nil =>
        rw [hvisits] at hrest
        exact hrest.trans h.symm
      | cons w ws =>
        rw [hvisits] at hrest
        rw [List.getLast?_cons_cons, hrest, List.getLast?_cons]
        rfl
    · rw [descend_of_answers h]
      exact h.symm

/-- The handler is reached exactly if no layer answers. -/
theorem isAnswer_innermost (bs : List (Bracket σ)) (r : Request) (x : Exchange σ) :
    (descend bs r x).2.1.isAnswer = (descend bs r x).1.any (·.answers) := by
  induction bs generalizing r x with
  | nil => rfl
  | cons b bs ih =>
    rcases h : b.enter r x with ⟨r' | outcome, y⟩
    · rw [descend_of_passes h, List.any_cons, answers_of_enter h, Ruling.isAnswer, Bool.false_or]
      exact ih r' y
    · rw [descend_of_answers h, List.any_cons, answers_of_enter h, Ruling.isAnswer, Bool.true_or]

/-- What is reached innermost, as changed by the layers on the way out. -/
theorem exec_compose (bs : List (Bracket σ)) (h : Handler σ) (r : Request) (x : Exchange σ) :
    exec (compose (bs.map (·.layer)) h r) x =
      (descend bs r x).1.foldr Visit.leave (innermost h (descend bs r x).2) := by
  induction bs generalizing r x with
  | nil => rfl
  | cons b bs ih =>
    rw [List.map_cons, compose_cons, b.exec_layer]
    rcases henter : b.enter r x with ⟨r' | outcome, y⟩
    · rw [descend_of_passes henter, innermost, ih]
      rfl
    · rw [descend_of_answers henter]
      rfl

end Descent

/-! ### What is written down -/

/-- What is written down about the way of a request. -/
inductive Mark where
  | entered (name : String)
  | handled
  | left (name : String)
  deriving DecidableEq, Repr

/-- A layer that writes down when it is entered and when it is left. It is left on the outcomes of a
kind: on every outcome, or on all but panics, and it makes no other outcome of one of these. -/
structure Recorder (record : Exchange σ → List Mark) (kept : Except Failure Response → Prop)
    extends Bracket σ where
  record_enter : ∀ r x, record (enter r x).2 = record x ++ [.entered name]
  record_leave : ∀ r x p, kept p.1 → record (leave r x p).2 = record p.2 ++ [.left name]
  kept_answer : ∀ r x outcome y, enter r x = (.answers outcome, y) → kept outcome
  kept_leave : ∀ r x p, kept p.1 → kept (leave r x p).1

/-- A handler writes down that it runs, and comes to an outcome of the kind that layers are left
on. -/
structure Noted (record : Exchange σ → List Mark) (kept : Except Failure Response → Prop)
    (h : Handler σ) : Prop where
  record_exec : ∀ r x, record (exec (h r) x).2 = record x ++ [.handled]
  kept_exec : ∀ r x, kept (exec (h r) x).1

/-- The marks of layers that are reached: they are entered, the handler runs unless one of them
answers, and they are left in reverse. -/
def marks (visits : List (Visit σ)) : List Mark :=
  visits.map (.entered ·.bracket.name) ++ (if visits.any (·.answers) then [] else [.handled]) ++
    visits.reverse.map (.left ·.bracket.name)

section Record

variable {record : Exchange σ → List Mark} {kept : Except Failure Response → Prop} {h : Handler σ}

theorem marks_cons_of_passes {v : Visit σ} (hv : v.answers = false) (visits : List (Visit σ)) :
    marks (v :: visits) = .entered v.bracket.name :: marks visits ++ [.left v.bracket.name] := by
  simp [marks, hv]

theorem marks_singleton_of_answers {v : Visit σ} (hv : v.answers = true) :
    marks [v] = [.entered v.bracket.name, .left v.bracket.name] := by
  simp [marks, hv]

/-- What is written down on the way through layers. -/
theorem record_compose (recorders : List (Recorder record kept)) (hh : Noted record kept h)
    (r : Request) (x : Exchange σ) :
    kept (exec (compose (recorders.map (·.layer)) h r) x).1 ∧
      record (exec (compose (recorders.map (·.layer)) h r) x).2 =
        record x ++ marks (descend (recorders.map (·.toBracket)) r x).1 := by
  induction recorders generalizing r x with
  | nil => exact ⟨hh.kept_exec r x, hh.record_exec r x⟩
  | cons c recorders ih =>
    have hin := c.record_enter r x
    rw [List.map_cons, List.map_cons, compose_cons, c.exec_layer]
    rcases henter : c.enter r x with ⟨r' | outcome, y⟩
    · -- What is written inside stands between the mark of entering and that of leaving.
      obtain ⟨hkept, hrecord⟩ := ih r' y
      rw [henter] at hin
      refine ⟨c.kept_leave r x _ hkept, ?_⟩
      rw [innermost, c.record_leave r x _ hkept, hrecord, hin, descend_of_passes henter,
        marks_cons_of_passes (answers_of_enter henter)]
      simp
    · -- A layer that answers is entered and left, and nothing is written in between.
      have hkept := c.kept_answer r x outcome y henter
      rw [henter] at hin
      refine ⟨c.kept_leave r x (outcome, y) hkept, ?_⟩
      rw [innermost, c.record_leave r x (outcome, y) hkept, hin, descend_of_answers henter,
        marks_singleton_of_answers (answers_of_enter henter)]
      simp

end Record

/-! ### The order of layers -/

/-- The way of a request through layers around a handler. -/
structure Passage {record : Exchange σ → List Mark} {kept : Except Failure Response → Prop}
    (recorders : List (Recorder record kept)) (h : Handler σ) (r : Request) (x : Exchange σ)
    (visits : List (Visit σ)) (last : Ruling × Exchange σ) : Prop where
  /-- Layers are entered in the order of the list. -/
  entered : visits.map (·.bracket) <+: recorders.map (·.toBracket)
  /-- The first layer that answers is the last that is entered. -/
  passed : ∀ v ∈ visits.dropLast, v.answers = false
  /-- If none of them answers, all are entered. -/
  all : visits.any (·.answers) = false → visits.map (·.bracket) = recorders.map (·.toBracket)
  /-- The request arrives at the handler exactly if no layer answers. -/
  arrives : (∃ r', last.1 = .passes r') ↔ visits.any (·.answers) = false
  /-- What it comes to innermost is up to the last layer that is entered. -/
  last_eq : last = (visits.getLast?.map Visit.enter).getD (.passes r, x)
  /-- The layers are entered, the handler runs once or not at all, and the layers are left in
  reverse. -/
  marked : record (exec (compose (recorders.map (·.layer)) h r) x).2 = record x ++
    (visits.map (.entered ·.bracket.name) ++
      (if visits.any (·.answers) then [] else [.handled]) ++
      visits.reverse.map (.left ·.bracket.name))
  /-- The result is the innermost one, as changed by the layers on the way out. -/
  result : exec (compose (recorders.map (·.layer)) h r) x =
    visits.foldr Visit.leave (innermost h last)

/-- The way of a request through layers that write it down. -/
theorem passage_descend {record : Exchange σ → List Mark} {kept : Except Failure Response → Prop}
    {h : Handler σ} (hh : Noted record kept h) (recorders : List (Recorder record kept))
    (r : Request) (x : Exchange σ) :
    Passage recorders h r x (descend (recorders.map (·.toBracket)) r x).1
      (descend (recorders.map (·.toBracket)) r x).2 where
  entered := reached_prefix _ r x
  passed := not_answers_of_mem_dropLast _ r x
  all := reached_all _ r x
  arrives := by rw [← isAnswer_innermost, Ruling.isAnswer_eq_false_iff]
  last_eq := innermost_ruling _ r x
  marked := (record_compose recorders hh r x).2
  result := by
    rw [← exec_compose, List.map_map]
    rfl

/-- The order of layers. Two lists of layers compose as one list does, and the routes of an
application run inside its layers and then their own. A request enters layers in order, up to the
first that answers itself, and leaves them in reverse; the handler runs exactly if none of them
answers, and what is reached innermost is the result, as changed by the layers on the way out. -/
theorem ordered_compose {layers : List (Layer σ)} {bs : List (Binding σ)} {app : App σ}
    (hbuilt : App.Built layers bs app) {record : Exchange σ → List Mark}
    {kept : Except Failure Response → Prop} {h : Handler σ} (hh : Noted record kept h) :
    (∀ (outer inner : List (Layer σ)) (next : Handler σ) (r : Request) (x : Exchange σ),
        exec (compose (outer ++ inner) next r) x = exec (compose outer (compose inner next) r) x) ∧
      Wraps layers bs app ∧
      ∀ (recorders : List (Recorder record kept)) (r : Request) (x : Exchange σ),
        Passage recorders h r x (descend (recorders.map (·.toBracket)) r x).1
          (descend (recorders.map (·.toBracket)) r x).2 := by
  refine ⟨fun outer inner next r x => ?_, hbuilt.wraps, passage_descend hh⟩
  rw [compose_append]

/-! ### Marks kept in the state -/

section Sample

/-- Writes a mark down. -/
def note (m : Mark) : Action (List Mark) Unit := modify fun x => { x with world := x.world ++ [m] }

/-- The state with one more mark. -/
def Exchange.noting (m : Mark) (x : Exchange (List Mark)) : Exchange (List Mark) :=
  { x with world := x.world ++ [m] }

theorem exec_note (m : Mark) (x : Exchange (List Mark)) :
    exec (note m) x = (.ok (), x.noting m) := rfl

/-- A layer that writes down when it is entered and when what it wraps has come back. -/
def noting (name : String) : Layer (List Mark) := fun next r => do
  note (.entered name)
  let result ← attempt (next r)
  note (.left name)
  match result with
  | .ok response => return response
  | .error e => fail e

/-- A layer that answers itself. -/
def refusing (name : String) (a : Response) : Layer (List Mark) := fun _ _ => do
  note (.entered name)
  note (.left name)
  return a

/-- A handler that writes down that it runs. -/
def handling : Handler (List Mark) := fun _ => do
  note .handled
  return greeting

/-- What is left by a layer that no panic comes back past. -/
def leaving (name : String) :
    Except Failure Response × Exchange (List Mark) → Except Failure Response × Exchange (List Mark)
  | (.error (.panic p), y) => (.error (.panic p), y)
  | (outcome, y) => (outcome, y.noting (.left name))

theorem exec_noting (name : String) (next : Handler (List Mark)) (r : Request)
    (x : Exchange (List Mark)) :
    exec (noting name next r) x = leaving name (exec (next r) (x.noting (.entered name))) := by
  simp only [noting, exec_bind, exec_note, exec_attempt]
  rcases exec (next r) (x.noting (.entered name)) with ⟨(e | p) | v, y⟩ <;> rfl

theorem leaving_of_not_panic {name : String} {p : Except Failure Response × Exchange (List Mark)}
    (h : isPanic p.1 = false) : leaving name p = (p.1, p.2.noting (.left name)) := by
  rcases p with ⟨(e | p) | v, y⟩
  · rfl
  · cases h
  · rfl

/-- The layer that writes down, as a recorder. -/
def notingRecorder (name : String) :
    Recorder (σ := List Mark) (·.world) (isPanic · = false) where
  name := name
  layer := noting name
  enter r x := (.passes r, x.noting (.entered name))
  leave _ _ p := leaving name p
  exec_layer next r x := exec_noting name next r x
  record_enter _ _ := rfl
  record_leave _ _ p hp := by rw [leaving_of_not_panic hp]; rfl
  kept_answer _ _ _ _ h := by cases h
  kept_leave _ _ p hp := by rw [leaving_of_not_panic hp]; exact hp

/-- The layer that answers itself, as a recorder. -/
def refusingRecorder (name : String) (a : Response) :
    Recorder (σ := List Mark) (·.world) (isPanic · = false) where
  name := name
  layer := refusing name a
  enter _ x := (.answers (.ok a), x.noting (.entered name))
  leave _ _ p := (p.1, p.2.noting (.left name))
  exec_layer _ _ _ := rfl
  record_enter _ _ := rfl
  record_leave _ _ _ _ := rfl
  kept_answer _ _ outcome _ h := by
    cases h
    rfl
  kept_leave _ _ _ hp := hp

theorem noted_handling : Noted (σ := List Mark) (·.world) (isPanic · = false) handling where
  record_exec _ _ := rfl
  kept_exec _ _ := rfl

/-- A route that a layer of its own answers, in an application with a layer around it. -/
def refusedBinding : Binding (List Mark) :=
  ⟨"GET", "", "/sample", handling, [noting "B", refusing "C" greeting, noting "D"]⟩

/-- The application of this route. -/
def refusedApp : App (List Mark) :=
  ⟨[noting "A"], ⟨[⟨"/sample", ⟨literals "/sample".toList, []⟩,
    [("GET", compose [noting "A"] (compose refusedBinding.layers handling))]⟩]⟩⟩

theorem built_refusedApp : App.Built [noting "A"] [refusedBinding] refusedApp := by
  apply App.Built.handle refusedBinding App.Built.new
  show (App.new [noting "A"]).handle "GET" "" "/sample" handling refusedBinding.layers =
    .ok refusedApp
  rfl

theorem ordered_compose_refusedApp :
    App.Built [noting "A"] [refusedBinding] refusedApp ∧
      Noted (σ := List Mark) (·.world) (isPanic · = false) handling ∧
      (∀ r x, (exec (compose [noting "A", noting "B", refusing "C" greeting, noting "D"] handling r)
        x).2.world = x.world ++ [.entered "A", .entered "B", .entered "C",
          .left "C", .left "B", .left "A"]) ∧
      ∀ r x, (exec (compose [noting "A", noting "B"] handling r) x).2.world =
        x.world ++ [.entered "A", .entered "B", .handled, .left "B", .left "A"] := by
  obtain ⟨-, -, hpassage⟩ := ordered_compose built_refusedApp noted_handling
  refine ⟨built_refusedApp, noted_handling, fun r x => ?_, fun r x => ?_⟩
  · exact (hpassage [notingRecorder "A", notingRecorder "B", refusingRecorder "C" greeting,
      notingRecorder "D"] r x).marked
  · exact (hpassage [notingRecorder "A", notingRecorder "B"] r x).marked

end Sample

end AccountService.Pipeline
