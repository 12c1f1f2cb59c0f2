import AccountService.Http.RequestError
import AccountService.Proofs.Json.RoundTrip

/-!
# What an error tells the caller

The problems of single fields are sent as a JSON text inside a JSON text, so whatever has to be
escaped is escaped twice. A caller who undoes both finds the message and the problems again as they
were recorded, and nothing else.

## Main definitions

* `Http.FieldError.ofNode?`, `Http.fieldErrorsOfText?` — the problems in a JSON text
* `Http.told?` — the message and the problems in a body
* `Http.FieldError.recorded` — the problems of a sequence of records

## Main statements

* `Http.told?_body` — the body of an error reads back as the error
* `Http.RequestError.legible_response` — bodies are read back, and records are kept, without loss
-/

namespace AccountService.Http

open Json (Node)

/-! ### Reading a body -/

/-- The problem in a record that has a field and an error, and nothing else. -/
def FieldError.ofNode? (v : Node) : Option FieldError :=
  match v.textMembers? with
  | some [("field", field), ("error", error)] => some ⟨field, error⟩
  | _ => none

/-- The problems in a JSON text: it writes a list of them, and nothing else. -/
def fieldErrorsOfText? (text : String) : Option (List FieldError) :=
  ((Node.parse? (Octets.ofText text)).bind Node.items?).bind (·.mapM FieldError.ofNode?)

/-- The message in a body, and the problems where it has any: it writes a record of an error and
possibly of fields, where the fields are a text that is read in its turn. -/
def told? (body : String) : Option (String × Option (List FieldError)) :=
  match (Node.parse? (Octets.ofText body)).bind Node.textMembers? with
  | some [("error", message)] => some (message, none)
  | some [("error", message), ("fields", text)] => (fieldErrorsOfText? text).map (message, some ·)
  | _ => none

variable {e e' : RequestError} {fields : List FieldError}

theorem FieldError.ofNode?_record (f : FieldError) :
    ofNode? (Json.node (.record [("field", .text f.field), ("error", .text f.error)])) = some f := by
  have hmembers := Json.textMembers?_node [("field", f.field), ("error", f.error)]
  simp only [List.map_cons, List.map_nil] at hmembers
  rw [ofNode?, hmembers]
  rfl

/-- A list of problems reads back from its text. -/
theorem fieldErrorsOfText?_text (fields : List FieldError) :
    fieldErrorsOfText? (fieldErrorsText fields) = some fields := by
  rw [fieldErrorsOfText?, fieldErrorsText, Json.parse?_render, Option.bind_some, fieldErrorsJson,
    Json.items?_node, Option.bind_some]
  induction fields with
  | nil => rfl
  | cons f fields ih =>
    rw [List.map_cons, List.map_cons, List.mapM_cons, ih, FieldError.ofNode?_record]
    rfl

/-- The members of a body. -/
theorem textMembers?_body (e : RequestError) :
    (Node.parse? (Octets.ofText e.body)).bind Node.textMembers? =
      some (("error", e.message) ::
        match e.fields with
        | none => []
        | some fields => [("fields", fieldErrorsText fields)]) := by
  rw [RequestError.body, Json.parse?_render, Option.bind_some, ← Json.textMembers?_node,
    RequestError.bodyJson]
  cases e.fields <;> rfl

/-- The body of an error reads back as the error. -/
theorem told?_body (e : RequestError) : told? e.body = some (e.message, e.fields) := by
  rw [told?, textMembers?_body]
  cases e.fields with
  | none => rfl
  | some fields => simp only [fieldErrorsOfText?_text, Option.map_some]

-- A quote in the name of a field, escaped once for the list and once more for the body.
example : fieldErrorsText [⟨"a\"", "b"⟩] =
      "[\x7b\"field\":\"a\\\"\",\"error\":\"b\"\x7d]" ∧
    (RequestError.validation [⟨"a\"", "b"⟩]).body =
      "\x7b\"error\":\"data validation error\",\"fields\":" ++
        "\"[\x7b\\\"field\\\":\\\"a\\\\\\\"\\\",\\\"error\\\":\\\"b\\\"\x7d]\"\x7d" := by
  decide +kernel

/-- Nothing but the message and the problems shows in a body. -/
theorem RequestError.body_eq_iff :
    e.body = e'.body ↔ e.message = e'.message ∧ e.fields = e'.fields := by
  constructor
  · -- A body is read in one way only, so one text cannot tell of two errors.
    intro h
    have htold := told?_body e
    rw [h, told?_body e'] at htold
    obtain ⟨hmessage, hfields⟩ := Prod.mk.inj (Option.some.inj htold)
    exact ⟨hmessage.symm, hfields.symm⟩
  · rintro ⟨hmessage, hfields⟩
    rw [RequestError.body, RequestError.body, bodyJson, bodyJson, hmessage, hfields]

/-! ### Recording problems -/

/-- The problems that a sequence of records leaves behind, each a field with its error. -/
def FieldError.recorded (pushes : List (String × String)) : List FieldError :=
  pushes.foldl (fun fields p => push fields p.1 p.2) []

/-- Problems are kept in the order in which they were recorded. -/
theorem FieldError.recorded_eq (pushes : List (String × String)) :
    recorded pushes = pushes.map fun p => ⟨p.1, p.2⟩ := by
  have hkept (fields : List FieldError) :
      pushes.foldl (fun fields p => push fields p.1 p.2) fields =
        fields ++ pushes.map fun p => ⟨p.1, p.2⟩ := by
    induction pushes generalizing fields with
    | nil => exact (List.append_nil fields).symm
    | cons p pushes ih =>
      rw [List.foldl_cons, ih, push, List.append_assoc, List.map_cons]
      rfl
  exact hkept []

theorem validated_recorded (pushes : List (String × String)) :
    validated (FieldError.recorded pushes) =
      if pushes = [] then .ok ()
      else .error (.validation (pushes.map fun p => ⟨p.1, p.2⟩)) := by
  rw [validated, FieldError.recorded_eq, List.isEmpty_map]
  cases pushes <;> rfl

/-- The body of the answer to an error reads back as its message and its problems. So two bodies are
the same text exactly if they tell of the same message and the same problems, and the problems that
the validation of a payload recorded reach the caller as they were recorded. -/
theorem RequestError.legible_response :
    (∀ e : RequestError, told? e.response.body = some (e.message, e.fields)) ∧
      (∀ e e' : RequestError,
        e.response.body = e'.response.body ↔ e.message = e'.message ∧ e.fields = e'.fields) ∧
      ∀ pushes : List (String × String),
        validated (FieldError.recorded pushes) =
          if pushes = [] then .ok ()
          else .error (.validation (pushes.map fun p => ⟨p.1, p.2⟩)) :=
  ⟨told?_body, fun _ _ => body_eq_iff, validated_recorded⟩

end AccountService.Http
