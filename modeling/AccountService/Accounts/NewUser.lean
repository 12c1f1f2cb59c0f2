import AccountService.Accounts.Error
import AccountService.Json.Reading

/-!
# New accounts

What is submitted to create an account, how it is read, and which fields are acceptable.

## Main definitions

* `Accounts.NewUser` — a submission
* `Accounts.NewUser.problems`, `Accounts.NewUser.validate` — what is wrong with it
* `Accounts.NewUser.ofBody?` — reading it from a payload
-/

namespace AccountService.Accounts

open Http Json

/-- What is submitted to create an account. -/
structure NewUser where
  name : String
  email : String
  role : String
  password : String
  passwordConfirm : String
  deriving DecidableEq, Repr

namespace NewUser

/-- The problem of a field, if there is one. -/
def problem (holds : Bool) (field error : String) : List FieldError :=
  if holds then [⟨field, error⟩] else []

/-- What is wrong with a submission, field by field: the name, the email and the password are
not blank, the email has an `@`, the role is known, and the password is given twice. -/
def problems (n : NewUser) : List FieldError :=
  problem (Text.isBlankText n.name) "name" "name is a required field" ++
    problem (Text.isBlankText n.email) "email" "email is a required field" ++
    problem (!Text.isBlankText n.email && !n.email.toList.contains '@') "email"
      "email must be a valid email address" ++
    problem (!Auth.knownRoles.contains n.role) "role"
      ("role must be one of " ++ ", ".intercalate Auth.knownRoles) ++
    problem (Text.isBlankText n.password) "password" "password is a required field" ++
    problem (n.password != n.passwordConfirm) "password_confirm"
      "password_confirm must be equal to Password"

/-- Refuses a submission with what is wrong with it. -/
def validate (n : NewUser) : Except (List FieldError) Unit :=
  if n.problems.isEmpty then .ok () else .error n.problems

/-- A member that is there once and is a text. -/
def textMember? (name : String) (members : List (String × Node)) : Option String :=
  match occurrence name members with
  | .once v => v.text?
  | _ => none

/-- The submission in a document: a record of five texts, or a list of them. -/
def ofNode? : Node → Option NewUser
  | .record members => do
    let ms ← (Node.record members).members?
    return ⟨← textMember? "name" ms, ← textMember? "email" ms, ← textMember? "role" ms,
      ← textMember? "password" ms, ← textMember? "password_confirm" ms⟩
  | .list [name, email, role, password, confirm] => do
    return ⟨← name.text?, ← email.text?, ← role.text?, ← password.text?, ← confirm.text?⟩
  | _ => none

/-- The submission in a payload. -/
def ofBody? (body : Octets) : Option NewUser := (Node.parse? body).bind ofNode?

end NewUser

end AccountService.Accounts
