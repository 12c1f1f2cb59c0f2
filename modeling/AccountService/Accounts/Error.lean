import AccountService.Pipeline.Error

/-!
# Errors of the account store

## Main definitions

* `Accounts.Error` — why an account is not created, found or authenticated
* `Accounts.Error.message` — the wording
* `Accounts.Error.toPipeline` — what becomes of it in the pipeline
-/

namespace AccountService.Accounts

open Http

/-- Why an account is not created, found or authenticated. -/
inductive Error where
  | notFound
  /-- The id is no identifier. -/
  | invalidId
  | duplicateEmail
  /-- The email is unknown or the password is wrong; which of them is not told. -/
  | invalidCredentials
  /-- Fields of a new account are not acceptable. -/
  | validation (fields : List FieldError)
  /-- The password could not be hashed. -/
  | hash (detail : String)
  deriving DecidableEq, Repr

namespace Error

/-- The wording of a cause. -/
def message : Error → String
  | notFound => "user not found"
  | invalidId => "ID is not in its proper form"
  | duplicateEmail => "email is already registered"
  | invalidCredentials => "authentication failed"
  | validation fields => fieldErrorsText fields
  | hash detail => "hashing password: " ++ detail

/-- What becomes of a cause in the pipeline: all but a failure to hash is for the caller. -/
def toPipeline : Error → Pipeline.Error
  | notFound => .request (.notFound notFound.message)
  | invalidId => .request (.badRequest invalidId.message)
  | duplicateEmail => .request (.conflict duplicateEmail.message)
  | invalidCredentials => .request (.unauthorized invalidCredentials.message)
  | validation fields => .request (.validation fields)
  | hash detail => .internal (hash detail).message []

end Error

end AccountService.Accounts
