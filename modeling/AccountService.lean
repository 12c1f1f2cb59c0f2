import AccountService.Text.Base64
import AccountService.Text.Blank
import AccountService.Text.Case
import AccountService.Text.Hex
import AccountService.Text.Numeral
import AccountService.Text.Percent
import AccountService.Text.Quoted
import AccountService.Text.Utf8
import AccountService.Json.Basic
import AccountService.Json.Document
import AccountService.Json.Number
import AccountService.Json.Reading
import AccountService.Json.Token
import AccountService.Crypto.Der
import AccountService.Crypto.Digest
import AccountService.Crypto.Pem
import AccountService.Crypto.Rsa
import AccountService.Crypto.Signature
import AccountService.Time.Clock
import AccountService.Time.Instant
import AccountService.Time.Span
import AccountService.Entropy
import AccountService.Uuid
import AccountService.Shared
import AccountService.Http.Message
import AccountService.Http.RequestError
import AccountService.Http.Route
import AccountService.Auth.Access
import AccountService.Auth.Algorithm
import AccountService.Auth.Claims
import AccountService.Auth.Credentials
import AccountService.Auth.Engine
import AccountService.Auth.Error
import AccountService.Auth.KeyFolder
import AccountService.Auth.KeyStore
import AccountService.Auth.Keyring
import AccountService.Auth.RoleSet
import AccountService.Auth.Token
import AccountService.Pipeline.App
import AccountService.Pipeline.Board
import AccountService.Pipeline.Error
import AccountService.Pipeline.Exchange
import AccountService.Pipeline.Layers
import AccountService.Pipeline.Log
import AccountService.Pipeline.LogFilter
import AccountService.Pipeline.Meters
import AccountService.Pipeline.Metrics
import AccountService.Pipeline.Shutdown
import AccountService.Accounts.Error
import AccountService.Accounts.NewUser
import AccountService.Accounts.Password
import AccountService.Accounts.Store
import AccountService.Net.Address
import AccountService.Service.Api
import AccountService.Service.Config
import AccountService.Service.Debug
import AccountService.Service.Startup
import AccountService.Main
import AccountService.Proofs.Text.Base64
import AccountService.Proofs.Text.Blank
import AccountService.Proofs.Text.Hex
import AccountService.Proofs.Text.Numeral
import AccountService.Proofs.Text.Percent
import AccountService.Proofs.Text.Utf8
import AccountService.Proofs.Shared
import AccountService.Proofs.Except
import AccountService.Proofs.Find
import AccountService.Proofs.Json.Members
import AccountService.Proofs.Json.Numbers
import AccountService.Proofs.Json.RoundTrip
import AccountService.Proofs.Json.Strings
import AccountService.Proofs.Crypto.Digest
import AccountService.Proofs.Crypto.Rsa
import AccountService.Proofs.Crypto.Signature
import AccountService.Proofs.Time.Instant
import AccountService.Proofs.Uuid
import AccountService.Proofs.Http.ErrorBody
import AccountService.Proofs.Http.Route
import AccountService.Proofs.Http.Router
import AccountService.Proofs.Net.Address
import AccountService.Proofs.Net.Canonical
import AccountService.Proofs.Auth.Authorization
import AccountService.Proofs.Auth.Claims
import AccountService.Proofs.Auth.Credentials
import AccountService.Proofs.Auth.Engine
import AccountService.Proofs.Auth.Expiry
import AccountService.Proofs.Auth.Genuine
import AccountService.Proofs.Auth.Header
import AccountService.Proofs.Auth.Issuance
import AccountService.Proofs.Auth.Issuer
import AccountService.Proofs.Auth.KeyFolder
import AccountService.Proofs.Auth.KeyStore
import AccountService.Proofs.Auth.Keyring
import AccountService.Proofs.Auth.Lifetime
import AccountService.Proofs.Auth.Lookup
import AccountService.Proofs.Auth.Rotation
import AccountService.Proofs.Auth.RoundTrip
import AccountService.Proofs.Auth.Schemes
import AccountService.Proofs.Auth.Token
import AccountService.Proofs.Pipeline.Authentication
import AccountService.Proofs.Pipeline.Exec
import AccountService.Proofs.Pipeline.Harmless
import AccountService.Proofs.Pipeline.Layers
import AccountService.Proofs.Pipeline.Outcome
import AccountService.Proofs.Accounts.Desk
import AccountService.Proofs.Accounts.Records
import AccountService.Proofs.Accounts.Store
import AccountService.Proofs.Service.Access
import AccountService.Proofs.Service.Availability
import AccountService.Proofs.Service.Discretion
import AccountService.Proofs.Service.Emails
import AccountService.Proofs.Service.Owners
import AccountService.Proofs.Service.Grants
import AccountService.Proofs.Service.Handlers
import AccountService.Proofs.Service.Logins
import AccountService.Proofs.Service.Registrations
import AccountService.Proofs.Service.Routes
import AccountService.Proofs.Service.Serving
import AccountService.Proofs.Service.Tokens
import AccountService.Proofs.Pipeline.Bindings
import AccountService.Proofs.Pipeline.Assembly
import AccountService.Proofs.Pipeline.Chains
import AccountService.Proofs.Pipeline.Narration
import AccountService.Proofs.Accounts.Listing
import AccountService.Proofs.Pipeline.Paired
import AccountService.Proofs.Pipeline.Passage
import AccountService.Proofs.Pipeline.Shutdown
import AccountService.Proofs.Pipeline.Board
import AccountService.Proofs.Pipeline.Meters
import AccountService.Proofs.Service.Config
import AccountService.Proofs.Service.Acceptance
import AccountService.Proofs.Service.Rendering
import AccountService.Proofs.Service.Narration
import AccountService.Proofs.Service.Passwords
import AccountService.Proofs.Service.Startup
import AccountService.Proofs.Service.Blame
