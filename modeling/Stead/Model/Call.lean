import Mathlib.Data.Rat.Floor
import Stead.Model.Semantics

/-!
# Calls of the services

A call of a service is a program over the statements that ends with a value or is rejected.

## Failures

What a call can be rejected with are the exceptions of the framework, each with its message, a
plain error, and the errors of statements that nobody caught. A statement that fails is thrown
(`run`); `tryCatch` is that of programs.

## Environment

The services run in an environment: the configuration, with the services' defaults where a value is
not configured, and the primitives of the platform. A phone number is normalised by
`libphonenumber`, which is not modelled: the environment supplies the function. So are the upper
case of a text and the message with which a payload that cannot be read is rejected.

## Transactions

`transaction` runs a body and commits after it, or rolls back and throws on what it throws. A thread
has one transaction at most, which its first write begins, so that a statement need not say to which
it belongs.
-/

namespace Stead

open Concurrency

/-- What a call can be rejected with: an HTTP exception with its message, another error, or an
error of a statement that nobody handled. -/
inductive Failure where
  | badRequest (message : String)
  | unauthorized (message : String)
  | conflict (message : String)
  | tooManyRequests (message : String)
  | serviceUnavailable (message : String)
  | error (message : String)
  | statement (e : StatementError)
  deriving DecidableEq

/-- A call of a service. -/
abbrev Call (α : Type) := Prog Statements Failure α

/-- Issue a statement; an error of the statement is thrown. -/
def run (op : Op) : Call op.Ret :=
  .stmt op fun
    | .ok a => .pure a
    | .error e => .throw (.statement e)

/-- The configuration of the service, as `ConfigService` has it. -/
structure Config where
  AUTH_OTP_REQUEST_LIMIT_PER_HOUR : Option ℕ := none
  AUTH_OTP_RESEND_COOLDOWN_MS : Option ℕ := none
  AUTH_OTP_MAX_VERIFY_ATTEMPTS : Option ℕ := none
  AUTH_OTP_REQUEST_LIMIT_PER_IP_PER_HOUR : Option ℕ := none
  AUTH_OTP_REQUEST_LIMIT_PER_DEVICE_PER_HOUR : Option ℕ := none
  AUTH_OTP_VERIFY_FAILURE_LIMIT_PER_IP_WINDOW : Option ℕ := none
  AUTH_OTP_VERIFY_FAILURE_LIMIT_PER_DEVICE_WINDOW : Option ℕ := none
  AUTH_OTP_VERIFY_FAILURE_WINDOW_MS : Option ℕ := none
  JWT_EXPIRES_IN : Option String := none
  AUTH_REFRESH_TOKEN_EXPIRES_IN : Option String := none
  AUTH_REFRESH_FAMILY_MAX_AGE : Option String := none
  /-- The configured number, if it is one. -/
  AUTH_REFRESH_MAX_FAMILIES_PER_USER : Option ℚ := none
  DEV_EXPOSE_OTP : Bool := false
  JWT_SECRET : Option String := none
  AUTH_DEVICE_IDENTIFIER_SECRET : Option String := none
  AUTH_OTP_VERIFICATION_ENCRYPTION_KEY : Option String := none
  NOTIFICATION_PAYLOAD_ENCRYPTION_KEY : Option String := none

/-- The environment the services run in. -/
structure Env where
  config : Config
  crypto : Crypto
  /-- `normalizePhoneNumber`, or the message it rejects with. -/
  normalizePhoneNumber : String → String → Except String String
  /-- `String.prototype.toUpperCase`, with all of Unicode. -/
  toUpperCase : String → String
  /-- The message of an error of the database client. -/
  statementMessage : StatementError → String
  /-- The message of the error that reading a payload ends with that is not a JSON object. -/
  unreadableMessage : String → String

/-- Raise the error of a computation without statements. -/
def lift {α : Type} : Except Failure α → Call α
  | .ok a => .pure a
  | .error e => .throw e

/-- `prisma.$transaction(body)`: commit after the body, or roll back on its error. -/
def transaction {α : Type} (body : Call α) : Call α := do
  let a ← tryCatch body fun e ↦ do
    run .rollback
    throw e
  run .commit
  pure a

end Stead
