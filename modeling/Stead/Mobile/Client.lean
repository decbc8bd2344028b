import Stead.Concurrency.RelyGuarantee

/-!
# The session of the mobile client

The tokens of the app, in memory, on the device and in the state of the provider, and the flows that
read and write them: authenticated requests with the refresh of a rejected access token, sign-ins
and logouts.

## Statements

A statement is what one flow does between two `await`s, or one operation of the storage or the
network; the flows take turns in any order. The operations of the storage succeed. A token is known
by the sign-in it was issued for and a number, which the client cannot see.

A request is two statements, its call and its answer, so that anything may happen between them. What
the server answers is not decided here: a request may be refused, a refresh may fail, and its tokens
may be any (`ClientChoice`).

## Refreshes

One refresh is in flight at a time, and who needs one meanwhile awaits its promise. A promise of a
refresh is named by the flow that runs the refresh, and a number. The epoch counts the logouts: a
refresh that comes back to another epoch is dropped.
-/

namespace Stead

open Concurrency

/-- A token. The server issued it for a sign-in. -/
structure Token where
  session : ℕ
  number : ℕ
  deriving DecidableEq

/-- The tokens of a session. -/
structure AuthSessionTokens where
  token : Token
  refreshToken : Token
  deriving DecidableEq

/-- The promise of a refresh. -/
abbrev RefreshPromise (ι : Type) := ι × ℕ

/-- The variables of the client and what is stored on the device. -/
structure MobileClient (ι : Type) where
  /-- `sessionMemory.accessToken` -/
  accessToken : Option Token
  /-- `sessionMemory.refreshToken` -/
  refreshToken : Option Token
  /-- `stead.jwt` on the device -/
  accessStored : Option Token
  /-- `stead.refresh` on the device -/
  refreshStored : Option Token
  /-- `token` in the state of the provider -/
  sessionToken : Option Token
  /-- `sessionLiveRef.current` -/
  sessionLive : Bool
  refreshEpoch : ℕ
  refreshAllowed : Bool
  refreshInFlight : Option (RefreshPromise ι)
  /-- How many refreshes have been started. -/
  refreshes : ℕ
  /-- What the promises that are settled resolve to. -/
  settled : List (RefreshPromise ι × Option Token)
  /-- The refresh calls the server has not answered yet. -/
  refreshCalls : ℕ

/-- How a request is answered. -/
inductive ResponseStatus where
  | ok
  | unauthorized
  | failed
  deriving DecidableEq

/-- How `rotateAccessToken` starts. -/
inductive Rotation (ι : Type) where
  | notAllowed
  | joined (p : RefreshPromise ι)
  | started (p : RefreshPromise ι) (epoch : ℕ) (inMemory : Option Token)

/-- How a refreshed session is persisted. -/
inductive Persisting where
  | abandoned
  | notLive
  | inMemory
  deriving DecidableEq

/-- The statements of the flows. -/
inductive ClientOp (ι : Type) where
  /-- `getToken` and `getRefreshToken`, up to the read of the device -/
  | accessInMemory
  | readAccess
  | readRefresh
  | writeAccess (token : Token)
  | writeRefresh (token : Token)
  /-- which of two deletions comes first -/
  | deletesAccessFirst
  | deleteAccess
  | deleteRefresh
  | send (authorization : Option Token)
  | receive
  /-- `rotateAccessToken`, up to the read of the device -/
  | rotate
  /-- the check after the refresh token is read, and the call -/
  | postRefresh (epoch : ℕ) (refreshToken : Token)
  | refreshResponse
  /-- the checks after the response, and `persistSession` up to its first write -/
  | persistInMemory (epoch : ℕ) (session : AuthSessionTokens)
  /-- `persistSession` after its writes -/
  | exposeRefreshed (token : Token)
  /-- the check after `persistSession` -/
  | stillCurrent (epoch : ℕ)
  /-- `finally`: the promise resolves -/
  | settle (p : RefreshPromise ι) (token : Option Token)
  | awaitRefresh (p : RefreshPromise ι)
  /-- `logout`, up to the read of the device -/
  | beginLogout
  /-- `clearLocalSession`, up to the deletions -/
  | clearInMemory
  | postLogout (authorization refreshToken : Option Token)
  /-- whether `clearSessionQueryCache` succeeds -/
  | clearQueryCache
  /-- `tokenStore.setSession`, up to its first write -/
  | publish (session : AuthSessionTokens)
  /-- `completeAuth`, after its writes -/
  | exposeSession (token : Token)
  deriving DecidableEq

/-- The answer to a statement. -/
def ClientOp.Resp {ι : Type} : ClientOp ι → Type
  | .accessInMemory | .readAccess | .readRefresh => Option Token
  | .awaitRefresh _ => Option Token
  | .receive => ResponseStatus
  | .rotate => Rotation ι
  | .refreshResponse => Option AuthSessionTokens
  | .persistInMemory _ _ => Persisting
  | .deletesAccessFirst | .postRefresh _ _ | .exposeRefreshed _ | .stillCurrent _ => Bool
  | .clearQueryCache => Bool
  | .beginLogout => Option (RefreshPromise ι) × Option Token
  | _ => Unit

/-- The statements of the client. -/
abbrev clientInterface (ι : Type) : Interface := ⟨ClientOp ι, ClientOp.Resp⟩

/-- What is decided outside. -/
structure ClientChoice where
  status : ResponseStatus
  /-- the answer to a refresh, if it is one -/
  session : Option AuthSessionTokens
  flag : Bool

namespace MobileClient

variable {ι : Type} (w : MobileClient ι)

/-- `!refreshAllowed || epoch !== refreshEpoch` fails. -/
def current (epoch : ℕ) : Bool := w.refreshAllowed && epoch = w.refreshEpoch

/-- `sessionMemory` with a session. -/
def withSession (session : AuthSessionTokens) : MobileClient ι :=
  { w with accessToken := some session.token, refreshToken := some session.refreshToken }

/-- `sessionMemory` with none. -/
def withoutSession : MobileClient ι := { w with accessToken := none, refreshToken := none }

/-- No token is left. -/
structure SignedOut : Prop where
  accessToken : w.accessToken = none
  refreshToken : w.refreshToken = none
  accessStored : w.accessStored = none
  refreshStored : w.refreshStored = none
  sessionToken : w.sessionToken = none

/-- The provider is mounted and has read the device: no refresh has been started. -/
structure Mounted : Prop where
  sessionLive : w.sessionLive = true
  refreshAllowed : w.refreshAllowed = true
  refreshInFlight : w.refreshInFlight = none
  settled : w.settled = []
  refreshCalls : w.refreshCalls = 0

end MobileClient

section Semantics

variable {ι : Type} [DecidableEq ι]

/-- The statement, for flow `i`. -/
def ClientOp.exec (i : ι) (x : ClientChoice) (op : ClientOp ι) (w : MobileClient ι) :
    Option (op.Resp × MobileClient ι) :=
  match op with
  | .accessInMemory => some (w.accessToken, w)
  | .readAccess => some (w.accessStored, w)
  | .readRefresh => some (w.refreshStored, w)
  | .writeAccess token => some ((), { w with accessStored := some token })
  | .writeRefresh token => some ((), { w with refreshStored := some token })
  | .deletesAccessFirst => some (x.flag, w)
  | .deleteAccess => some ((), { w with accessStored := none })
  | .deleteRefresh => some ((), { w with refreshStored := none })
  | .send _ => some ((), w)
  | .receive => some (x.status, w)
  | .rotate =>
    if !w.refreshAllowed then some (.notAllowed, w)
    else
      match w.refreshInFlight with
      | some p => some (.joined p, w)
      | none => some (.started (i, w.refreshes) w.refreshEpoch w.refreshToken,
          { w with refreshInFlight := some (i, w.refreshes), refreshes := w.refreshes + 1 })
  | .postRefresh epoch _ =>
    if w.current epoch then some (true, { w with refreshCalls := w.refreshCalls + 1 })
    else some (false, w)
  | .refreshResponse => some (x.session, { w with refreshCalls := w.refreshCalls - 1 })
  | .persistInMemory epoch session =>
    if !w.current epoch then some (.abandoned, w)
    else if !w.sessionLive then some (.notLive, w)
    else some (.inMemory, w.withSession session)
  | .exposeRefreshed token =>
    if w.sessionLive then some (true, { w with sessionToken := some token })
    else some (false, w.withoutSession)
  | .stillCurrent epoch => some (w.current epoch, w)
  | .settle p token =>
    some ((), { w with refreshInFlight := none, settled := (p, token) :: w.settled })
  | .awaitRefresh p =>
    match w.settled.find? fun entry ↦ entry.1 = p with
    | some entry => some (entry.2, w)
    | none => none
  | .beginLogout => some ((w.refreshInFlight, w.refreshToken),
      { w with
        sessionLive := false, refreshEpoch := w.refreshEpoch + 1, refreshAllowed := false })
  | .clearInMemory => some ((), { w.withoutSession with sessionToken := none })
  | .postLogout _ _ => some ((), w)
  | .clearQueryCache => some (x.flag, w)
  | .publish session => some ((), w.withSession session)
  | .exposeSession token => some ((),
      { w with sessionLive := true, refreshAllowed := true, sessionToken := some token })

/-- The client, as a machine. -/
def mobile (ι : Type) [DecidableEq ι] : Machine (clientInterface ι) ι ClientChoice (MobileClient ι) where
  exec i x op w := ClientOp.exec i x op w
  crash _ w := w

end Semantics

/-! ### The flows -/

section Flows

variable {ι : Type}

/-- A flow of the client, which may throw. -/
abbrev ClientProg (ι α : Type) := Prog (clientInterface ι) Unit α

/-- A statement. -/
def issue (op : ClientOp ι) : ClientProg ι op.Resp := .stmt op .pure

/-- `tokenStore.getToken` -/
def getToken : ClientProg ι (Option Token) := do
  let inMemory ← issue .accessInMemory
  match inMemory with
  | some token => pure (some token)
  | none => issue .readAccess

/-- `getRefreshToken`, after the memory is read -/
def getRefreshToken (inMemory : Option Token) : ClientProg ι (Option Token) :=
  match inMemory with
  | some token => pure (some token)
  | none => issue .readRefresh

/-- The deletions of `tokenStore.clearToken`. -/
def deleteStored : ClientProg ι Unit := do
  let accessFirst : Bool ← issue .deletesAccessFirst
  if accessFirst then
    issue .deleteAccess
    issue .deleteRefresh
  else
    issue .deleteRefresh
    issue .deleteAccess

/-- The writes of `tokenStore.setSession`. -/
def writeStored (session : AuthSessionTokens) : ClientProg ι Unit := do
  issue (.writeAccess session.token)
  issue (.writeRefresh session.refreshToken)

/-- `clearSessionQueryCache` -/
def clearSessionQueryCache : ClientProg ι Unit := do
  let cleared : Bool ← issue .clearQueryCache
  if cleared then pure () else throw ()

/-- `await pendingRefresh` -/
def awaitPending (pending : Option (RefreshPromise ι)) : ClientProg ι (Option Token) :=
  match pending with
  | some p => issue (.awaitRefresh p)
  | none => pure none

/-- `logout` -/
def logoutFlow : ClientProg ι Unit := do
  let (pending, inMemory) ← issue .beginLogout
  let refreshToken ← getRefreshToken inMemory
  let _ ← awaitPending pending
  issue .clearInMemory
  deleteStored
  let token ← getToken
  issue (.postLogout token refreshToken)
  clearSessionQueryCache

/-- `completeAuth` -/
def completeAuth (session : AuthSessionTokens) : ClientProg ι Unit := do
  clearSessionQueryCache
  issue (.publish session)
  writeStored session
  issue (.exposeSession session.token)

/-- `persistSession`, after the memory is written -/
def persistStored (session : AuthSessionTokens) : ClientProg ι Unit := do
  writeStored session
  let live : Bool ← issue (.exposeRefreshed session.token)
  if live then pure () else deleteStored

/-- The check after `persistSession`. -/
def currentToken (epoch : ℕ) (token : Token) : ClientProg ι (Option Token) := do
  let current : Bool ← issue (.stillCurrent epoch)
  if current then pure (some token) else pure none

/-- A refresh, after the response. -/
def persistRefreshed (epoch : ℕ) (session : AuthSessionTokens) : ClientProg ι (Option Token) := do
  match ← issue (.persistInMemory epoch session) with
  | .abandoned => pure none
  | .notLive => currentToken epoch session.token
  | .inMemory =>
    persistStored session
    currentToken epoch session.token

/-- A refresh, after the refresh token is read. -/
def refreshWith (epoch : ℕ) (refreshToken : Token) : ClientProg ι (Option Token) := do
  let posted : Bool ← issue (.postRefresh epoch refreshToken)
  if posted then
    match ← issue .refreshResponse with
    | none => pure none
    | some session => persistRefreshed epoch session
  else pure none

/-- A refresh. -/
def refresh (epoch : ℕ) (inMemory : Option Token) : ClientProg ι (Option Token) := do
  match ← getRefreshToken inMemory with
  | none => pure none
  | some refreshToken => refreshWith epoch refreshToken

/-- `rotateAccessToken` -/
def rotateAccessToken : ClientProg ι (Option Token) := do
  match ← issue .rotate with
  | .notAllowed => pure none
  | .joined p => issue (.awaitRefresh p)
  | .started p epoch inMemory =>
    let token ← refresh epoch inMemory
    issue (.settle p token)
    issue (.awaitRefresh p)

/-- A request goes through the interceptor, which puts the stored token in place of the one that the
request brings. -/
def attempt (authorization : Option Token) : ClientProg ι ResponseStatus := do
  let stored ← getToken
  issue (.send (stored.or authorization))
  issue .receive

/-- What follows a rotation: the request is sent again, or the user is logged out. -/
def afterRotation (nextToken : Option Token) : ClientProg ι Unit :=
  match nextToken with
  | none => logoutFlow
  | some token => do
    let status ← attempt (some token)
    if status = .unauthorized then logoutFlow else pure ()

/-- An authenticated request. -/
def authenticatedRequest : ClientProg ι Unit := do
  let status ← attempt none
  if status = .unauthorized then
    let nextToken ← rotateAccessToken
    afterRotation nextToken
  else pure ()

/-- What may happen in the app. -/
inductive Flow where
  | request
  | logout
  | completeAuth (session : AuthSessionTokens)
  deriving DecidableEq

/-- The program of a flow. -/
def Flow.run : Flow → ClientProg ι Unit
  | .request => authenticatedRequest
  | .logout => logoutFlow
  | .completeAuth session => Stead.completeAuth session

/-- The flow is a sign-in. -/
def Flow.isCompleteAuth : Flow → Bool
  | .completeAuth _ => true
  | _ => false

/-- No flow is lost. -/
def NoFlowLost : Restriction (clientInterface ι) ι ClientChoice (MobileClient ι) where
  stmt _ _ _ _ := True
  crash _ _ := False

end Flows

end Stead
