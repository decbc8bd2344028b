import Stead.Concurrency.Trace
import Stead.Mobile.Logout

/-!
# Requests that outlive their session

A request outlives a sign-in that follows it: its 401 is handled with the tokens of the new session,
and when that fails the new session is logged out. Nothing in the client says which session a
request was issued in, so what keeps the sessions apart is the order of the steps alone.

## What is to be excluded

A statement *touches* a session (`TouchesSession`) when it sends one of its tokens to the server,
with a request, a refresh or a logout; when it is answered with one; or when it takes one from a
client that has some, by a logout, by clearing the memory or the device, by the clearing with which
a refresh ends that finds the provider logged out, or by putting the tokens of another session in
their place. `NeverTouched` is what the client is to provide: whatever a request does after the
sign-in of a later session leaves that session alone.

## What a request does next

After a token is read it is sent; after that the request waits; and an answer other than 401 is the
end of it. `MayFollow` says so for each two statements in a row, and `authenticatedRequest_keeps`
that a request keeps to it, its refresh and its logout included. So a request *rests* (`rests`) with
regard to a session when it is about to send the token of another one, waits for its answer, or has
nothing left to do but to clear the cache.

## Orderly runs

In the runs of `Orderly` every request of another session rests when a sign-in stores its session,
and no 401 reaches it after that. Such a request has left only statements that leave the session
alone (`Outlived`), which is an invariant, and so no request touches a later session
(`no_stale_touch`). The last section has a run that is not orderly: a request of the first session
is sent again with a token of the second (`old_request_takes_new_token`).
-/

namespace Stead

open Concurrency

variable {ι : Type}

/-- A statement of a flow of the client, with its answer. -/
abbrev ClientEvent (ι : Type) := Event (clientInterface ι) ι (MobileClient ι)

/-- The session of the token that a request takes along. -/
def MobileClient.session? (w : MobileClient ι) : Option ℕ :=
  (w.accessToken.or w.accessStored).map Token.session

/-- The client has a token of the session. -/
def MobileClient.Holds (w : MobileClient ι) (session : ℕ) : Prop :=
  ∃ token : Token, token.session = session ∧
    some token ∈ [w.accessToken, w.refreshToken, w.accessStored, w.refreshStored, w.sessionToken]

/-- The statement sends the token to the server. The refresh token of a logout is not counted: a
request that posts one of the session was answered with it before. -/
def ClientOp.Sends (token : Token) : ClientOp ι → Prop
  | .send authorization | .postLogout authorization _ => authorization = some token
  | .postRefresh _ refreshToken => refreshToken = token
  | _ => False

/-- A token of the session is there. -/
def OfSession (session : ℕ) (stored : Option Token) : Prop :=
  ∃ token ∈ stored, token.session = session

/-- The statement is answered with a token of the session. -/
def AnsweredWith (session : ℕ) (e : Exchange (clientInterface ι)) : Prop :=
  match e with
  | ⟨.accessInMemory, stored⟩ => OfSession session stored
  | ⟨.readAccess, stored⟩ => OfSession session stored
  | ⟨.readRefresh, stored⟩ => OfSession session stored
  | ⟨.awaitRefresh _, refreshed⟩ => OfSession session refreshed
  | ⟨.rotate, .started _ _ inMemory⟩ => OfSession session inMemory
  | ⟨.refreshResponse, some refreshed⟩ => refreshed.token.session = session
  | ⟨.beginLogout, (_, inMemory)⟩ => OfSession session inMemory
  | _ => False

/-- The statement logs out, clears tokens, or puts those of another session in their place. -/
def ClientOp.displaces (session : ℕ) (w : MobileClient ι) : ClientOp ι → Bool
  | .beginLogout | .clearInMemory | .deleteAccess | .deleteRefresh => true
  | .exposeRefreshed token => !w.sessionLive || token.session ≠ session
  | .persistInMemory _ refreshed => refreshed.token.session ≠ session
  | .writeAccess token | .writeRefresh token => token.session ≠ session
  | _ => false

/-- The statement sends a token of the session, is answered with one, or takes the tokens of a
client that has some. -/
def TouchesSession (session : ℕ) (e : ClientEvent ι) : Prop :=
  (∃ token : Token, ClientOp.Sends token e.op ∧ token.session = session) ∨
    AnsweredWith session ⟨e.op, e.resp⟩ ∨
      ClientOp.displaces session e.before e.op = true ∧ e.before.Holds session

/-- **No request touches a later session**: a request that took a step under a session and takes
another one after the sign-in of a later session leaves that session alone. -/
def NeverTouched (flows : ι → Flow) (s : ClientState ι) : Prop :=
  ∀ (a q m : ℕ) (d e f : ClientEvent ι) (session : AuthSessionTokens) (u : ℕ), a < q → q < m →
    s.log[a]? = some d → s.log[q]? = some e → s.log[m]? = some f → flows d.thread = .request →
      f.thread = d.thread → d.before.session? = some u → e.op = ClientOp.publish session →
        session.token.session ≠ u → ¬ TouchesSession session.token.session f

/-! ### What comes next -/

/-- The token that was read is sent, or posted with a logout. -/
def Forwards (stored : Option Token) (op : ClientOp ι) : Prop :=
  ∀ token ∈ stored, op = .send (some token) ∨ ∃ refreshToken, op = .postLogout (some token) refreshToken

/-- What a request does next. A token it has read it sends; then it waits for the answer, and an
answer other than 401 is the end of it. -/
def MayFollow (last : Exchange (clientInterface ι)) (op : ClientOp ι) : Prop :=
  match last with
  | ⟨.accessInMemory, stored⟩ => Forwards stored op
  | ⟨.readAccess, stored⟩ => Forwards stored op
  | ⟨.send _, _⟩ => op = .receive
  | ⟨.receive, status⟩ => status = ResponseStatus.unauthorized
  | ⟨.postLogout _ _, _⟩ => op = .clearQueryCache
  | ⟨.clearQueryCache, _⟩ => False
  | _ => True

/-- The answer is not 401. -/
def ResponseStatus.accepted : ResponseStatus → Bool
  | .unauthorized => false
  | _ => true

/-- A token of another session. -/
def ofOther (session : ℕ) (stored : Option Token) : Bool :=
  stored.any fun token ↦ token.session ≠ session

/-- A request has read a token of another session, waits for its answer, or has nothing left to do
but to clear the cache. -/
def rests (session : ℕ) (last : Exchange (clientInterface ι)) : Bool :=
  match last with
  | ⟨.accessInMemory, stored⟩ => ofOther session stored
  | ⟨.readAccess, stored⟩ => ofOther session stored
  | ⟨.send _, _⟩ | ⟨.postLogout _ _, _⟩ | ⟨.clearQueryCache, _⟩ => true
  | ⟨.receive, status⟩ => ResponseStatus.accepted status
  | _ => false

/-- What a request issues after a trace. -/
def RequestIssues (trace : List (Exchange (clientInterface ι))) (op : ClientOp ι) : Prop :=
  (∀ last ∈ trace.getLast?, MayFollow last op) ∧ ∀ session, op ≠ .publish session

/-- Anything may follow. -/
def Free (trace : List (Exchange (clientInterface ι))) : Prop :=
  ∀ last ∈ trace.getLast?, ∀ op, MayFollow last op

/-- The statement restricts nothing that follows. -/
def ClientOp.Loose : ClientOp ι → Prop
  | .accessInMemory | .readAccess | .send _ | .receive | .postLogout _ _ => False
  | .clearQueryCache | .publish _ => False
  | _ => True

/-- After a loose statement anything may follow. -/
theorem Free.append {trace : List (Exchange (clientInterface ι))} {op : ClientOp ι} (h : op.Loose)
    (r : op.Resp) : Free (trace ++ [⟨op, r⟩]) := by
  intro last hlast
  rw [List.getLast?_concat, Option.mem_some_iff] at hlast
  subst hlast
  intro next
  cases op <;> first | exact h.elim | trivial

/-- Where anything may follow, a statement that stores no sign-in does. -/
theorem Free.issues {trace : List (Exchange (clientInterface ι))} {op : ClientOp ι}
    (h : Free trace) (hop : ∀ session, op ≠ .publish session) : RequestIssues trace op :=
  ⟨fun last hlast ↦ h last hlast op, hop⟩

/-- A loose statement stores no sign-in. -/
theorem ClientOp.Loose.ne_publish {op : ClientOp ι} (h : op.Loose) (session : AuthSessionTokens) :
    op ≠ .publish session := by
  rintro rfl
  exact h

/-- A program of loose statements. -/
theorem loose_keeps {α : Type} {p : ClientProg ι α} (hp : p.All ClientOp.Loose)
    {trace : List (Exchange (clientInterface ι))} (h : Free trace) :
    p.Keeps RequestIssues (fun trace _ ↦ Free trace) (fun trace _ ↦ Free trace) trace := by
  induction p generalizing trace with
  | pure a => exact h
  | throw e => exact h
  | stmt op k ih => exact ⟨h.issues hp.1.ne_publish, fun r ↦ ih r (hp.2 r) (.append hp.1 r)⟩

/-- One loose statement. -/
theorem loose_issue {op : ClientOp ι} (h : op.Loose) : (issue op).All ClientOp.Loose :=
  ⟨h, fun _ ↦ trivial⟩

/-- Reading the refresh token. -/
theorem loose_getRefreshToken (inMemory : Option Token) :
    (getRefreshToken (ι := ι) inMemory).All ClientOp.Loose := by
  cases inMemory with
  | none => exact loose_issue trivial
  | some token => trivial

/-- The two deletions, in either order. -/
theorem loose_deleteStored : (deleteStored (ι := ι)).All ClientOp.Loose :=
  .bind (loose_issue trivial) fun _ ↦
    .ite (fun _ ↦ .bind (loose_issue trivial) fun _ ↦ loose_issue trivial)
      fun _ ↦ .bind (loose_issue trivial) fun _ ↦ loose_issue trivial

/-- What is done with a refreshed session. -/
theorem loose_persistRefreshed (epoch : ℕ) (session : AuthSessionTokens) :
    (persistRefreshed (ι := ι) epoch session).All ClientOp.Loose := by
  have hcurrent : (currentToken (ι := ι) epoch session.token).All ClientOp.Loose :=
    .bind (loose_issue trivial) fun _ ↦ .ite (fun _ ↦ trivial) fun _ ↦ trivial
  have hstore : (persistStored (ι := ι) session).All ClientOp.Loose :=
    .bind (.bind (loose_issue trivial) fun _ ↦ loose_issue trivial) fun _ ↦
      .bind (loose_issue trivial) fun _ ↦ .ite (fun _ ↦ trivial) fun _ ↦ loose_deleteStored
  refine .bind (loose_issue trivial) fun persisting ↦ ?_
  cases persisting with
  | abandoned => trivial
  | notLive => exact hcurrent
  | inMemory => exact .bind hstore fun _ ↦ hcurrent

/-- The refresh of its own. -/
theorem loose_refresh (epoch : ℕ) (inMemory : Option Token) :
    (refresh (ι := ι) epoch inMemory).All ClientOp.Loose := by
  refine .bind (loose_getRefreshToken inMemory) fun refreshToken ↦ ?_
  cases refreshToken with
  | none => trivial
  | some refreshToken =>
    refine .bind (loose_issue trivial) fun _ ↦ .ite (fun _ ↦ ?_) fun _ ↦ trivial
    refine .bind (loose_issue trivial) fun session ↦ ?_
    cases session with
    | none => trivial
    | some session => exact loose_persistRefreshed epoch session

/-- **The refresh of a rejected token** is loose throughout. -/
theorem loose_rotateAccessToken : (rotateAccessToken (ι := ι)).All ClientOp.Loose := by
  refine .bind (loose_issue trivial) fun rotation ↦ ?_
  cases rotation with
  | notAllowed => trivial
  | joined p => exact loose_issue trivial
  | started p epoch inMemory =>
    exact .bind (loose_refresh epoch inMemory) fun _ ↦
      .bind (loose_issue trivial) fun _ ↦ loose_issue trivial

section Keeps

variable {trace : List (Exchange (clientInterface ι))}

/-- Nothing is promised of a trace at the end of a flow. -/
abbrev Anything {α : Type} : List (Exchange (clientInterface ι)) → α → Prop := fun _ _ ↦ True

/-- What has been read may be forwarded. -/
def TokenRead (stored : Option Token) (trace : List (Exchange (clientInterface ι))) : Prop :=
  ∀ last ∈ trace.getLast?, ∀ op, Forwards stored op → MayFollow last op

/-- **Reading the access token**, in memory or on the device. -/
theorem getToken_keeps (h : Free trace) :
    (getToken (ι := ι)).Keeps RequestIssues (fun trace stored ↦ TokenRead stored trace) Anything
      trace := by
  refine ⟨h.issues fun _ h ↦ (by cases h), fun inMemory ↦ ?_⟩
  cases inMemory with
  | some token =>
    intro last hlast op hop
    rw [List.getLast?_concat, Option.mem_some_iff] at hlast
    subst hlast
    exact hop
  | none =>
    refine ⟨⟨fun last hlast ↦ ?_, fun _ h ↦ (by cases h)⟩, fun stored last hlast op hop ↦ ?_⟩
    · rw [List.getLast?_concat, Option.mem_some_iff] at hlast
      subst hlast
      intro token htoken
      cases htoken
    · rw [List.getLast?_concat, Option.mem_some_iff] at hlast
      subst hlast
      exact hop

/-- The token that was read takes precedence over the one that was refreshed. -/
theorem forwards_send (stored authorization : Option Token) :
    Forwards (ι := ι) stored (.send (stored.or authorization)) := by
  rintro token ⟨⟩
  exact .inl rfl

/-- The logout is posted with the token that was read. -/
theorem forwards_postLogout (stored refreshToken : Option Token) :
    Forwards (ι := ι) stored (.postLogout stored refreshToken) := by
  rintro token ⟨⟩
  exact .inr ⟨refreshToken, rfl⟩

/-- **One attempt** of a request: it goes on after a 401 only. -/
theorem attempt_keeps (authorization : Option Token) (h : Free trace) :
    (attempt authorization).Keeps RequestIssues
      (fun trace status ↦ status = ResponseStatus.unauthorized → Free trace) Anything trace := by
  refine .bind (getToken_keeps h) fun trace stored h ↦ ?_
  refine ⟨⟨fun last hlast ↦ h last hlast _ (forwards_send stored authorization),
    fun _ h ↦ (by cases h)⟩, fun _ ↦ ⟨⟨fun last hlast ↦ ?_, fun _ h ↦ (by cases h)⟩,
      fun status hstatus last hlast op ↦ ?_⟩⟩
  · rw [List.getLast?_concat, Option.mem_some_iff] at hlast
    subst hlast
    rfl
  · rw [List.getLast?_concat, Option.mem_some_iff] at hlast
    subst hlast
    exact hstatus

/-- **The logout** that a request ends with when its refresh fails. -/
theorem logoutFlow_keeps (h : Free trace) :
    (logoutFlow (ι := ι)).Keeps RequestIssues Anything Anything trace := by
  have hawait : ∀ pending, (awaitPending (ι := ι) pending).All ClientOp.Loose := by
    intro pending
    cases pending with
    | none => trivial
    | some p => exact loose_issue trivial
  have hbind : ∀ {α β : Type} {p : ClientProg ι α} {f : α → ClientProg ι β}
      {trace : List (Exchange (clientInterface ι))}, p.All ClientOp.Loose → Free trace →
        (∀ a trace, Free trace → (f a).Keeps RequestIssues Anything Anything trace) →
          (p >>= f).Keeps RequestIssues Anything Anything trace := fun hp h hf ↦
    .bind ((loose_keeps hp h).mono (fun _ _ h ↦ h) fun _ _ _ ↦ trivial) fun trace a h ↦ hf a trace h
  have hbegin : (issue (ClientOp.beginLogout : ClientOp ι)).All ClientOp.Loose := loose_issue trivial
  refine hbind hbegin h fun answer trace h ↦
    hbind (loose_getRefreshToken answer.2) h fun refreshToken trace h ↦
      hbind (hawait answer.1) h fun _ trace h ↦ hbind (loose_issue trivial) h fun _ trace h ↦
        hbind loose_deleteStored h fun _ trace h ↦
          .bind (getToken_keeps h) fun trace token h ↦ ?_
  refine ⟨⟨fun last hlast ↦ h last hlast _ (forwards_postLogout token refreshToken),
    fun _ h ↦ (by cases h)⟩, fun _ ↦ ⟨⟨fun last hlast ↦ ?_, fun _ h ↦ (by cases h)⟩,
      fun cleared ↦ ?_⟩⟩
  · rw [List.getLast?_concat, Option.mem_some_iff] at hlast
    subst hlast
    rfl
  · cases cleared with
    | false => trivial
    | true => trivial

/-- What a request issues. -/
theorem authenticatedRequest_keeps :
    (authenticatedRequest (ι := ι)).Keeps RequestIssues Anything Anything [] := by
  have hstart : Free (ι := ι) [] := fun last hlast ↦ by cases hlast
  refine .bind (attempt_keeps none hstart) fun trace status h ↦ .ite (fun hstatus ↦ ?_) fun _ ↦ trivial
  refine .bind ((loose_keeps loose_rotateAccessToken (h hstatus)).mono (fun _ _ h ↦ h)
    fun _ _ _ ↦ trivial) fun trace nextToken h ↦ ?_
  cases nextToken with
  | none => exact logoutFlow_keeps h
  | some token =>
    exact .bind (attempt_keeps (some token) h) fun trace status h ↦
      .ite (fun hstatus ↦ logoutFlow_keeps (h hstatus)) fun _ ↦ trivial

end Keeps

/-! ### A request that rests -/

/-- The statement leaves a session alone. -/
def ClientOp.Leaves (session : ℕ) : ClientOp ι → Prop
  | .receive | .clearQueryCache => True
  | .send (some token) | .postLogout (some token) _ => token.session ≠ session
  | _ => False

/-- Who has read a token of another session forwards that. -/
theorem leaves_of_forwards {session : ℕ} {stored : Option Token} {op : ClientOp ι}
    (hother : ofOther session stored = true) (hop : Forwards stored op) : op.Leaves session := by
  obtain ⟨token, rfl, hother⟩ := (Option.any_eq_true _ _).1 hother
  have hne : token.session ≠ session := of_decide_eq_true hother
  obtain rfl | ⟨refreshToken, rfl⟩ := hop token rfl
  · exact hne
  · exact hne

/-- What leaves a session alone does not touch it. -/
theorem not_touches_of_leaves {session : ℕ} {e : ClientEvent ι}
    (hleaves : ClientOp.Leaves session e.op) : ¬ TouchesSession session e := by
  obtain ⟨i, before, op, resp, after⟩ := e
  rintro (⟨token, hsends, hsession⟩ | htakes | ⟨hdisplaces, -⟩)
  · cases op with
    | send authorization =>
      obtain rfl : authorization = some token := hsends
      exact hleaves hsession
    | postLogout authorization refreshToken =>
      obtain rfl : authorization = some token := hsends
      exact hleaves hsession
    | postRefresh => exact hleaves
    | _ => exact hsends
  · cases op with
    | send => exact htakes
    | postLogout => exact htakes
    | receive => exact htakes
    | clearQueryCache => exact htakes
    | _ => exact hleaves
  · cases op with
    | send => exact Bool.false_ne_true hdisplaces
    | postLogout => exact Bool.false_ne_true hdisplaces
    | receive => exact Bool.false_ne_true hdisplaces
    | clearQueryCache => exact Bool.false_ne_true hdisplaces
    | _ => exact hleaves

/-- What a request does after it rests. -/
theorem leaves_of_rests {session : ℕ} {last : Exchange (clientInterface ι)} {op : ClientOp ι}
    (hrests : rests session last = true) (hnext : MayFollow last op) : op.Leaves session := by
  obtain ⟨before, r⟩ := last
  cases before with
  | accessInMemory => exact leaves_of_forwards hrests hnext
  | readAccess => exact leaves_of_forwards hrests hnext
  | send =>
    obtain rfl : op = .receive := hnext
    trivial
  | postLogout =>
    obtain rfl : op = .clearQueryCache := hnext
    trivial
  | clearQueryCache => exact hnext.elim
  | receive =>
    have hstatus : (r : ResponseStatus) = .unauthorized := hnext
    subst hstatus
    cases hrests
  | _ => cases hrests

/-- A request that leaves a session alone rests after that, unless it gets a 401. -/
theorem rests_of_leaves {session : ℕ} {op : ClientOp ι} (hop : op.Leaves session) (r : op.Resp)
    (haccepted : ∀ status, (⟨op, r⟩ : Exchange (clientInterface ι)) = ⟨.receive, status⟩ →
      ResponseStatus.accepted status = true) : rests session ⟨op, r⟩ = true := by
  cases op with
  | receive => exact haccepted r rfl
  | send => rfl
  | postLogout => rfl
  | clearQueryCache => rfl
  | _ => exact hop.elim

/-! ### Orderly runs -/

section Runs

variable [DecidableEq ι]

/-- The runs in which a sign-in stores its session when every request that took a step under another
session rests, and no 401 reaches such a request after that. -/
def Orderly (flows : ι → Flow) : Restriction (clientInterface ι) ι ClientChoice (MobileClient ι) where
  stmt i x op s :=
    (∀ session, op = ClientOp.publish session →
      ∀ (a : ℕ) (d : ClientEvent ι) (u : ℕ), s.log[a]? = some d → flows d.thread = .request →
        d.before.session? = some u → session.token.session ≠ u →
          ∀ last ∈ (s.trace d.thread).getLast?, rests session.token.session last = true) ∧
    (op = ClientOp.receive → x.status = .unauthorized → flows i = .request →
      ∀ (a q : ℕ) (d e : ClientEvent ι) (session : AuthSessionTokens) (u : ℕ), a < q →
        s.log[a]? = some d → s.log[q]? = some e → d.thread = i → d.before.session? = some u →
          session.token.session ≠ u → e.op ≠ ClientOp.publish session)
  crash _ _ := False

/-- What a request has left to do after the sign-in of another session. -/
def Outlived (flows : ι → Flow) (s : ClientState ι) : Prop :=
  ∀ (a q : ℕ) (d e : ClientEvent ι) (session : AuthSessionTokens) (u : ℕ), a < q →
    s.log[a]? = some d → s.log[q]? = some e → flows d.thread = .request →
      d.before.session? = some u → session.token.session ≠ u → e.op = ClientOp.publish session →
        (∀ last ∈ (s.trace d.thread).getLast?, rests session.token.session last = true) ∧
          ∀ (m : ℕ) (f : ClientEvent ι), q < m → s.log[m]? = some f → f.thread = d.thread →
            ClientOp.Leaves session.token.session f.op

/-- **One statement** keeps what requests have left to do. -/
theorem Outlived.step {flows : ι → Flow} {s : ClientState ι} {i : ι} {x : ClientChoice}
    {op : ClientOp ι} {r : op.Resp} {t : MobileClient ι} (h : Outlived flows s)
    (hissues : flows i = .request → RequestIssues (s.trace i) op)
    (hallowed : (Orderly flows).stmt i x op s) (hx : op.exec i x s.shared = some (r, t)) :
    Outlived flows (s.after i op r t) := by
  intro a q d e session u haq hd he hflow hu hne hpublish
  rcases State.getElem?_after he with heold | ⟨rfl, rfl⟩
  · -- The sign-in was before, and so was the request.
    have hdold : s.log[a]? = some d := by
      rcases State.getElem?_after hd with hdold | ⟨rfl, -⟩
      · exact hdold
      · exact absurd (List.getElem?_eq_some_iff.1 heold).1 (Nat.lt_asymm haq)
    obtain ⟨hrests, hlater⟩ := h a q d e session u haq hdold heold hflow hu hne hpublish
    -- Only the thread of the request can resume it; what the others do leaves it at rest.
    by_cases hi : i = d.thread
    · subst hi
      obtain ⟨last, hlast⟩ : ∃ last, (s.trace d.thread).getLast? = some last := by
        have hmem : d ∈ s.history d.thread := State.mem_history.2 ⟨List.mem_of_getElem? hdold, rfl⟩
        rw [← Option.isSome_iff_exists, List.getLast?_isSome]
        intro hnil
        rw [State.trace, List.map_eq_nil_iff] at hnil
        exact absurd (hnil ▸ hmem) List.not_mem_nil
      have hleaves := leaves_of_rests (hrests last hlast) ((hissues hflow).1 last hlast)
      refine ⟨fun last hlast ↦ ?_, fun m f hm hf hthread ↦ ?_⟩
      · rw [State.after_trace_self, List.getLast?_concat, Option.mem_some_iff] at hlast
        subst hlast
        refine rests_of_leaves hleaves r ?_
        rintro status ⟨⟩
        cases hx
        cases hstatus : x.status with
        -- A refused answer would be repeated with the new token; the restriction excludes it.
        | unauthorized =>
          exact absurd hpublish
            (hallowed.2 rfl hstatus hflow a q d e session u haq hdold heold rfl hu hne)
        | ok => rfl
        | failed => rfl
      · rcases State.getElem?_after hf with hfold | ⟨rfl, rfl⟩
        · exact hlater m f hm hfold hthread
        · exact hleaves
    · refine ⟨?_, fun m f hm hf hthread ↦ ?_⟩
      · rw [State.after_trace_of_ne _ hi]
        exact hrests
      · rcases State.getElem?_after hf with hfold | ⟨rfl, rfl⟩
        · exact hlater m f hm hfold hthread
        · exact absurd hthread hi
  · -- The sign-in stores its session now.
    have hop : op = .publish session := hpublish
    have hdold : s.log[a]? = some d := by
      rcases State.getElem?_after hd with hdold | ⟨rfl, -⟩
      · exact hdold
      · exact absurd haq (Nat.lt_irrefl _)
    have hi : i ≠ d.thread := by
      rintro rfl
      exact (hissues hflow).2 session hop
    refine ⟨?_, fun m f hm hf hthread ↦ ?_⟩
    · rw [State.after_trace_of_ne _ hi]
      exact hallowed.1 session hop a d u hdold hflow hu hne
    · rcases State.getElem?_after hf with hfold | ⟨rfl, -⟩
      · exact absurd (List.getElem?_eq_some_iff.1 hfold).1 (Nat.lt_asymm hm)
      · exact absurd hm (Nat.lt_irrefl _)

/-- What a flow issues after a trace, as far as it is a request. -/
def FlowIssues (flows : ι → Flow) (i : ι) (trace : List (Exchange (clientInterface ι)))
    (op : ClientOp ι) : Prop := flows i = .request → RequestIssues trace op

/-- The requests of a run keep to what requests issue. -/
theorem flows_keep (w : MobileClient ι) (flows : ι → Flow) :
    (Config.start w fun i ↦ (flows i).run).Keeps (FlowIssues flows) (fun _ ↦ Anything)
      fun _ ↦ Anything := by
  refine Config.keeps_start fun i ↦ ?_
  by_cases hflow : flows i = .request
  · have hissues : FlowIssues flows i = RequestIssues := by
      funext trace op
      exact propext (forall_prop_of_true hflow)
    rw [hissues, hflow]
    exact authenticatedRequest_keeps
  · exact ((Prog.all_true _).keeps fun _ _ _ _ h ↦ absurd h hflow).mono (fun _ _ _ ↦ trivial)
      fun _ _ _ ↦ trivial

/-- **No request touches a later session** in an orderly run. -/
theorem no_stale_touch (w : MobileClient ι) (flows : ι → Flow) {c : ClientConfig ι}
    (hc : Run (mobile ι) (Orderly flows) (.start w fun i ↦ (flows i).run) c) :
    NeverTouched flows c.state := by
  have houtlived : Outlived flows c.state := by
    refine (Run.invariant_keeps (I := Outlived flows) hc (flows_keep w flows) ?_
      (fun s i x op r t h hissues hallowed hx ↦ h.step hissues hallowed hx)
      fun s i _ hcrash ↦ hcrash.elim).1
    intro a q d e session u _ hd
    cases hd
  intro a q m d e f session u haq hqm hd he hf hflow hthread hu hpublish hne htouches
  have hleaves := (houtlived a q d e session u haq hd he hflow hu hne hpublish).2 m f hqm hf hthread
  exact not_touches_of_leaves hleaves htouches

end Runs

namespace Demo

/-- The session of a sign-in. -/
def secondSession : AuthSessionTokens := ⟨⟨1, 0⟩, ⟨1, 1⟩⟩

/-- A request, a logout and sign-ins. -/
def threeFlows (i : ℕ) : Flow :=
  if i = 0 then .request else if i = 1 then .logout else .completeAuth secondSession

/-- The first flow is the only request. -/
theorem eq_zero_of_request {i : ℕ} (h : threeFlows i = .request) : i = 0 := by
  unfold threeFlows at h
  split at h
  · assumption
  · split at h <;> cases h

/-- Turns of a flow, with an answer to requests and refreshes. -/
def answeredTurns (i n : ℕ) (status : ResponseStatus) : List (Turn ℕ ClientChoice) :=
  List.replicate n ⟨i, status, some ⟨⟨1, 2⟩, ⟨1, 3⟩⟩, true⟩

/-- Whether a statement is orderly when the first flow is the only request. -/
def orderly (_ : ℕ) (op : ClientOp ℕ) (s : ClientState ℕ) : Bool :=
  match op with
  | .publish session => (s.trace 0).getLast?.all (rests session.token.session)
  | _ => true

/-- The sign-in stores its session while the request waits. -/
theorem signInMeanwhile_runs : ((Config.start mountedClient fun i ↦ (threeFlows i).run).turns (mobile ℕ)
    orderly (answeredTurns 0 2 .ok ++ answeredTurns 2 5 .ok ++ answeredTurns 0 1 .ok)).isSome := by
  decide +kernel

/-- What the schedule leads to. -/
def signInMeanwhile : ClientConfig ℕ := Config.afterTurns _ _ _ _ signInMeanwhile_runs

/-- The request waits for its answer, so the schedule is orderly. -/
theorem signInMeanwhile_orderly :
    Run (mobile ℕ) (Orderly threeFlows) (.start mountedClient fun i ↦ (threeFlows i).run)
      signInMeanwhile := by
  refine Config.run_schedule (fun a ha op s hallow ↦ ?_) signInMeanwhile_runs
  refine ⟨?_, fun _ hstatus ↦ ?_⟩
  · rintro session rfl _ d _ _ hd _ _ last hlast
    rw [eq_zero_of_request hd] at hlast
    have hall : (s.trace 0).getLast?.all (rests session.token.session) = true := hallow
    rw [hlast] at hall
    exact hall
  · simp only [answeredTurns, List.mem_append, List.mem_replicate] at ha
    obtain (⟨-, rfl⟩ | ⟨-, rfl⟩) | ⟨-, rfl⟩ := ha <;> cases hstatus

/-- The user logs out and signs in again before the 401 of a request arrives. -/
theorem outlived_runs : ((Config.start mountedClient fun i ↦ (threeFlows i).run).turns (mobile ℕ)
    anyClientStatement (answeredTurns 0 2 .unauthorized ++ answeredTurns 1 9 .unauthorized ++
      answeredTurns 2 5 .unauthorized ++ answeredTurns 0 13 .unauthorized)).isSome := by
  decide +kernel

/-- What the schedule leads to. -/
def outlived : ClientConfig ℕ := Config.afterTurns _ _ _ _ outlived_runs

end Demo

open Demo

/-- The sign-in has stored its session, and the request leaves it alone. -/
theorem no_stale_touch_meanwhile :
    (signInMeanwhile.state.log[3]?.map fun e ↦ e.op) = some (.publish secondSession) ∧
      NeverTouched threeFlows signInMeanwhile.state :=
  ⟨by decide +kernel, no_stale_touch mountedClient threeFlows signInMeanwhile_orderly⟩

/-- A request of the first session is sent again with a token of the second. -/
theorem old_request_takes_new_token : ¬ ∀ (w : MobileClient ℕ) (flows : ℕ → Flow) (c : ClientConfig ℕ),
    w.Mounted → Run (mobile ℕ) NoFlowLost (.start w fun i ↦ (flows i).run) c →
      NeverTouched flows c.state := by
  intro h
  have hnever := h mountedClient threeFlows outlived ⟨rfl, rfl, rfl, rfl, rfl⟩
    (Config.run_afterTurns (fun _ _ _ _ _ ↦ trivial) outlived_runs)
  obtain ⟨d, hd, hfirst⟩ := Option.map_eq_some_iff.1 (by decide +kernel :
    (outlived.state.log[0]?.map fun d ↦ (d.thread, d.before.session?)) = some (0, some 0))
  obtain ⟨e, he, hpublish⟩ := Option.map_eq_some_iff.1 (by decide +kernel :
    (outlived.state.log[12]?.map fun e ↦ e.op) = some (.publish secondSession))
  obtain ⟨f, hf, hlast⟩ := Option.map_eq_some_iff.1 (by decide +kernel :
    (outlived.state.log[28]?.map fun f ↦ (f.thread, f.op)) = some (0, .send (some ⟨1, 2⟩)))
  have hthread : d.thread = 0 := congrArg Prod.fst hfirst
  have hsession : d.before.session? = some 0 := congrArg Prod.snd hfirst
  have hsender : f.thread = 0 := congrArg Prod.fst hlast
  have hsent : f.op = ClientOp.send (some ⟨1, 2⟩) := congrArg Prod.snd hlast
  exact hnever 0 12 28 d e f secondSession 0 (by decide) (by decide) hd he hf
    (by rw [hthread]; rfl) (hsender.trans hthread.symm) hsession hpublish (by decide)
    (.inl ⟨⟨1, 2⟩, by rw [hsent]; rfl, rfl⟩)

end Stead
