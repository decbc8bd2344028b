import Stead.Otp.Replays

/-!
# The session of a key

A sign-in that commits leaves two things behind: the first token of the session, and in the row of
the code the response with this token, sealed under the key of the call (`SessionStored`). It does
so whether or not its answer comes through. So a key begins one session, and whoever asks again
under it is answered with the token of this session, or not at all (`retries_see_the_session`).

## The token of the session

What a thread has begun a session with is in its trace: the code it has consumed, and the token it
has created with it. A row of the refresh tokens is the first one of the session when it has the
user, the family and the hash of that token (`BeginsAt`). A rotation leaves the row in the table
with all three, so the row is there in every later state, and the hash is the one of the token in
the stored response: this is the token a retry is given.

## The invariant

`SessionsStored` is proved as an invariant with a part for each running thread, the transaction it
is in (`InTransaction`). A commit brings the rows of the transaction in together
(`CommitsSession.sessionStored`), every other statement keeps both (`SessionStored.after`), and the
loss of a thread takes back only what is not committed.
-/

namespace Stead

open Concurrency

variable {ι : Type} [DecidableEq ι]

/-- The first token of the session is stored, and the response with it in the row of the code. -/
inductive SessionStored (env : Env) (calls : ι → ApiCall) (s : History ι) (i : ι) (id u F : ℕ) :
    Prop
  | intro (v : VerificationRequest) (data : Verification) (response : VerifyOtpResponse)
      (hv : (calls i).Verifies env v) (hseals : data.Seals env v response)
      (hstored : StoredAs s id data.columns)
      (htoken : ∃ k row, s.shared.refreshTokens.stored k = some row ∧ row.userId = u ∧
        row.familyId = F ∧ BeginsAt s i id row ∧
          row.tokenHash = env.crypto.hashRefreshToken response.refreshToken)

/-- Every session that is committed is stored. -/
def SessionsStored (env : Env) (calls : ι → ApiCall) (s : History ι) : Prop :=
  ∀ i id u F, Committed s i id u F → SessionStored env calls s i id u F

section Steps

variable {env : Env} {w t : World ι} {calls : ι → ApiCall} {i j : ι} {x : Choice}
  {op : Op} {s : History ι} {r : Except StatementError op.Ret} {id u F : ℕ}

/-- A statement leaves the response and the token where they are. -/
theorem SessionStored.after (h : SessionStored env calls s j id u F) (hcodes : CodesSound s.shared)
    (hsound : TokensSound s.shared) (hop : SignInStatement env (calls i) (s.trace i) op)
    (hx : exec env.crypto i x op s.shared = some (r, t)) :
    SessionStored env calls (s.after i op r t) j id u F := by
  obtain ⟨v, data, response, hv, hseals, hstored, k, row, hrow, hu, hF, hbegins, htoken⟩ := h
  have hm : Move (machine ι env.crypto) .all i s (s.after i op r t) := .stmt trivial hx
  obtain ⟨row', hrow', hleads⟩ := hsound.move_stored hm hrow
  -- A rotation changes neither the family of the row nor its hash.
  have hbegins' : BeginsAt s j id row' := by
    obtain ⟨first, hfirst, hfirstUser, hfirstFamily, hfirstToken⟩ := hbegins
    exact ⟨first, hfirst, hfirstUser.trans hleads.userId.symm,
      hfirstFamily.trans hleads.familyId.symm, hfirstToken.trans hleads.tokenHash.symm⟩
  exact ⟨v, data, response, hv, hseals, hstored.after hcodes rfl hx, k, row', hrow',
    hleads.userId.trans hu, hleads.familyId.trans hF, hbegins'.after hop,
    hleads.tokenHash.trans htoken⟩

/-- **A commit** stores the session. -/
theorem CommitsSession.sessionStored (hc : CommitsSession s i op t id u F) (hJ : InTransaction i s)
    (hop : SignInStatement env (calls i) (s.trace i) op) :
    SessionStored env calls (s.after i op r t) i id u F := by
  obtain ⟨hcommit, ⟨n, ht⟩, ⟨first, hfirst, hu, -⟩, hconsumed, k, row, hp, rfl, hrow⟩ := hc
  have hbegins := hrow.after (r := r) (t := t) hop
  obtain ⟨v, response, _, hv, hready⟩ := hop.committed hcommit id hconsumed
  obtain ⟨first', hfirst', -, htoken⟩ := hready.begun
  obtain ⟨data, hverified, hseals⟩ := hready.verified
  obtain ⟨first'', hfirst'', hu', -, htoken'⟩ := hrow
  cases hfirst.symm.trans hfirst'
  cases hfirst.symm.trans hfirst''
  obtain ⟨-, codeRow, hcodeRow, hdata⟩ := hJ.verified id data hverified
  refine ⟨v, data, response, hv, hseals, .inl ⟨codeRow, ?_, hdata⟩, k, row, ?_, hu'.symm.trans hu,
    rfl, hbegins, htoken'.symm.trans htoken⟩
  · show t.otpCodes.stored id = some codeRow
    rw [ht, World.commit_codes_stored]
    exact World.codes_of_pending (w := s.shared.elapse n) hcodeRow
  · show t.refreshTokens.stored k = some row
    rw [ht, World.commit_stored]
    exact World.tokens_of_pending (w := s.shared.elapse n) hp

/-- **A statement** leaves every committed session stored. -/
theorem SessionsStored.after (h : SessionsStored env calls s) (hs : SignedIn env w calls s)
    (hw : TokensSound w) (hsound : TokensSound s.shared) (hdrawn : DrawnOnce s)
    (hJ : InTransaction i s) (hop : SignInStatement env (calls i) (s.trace i) op)
    (hx : exec env.crypto i x op s.shared = some (r, t)) :
    SessionsStored env calls (s.after i op r t) := by
  intro j id u F hc
  rcases hs.committed_after hw hdrawn hop hx hc with hold | ⟨rfl, hcommits⟩
  · exact (h j id u F hold).after hs.codes hsound hop hx
  · exact hcommits.sessionStored hJ hop

/-- **The loss of a thread** takes back nothing that is stored. -/
theorem SessionsStored.lost (h : SessionsStored env calls s) (i : ι) :
    SessionsStored env calls (s.setShared (s.shared.rollback i)) := by
  rintro j id u F ⟨hbegins, k, row, hrow, hF⟩
  rw [State.setShared_shared, World.rollback_stored] at hrow
  obtain ⟨v, data, response, hv, hseals, hstored, k', row', hrow', htoken⟩ :=
    h j id u F ⟨hbegins, k, row, hrow, hF⟩
  exact ⟨v, data, response, hv, hseals, hstored.rollback, k', row',
    (s.shared.rollback_stored i k').trans hrow', htoken⟩

end Steps

/-! ### Runs -/

/-- **The sessions of every run.** -/
theorem sessionsStored_run (env : Env) {w : World ι} (hw : TokensSound w)
    (hlocks : ∀ u, w.advisoryLocks u = none) (hcodes : CodesSound w) (calls : ι → ApiCall)
    {c : System ι} (hc : System.Reaches env .all (System.start env w calls) c) :
    SessionsStored env calls c.state := by
  have hsigned : ∀ c, System.Reaches env .all (System.start env w calls) c →
      SignedIn env w calls c.state ∧ TokensSound c.state.shared ∧ DrawnOnce c.state := fun c hc ↦
    ⟨(signedIn_run env hw hlocks hcodes calls hc).1, ((sessions_safe env hw hlocks calls).run hc).1⟩
  have hwithin := Run.within
    (C := fun s ↦ SignedIn env w calls s ∧ TokensSound s.shared ∧ DrawnOnce s) hsigned hc
  have hstart : SessionsStored env calls (⟨w, []⟩ : History ι) := fun i id u F h ↦
    absurd h.begins (not_begins_nil rfl)
  exact (hwithin.invariant_running (I := SessionsStored env calls) (J := InTransaction)
    (Config.keeps_start fun i ↦ program_signIn (calls i)) hstart (fun _ _ ↦ inTransaction_nil rfl)
    (fun s i x op r t hs hJ hop ha hx ↦
      ⟨hs.after ha.2.1 hw ha.2.2.1 ha.2.2.2 hJ hop hx, hJ.after ha.2.1.codes hop hx⟩)
    (fun s s' i j hij _ hm hJ ↦ by
      cases hm with
      | crash ha => exact hJ.others ha.2.1.codes hij (.crash (A := .all) trivial)
      | stmt ha hx => exact hJ.others ha.2.1.codes hij (.stmt (A := .all) trivial hx))
    fun s i hs _ ↦ hs.lost i).1.1

/-- **Retries see the session.** When sealed responses open to what was sealed, then in every state
that is reached from a sound database without open transactions, and as long as no row with a
verification has been deleted: a call of `verifyOtp` that has begun a session is the only one under
its idempotency key that has, and whatever another call under the key answers is a response with the
refresh token the session was begun with. Its row is stored in the family, with the hash of the token
that the first call has created. -/
theorem retries_see_the_session (env : Env) (hseal : ∀ secret iv aad response,
      env.crypto.openResponse secret iv aad (env.crypto.sealResponse secret iv aad response).1
        (env.crypto.sealResponse secret iv aad response).2 = some response)
    {w : World ι} (hw : TokensSound w) (hlocks : ∀ u, w.advisoryLocks u = none)
    (hcodes : CodesSound w) (hkeys : KeysUnique w) (hconsistent : Consistent w)
    (calls : ι → ApiCall) {c : System ι}
    (hc : System.Reaches env .all (System.start env w calls) c)
    (hdeleted : ∀ e ∈ c.state.log, ¬ DeletesVerified e) {i j : ι}
    {phone countryIso otp key phone' countryIso' otp' key' : String}
    {context context' : OtpVerificationContext}
    (hi : calls i = .verifyOtp phone countryIso otp context)
    (hj : calls j = .verifyOtp phone' countryIso' otp' context')
    (hkey : context.idempotencyKey = some key) (hkey' : context'.idempotencyKey = some key')
    (hsame : idempotencyKeyOf key = idempotencyKeyOf key') {id u F : ℕ}
    (h : SignedInWith env calls c.state i id u F) :
    (∀ id' u' F', SignedInWith env calls c.state j id' u' F' → i = j) ∧
      ∀ b, c.Answered j (.ok b) → ∃ response, b = .session response ∧
        ∃ k row, c.state.shared.refreshTokens.stored k = some row ∧ row.userId = u ∧
          row.familyId = F ∧ BeginsAt c.state i id row ∧
            row.tokenHash = env.crypto.hashRefreshToken response.refreshToken := by
  obtain ⟨hs, hkeeps⟩ := signedIn_run env hw hlocks hcodes calls hc
  have hr := remembering_run env hw hlocks hcodes hkeys hconsistent calls hc
  have hstored := sessionsStored_run env hw hlocks hcodes calls hc
  have hrow : ∀ {k verification}, StoredAs c.state k verification →
      ∃ row, c.state.shared.otpCodes.stored k = some row ∧ row.verification = verification :=
    fun h ↦ h.resolve_right fun ⟨e, he, hdel⟩ ↦ hdeleted e he hdel
  obtain ⟨v, data, response, hv, ⟨hdataKey, hdataRequest, iv, ciphertext, tag, hsealed, hjson⟩,
    hsaved, htoken⟩ := hstored i id u F ⟨h.begins, h.family⟩
  obtain ⟨row, hid, hdata⟩ := hrow hsaved
  simp only [OtpCode.verification, Verification.columns, Prod.mk.injEq] at hdata
  refine ⟨fun id' u' F' h' ↦ ?_, fun b hb ↦ ?_⟩
  · obtain ⟨v', data', _, hv', ⟨hdataKey', -⟩, hsaved', -⟩ :=
      hstored j id' u' F' ⟨h'.begins, h'.family⟩
    obtain ⟨-, hhashes⟩ := same_of_verifies hv hv' hi hj hkey hkey' hsame
    obtain ⟨row', hid', hdata'⟩ := hrow hsaved'
    have hdataKeys : row'.verificationKeyHash = row.verificationKeyHash := by
      rw [hdata.1, hdataKey, hhashes, ← hdataKey']
      exact congrArg Prod.fst hdata'
    -- One key, and so one code.
    obtain rfl := hr.keys id id' row row' _ (.inl hid) (.inl hid') hdata.1
      (hdataKeys.trans hdata.1)
    exact hs.alone i j id u u' F F' ⟨h.begins, h.family⟩ ⟨h'.begins, h'.family⟩
  · obtain ⟨v', response', rfl, hv', -, hverified⟩ :=
      hkeeps.answer hb phone' countryIso' otp' context' hj
    obtain ⟨hsecrets, hhashes⟩ := same_of_verifies hv hv' hi hj hkey hkey' hsame
    obtain ⟨k, row', hanswer⟩ := answeredFrom_of_verified hseal hc hs hr hdeleted hverified
    have hrowKey : row.verificationKeyHash = some v'.verificationKeyHash := by
      rw [hdata.1, hdataKey, hhashes]
    obtain rfl := hr.keys id k row row' _ (.inl hid) (.inl hanswer.stored) hrowKey hanswer.key
    obtain rfl : row = row' := Option.some.inj (hid.symm.trans hanswer.stored)
    have hrequests : v.verificationRequestHash = v'.verificationRequestHash := by
      rw [← hdataRequest]
      exact Option.some.inj (hdata.2.1.symm.trans hanswer.request)
    obtain ⟨_, _, _, _, hjson', hopens⟩ := hanswer.response
    cases (hdata.2.2.1.trans (congrArg some hjson)).symm.trans hjson'
    have hopened := hseal v.secret iv (v.verificationKeyHash, v.verificationRequestHash) response
    rw [hsealed, hsecrets, hhashes, hrequests] at hopened
    obtain rfl : response = response' := Option.some.inj (hopened.symm.trans hopens)
    exact ⟨response, rfl, htoken⟩

namespace Demo

/-- Thread 1 has begun a session and committed it, and thread 2 has been answered. -/
def AskedAgain (c : System ℕ) : Prop :=
  (c.state.log.all fun e ↦ !removesVerified e) = true ∧
    (begunBy c 1 = some (0, 0, 0) ∧
      (c.state.shared.refreshTokens.stored 0).map RefreshToken.familyId = some 0) ∧
        (c.progs 2).bind Prog.outcome = some (.ok (.session ⟨0, 1, 900⟩))

instance (c : System ℕ) : Decidable (AskedAgain c) := inferInstanceAs (Decidable (_ ∧ _))

/-- The answer to the commit of thread 1 is lost, and thread 2 asks again. -/
theorem askedAgain_runs : ((System.start env world replayCalls).turns (machine ℕ crypto) anything
    (steps 0 18 ++ steps 1 21 ++ [⟨1, { fault := .after }⟩] ++ steps 2 4)).any
      (fun c ↦ AskedAgain c) = true := by
  decide +kernel

/-- Thread 2 has its answer. -/
def askedAgain : System ℕ :=
  after (System.start env world replayCalls) _ _ (Option.isSome_of_any askedAgain_runs)

/-- What the schedule leads to. -/
theorem askedAgain_tests : AskedAgain askedAgain :=
  of_decide_eq_true (Config.afterTurns_of_any askedAgain_runs)

/-- The session of thread 1 is committed, although thread 1 was not told so. -/
theorem signedInWith_askedAgain : SignedInWith env replayCalls askedAgain.state 1 0 0 0 := by
  obtain ⟨-, ⟨hbegun, hfamily⟩, -⟩ := askedAgain_tests
  obtain ⟨hs, -⟩ := signedIn_run env tokensSound_world (fun _ ↦ rfl) codesSound_world replayCalls
    (reaches_after _ _ (Option.isSome_of_any askedAgain_runs))
  exact hs.signedInWith ⟨begins_of_begunBy hbegun, hasFamily_of_map hfamily⟩

end Demo

/-- Thread 2 is given the token that thread 1 has begun its session with. -/
theorem retries_see_the_session_askedAgain : ∃ response,
    ApiResponse.session ⟨0, 1, 900⟩ = .session response ∧ ∃ k row,
      Demo.askedAgain.state.shared.refreshTokens.stored k = some row ∧ row.userId = 0 ∧
        row.familyId = 0 ∧ BeginsAt Demo.askedAgain.state 1 0 row ∧
          row.tokenHash = Demo.env.crypto.hashRefreshToken response.refreshToken :=
  (retries_see_the_session Demo.env Demo.openResponse_sealResponse Demo.tokensSound_world
    (fun _ ↦ rfl) Demo.codesSound_world Demo.keysUnique_world Demo.consistent_world
    Demo.replayCalls (Demo.reaches_after _ _ _)
    (Demo.not_deletesVerified_of_all Demo.askedAgain_tests.1) (i := 1) (j := 2) rfl rfl rfl rfl rfl
    Demo.signedInWith_askedAgain).2 _ (Config.answered_iff.2 Demo.askedAgain_tests.2.2)

end Stead
