import Stead.Otp.Budget
import Stead.Otp.Limits
import Stead.Otp.OneSession

/-!
# Replays of a verification

What a verification answered is stored in the row of its code, sealed, in the transaction that
begins the session. The key it is stored under is in no other row (`KeysUnique`), and what is stored
stays as it is as long as the row is there (`StoredAs`), so all the answers given under one key are
the one that is stored (`replays_agree`).

## Two kinds of answers

A call answers what it has stored, in the transaction that it commits, or what it has opened of a
row that it found under its key. `Remembering` says of both that the row still has that verification
(`StoredAs`), or that somebody has removed the row of a verification: that can only be a request
that takes an uncompleted one over, and is excluded in the result. Opening what was sealed under the
same hashes gives the response back: that is the one thing assumed of the platform
(`opens_of_decrypt`).

## Versions

The unique index looks at every version of a row, committed or written, so a key that is stored in
one version is free in all others (`CodesSound.key_free`).
-/

namespace Stead

open Concurrency

variable {ι : Type}

/-- A version of row `k`: the committed one, or one that an open transaction has written. -/
def World.CodeVersion (w : World ι) (k : ℕ) (row : OtpCode) : Prop :=
  w.otpCodes.stored k = some row ∨ ∃ j, w.otpCodes.pending k = some (j, row)

/-- A verification is stored in one row. -/
def KeysUnique (w : World ι) : Prop :=
  ∀ k k' row row' key, w.CodeVersion k row → w.CodeVersion k' row' →
    row.verificationKeyHash = some key → row'.verificationKeyHash = some key → k = k'

/-- A row with its verification, unless it has been deleted. -/
def StoredAs (s : History ι) (k : ℕ)
    (verification : Option Digest × Option Digest × Option ResponseJson × Option ℤ) : Prop :=
  (∃ row, s.shared.otpCodes.stored k = some row ∧ row.verification = verification) ∨
    ∃ e ∈ s.log, DeletesVerified e

/-- The row of a verification has been found. -/
def foundVerified (key : Digest) (existing : Keyed OtpCode) (phone : String) :
    Exchange Statements :=
  ⟨.otpCode (.findByVerificationKey key), .ok (some (existing, phone))⟩

/-- A version has the birth of its row. -/
theorem CodesSound.rooted {w : World ι} (hw : CodesSound w) : w.Rooted OtpCode.birth :=
  fun k j row hp ↦ (hw.held k j row hp).imp fun _ h ↦ ⟨h.1, h.2.2⟩

variable [DecidableEq ι]

section Statements

variable {crypto : Crypto} {i j : ι} {x : Choice} {op : Op} {w t : World ι}
  {r : Except StatementError op.Ret} {k : ℕ}

/-- What a thread sees of a row is a version. -/
theorem World.codes_version {k : ℕ} {row : OtpCode} (h : w.codes i k = some row) :
    w.CodeVersion k row :=
  (World.codes_cases h).elim (fun hp ↦ .inr ⟨i, hp⟩) fun hs ↦ .inl hs.2

/-- A verification is stored under a key that no other row has. -/
theorem storeVerification_cases {id : ℕ} {data : Verification} {r : Except StatementError Unit}
    (h : exec crypto i x (.otpCode (.storeVerification id data)) w = some (r, t)) :
    t.otpCodes = w.otpCodes ∨
      (∀ k j row, w.otpCodes.pending k = some (j, row) → j ≠ i →
        row.verificationKeyHash ≠ some data.verificationKeyHash) ∧
      ∀ k row, w.codes i k = some row →
        row.verificationKeyHash = some data.verificationKeyHash → k = id := by
  refine exec_of_perform (fun t ↦ t.otpCodes = w.otpCodes ∨ _) h (fun r t hp ↦ ?_) (.inl rfl)
  simp only [perform, OtpCodeStatement.perform] at hp
  split at hp
  · cases hp
  · next hfree =>
    split at hp
    · cases hp
      exact .inl rfl
    · next hnone =>
      refine .inr ⟨fun k j row hrow hj hkey ↦ ?_, fun k row hrow hkey ↦ ?_⟩
      · have := Table.not_contended (Bool.not_eq_true _ ▸ hfree) hrow (fun h ↦ hj (Option.some.inj h))
        simp [hkey] at this
      · by_contra hne
        refine hnone (List.any_eq_true.2 ⟨⟨k, row⟩, Table.mem_select.2 ⟨hrow, ?_⟩, ?_⟩)
        · simpa using hkey
        · simpa using hne

/-- Where the key of a version comes from. -/
inductive KeyFrom (w : World ι) (op : Op) (k : ℕ) (row' : OtpCode) : Prop
  | version {row : OtpCode} (h : w.CodeVersion k row)
      (hkey : row'.verificationKeyHash = row.verificationKeyHash)
  | created (h : row'.verificationKeyHash = none)
  | stored {data : Verification} (hop : op = .otpCode (.storeVerification k data))
      (h : row'.verificationKeyHash = some data.verificationKeyHash)

/-- A key in a version was there before, or is stored now. -/
theorem exec_key (h : exec crypto i x op w = some (r, t)) {row' : OtpCode}
    (hrow' : t.CodeVersion k row') : KeyFrom w op k row' := by
  cases exec_otpCodes h k with
  | same heq =>
    refine @KeyFrom.version _ w op k row' row' ?_ rfl
    rwa [World.CodeVersion, Table.stored, Table.pending, heq] at hrow'
  -- An edit keeps the key unless it is the one that stores an answer with its key.
  | @edit s row₁ row₂ hs hv he hl heq =>
    have hold : w.CodeVersion k row₁ := by
      cases hwriter : s.writer i with
      | none =>
        rw [hwriter, Cell.view_none] at hv
        exact .inl hv
      | some l =>
        rw [hwriter] at hv
        exact World.codes_version hv
    have hnew : KeyFrom w op k row₂ := by
      rcases he.verification with hsame | ⟨data, rfl, rfl⟩
      · exact .version hold (congrArg Prod.fst hsame)
      · exact .stored hs rfl
    rw [World.CodeVersion, Table.stored, Table.pending, heq] at hrow'
    -- A statement of a transaction writes a draft; any other writes the row itself.
    cases hwriter : s.writer i with
    | none =>
      rw [hwriter] at hrow'
      rcases hrow' with hrow' | hrow'
      · cases hrow'
        exact hnew
      · exact .version (.inr hrow') rfl
    | some l =>
      rw [hwriter] at hrow'
      rcases hrow' with hrow' | ⟨l, hrow'⟩
      · exact .version (.inl hrow') rfl
      · cases hrow'
        exact hnew
  | create hs hk hu hfresh hc heq =>
    rw [World.CodeVersion, Table.stored, Table.pending, heq] at hrow'
    rcases hrow' with hrow' | ⟨l, hrow'⟩ <;> cases hrow'
    exact .created rfl
  | delete hs hst hr hpn hj heq =>
    rw [World.CodeVersion, Table.stored, Table.pending, heq] at hrow'
    rcases hrow' with hrow' | ⟨l, hrow'⟩ <;> cases hrow'
  -- A commit turns the draft into the row: no version is new.
  | commit hs heq =>
    refine @KeyFrom.version _ w op k row' row' ?_ rfl
    rw [World.CodeVersion, Table.stored, Table.pending, heq] at hrow'
    rcases hrow' with hrow' | ⟨l, hrow'⟩
    · rw [Cell.commit_stored] at hrow'
      exact World.codes_version hrow'
    · exact .inr ⟨l, (Cell.pending_of_commit hrow').2⟩
  | rollback hs heq =>
    refine @KeyFrom.version _ w op k row' row' ?_ rfl
    rw [World.CodeVersion, Table.stored, Table.pending, heq] at hrow'
    rcases hrow' with hrow' | ⟨l, hrow'⟩
    · exact .inl ((Cell.rollback_stored _ _).symm.trans hrow')
    · exact .inr ⟨l, (Cell.pending_of_rollback hrow').2⟩

/-- No version but those of row `id` has the key of a verification that is stored in it. -/
theorem CodesSound.key_free (hw : CodesSound w) {id : ℕ} {data : Verification}
    {r : Except StatementError Unit} (hsame : t.otpCodes ≠ w.otpCodes)
    (h : exec crypto i x (.otpCode (.storeVerification id data)) w = some (r, t)) {row : OtpCode}
    (hrow : w.CodeVersion k row) (hkey : row.verificationKeyHash = some data.verificationKeyHash) :
    k = id := by
  obtain ⟨hothers, hown⟩ := (storeVerification_cases h).resolve_left hsame
  rcases hrow with hrow | ⟨j, hrow⟩
  · by_cases hheld : w.Holding i k
    · -- What the transaction has written was committed without a key.
      obtain ⟨row', hrow'⟩ := hheld
      obtain ⟨row₀, hrow₀, hlive, -⟩ := hw.held k i row' hrow'
      obtain rfl := Option.some.inj (hrow₀.symm.trans hrow)
      have := hw.verified k _ hrow (Option.isSome_of_eq_some hkey)
      simp [hlive] at this
    · exact hown k row ((Cell.view_of_not_pending fun p hp ↦ hheld ⟨p, hp⟩).trans hrow) hkey
  · by_cases hj : j = i
    · exact hown k row (World.codes_of_pending (hj ▸ hrow)) hkey
    · exact absurd hkey (hothers k j row hrow hj)

/-- **A statement** leaves a key in one row. -/
theorem KeysUnique.after (hkeys : KeysUnique w) (hw : CodesSound w)
    (h : exec crypto i x op w = some (r, t)) : KeysUnique t := by
  -- A version that has the key already, and one that it is stored in now.
  have hstored : ∀ {k k' row row'} {data : Verification}, t.CodeVersion k row →
      w.CodeVersion k' row' → op = .otpCode (.storeVerification k data) →
        row.verificationKeyHash = some data.verificationKeyHash →
          row'.verificationKeyHash = some data.verificationKeyHash → k' = k := by
    rintro k k' row row' data hrow hrow' rfl hkey hkey'
    by_cases hsame : t.otpCodes = w.otpCodes
    · refine hkeys k' k row' row _ hrow' ?_ hkey' hkey
      rwa [World.CodeVersion, hsame] at hrow
    · exact hw.key_free hsame h hrow' hkey'
  intro k k' row row' key hrow hrow' hkey hkey'
  cases exec_key h hrow with
  | created hnone => cases hnone.symm.trans hkey
  | version hv hold =>
    cases exec_key h hrow' with
    | created hnone => cases hnone.symm.trans hkey'
    | version hv' hold' =>
      exact hkeys k k' _ _ key hv hv' (hold.symm.trans hkey) (hold'.symm.trans hkey')
    | stored hop hdata =>
      obtain rfl := Option.some.inj (hdata.symm.trans hkey')
      exact hstored hrow' hv hop hdata (hold.symm.trans hkey)
  | stored hop hdata =>
    obtain rfl := Option.some.inj (hdata.symm.trans hkey)
    cases exec_key h hrow' with
    | created hnone => cases hnone.symm.trans hkey'
    | version hv' hold' => exact (hstored hrow hv' hop hdata (hold'.symm.trans hkey')).symm
    | stored hop' hdata' =>
      cases hop.symm.trans hop'
      rfl

omit [DecidableEq ι] in
theorem KeysUnique.of_versions (hkeys : KeysUnique w)
    (h : ∀ k row, t.CodeVersion k row → w.CodeVersion k row) : KeysUnique t :=
  fun k k' row row' key hrow hrow' ↦ hkeys k k' row row' key (h k row hrow) (h k' row' hrow')

theorem World.codeVersion_of_rollback {row : OtpCode} (h : (w.rollback i).CodeVersion k row) :
    w.CodeVersion k row := by
  rcases h with h | ⟨j, h⟩
  · exact .inl (by rwa [World.rollback_codes_stored] at h)
  · exact .inr ⟨j, (Cell.pending_of_rollback h).2⟩

variable {s : History ι}
  {verification : Option Digest × Option Digest × Option ResponseJson × Option ℤ}

/-- **A verification that is stored** stays as it is. -/
theorem StoredAs.after (hk : StoredAs s k verification) (hs : CodesSound s.shared)
    (hkey : verification.1.isSome) (h : exec crypto i x op s.shared = some (r, t)) :
    StoredAs (s.after i op r t) k verification := by
  rcases hk with ⟨row, hrow, hsame⟩ | ⟨e, he, hdeleted⟩
  · have hfirst : row.verificationKeyHash = verification.1 := congrArg Prod.fst hsame
    have hverified : row.verificationKeyHash.isSome := hfirst ▸ hkey
    cases hs.step h k with
    | absent h₀ => cases h₀.symm.trans hrow
    | aged h₀ h₁ ha =>
      obtain rfl := Option.some.inj (h₀.symm.trans hrow)
      exact .inl ⟨_, h₁, (ha.verification (.inl (hs.verified k _ hrow hverified))).trans hsame⟩
    | created _ _ h₀ => cases h₀.symm.trans hrow
    | deleted _ h₀ h₁ =>
      refine .inr ⟨⟨i, s.shared, op, r, t⟩, ?_, k, row, hrow, hverified, h₁⟩
      rw [State.after_log]
      exact List.mem_append_right _ (List.mem_singleton_self _)
  · exact .inr ⟨e, by rw [State.after_log]; exact List.mem_append_left _ he, hdeleted⟩

/-- What is stored is committed. -/
theorem StoredAs.rollback (hk : StoredAs s k verification) :
    StoredAs (s.setShared (s.shared.rollback i)) k verification := by
  refine hk.imp_left fun ⟨row, hrow, hsame⟩ ↦ ⟨row, ?_, hsame⟩
  rwa [State.setShared_shared, World.rollback_codes_stored]

end Statements

/-! ### The invariant -/

/-- What the calls know of the verifications that are stored. -/
structure Remembering (s : History ι) : Prop where
  keys : KeysUnique s.shared
  consistent : Consistent s.shared
  kept : ∀ i id data, (signIn (s.trace i)).kept = some (id, data) → StoredAs s id data.columns
  seen : ∀ i key existing phone, foundVerified key existing phone ∈ s.trace i →
    existing.row.verificationKeyHash = some key ∧
      StoredAs s existing.id existing.row.verification ∧
        s.shared.Born existing.id existing.row.birth ∧
          s.shared.phoneOf existing.row.userId = some phone
  phones : ∀ i phone user, foundUser phone user ∈ s.trace i → s.shared.phoneOf user.id = some phone

section Invariant

variable {env : Env} {crypto : Crypto} {calls : ι → ApiCall} {i j : ι} {x : Choice} {op : Op}
  {w t : World ι} {s : History ι} {r : Except StatementError op.Ret}

/-- What is found under a key is stored under it. -/
theorem exec_findByVerificationKey {key : Digest} {existing : Keyed OtpCode} {phone : String}
    (h : exec crypto i x (.otpCode (.findByVerificationKey key)) w =
      some (.ok (some (existing, phone)), t)) :
    w.otpCodes.stored existing.id = some existing.row ∧
      existing.row.verificationKeyHash = some key ∧
        phone = (w.phoneOf existing.row.userId).getD "" ∧ t.otpCodes = w.otpCodes := by
  have hp := perform_of_exec_ok h
  simp only [perform, OtpCodeStatement.perform, reply, Option.some.injEq, Prod.mk.injEq,
    Except.ok.injEq] at hp
  obtain ⟨hfound, rfl⟩ := hp
  obtain ⟨record, hhead, heq⟩ := Option.map_eq_some_iff.1 hfound
  cases heq
  have hmem := List.mem_of_head? hhead
  rw [Table.mem_select, Cell.view_none, decide_eq_true_eq] at hmem
  exact ⟨hmem.1, hmem.2, rfl, rfl⟩

/-- Who is found has the phone. -/
theorem exec_findByPhone {phone : String} {user : Keyed User}
    (h : exec crypto i x (.user (.findByPhone phone)) w = some (.ok (some user), t)) :
    w.phoneOf user.id = some phone := by
  have hp := perform_of_exec_ok h
  simp only [perform, UserStatement.perform, reply, Option.some.injEq, Prod.mk.injEq,
    Except.ok.injEq] at hp
  obtain ⟨hstored, hphone⟩ := userByPhone_eq_some hp.1
  exact phoneOf_eq_some.2 ⟨user.row, hstored, hphone⟩

/-- **A commit** stores the verification of its transaction. -/
theorem Remembering.kept_after (hs : Remembering s) (hcodes : CodesSound s.shared)
    (hJ : InTransaction i s) (h : exec crypto i x op s.shared = some (r, t)) {id : ℕ}
    {data : Verification} (hkept : (signIn ((s.after i op r t).trace j)).kept = some (id, data)) :
    StoredAs (s.after i op r t) id data.columns := by
  have hold : (signIn (s.trace j)).kept = some (id, data) →
      StoredAs (s.after i op r t) id data.columns :=
    fun hkept ↦ (hs.kept j id data hkept).after hcodes rfl h
  by_cases hij : i = j
  · subst hij
    rw [State.after_trace_self, signIn_append] at hkept
    rcases SignIn.after_kept hkept with ⟨heq, hverified⟩ | hkept
    · obtain ⟨-, row, hrow, hdata⟩ := hJ.verified id data hverified
      cases heq
      obtain rfl := (exec_commit h).resolve_right nofun
      exact .inl ⟨row, (World.commit_codes_stored _ i id).trans (World.codes_of_pending hrow), hdata⟩
    · exact hold hkept
  · rw [State.after_trace_of_ne _ hij] at hkept
    exact hold hkept

/-- **A statement** keeps what the calls know. -/
theorem Remembering.after (hs : Remembering s) (hcodes : CodesSound s.shared)
    (hJ : InTransaction i s) (h : exec crypto i x op s.shared = some (r, t)) :
    Remembering (s.after i op r t) where
  keys := hs.keys.after hcodes h
  consistent := exec_consistent h hcodes.rooted hs.consistent
  kept _ _ _ hkept := hs.kept_after hcodes hJ h hkept
  seen j key existing phone hfound := by
    rcases State.mem_trace_after hfound with hbefore | ⟨rfl, heq⟩
    · obtain ⟨hkey, hstored, hborn, hphone⟩ := hs.seen j key existing phone hbefore
      exact ⟨hkey, hstored.after hcodes (Option.isSome_of_eq_some hkey) h,
        hcodes.born_after h hborn, phoneOf_after h hphone⟩
    · cases heq
      obtain ⟨hrow, hkey, hphone, -⟩ := exec_findByVerificationKey h
      obtain ⟨user, huser⟩ := Option.isSome_iff_exists.1 (hs.consistent.owners _ _ hrow)
      have hof : s.shared.phoneOf existing.row.userId = some user.phone :=
        phoneOf_eq_some.2 ⟨user, huser, rfl⟩
      obtain rfl : phone = user.phone := by rw [hphone, hof]; rfl
      have hstored : StoredAs s existing.id existing.row.verification := .inl ⟨_, hrow, rfl⟩
      exact ⟨hkey, hstored.after hcodes (Option.isSome_of_eq_some hkey) h,
        hcodes.born_after h (World.born_of_stored hrow), phoneOf_after h hof⟩
  phones j phone user hfound := by
    rcases State.mem_trace_after hfound with hbefore | ⟨rfl, heq⟩
    · exact phoneOf_after h (hs.phones j phone user hbefore)
    · cases heq
      exact phoneOf_after h (exec_findByPhone h)

/-- **The loss of a thread** keeps what the calls know. -/
theorem Remembering.lost (hs : Remembering s) (i : ι) :
    Remembering (s.setShared (s.shared.rollback i)) where
  keys := hs.keys.of_versions fun _ _ ↦ World.codeVersion_of_rollback
  consistent := ⟨hs.consistent.phones, fun k row hrow ↦ hs.consistent.owners k row
    (by rwa [State.setShared_shared, World.rollback_codes_stored] at hrow), fun k row hrow ↦
      hs.consistent.past k row (by rwa [State.setShared_shared, World.rollback_codes_stored] at hrow)⟩
  kept j id data hkept := (hs.kept j id data hkept).rollback
  seen j key existing phone hfound :=
    let ⟨hkey, hstored, hborn, hphone⟩ := hs.seen j key existing phone hfound
    ⟨hkey, hstored.rollback, hborn.rollback, hphone⟩
  phones := hs.phones

end Invariant

/-! ### Runs -/

/-- What was compared equal matches. -/
theorem bcryptCompare_of_compared {env : Env} {A : Weather ι} {w : World ι} {calls : ι → ApiCall}
    {c : System ι} (hc : System.Reaches env A (System.start env w calls) c) {i : ι} {id : ℕ}
    {otp : String} {codeHash : Digest} (h : comparedEqual id otp codeHash ∈ c.state.trace i) :
    env.crypto.bcryptCompare otp codeHash = true := by
  obtain ⟨⟨j, before, op, resp, after⟩, he, heq⟩ := List.mem_map.1 h
  obtain ⟨x, hx⟩ := Run.exec_of_mem hc (State.mem_history.1 he).1
  cases heq
  obtain ⟨hanswer, -⟩ := exec_bcryptCompare (i := j) hx
  exact (Except.ok.inj hanswer).symm

/-- The response is the one that is stored in row `k`, under the digests of the verification. -/
structure AnsweredFrom (env : Env) (v : VerificationRequest) (response : VerifyOtpResponse)
    (w : World ι) (k : ℕ) (row : OtpCode) : Prop where
  stored : w.otpCodes.stored k = some row
  key : row.verificationKeyHash = some v.verificationKeyHash
  request : row.verificationRequestHash = some v.verificationRequestHash
  response : ∃ version iv tag ciphertext, row.verificationResponseJson =
      some (.envelope version iv tag ciphertext) ∧
    env.crypto.openResponse v.secret iv (v.verificationKeyHash, v.verificationRequestHash)
      ciphertext tag = some response
  phone : w.phoneOf row.userId = some v.normalizedPhone
  code : env.crypto.bcryptCompare v.otp row.codeHash = true

/-- What a replay opens. -/
theorem opens_of_decrypt {env : Env} {v : VerificationRequest} {json : ResponseJson}
    {response : VerifyOtpResponse} (h : decryptOtpVerificationResponse env v json = .ok response) :
    ∃ version iv tag ciphertext, json = .envelope version iv tag ciphertext ∧
      env.crypto.openResponse v.secret iv (v.verificationKeyHash, v.verificationRequestHash)
        ciphertext tag = some response := by
  cases json with
  | other text => cases h
  | envelope version iv tag ciphertext =>
    refine ⟨version, iv, tag, ciphertext, rfl, ?_⟩
    simp only [decryptOtpVerificationResponse] at h
    split at h
    · cases h
    split at h
    · next opened hopened =>
      split at h <;> cases h
      exact hopened
    · cases h

section Answers

variable {env : Env} {w : World ι} {calls : ι → ApiCall} {c : System ι}
  (hseal : ∀ secret iv aad response,
    env.crypto.openResponse secret iv aad (env.crypto.sealResponse secret iv aad response).1
      (env.crypto.sealResponse secret iv aad response).2 = some response)
  (hc : System.Reaches env .all (System.start env w calls) c)
  (hs : SignedIn env w calls c.state) (hr : Remembering c.state)
  (hdeleted : ∀ e ∈ c.state.log, ¬ DeletesVerified e)

include hseal hc hs hr hdeleted

/-- **Every answer** is the one that is stored. -/
theorem answeredFrom_of_verified {i : ι} {v : VerificationRequest} {response : VerifyOtpResponse}
    (h : Verified env v response (c.state.trace i)) :
    ∃ k row, AnsweredFrom env v response c.state.shared k row := by
  have hstored : ∀ {k verification}, StoredAs c.state k verification →
      ∃ row, c.state.shared.otpCodes.stored k = some row ∧ row.verification = verification :=
    fun h ↦ h.resolve_right fun ⟨e, he, hdel⟩ ↦ hdeleted e he hdel
  cases h with
  | @issued u id data hmatched hkept hseals =>
    obtain ⟨row, hrow, hdata⟩ := hstored (hr.kept i id data hkept)
    obtain ⟨user, now, record, rfl, hphone, hlive, rfl, hequal⟩ := hmatched
    obtain ⟨hu, hborn⟩ := hs.lives i _ now record hlive
    have hbirth := hborn.stored row hrow
    obtain ⟨hkey, hrequest, iv, ciphertext, tag, hsealed, hjson⟩ := hseals
    have hopened := hseal v.secret iv (v.verificationKeyHash, v.verificationRequestHash) response
    rw [hsealed] at hopened
    simp only [OtpCode.verification, Verification.columns, Prod.mk.injEq] at hdata
    refine ⟨record.id, row, hrow, hdata.1.trans (congrArg some hkey),
      hdata.2.1.trans (congrArg some hrequest),
      ⟨_, iv, tag, ciphertext, hdata.2.2.1.trans (congrArg some hjson), hopened⟩, ?_, ?_⟩
    · rw [OtpCode.userId_of_birth hbirth, hu]
      exact hr.phones i v.normalizedPhone user hphone
    · rw [OtpCode.codeHash_of_birth hbirth]
      exact bcryptCompare_of_compared hc hequal
  | replayed existing json hfound hrequest hequal hjson hopened =>
    obtain ⟨hkey, hsaved, hborn, hphone⟩ := hr.seen i _ existing _ hfound
    obtain ⟨row, hrow, hsame⟩ := hstored hsaved
    have hbirth := hborn.stored row hrow
    obtain ⟨version, iv, tag, ciphertext, rfl, hopens⟩ := opens_of_decrypt hopened
    simp only [OtpCode.verification, Prod.mk.injEq] at hsame
    refine ⟨existing.id, row, hrow, hsame.1.trans hkey, hsame.2.1.trans hrequest,
      ⟨version, iv, tag, ciphertext, hsame.2.2.1.trans ?_, hopens⟩, ?_, ?_⟩
    · exact Option.eq_some_of_filter_eq_some hjson
    · rw [OtpCode.userId_of_birth hbirth]
      exact hphone
    · rw [OtpCode.codeHash_of_birth hbirth]
      exact bcryptCompare_of_compared hc hequal

end Answers

/-- **The verifications of every run.** -/
theorem remembering_run (env : Env) {w : World ι} (hw : TokensSound w)
    (hlocks : ∀ u, w.advisoryLocks u = none) (hcodes : CodesSound w) (hkeys : KeysUnique w)
    (hconsistent : Consistent w) (calls : ι → ApiCall) {c : System ι}
    (hc : System.Reaches env .all (System.start env w calls) c) : Remembering c.state := by
  have hsigned : ∀ c, System.Reaches env .all (System.start env w calls) c →
      CodesSound c.state.shared := fun c hc ↦ (signedIn_run env hw hlocks hcodes calls hc).1.codes
  have hstart : Remembering (⟨w, []⟩ : History ι) := by
    refine ⟨hkeys, hconsistent, fun i id data h ↦ ?_, fun i key existing phone he ↦
      absurd he List.not_mem_nil, fun i phone user he ↦ absurd he List.not_mem_nil⟩
    cases h
  have hwithin := Run.within (C := fun s ↦ CodesSound s.shared) hsigned hc
  exact (hwithin.invariant_running (I := Remembering) (J := InTransaction)
    (Config.keeps_start fun i ↦ program_signIn (calls i)) hstart (fun _ _ ↦ inTransaction_nil rfl)
    (fun s i x op r t hs hJ hop ha hx ↦ ⟨hs.after ha.2 hJ hx, hJ.after ha.2 hop hx⟩)
    (fun s s' i j hij hs hm hJ ↦ by
      cases hm with
      | crash ha => exact hJ.others ha.2 hij (.crash (A := .all) trivial)
      | stmt ha hx => exact hJ.others ha.2 hij (.stmt (A := .all) trivial hx))
    fun s i hs _ ↦ hs.lost i).1.1

/-- Verifications under the same key use the same secret, and store under the same digest. -/
theorem same_of_verifies {env : Env} {call call' : ApiCall} {v v' : VerificationRequest}
    (hv : call.Verifies env v) (hv' : call'.Verifies env v')
    {phone countryIso otp key phone' countryIso' otp' key' : String}
    {context context' : OtpVerificationContext}
    (hcall : call = .verifyOtp phone countryIso otp context)
    (hcall' : call' = .verifyOtp phone' countryIso' otp' context')
    (hkey : context.idempotencyKey = some key) (hkey' : context'.idempotencyKey = some key')
    (hsame : idempotencyKeyOf key = idempotencyKeyOf key') :
    v.secret = v'.secret ∧ v.verificationKeyHash = v'.verificationKeyHash := by
  generalize hchecked : idempotencyKeyOf key' = checkedKey at hsame
  obtain ⟨⟨_, _, _, heq, -, hhash, -⟩, hsecret⟩ := hv
  obtain ⟨⟨_, _, _, heq', -, hhash', -⟩, hsecret'⟩ := hv'
  cases hcall.symm.trans heq
  cases hcall'.symm.trans heq'
  refine ⟨Except.ok.inj (hsecret.symm.trans hsecret'), ?_⟩
  obtain ⟨checked, hok, hdigest⟩ := hhash key hkey
  obtain ⟨checked', hok', hdigest'⟩ := hhash' key' hkey'
  have hsame' : checkedKey = .ok checked := hsame.symm.trans hok
  have hchecked' : checkedKey = .ok checked' := hchecked.symm.trans hok'
  rw [hdigest, hdigest', Except.ok.inj (hsame'.symm.trans hchecked')]

/-- Two verifications got the same answer, from one row: both codes match the hash of the row, the
phone numbers are that of its user, and the devices have the same digest. -/
structure AnsweredAlike (env : Env) (w : World ι) (phone otp : String)
    (context : OtpVerificationContext) (phone' otp' : String) (context' : OtpVerificationContext)
    (a b : ApiResponse) : Prop where
  answer : a = b
  row : ∃ k row normalizedPhone country country', w.otpCodes.stored k = some row ∧
    env.crypto.bcryptCompare otp row.codeHash = true ∧
      env.crypto.bcryptCompare otp' row.codeHash = true ∧
        w.phoneOf row.userId = some normalizedPhone ∧
          normalizePhoneNumber env phone country = .ok normalizedPhone ∧
            normalizePhoneNumber env phone' country' = .ok normalizedPhone
  device : ∃ secret deviceHash deviceHash', otpVerificationEncryptionKey env = .ok secret ∧
    hashDeviceIdentifier env context.deviceId = .ok deviceHash ∧
      hashDeviceIdentifier env context'.deviceId = .ok deviceHash' ∧
        env.crypto.hmacRequest secret deviceHash = env.crypto.hmacRequest secret deviceHash'

/-- **Replays agree.** When sealed responses open to what was sealed, then in every state that is
reached from a sound database without open transactions, and as long as no row with a verification
has been deleted, all the answers given to verifications under one idempotency key are the same, and
were given for the same phone number, the same code and the same device. -/
theorem replays_agree (env : Env) (hseal : ∀ secret iv aad response,
      env.crypto.openResponse secret iv aad (env.crypto.sealResponse secret iv aad response).1
        (env.crypto.sealResponse secret iv aad response).2 = some response)
    {w : World ι} (hw : TokensSound w) (hlocks : ∀ u, w.advisoryLocks u = none)
    (hcodes : CodesSound w) (hkeys : KeysUnique w) (hconsistent : Consistent w)
    (calls : ι → ApiCall) {c : System ι}
    (hc : System.Reaches env .all (System.start env w calls) c)
    (hdeleted : ∀ e ∈ c.state.log, ¬ DeletesVerified e) {i j : ι}
    {phone countryIso otp key phone' countryIso' otp' key' : String}
    {context context' : OtpVerificationContext}
    (hi : calls i = .verifyOtp phone countryIso otp context)
    (hj : calls j = .verifyOtp phone' countryIso' otp' context')
    (hkey : context.idempotencyKey = some key) (hkey' : context'.idempotencyKey = some key')
    (hsame : idempotencyKeyOf key = idempotencyKeyOf key') {a b : ApiResponse}
    (ha : c.Answered i (.ok a)) (hb : c.Answered j (.ok b)) :
    AnsweredAlike env c.state.shared phone otp context phone' otp' context' a b := by
  obtain ⟨hs, hkeeps⟩ := signedIn_run env hw hlocks hcodes calls hc
  have hr := remembering_run env hw hlocks hcodes hkeys hconsistent calls hc
  obtain ⟨v, response, rfl, hv, -, hverified⟩ := hkeeps.answer ha phone countryIso otp context hi
  obtain ⟨v', response', rfl, hv', -, hverified'⟩ :=
    hkeeps.answer hb phone' countryIso' otp' context' hj
  obtain ⟨hsecrets, hhashes⟩ := same_of_verifies hv hv' hi hj hkey hkey' hsame
  obtain ⟨⟨_, _, _, hcall, ⟨country, hphone⟩, -, deviceHash, hdevice, hrequest⟩, hsecret⟩ := hv
  obtain ⟨⟨_, _, _, hcall', ⟨country', hphone'⟩, -, deviceHash', hdevice', hrequest'⟩, -⟩ := hv'
  cases hi.symm.trans hcall
  cases hj.symm.trans hcall'
  obtain ⟨k, row, h⟩ := answeredFrom_of_verified hseal hc hs hr hdeleted hverified
  obtain ⟨k', row', h'⟩ := answeredFrom_of_verified hseal hc hs hr hdeleted hverified'
  -- One key, and so one row.
  obtain rfl : k = k' := hr.keys k k' row row' _ (.inl h.stored) (.inl h'.stored) h.key
    (hhashes ▸ h'.key)
  obtain rfl : row = row' := Option.some.inj (h.stored.symm.trans h'.stored)
  have hrequests : v.verificationRequestHash = v'.verificationRequestHash :=
    Option.some.inj (h.request.symm.trans h'.request)
  obtain ⟨_, _, _, _, hjson, hopens⟩ := h.response
  obtain ⟨_, _, _, _, hjson', hopens'⟩ := h'.response
  cases hjson.symm.trans hjson'
  rw [hsecrets, hhashes, hrequests] at hopens
  obtain rfl : response = response' := Option.some.inj (hopens.symm.trans hopens')
  have hphones : v.normalizedPhone = v'.normalizedPhone :=
    Option.some.inj (h.phone.symm.trans h'.phone)
  exact ⟨rfl, ⟨k, row, v.normalizedPhone, country, country', h.stored, h.code, h'.code, h.phone,
    hphone, hphones ▸ hphone'⟩, v.secret, deviceHash, deviceHash', hsecret, hdevice, hdevice', by
      rw [← hrequest, hrequests, hrequest', hsecrets]⟩

namespace Demo

/-- A code, a verification of it, and the same again. -/
def replayCalls : ℕ → ApiCall
  | 0 => requestOtp '0'
  | _ => .verifyOtp "+1" "NG" "" { idempotencyKey := some (key '1') }

/-- Whether a statement removes a row with a verification. -/
def removesVerified (e : Happening ι) : Bool :=
  (List.range e.before.otpCodes.next).any fun k ↦
    (e.before.otpCodes.stored k).any (·.verificationKeyHash.isSome) &&
      (e.after.otpCodes.stored k).isNone

omit [DecidableEq ι] in
theorem removesVerified_of_deletesVerified {e : Happening ι} (h : DeletesVerified e) :
    removesVerified e = true := by
  obtain ⟨k, row, hrow, hkey, hgone⟩ := h
  refine List.any_eq_true.2 ⟨k, List.mem_range.2 (World.born_of_stored hrow).lt_next, ?_⟩
  simp [hrow, hkey, hgone]

/-- Threads 1 and 2 have both answered, and no row with a verification has been removed. -/
def Replayed (c : System ℕ) : Prop :=
  (c.state.log.all fun e ↦ !removesVerified e) = true ∧
    ((c.progs 1).bind Prog.outcome = some (.ok (.session ⟨0, 1, 900⟩)) ∧
      (c.progs 2).bind Prog.outcome = some (.ok (.session ⟨0, 1, 900⟩)))

instance (c : System ℕ) : Decidable (Replayed c) := inferInstanceAs (Decidable (_ ∧ _))

theorem replayed_runs : ((System.start env world replayCalls).turns (machine ℕ crypto) anything
    (steps 0 18 ++ steps 1 22 ++ steps 2 4)).any (fun c ↦ Replayed c) = true := by
  decide +kernel

/-- The system after both. -/
def replayed : System ℕ :=
  after (System.start env world replayCalls) _ _ (Option.isSome_of_any replayed_runs)

theorem replayed_tests : Replayed replayed :=
  of_decide_eq_true (Config.afterTurns_of_any replayed_runs)

theorem not_deletesVerified_of_all {c : System ℕ}
    (h : (c.state.log.all fun e ↦ !removesVerified e) = true) :
    ∀ e ∈ c.state.log, ¬ DeletesVerified e := by
  intro e he hdeletes
  have := List.all_eq_true.1 h e he
  simp [removesVerified_of_deletesVerified hdeletes] at this

theorem keysUnique_world : KeysUnique world := by
  rintro k k' row row' key (h | ⟨j, h⟩) <;> cases h

theorem consistent_world : Consistent world := ⟨nofun, nofun, nofun⟩

/-- The platform of the examples opens what it has sealed. -/
theorem openResponse_sealResponse (secret : String) (iv : ℕ) (aad : Digest × Digest)
    (response : VerifyOtpResponse) :
    crypto.openResponse secret iv aad (crypto.sealResponse secret iv aad response).1
      (crypto.sealResponse secret iv aad response).2 = some response := by
  simp [crypto]

end Demo

theorem replays_agree_replayed : AnsweredAlike Demo.env Demo.replayed.state.shared "+1" ""
    { idempotencyKey := some (Demo.key '1') } "+1" "" { idempotencyKey := some (Demo.key '1') }
    (.session ⟨0, 1, 900⟩) (.session ⟨0, 1, 900⟩) :=
  replays_agree Demo.env Demo.openResponse_sealResponse Demo.tokensSound_world (fun _ ↦ rfl)
    Demo.codesSound_world Demo.keysUnique_world Demo.consistent_world Demo.replayCalls
    (Demo.reaches_after _ _ _) (Demo.not_deletesVerified_of_all Demo.replayed_tests.1) (i := 1)
    (j := 2) rfl rfl rfl rfl rfl (Config.answered_iff.2 Demo.replayed_tests.2.1)
    (Config.answered_iff.2 Demo.replayed_tests.2.2)

end Stead
