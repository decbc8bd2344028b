import Stead.Sessions.Atomicity
import Stead.Sessions.Logout

/-!
# What a token hands on to its successor

User, family and the age of the family are the same along a chain, and a device, once it is bound,
stays (`RefreshToken.HandsOn`).

## Links

The invariant is about links (`Handed`): whatever versions of two tokens there are, committed or
pending, where one names the other as its successor it hands them on. That the token a rotation
replaces is the one it has looked up, and that the new token was made from it, is read off the
record of the call (`LinksSuccessor`); the attributes of a token do not change after its insertion,
so what was looked up is still so (`World.Marked`).

## Chains

Chains follow the order of insertion (`World.LinearFamilies`), so what a link hands on reaches every
later token of the family (`World.LinearFamilies.chainAttributes`), by induction along the chain.

## Checks

A refresh can only claim the last token of a chain, so what it checks of that token it checks of the
family (`RotatesInTime`): its age against the maximum, and the device of the call against the one
that the family is bound to. The clock has not gone back since the check, and the claim repeats the
test of the age.
-/

namespace Stead

open Concurrency

variable {ι : Type}

/-- What a token says of its family. -/
def RefreshToken.attributes (r : RefreshToken) : ℕ × ℕ × ℤ × Option Digest :=
  (r.userId, r.familyId, r.familyCreatedAt, r.deviceHash)

/-- A later token of the family: the user, the family and its beginning are the same, and so is the
device, if there was one. -/
structure RefreshToken.HandsOn (r r' : RefreshToken) : Prop where
  userId : r'.userId = r.userId
  familyId : r'.familyId = r.familyId
  familyCreatedAt : r'.familyCreatedAt = r.familyCreatedAt
  deviceHash : ∀ h, r.deviceHash = some h → r'.deviceHash = some h

namespace RefreshToken

variable {r r' r'' : RefreshToken}

/-- The same attributes are handed on. -/
theorem HandsOn.of_attributes (h : r'.attributes = r.attributes) : r.HandsOn r' := by
  simp only [attributes, Prod.mk.injEq] at h
  obtain ⟨huser, hfamily, hcreated, hdevice⟩ := h
  exact ⟨huser, hfamily, hcreated, fun _ hd ↦ hdevice.trans hd⟩

theorem HandsOn.trans (h : r.HandsOn r') (h' : r'.HandsOn r'') : r.HandsOn r'' :=
  ⟨h'.userId.trans h.userId, h'.familyId.trans h.familyId,
    h'.familyCreatedAt.trans h.familyCreatedAt, fun d hd ↦ h'.deviceHash d (h.deviceHash d hd)⟩

/-- Only the attributes matter. -/
theorem HandsOn.congr {s s' : RefreshToken} (h : r.HandsOn r') (hs : s.attributes = r.attributes)
    (hs' : s'.attributes = r'.attributes) : s.HandsOn s' :=
  ((HandsOn.of_attributes hs.symm).trans h).trans (.of_attributes hs')

end RefreshToken

/-- Of two tokens of a family the earlier hands on to the later. -/
def World.ChainAttributes (w : World ι) : Prop :=
  ∀ a b r r', a ≤ b → w.refreshTokens.stored a = some r → w.refreshTokens.stored b = some r' →
    r.familyId = r'.familyId → r.HandsOn r'

/-- All versions of a token agree on its attributes, and where one names a successor, it hands them
on to it. -/
structure Handed (w : World ι) : Prop where
  columns : ∀ k r r', w.Version k r → w.Version k r' → r'.attributes = r.attributes
  linked : ∀ a n r r', w.Version a r → r.replacedById = some n → w.Version n r' → r.HandsOn r'
  bound : ∀ a n r, w.Version a r → r.replacedById = some n → n < w.refreshTokens.next

/-- Token number `k` has been there, with these attributes. -/
structure World.Marked (w : World ι) (k : ℕ) (attributes : ℕ × ℕ × ℤ × Option Digest) : Prop where
  lt_next : k < w.refreshTokens.next
  versions : ∀ r, w.Version k r → r.attributes = attributes

/-- Where chains are linear, what the links hand on reaches every later token. -/
theorem World.LinearFamilies.chainAttributes {w : World ι} (hlinear : w.LinearFamilies)
    (hw : Handed w) : w.ChainAttributes := by
  intro a b r r' hab
  -- By induction on the distance: the successor of the earlier token is nearer to the later one.
  induction hd : b - a using Nat.strong_induction_on generalizing a r with
  | _ d ih =>
    intro ha hb hF
    rcases hab.eq_or_lt with rfl | hlt
    · cases ha.symm.trans hb
      exact .of_attributes rfl
    · obtain ⟨n, hn, hnb⟩ := hlinear.ordered a b r r' hlt ha hb hF
      obtain ⟨-, han, s, hs, hsF⟩ := hlinear.replaced a r n ha hn
      have hlink : r.HandsOn s := hw.linked a n r s (.inl ha) hn (.inl hs)
      exact hlink.trans (ih (b - n) (by omega) n s hnb rfl hs hb (hsF.trans hF))

variable [DecidableEq ι]

/-! ### One statement -/

section Statements

variable {crypto : Crypto} {i : ι} {x : Choice} {op : Op} {w t : World ι}
  {r : Except StatementError op.Ret}

/-- Where a version of a token comes from. -/
inductive VersionFrom (w : World ι) (op : Op) (k : ℕ) (r' : RefreshToken) : Prop
  | version {r : RefreshToken} (hr : w.Version k r) (h : r'.attributes = r.attributes)
      (hlink : r'.replacedById = r.replacedById ∨
        ∃ n, op = .refreshToken (.link k n) ∧ r'.replacedById = some n)
  | create {data : NewRefreshToken} (hop : op = .refreshToken (.create data))
      (hk : k = w.refreshTokens.next) (h : r' = data.row)

omit [DecidableEq ι] in
/-- A version that was there before. -/
theorem VersionFrom.same {k : ℕ} {r' : RefreshToken} (hr : w.Version k r') :
    VersionFrom w op k r' :=
  .version hr rfl (.inl rfl)

/-- **What a statement makes of the versions of a token.** -/
theorem exec_version (h : exec crypto i x op w = some (r, t)) {k : ℕ} {r' : RefreshToken}
    (hr' : t.Version k r') : VersionFrom w op k r' := by
  cases exec_refreshTokens h k with
  | same h =>
    refine .same ?_
    rwa [World.Version, Table.stored, Table.pending, h] at hr'
  | @edit st r₀ r₁ hop hv he hl h =>
    have hold : w.Version k r₀ := by
      cases hw : st.writer i with
      | none => exact .inl ((Cell.view_none _).symm.trans (hw ▸ hv))
      | some j =>
        rw [hw] at hv
        exact World.version_of_tokens hv
    have hnew : VersionFrom w op k r₁ := by
      subst hop
      -- None of the edits touches what a chain hands on; only a link names a successor.
      cases he with
      | expire => exact .version hold rfl (.inl rfl)
      | claim => exact .version hold rfl (.inl rfl)
      | link k n => exact .version hold rfl (.inr ⟨n, rfl, rfl⟩)
      | revoke => exact .version hold rfl (.inl rfl)
    rw [World.Version, Table.stored, Table.pending, h] at hr'
    -- The other version of the cell, committed or draft, is left.
    cases hw : st.writer i with
    | none =>
      rw [hw] at hr'
      rcases hr' with hr' | hr'
      · cases hr'
        exact hnew
      · exact .same (.inr hr')
    | some j =>
      rw [hw] at hr'
      rcases hr' with hr' | ⟨l, hr'⟩
      · exact .same (.inl hr')
      · cases hr'
        exact hnew
  | create hop hk _ _ _ h =>
    rw [World.Version, Table.stored, Table.pending, h] at hr'
    rcases hr' with hr' | ⟨j, hr'⟩
    · cases hr'
    · cases hr'
      exact .create hop hk rfl
  | commit _ h =>
    refine .same (World.version_of_commit (w := w) (i := i) ?_)
    rwa [World.Version, Table.stored, Table.pending, h] at hr'
  | rollback _ h =>
    refine .same (World.version_of_rollback (w := w) (i := i) ?_)
    rwa [World.Version, Table.stored, Table.pending, h] at hr'

omit [DecidableEq ι] in
/-- A version is of a row that is there. -/
theorem World.Version.lt_next {k : ℕ} {r : RefreshToken} (h : w.Version k r) :
    k < w.refreshTokens.next := by
  refine Table.lt_next_of_cell fun hempty ↦ ?_
  rcases h with h | ⟨j, h⟩
  · rw [Table.stored, hempty] at h
    cases h
  · rw [Table.pending, hempty] at h
    cases h

/-- What has been there stays, with its attributes. -/
theorem World.Marked.after {k : ℕ} {attributes : ℕ × ℕ × ℤ × Option Digest}
    (hk : w.Marked k attributes) (h : exec crypto i x op w = some (r, t)) :
    t.Marked k attributes := by
  refine ⟨hk.lt_next.trans_le (exec_refreshTokens_next h), fun r' hr' ↦ ?_⟩
  cases exec_version h hr' with
  | version hr hattr => exact hattr.trans (hk.versions _ hr)
  | create _ hnew => exact absurd hnew hk.lt_next.ne

/-- What a lookup finds has been there. -/
theorem Handed.marked_lookup {hash : Digest} {existing : Keyed RefreshToken} {phone : String}
    (hw : Handed w)
    (h : exec crypto i x (.refreshToken (.findByHash hash)) w =
      some (.ok (some (existing, phone)), t)) :
    t.Marked existing.id existing.row.attributes := by
  obtain ⟨-, ⟨hnone, -⟩ | ⟨found, phone', hfound, hrow, -⟩⟩ := findByHash_cases (s := ⟨w, []⟩) h
  · cases hnone
  · cases hfound
    have hversion : w.Version existing.id existing.row := .inl hrow
    have hmarked : w.Marked existing.id existing.row.attributes :=
      ⟨hversion.lt_next, fun r' hr' ↦ hw.columns _ _ _ hversion hr'⟩
    exact hmarked.after h

/-- A new token has been there. -/
theorem marked_create {data : NewRefreshToken} {n : ℕ}
    (h : exec crypto i x (.refreshToken (.create data)) w = some (.ok n, t)) :
    t.Marked n data.row.attributes := by
  obtain ⟨hn, htoken, -⟩ := tokens_create (s := ⟨w, []⟩) h
  refine ⟨(World.version_of_tokens htoken).lt_next, fun r' hr' ↦ ?_⟩
  cases exec_version h hr' with
  | version hr _ => exact absurd hn hr.lt_next.ne
  | create hop _ hnew =>
    cases hop
    exact congrArg _ hnew

/-- **A statement** keeps what links hand on, if what it links does. -/
theorem Handed.after (hw : Handed w)
    (hlinks : ∀ k n, op = .refreshToken (.link k n) → ∃ r r' : RefreshToken,
      w.Marked k r.attributes ∧ w.Marked n r'.attributes ∧ r.HandsOn r')
    (h : exec crypto i x op w = some (r, t)) : Handed t := by
  have hnext := exec_refreshTokens_next h
  refine ⟨fun k r₁ r₂ h₁ h₂ ↦ ?_, fun a n r₁ r₂ h₁ hn h₂ ↦ ?_, fun a n r₁ h₁ hn ↦ ?_⟩
  · cases exec_version h h₁ with
    | version hr₁ hattr₁ =>
      have hmarked : w.Marked k r₁.attributes :=
        ⟨hr₁.lt_next, fun r hr ↦ (hw.columns k _ r hr₁ hr).trans hattr₁.symm⟩
      exact (hmarked.after h).versions r₂ h₂
    | create hop hk hnew₁ =>
      cases exec_version h h₂ with
      | version hr₂ => exact absurd hk hr₂.lt_next.ne
      | create hop' _ hnew₂ =>
        cases hop.symm.trans hop'
        exact congrArg _ (hnew₂.trans hnew₁.symm)
  · cases exec_version h h₁ with
    | @version s₁ hr₁ hattr₁ hlink =>
      rcases hlink with hsame | ⟨n', hop, hn'⟩
      · have hs₁ : s₁.replacedById = some n := hsame ▸ hn
        cases exec_version h h₂ with
        | version hr₂ hattr₂ => exact (hw.linked a n _ _ hr₁ hs₁ hr₂).congr hattr₁ hattr₂
        | create _ hk => exact absurd hk (hw.bound a n _ hr₁ hs₁).ne
      · cases hn'.symm.trans hn
        obtain ⟨p, p', hp, hp', hhands⟩ := hlinks a n hop
        exact hhands.congr ((hp.after h).versions r₁ h₁) ((hp'.after h).versions r₂ h₂)
    | create _ _ hnew =>
      rw [hnew] at hn
      cases hn
  · cases exec_version h h₁ with
    | @version s₁ hr₁ _ hlink =>
      rcases hlink with hsame | ⟨n', hop, hn'⟩
      · exact (hw.bound a n _ hr₁ (hsame ▸ hn)).trans_le hnext
      · cases hn'.symm.trans hn
        obtain ⟨_, _, _, hp', _⟩ := hlinks a n hop
        exact hp'.lt_next.trans_le hnext
    | create _ _ hnew =>
      rw [hnew] at hn
      cases hn

/-- A rollback takes versions away. -/
theorem Handed.rollback (hw : Handed w) : Handed (w.rollback i) :=
  ⟨fun _ _ _ h h' ↦ hw.columns _ _ _ (World.version_of_rollback h) (World.version_of_rollback h'),
    fun _ _ _ _ h hn h' ↦
      hw.linked _ _ _ _ (World.version_of_rollback h) hn (World.version_of_rollback h'),
    fun _ _ _ h hn ↦ hw.bound _ _ _ (World.version_of_rollback h) hn⟩

/-- A rollback changes no attributes. -/
theorem World.Marked.rollback {k : ℕ} {attributes : ℕ × ℕ × ℤ × Option Digest}
    (hk : w.Marked k attributes) : (w.rollback i).Marked k attributes :=
  ⟨hk.lt_next, fun r hr ↦ hk.versions r (World.version_of_rollback hr)⟩

end Statements

/-! ### What the record of a call says -/

/-- An insertion of a token. -/
def insertedToken (data : NewRefreshToken) (n : ℕ) : Exchange Statements :=
  ⟨.refreshToken (.create data), .ok n⟩

/-- A claim of a token, in time for the age limit. -/
def claimed (k : ℕ) (now : ℤ) (maxAge : ℕ) : Exchange Statements :=
  ⟨.refreshToken (.claim k now (now - (maxAge : ℤ))), .ok true⟩

/-- The token that is replaced has been looked up, and the one that replaces it has been inserted,
and continues what was looked up. -/
def LinksSuccessor (read : List (Exchange Statements)) (op : Op) : Prop :=
  ∀ k n, op = .refreshToken (.link k n) → ∃ hash existing phone data,
    lookup hash existing phone ∈ read ∧ existing.id = k ∧ insertedToken data n ∈ read ∧
      existing.row.HandsOn data.row

/-- The token was looked up, the device may use it, and it was claimed right after the clock was
read. -/
inductive Timely (env : Env) (hash : Digest) (deviceId : Option String)
    (read : List (Exchange Statements)) : Prop
  | intro {before : List (Exchange Statements)} {existing : Keyed RefreshToken} {phone : String}
      {maxAge : ℕ} {now : ℤ} {deviceHash : Option Digest}
      (hlookup : lookup hash existing phone ∈ before)
      (hclaim : before ++ [reading now, claimed existing.id now maxAge] <+: read)
      (hmaxAge : parseDurationToMs env.config.refreshFamilyMaxAge = .ok maxAge)
      (hdevice : hashDeviceIdentifier env deviceId = .ok deviceHash)
      (hmay : deviceMayUse deviceHash existing.row = true)

/-- What was checked was checked. -/
theorem Timely.append {env : Env} {hash : Digest} {deviceId : Option String}
    {read read' : List (Exchange Statements)} (h : Timely env hash deviceId read)
    (hread : read <+: read') : Timely env hash deviceId read' := by
  obtain ⟨hlookup, hclaim, hmaxAge, hdevice, hmay⟩ := h
  exact ⟨hlookup, hclaim.trans hread, hmaxAge, hdevice, hmay⟩

/-- A token for a device that may use the old one continues it. -/
theorem handsOn_of_mayUse {existing : RefreshToken} {deviceHash : Option Digest}
    (hmay : deviceMayUse deviceHash existing = true) {data : NewRefreshToken}
    (hu : data.userId = existing.userId) (hF : data.familyId = existing.familyId)
    (hcreated : data.familyCreatedAt = existing.familyCreatedAt)
    (hdevice : data.deviceHash = deviceHash.orElse fun _ ↦ existing.deviceHash) :
    existing.HandsOn data.row := by
  refine ⟨hu, hF, hcreated, fun h hh ↦ ?_⟩
  have hsame : deviceHash = some h := by simpa [deviceMayUse, hh] using hmay
  show data.deviceHash = some h
  rw [hdevice, hsame]
  rfl

section Records

variable (env : Env) {read : List (Exchange Statements)}

/-- Programs that replace no token. -/
theorem keeps_of_opens {α : Type} {p : Call α} {C : Op → Prop} (hp : p.All C)
    (hC : ∀ op, C op → ∀ k n, op ≠ .refreshToken (.link k n)) :
    p.Keeps LinksSuccessor (fun read' _ ↦ read <+: read') (fun read' _ ↦ read <+: read') read :=
  hp.keeps fun _ op _ hop k n h ↦ absurd h (hC op hop k n)

theorem createRefreshTokenRow_keeps (userId familyId : ℕ) (deviceHash : Option Digest)
    (familyCreatedAt : ℤ) (rawToken : ℕ) :
    (createRefreshTokenRow env userId familyId deviceHash familyCreatedAt rawToken).Keeps
      LinksSuccessor (fun read' n ↦ read <+: read' ∧ ∃ data, insertedToken data n ∈ read' ∧
        data.userId = userId ∧ data.familyId = familyId ∧
          data.familyCreatedAt = familyCreatedAt ∧ data.deviceHash = deviceHash)
      (fun _ _ ↦ True) read := by
  refine keeps_run_bind (fun _ _ ↦ nofun) (fun now ↦ ?_) fun _ ↦ trivial
  refine keeps_lift_bind (fun lifetime _ ↦ ?_) fun _ ↦ trivial
  refine ⟨fun _ _ ↦ nofun, fun r ↦ ?_⟩
  cases r with
  | ok n =>
    refine ⟨?_, _, List.mem_append_right _ (List.mem_singleton_self _), rfl, rfl, rfl, rfl⟩
    rw [List.append_assoc]
    exact List.prefix_append _ _
  | error e => trivial

theorem transaction_keeps {α : Type} {body : Call α} {Q : List (Exchange Statements) → α → Prop}
    (hbody : body.Keeps LinksSuccessor Q (fun _ _ ↦ True) read)
    (hQ : ∀ read read' a, read <+: read' → Q read a → Q read' a) :
    (transaction body).Keeps LinksSuccessor Q (fun _ _ ↦ True) read := by
  refine .bind (.tryCatch (F := fun _ _ ↦ True) hbody fun _ e _ ↦ ?_) fun read' a ha ↦ ?_
  · exact keeps_run_bind (fun _ _ ↦ nofun) (fun _ ↦ trivial) fun _ ↦ trivial
  · exact keeps_run_bind (fun _ _ ↦ nofun) (fun _ ↦ hQ _ _ a (List.prefix_append _ _) ha)
      fun _ ↦ trivial

omit env in
/-- A revocation links nothing. -/
theorem revoking_keeps {α : Type} {e : Failure} {Q : List (Exchange Statements) → α → Prop}
    (familyId userId : ℕ) : (do
      let _ ← revokeRefreshFamily familyId userId
      throw e : Call α).Keeps LinksSuccessor Q (fun _ _ ↦ True) read := by
  have hall : (revokeRefreshFamily familyId userId).All fun op : Op ↦
      ∀ k n, op ≠ .refreshToken (.link k n) :=
    revokeRefreshTokens_all_of (fun op hop k n h ↦ by subst h; cases hop) (fun _ _ ↦ nofun)
      (fun _ _ ↦ nofun) _ _
  exact hall.keeps_bind (fun _ op _ hop k n h ↦ absurd h (hop k n)) (fun _ _ _ ↦ trivial)
    fun _ _ _ ↦ trivial

variable {hash : Digest} {existing : Keyed RefreshToken} {phone : String} {maxAge : ℕ}
  {deviceId : Option String} {deviceHash : Option Digest}

/-- **The transaction of a rotation** replaces the token by one that continues it, and claims it in
time. -/
theorem rotateBody_keeps (hlookup : lookup hash existing phone ∈ read)
    (hmaxAge : parseDurationToMs env.config.refreshFamilyMaxAge = .ok maxAge)
    (hdevice : hashDeviceIdentifier env deviceId = .ok deviceHash)
    (hmay : deviceMayUse deviceHash existing.row = true) :
    (rotateBody env existing phone maxAge deviceHash).Keeps LinksSuccessor
      (fun read' a ↦ a.isSome → Timely env hash deviceId read') (fun _ _ ↦ True) read := by
  refine keeps_run_bind (fun _ _ ↦ nofun) (fun _ ↦ ?_) fun _ ↦ trivial
  refine keeps_run_bind (fun _ _ ↦ nofun) (fun now ↦ ?_) fun _ ↦ trivial
  refine keeps_run_bind (fun _ _ ↦ nofun) (fun hit ↦ ?_) fun _ ↦ trivial
  cases hit with
  | false => exact nofun
  | true =>
    set before := read ++ [⟨.lockRefreshUser existing.row.userId, .ok ()⟩] with hbefore
    have hlookup' : lookup hash existing phone ∈ before := List.mem_append_left _ hlookup
    set read' := before ++ [reading now] ++ [claimed existing.id now maxAge] with hread'
    have hclaim : before ++ [reading now, claimed existing.id now maxAge] <+: read' := by
      simp [hread']
    have htimely : Timely env hash deviceId read' := ⟨hlookup', hclaim, hmaxAge, hdevice, hmay⟩
    have hseen : lookup hash existing phone ∈ read' := by
      rw [hread', List.append_assoc]
      exact List.mem_append_left _ hlookup'
    refine keeps_run_bind (fun _ _ ↦ nofun) (fun rawToken ↦ ?_) fun _ ↦ trivial
    refine .bind (createRefreshTokenRow_keeps env _ _ _ _ _) fun read'' created hcreated ↦ ?_
    obtain ⟨hext, data, hinserted, hu, hF, hage, hd⟩ := hcreated
    have hread'' : read' <+: read'' := (List.prefix_append _ _).trans hext
    refine keeps_run_bind (fun k n hop ↦ ?_) (fun _ ↦ ?_) fun _ ↦ trivial
    · cases hop
      exact ⟨hash, existing, phone, data, hread''.subset hseen, rfl, hinserted,
        handsOn_of_mayUse hmay hu hF hage hd⟩
    · have hafter := htimely.append hread''
      refine (signAccessToken_all env _ _).keeps_bind (fun _ op _ hop k n h ↦ ?_)
        (fun _ token htoken ↦ keeps_lift_bind (fun expiresIn _ ↦ ?_) fun _ ↦ trivial)
        fun _ _ _ ↦ trivial
      · subst h
        cases hop
      · exact fun _ ↦ hafter.append ((List.prefix_append _ _).trans htoken)

/-- **A rotation** links the token it has looked up to the one it has made of it. -/
theorem rotate_keeps (hlookup : lookup hash existing phone ∈ read)
    (hmaxAge : parseDurationToMs env.config.refreshFamilyMaxAge = .ok maxAge)
    (hdevice : hashDeviceIdentifier env deviceId = .ok deviceHash)
    (hmay : deviceMayUse deviceHash existing.row = true) :
    (rotate env hash existing phone maxAge deviceHash).Keeps LinksSuccessor
      (fun read' _ ↦ Timely env hash deviceId read') (fun _ _ ↦ True) read := by
  refine .bind (transaction_keeps (rotateBody_keeps env hlookup hmaxAge hdevice hmay)
    fun _ _ _ hext h ha ↦ (h ha).append hext) fun read' a ha ↦ ?_
  cases a with
  | some session => exact ha rfl
  | none =>
    refine keeps_run_bind (fun _ _ ↦ nofun) (fun current ↦ ?_) fun _ ↦ trivial
    match current with
    | none => trivial
    | some (current, _) => exact .ite (fun _ ↦ revoking_keeps _ _) fun _ ↦ trivial

/-- **A refresh** that is answered was in time and from a device that may use the token. -/
theorem refreshSession_keeps (refreshToken : ℕ) (context : AuthRequestContext) :
    (refreshSession env refreshToken context).Keeps LinksSuccessor
      (fun read' _ ↦ Timely env (env.crypto.hashRefreshToken refreshToken) context.deviceId read')
      (fun _ _ ↦ True) read := by
  refine keeps_run_bind (fun _ _ ↦ nofun) (fun found ↦ ?_) fun _ ↦ trivial
  match found with
  | none => trivial
  | some (existing, phone) =>
    refine .ite (fun _ ↦ revoking_keeps _ _) fun _ ↦ ?_
    refine keeps_run_bind (fun _ _ ↦ nofun) (fun now ↦ .ite (fun _ ↦ ?_) fun _ ↦ ?_)
      fun _ ↦ trivial
    · refine keeps_run_bind (fun _ _ ↦ nofun) (fun revokedAt ↦ ?_) fun _ ↦ trivial
      exact keeps_run_bind (fun _ _ ↦ nofun) (fun _ ↦ trivial) fun _ ↦ trivial
    · refine keeps_lift_bind (fun maxAge hmaxAge ↦ ?_) fun _ ↦ trivial
      refine keeps_run_bind (fun _ _ ↦ nofun) (fun now ↦
        .ite (fun _ ↦ revoking_keeps _ _) fun _ ↦ ?_) fun _ ↦ trivial
      refine keeps_lift_bind (fun deviceHash hdevice ↦ .ite (fun hmay ↦ ?_) fun _ ↦ trivial)
        fun _ ↦ trivial
      refine rotate_keeps env ?_ hmaxAge hdevice hmay
      exact List.mem_append_left _ (List.mem_append_left _ (List.mem_append_right _
        (List.mem_singleton_self _)))

/-- What a call's answer tells: a refresh was in time. -/
def ApiCall.Timely (call : ApiCall) (read : List (Exchange Statements)) : Prop :=
  ∀ refreshToken context, call = .refreshSession refreshToken context →
    Stead.Timely env (env.crypto.hashRefreshToken refreshToken) context.deviceId read

/-- **Every call** links tokens in this way only. -/
theorem program_linksSuccessor (call : ApiCall) : (call.program env).Keeps LinksSuccessor
    (fun read' _ ↦ call.Timely env read') (fun _ _ ↦ True) read := by
  have hreply : ∀ {α : Type} {p : Call α} {C : Op → Prop} (g : α → ApiResponse),
      (∀ refreshToken context, call ≠ .refreshSession refreshToken context) → p.All C →
      (∀ op, C op → ∀ k n, op ≠ .refreshToken (.link k n)) →
        (g <$> p).Keeps LinksSuccessor (fun read' _ ↦ call.Timely env read') (fun _ _ ↦ True)
          read := fun g hcall hp hC ↦
    .bind ((keeps_of_opens hp hC).mono (fun _ _ h ↦ h) fun _ _ _ ↦ trivial)
      fun _ _ _ _ _ h ↦ absurd h (hcall _ _)
  have hopens : ∀ op : Op, op.Opens → ∀ k n, op ≠ .refreshToken (.link k n) := by
    rintro _ h k n rfl
    cases h
  have hrequests : ∀ op : Op, op.Requests → ∀ k n, op ≠ .refreshToken (.link k n) := by
    rintro _ h k n rfl
    cases h
  have hconsumes : ∀ op : Op, op.Consumes → ∀ k n, op ≠ .refreshToken (.link k n) := by
    rintro _ h k n rfl
    cases h
  have hguesses : ∀ op : Op, op.Guesses → ∀ k n, op ≠ .refreshToken (.link k n) := by
    rintro _ h k n rfl
    cases h
  cases call with
  | requestOtp phone countryIso context =>
    exact hreply _ (fun _ _ ↦ nofun) (requestOtp_all env _ _ _) fun op h ↦ hrequests op h.requests
  | verifyOtp phone countryIso otp context =>
    exact hreply _ (fun _ _ ↦ nofun) (verifyOtp_all_of env hopens (fun _ _ ↦ nofun)
      (fun _ _ ↦ nofun) hguesses (fun _ _ _ _ ↦ nofun) _ _ _ _) fun _ h ↦ h
  | refreshSession refreshToken context =>
    refine .bind (refreshSession_keeps env refreshToken context) fun read' _ htimely _ _ h ↦ ?_
    cases h
    exact htimely
  | revokeSession input =>
    exact hreply _ (fun _ _ ↦ nofun) (revokeSession_all_of env hopens (fun _ _ ↦ nofun)
      (fun _ _ ↦ nofun) input) fun _ h ↦ h
  | enqueueReadinessAlert input =>
    exact hreply _ (fun _ _ ↦ nofun) (enqueueReadinessAlert_all env input) fun op h ↦
      hrequests op (.of_replays h)
  | redactTerminalPayloads =>
    exact hreply _ (fun _ _ ↦ nofun) redactTerminalPayloads_all fun op h ↦ hconsumes op h.consumes
  | tick => exact hreply _ (fun _ _ ↦ nofun) (tick_all env) fun op h ↦ hconsumes op h.consumes

end Records

/-! ### Along every run -/

/-- Links hand on, and what the threads have looked up or inserted has been there. -/
structure Attributed (s : History ι) : Prop where
  handed : Handed s.shared
  seen : ∀ i hash existing phone, lookup hash existing phone ∈ s.trace i →
    s.shared.Marked existing.id existing.row.attributes
  made : ∀ i data n, insertedToken data n ∈ s.trace i → s.shared.Marked n data.row.attributes

section Runs

variable {crypto : Crypto} {i : ι} {s : History ι}

/-- **A statement**, in the light of earlier answers. -/
theorem Attributed.after (hs : Attributed s) {x : Choice} {op : Op}
    {r : Except StatementError op.Ret} {t : World ι} (hop : LinksSuccessor (s.trace i) op)
    (h : exec crypto i x op s.shared = some (r, t)) : Attributed (s.after i op r t) := by
  refine ⟨hs.handed.after (fun k n hlink ↦ ?_) h, fun j hash existing phone he ↦ ?_,
    fun j data n he ↦ ?_⟩
  · obtain ⟨hash, existing, phone, data, hlookup, rfl, hinserted, hhands⟩ := hop k n hlink
    exact ⟨_, _, hs.seen i hash existing phone hlookup, hs.made i data n hinserted, hhands⟩
  · rcases State.mem_trace_after he with he | ⟨-, he⟩
    · exact (hs.seen j hash existing phone he).after h
    · cases he
      exact hs.handed.marked_lookup h
  · rcases State.mem_trace_after he with he | ⟨-, he⟩
    · exact (hs.made j data n he).after h
    · cases he
      exact marked_create h

/-- A rollback keeps the invariant. -/
theorem Attributed.rollback (hs : Attributed s) (i : ι) :
    Attributed (s.setShared (s.shared.rollback i)) :=
  ⟨hs.handed.rollback, fun j hash existing phone he ↦ (hs.seen j hash existing phone he).rollback,
    fun j data n he ↦ (hs.made j data n he).rollback⟩

omit [DecidableEq ι] in
/-- Where nothing is pending, the chains are what matters. -/
theorem World.ChainAttributes.handed {w : World ι} (hchains : w.ChainAttributes)
    (hw : TokensSound w) (hlocks : ∀ u, w.advisoryLocks u = none) : Handed w := by
  have hstored : ∀ {k r}, w.Version k r → w.refreshTokens.stored k = some r := by
    rintro k r (hr | ⟨j, hr⟩)
    · exact hr
    · cases (hlocks _).symm.trans (hw.locked k j r hr)
  have hlink : ∀ {a n r}, w.Version a r → r.replacedById = some n → a < n ∧
      ∃ s, w.refreshTokens.stored n = some s ∧ s.familyId = r.familyId := fun hr hn ↦
    (hw.linearFamilies.replaced _ _ _ (hstored hr) hn).2
  refine ⟨fun k r r' hr hr' ↦ ?_, fun a n r r' hr hn hr' ↦ ?_, fun a n r hr hn ↦ ?_⟩
  · cases (hstored hr).symm.trans (hstored hr')
    rfl
  · obtain ⟨hlt, s, hs, hF⟩ := hlink hr hn
    cases hs.symm.trans (hstored hr')
    exact hchains a n r r' hlt.le (hstored hr) hs hF.symm
  · obtain ⟨-, s, hs, -⟩ := hlink hr hn
    exact World.Version.lt_next (.inl hs)

/-- **Every run** keeps the attributes. -/
theorem attributed_run (env : Env) {w : World ι} (hw : Handed w) (calls : ι → ApiCall)
    {c : System ι} (hc : System.Reaches env .all (System.start env w calls) c) :
    Attributed c.state ∧ c.Keeps (fun _ ↦ LinksSuccessor)
      (fun i read _ ↦ (calls i).Timely env read) fun _ _ _ ↦ True :=
  hc.invariant_keeps (Config.keeps_start fun i ↦ program_linksSuccessor env (calls i))
    ⟨hw, fun _ _ _ _ he ↦ absurd he List.not_mem_nil, fun _ _ _ he ↦ absurd he List.not_mem_nil⟩
    (fun _ _ _ _ _ _ hs hop _ hx ↦ hs.after hop hx) fun _ i hs _ ↦ hs.rollback i

end Runs

/-! ### Refreshing in time -/

/-- The clock is read in `d`, and in `e` token `k` is claimed, which has the hash. The token is live
and its family not too old; and whatever device a token of the family is bound to, it is the device
of the call. -/
structure RotatesInTime (env : Env) (hash : Digest) (deviceId : Option String) (maxAge k : ℕ)
    (row : RefreshToken) (d e : Happening ι) : Prop where
  clock : (⟨d.op, d.resp⟩ : Exchange Statements) = reading d.after.now
  claim : (⟨e.op, e.resp⟩ : Exchange Statements) = claimed k d.after.now maxAge
  stored : e.before.refreshTokens.stored k = some row
  tokenHash : row.tokenHash = hash
  live : row.revokedAt = none
  age : d.after.now < row.familyCreatedAt + (maxAge : ℤ)
  device : ∀ l r h, e.before.refreshTokens.stored l = some r → r.familyId = row.familyId →
    r.deviceHash = some h → hashDeviceIdentifier env deviceId = .ok (some h)

section InTime

variable {env : Env} {w : World ι} {calls : ι → ApiCall} {c : System ι}

omit [DecidableEq ι] in
/-- A token that is live is the last of its family. -/
theorem World.LinearFamilies.le_live (hw : w.LinearFamilies) {k l : ℕ} {row r : RefreshToken}
    (hk : w.refreshTokens.stored k = some row) (hlive : row.revokedAt = none)
    (hl : w.refreshTokens.stored l = some r) (hF : r.familyId = row.familyId) : l ≤ k := by
  by_contra hlt
  obtain ⟨n, hn, -⟩ := hw.ordered k l row r (by omega) hk hl hF.symm
  have hrevoked := (hw.replaced k row n hk hn).1
  simp [hlive] at hrevoked

/-- A reading of the clock. -/
theorem clock_of_reading {crypto : Crypto} {d : Happening ι} {x : Choice} {now : ℤ}
    (hx : exec crypto d.thread x d.op d.before = some (d.resp, d.after))
    (hd : (⟨d.op, d.resp⟩ : Exchange Statements) = reading now) : d.after.now = now := by
  have hnow : ∀ {i : ι} {w t : World ι}, exec crypto i x (.host .now) w = some (.ok now, t) →
      t.now = now := by
    intro i w t h
    cases perform_of_exec_ok h
    rfl
  obtain ⟨j, before, op, resp, after⟩ := d
  cases hd
  exact hnow hx

/-- What a lookup has found. -/
theorem stored_of_lookup {crypto : Crypto} {f : Happening ι} {x : Choice} {hash : Digest}
    {existing : Keyed RefreshToken} {phone : String}
    (hx : exec crypto f.thread x f.op f.before = some (f.resp, f.after))
    (hf : (⟨f.op, f.resp⟩ : Exchange Statements) = lookup hash existing phone) :
    f.before.refreshTokens.stored existing.id = some existing.row ∧
      existing.row.tokenHash = hash := by
  obtain ⟨j, before, op, resp, after⟩ := f
  cases hf
  obtain ⟨-, ⟨hnone, -⟩ | ⟨found, phone', hfound, hrow⟩⟩ := findByHash_cases (s := ⟨before, []⟩) hx
  · cases hnone
  · cases hfound
    exact hrow

/-- **A claim** of a token that was looked up takes it in time, for the device it is bound to. -/
theorem rotatesInTime_of_exec {d e : Happening ι} {existing : Keyed RefreshToken} {x : Choice}
    {maxAge : ℕ} {deviceId : Option String} {deviceHash : Option Digest}
    (hsound : TokensSound e.before) (hhanded : Handed e.before)
    (hmarked : e.before.Marked existing.id existing.row.attributes)
    (hsince : ∃ r, e.before.refreshTokens.stored existing.id = some r ∧ existing.row.Leads r)
    (hclock : (⟨d.op, d.resp⟩ : Exchange Statements) = reading d.after.now)
    (hclaim : (⟨e.op, e.resp⟩ : Exchange Statements) = claimed existing.id d.after.now maxAge)
    (hx : exec env.crypto e.thread x e.op e.before = some (e.resp, e.after))
    (hdevice : hashDeviceIdentifier env deviceId = .ok deviceHash)
    (hmay : deviceMayUse deviceHash existing.row = true) :
    ∃ row, RotatesInTime env existing.row.tokenHash deviceId maxAge existing.id row d e := by
  obtain ⟨row, hrow, hleads⟩ := hsince
  have hsame := hmarked.versions row (.inl hrow)
  obtain ⟨j, before, op, resp, after⟩ := e
  cases hclaim
  obtain ⟨p, hp, hc, -⟩ := claim_found (s := ⟨before, []⟩) hx
  obtain ⟨p', hp', hle⟩ := hsound.tokens_of_stored j hrow
  cases hp.symm.trans hp'
  simp only [RefreshToken.claimable, Bool.and_eq_true, Option.isNone_iff_eq_none,
    decide_eq_true_eq] at hc
  have hlive : row.revokedAt = none := by
    by_contra hne
    have := hle.revoked (Option.isSome_iff_ne_none.2 hne)
    simp [hc.1.1] at this
  have hage : p.familyCreatedAt = row.familyCreatedAt :=
    (RefreshToken.HandsOn.of_attributes ((hmarked.versions p (World.version_of_tokens hp)).trans
      hsame.symm)).familyCreatedAt
  refine ⟨row, hclock, rfl, hrow, hleads.tokenHash, hlive, ?_, fun l r h hl hF hh ↦ ?_⟩
  · have := hc.2
    omega
  · -- The token that is claimed is the last of its family, so it has the device.
    have hlast := hsound.linearFamilies.le_live hrow hlive hl hF
    have hhands := hsound.linearFamilies.chainAttributes hhanded l existing.id r row hlast hl hrow hF
    have hbound : existing.row.deviceHash = some h :=
      (congrArg (fun a ↦ a.2.2.2) hsame.symm).trans (hhands.deviceHash h hh)
    have hcall : deviceHash = some h := by simpa [deviceMayUse, hbound] using hmay
    exact hcall ▸ hdevice

/-- **Family attributes along a chain.** From a sound database without open transactions, in every
state that is reached: the tokens of each family form a chain, and along the chain the user, the
family and the time it began are the same, and a device, once there, stays. And a refresh that was
answered claimed the token it was given at a moment when the family was younger than the maximum
age, and from the device of the family, if it had one. -/
theorem chain_attributes (env : Env) {w : World ι} (hw : TokensSound w)
    (hlocks : ∀ u, w.advisoryLocks u = none) (hchains : w.ChainAttributes) (calls : ι → ApiCall)
    {c : System ι} (hc : System.Reaches env .all (System.start env w calls) c) :
    c.state.shared.LinearFamilies ∧ c.state.shared.ChainAttributes ∧
      ∀ i refreshToken context a, calls i = .refreshSession refreshToken context →
        c.Answered i (.ok a) → ∃ maxAge k row d e,
          parseDurationToMs env.config.refreshFamilyMaxAge = .ok maxAge ∧
            [d, e] <:+: c.state.history i ∧
              RotatesInTime env (env.crypto.hashRefreshToken refreshToken) context.deviceId maxAge
                k row d e := by
  have hsafe := sessions_safe env hw hlocks calls
  have hlinear := ((hsafe.run hc).1.1).linearFamilies
  obtain ⟨hattributed, hkeeps⟩ := attributed_run env (hchains.handed hw hlocks) calls hc
  refine ⟨hlinear, hlinear.chainAttributes hattributed.handed, fun i refreshToken context a hi ha ↦ ?_⟩
  obtain @⟨before, existing, phone, maxAge, now, deviceHash, hlookup, hclaim, hmaxAge, hdevice, hmay⟩ :=
    hkeeps.answer ha refreshToken context hi
  -- The events of the lookup, of the reading of the clock and of the claim.
  obtain ⟨rest, hrest⟩ := hclaim
  obtain ⟨events, late, hevents, hprefix, -⟩ := List.map_eq_append_iff.1 hrest.symm
  obtain ⟨early, pair, rfl, hearly, hpair⟩ := List.map_eq_append_iff.1 hprefix
  obtain ⟨d, pair, rfl, hd, hpair⟩ := List.map_eq_cons_iff.1 hpair
  obtain ⟨e, pair, rfl, he, hpair⟩ := List.map_eq_cons_iff.1 hpair
  obtain rfl := List.map_eq_nil_iff.1 hpair
  obtain ⟨f, hf, hlookup⟩ := List.mem_map.1 (hearly ▸ hlookup)
  obtain ⟨first, second, rfl⟩ := List.append_of_mem hf
  have hd' : c.state.history i = (first ++ f :: second) ++ d :: ([e] ++ late) := by
    rw [hevents]
    simp
  have he' : c.state.history i = ((first ++ f :: second) ++ [d]) ++ e :: late := by
    rw [hevents]
    simp
  obtain ⟨_, _, _, hmd, -⟩ := hc.moment_history rfl hd'
  obtain ⟨_, e₁, _, hme, hbefore⟩ := hc.moment_history rfl he'
  obtain ⟨_, f₁, _, hmf, -⟩ := hme.before.moment_history rfl
    (hbefore.trans (by simp) : e₁.state.history i = first ++ f :: (second ++ [d]))
  obtain ⟨xd, hxd⟩ := hmd.exec
  obtain ⟨xe, hxe⟩ := hme.exec
  obtain ⟨xf, hxf⟩ := hmf.exec
  obtain ⟨hstored, hhash⟩ := stored_of_lookup hxf hlookup
  obtain rfl := clock_of_reading hxd hd
  -- What was looked up has been there, and still is when it is claimed.
  have hsince := (hsafe.run hmf.before).lasting (since_lasting existing.id existing.row) hmf.run
    ⟨existing.row, hmf.shared.symm ▸ hstored, .refl _⟩
  have hattributed₁ := (attributed_run env (hchains.handed hw hlocks) calls hme.before).1
  have hmarked := hattributed₁.seen i _ existing phone (by
    rw [State.trace, hbefore]
    exact List.mem_map.2 ⟨f, by simp, hlookup⟩)
  have hsound := (hsafe.run hme.before).1.1
  rw [Since, hme.shared] at hsince
  rw [hme.shared] at hmarked hsound
  obtain ⟨row, hrotates⟩ := rotatesInTime_of_exec hsound (hme.shared ▸ hattributed₁.handed) hmarked
    hsince hd he hxe hdevice hmay
  refine ⟨maxAge, existing.id, row, d, e, hmaxAge, ⟨first ++ f :: second, late, ?_⟩, ?_⟩
  · rw [hevents]
  · exact hhash ▸ hrotates

end InTime

omit [DecidableEq ι] in
/-- Without tokens there are no chains. -/
theorem World.chainAttributes_of_empty {w : World ι} (h : ∀ k, w.refreshTokens.cell k = .empty) :
    w.ChainAttributes := by
  intro a b r r' _ ha
  rw [Table.stored, h] at ha
  cases ha

/-- A session has been refreshed once. -/
theorem chain_attributes_refreshed :
    (∃ r, Demo.refreshed.state.shared.refreshTokens.stored 0 = some r ∧
        r.replacedById = some 1) ∧
      Demo.refreshed.state.shared.ChainAttributes ∧
        ∃ maxAge k row d e, [d, e] <:+: Demo.refreshed.state.history 2 ∧
          RotatesInTime Demo.env (Demo.crypto.hashRefreshToken 1) none maxAge k row d e := by
  have hreplaced : ((Demo.refreshed.state.shared.refreshTokens.stored 0).bind
        RefreshToken.replacedById = some 1) ∧
      ((Demo.refreshed.progs 2).bind Prog.outcome).any Except.isOk := by
    decide +kernel
  obtain ⟨o, ho, hok⟩ := (Option.any_eq_true _ _).1 hreplaced.2
  obtain ⟨-, hchains, hrefreshes⟩ := chain_attributes Demo.env Demo.tokensSound_world (fun _ ↦ rfl)
    (World.chainAttributes_of_empty fun _ ↦ rfl) Demo.sessionCalls (Demo.reaches_after _ _ _)
  cases o with
  | error e => cases hok
  | ok a =>
    obtain ⟨maxAge, k, row, d, e, -, hevents, hrotates⟩ :=
      hrefreshes 2 1 {} a rfl (Config.answered_iff.2 ho)
    exact ⟨Option.bind_eq_some_iff.1 hreplaced.1, hchains, maxAge, k, row, d, e, hevents, hrotates⟩

end Stead
