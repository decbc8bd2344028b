import Stead.Otp.Requests
import Mathlib.Data.Set.Finite.Lemmas

/-!
# The limits of OTP requests

A request makes its checks first and creates its row a few statements later. What lies in between
is nobody's to know, so the limits hold where no other request for the phone creates a row there
(`withinLimits_of_unraced`), and two requests at the same time break them (`requests_race`).

## The limits

Of the rows of a phone, at most as many lie within any hour as the hourly limit says, and any two of
them are a cooldown apart (`WithinLimits`). Both are about the births of rows, which do not change,
so a statement that creates nothing keeps them (`WithinLimits.of_inherited`).

## The condition

`unraced` allows the creation of a row only if every row of the phone was there when the request
made its checks. Then the count and the latest row that it read are still right for the hour that
ends now and for the cooldown: time has passed, and rows only leave the hour by it
(`Limited.capped`, `Limited.cooled`).
-/

namespace Stead

open Concurrency

variable {ι : Type} [DecidableEq ι]

/-! ### Users and owners -/

section Limits

variable {crypto : Crypto} {i : ι} {x : Choice} {op : Op} {w t : World ι}
  {r : Except StatementError op.Ret} {config : Config}

/-- A phone number has one user, a row has a user, and nothing was created in the future. -/
structure Consistent (w : World ι) : Prop where
  phones : ∀ id id' u u', w.users.stored id = some u → w.users.stored id' = some u' →
    u.phone = u'.phone → id = id'
  owners : ∀ k row, w.otpCodes.stored k = some row → (w.users.stored row.userId).isSome
  past : ∀ k row, w.otpCodes.stored k = some row → row.createdAt ≤ w.now

/-- Nobody has a phone that is not found. -/
theorem userByPhone_eq_none {phone : String} (h : w.userByPhone phone = none) {id : ℕ} {u : User}
    (hu : w.users.stored id = some u) : u.phone ≠ phone := by
  intro hphone
  have hmem : (⟨id, u⟩ : Keyed User) ∈ w.users.select none fun u ↦ u.phone = phone :=
    Table.mem_select.2 ⟨by rw [Cell.view_none]; exact hu, by simpa using hphone⟩
  rw [World.userByPhone, List.head?_eq_none_iff] at h
  rw [h] at hmem
  exact List.not_mem_nil hmem

theorem userByPhone_eq_some {phone : String} {user : Keyed User}
    (h : w.userByPhone phone = some user) :
    w.users.stored user.id = some user.row ∧ user.row.phone = phone := by
  obtain ⟨hview, hphone⟩ := Table.mem_select.1 (List.mem_of_head? h)
  rw [Cell.view_none] at hview
  exact ⟨hview, by simpa using hphone⟩

/-- A user is there before, or is a new one with a new phone number. -/
theorem exec_users_new (h : exec crypto i x op w = some (r, t)) {id : ℕ} {u : User}
    (hu : t.users.stored id = some u) : w.users.stored id = some u ∨
      id = w.users.next ∧ ∀ id' u', w.users.stored id' = some u' → u'.phone ≠ u.phone := by
  revert hu
  refine exec_of_perform (fun t ↦ t.users.stored id = some u → w.users.stored id = some u ∨
    id = w.users.next ∧ ∀ id' u', w.users.stored id' = some u' → u'.phone ≠ u.phone)
    h (fun r t h hu ↦ ?_) ?_
  · by_cases hop : ∃ phone, op = .user (.upsert phone)
    · obtain ⟨phone, rfl⟩ := hop
      simp only [perform, UserStatement.perform] at h
      split at h
      · cases h
        exact .inl hu
      · next hnone =>
        cases h
        by_cases hid : id = w.users.next
        · subst hid
          refine .inr ⟨rfl, fun id' u' hu' ↦ ?_⟩
          have hnew : u = ⟨phone⟩ := by
            have hcell : ((w.users.insert none ⟨phone⟩).2.cell w.users.next).stored = some u := hu
            rw [Table.insert_cell_self] at hcell
            exact (Option.some.inj hcell).symm
          subst hnew
          exact userByPhone_eq_none hnone hu'
        · have hcell : ((w.users.insert none ⟨phone⟩).2.cell id).stored = some u := hu
          rw [Table.insert_cell_of_ne _ _ _ hid] at hcell
          exact .inl hcell
    · cases perform_effect h with
      | user hs ht hk =>
        rename_i s users
        cases s with
        | findByPhone phone =>
          subst hs
          cases h
          exact .inl hu
        | upsert phone => exact absurd ⟨phone, hs⟩ hop
      | _ => subst_vars; exact .inl hu
  · cases op <;> exact .inl

/-- Foreign keys and phones are consistent after every statement. -/
theorem exec_consistent (h : exec crypto i x op w = some (r, t)) (hroot : w.Rooted OtpCode.birth)
    (hw : Consistent w) : Consistent t where
  phones := by
    intro id id' u u' hu hu' hphone
    rcases exec_users_new h hu with hold | ⟨hid, hnew⟩ <;>
      rcases exec_users_new h hu' with hold' | ⟨hid', hnew'⟩
    · exact hw.phones id id' u u' hold hold' hphone
    · exact absurd hphone (hnew' id u hold)
    · exact absurd hphone.symm (hnew id' u' hold')
    · exact hid.trans hid'.symm
  owners := by
    intro k row hrow
    rcases exec_birth h hroot hrow with ⟨row₀, hrow₀, hbirth⟩ | ⟨data, -, -, rfl, huser, -⟩
    · obtain ⟨u, hu⟩ := Option.isSome_iff_exists.1 (hw.owners k row₀ hrow₀)
      rw [OtpCode.userId_of_birth hbirth, exec_users h hu]
      rfl
    · obtain ⟨u, hu⟩ := Option.isSome_iff_exists.1 huser
      exact Option.isSome_of_eq_some (exec_users h hu)
  past := by
    intro k row hrow
    rcases exec_birth h hroot hrow with ⟨row₀, hrow₀, hbirth⟩ | ⟨data, -, -, rfl, -⟩
    · rw [OtpCode.createdAt_of_birth hbirth, exec_now h]
      exact (hw.past k row₀ hrow₀).trans (by omega)
    · exact le_rfl

/-! ### The limits -/

/-- A row of a phone, in an hour. -/
def World.inHour (w : World ι) (phone : String) (start : ℤ) (row : OtpCode) : Bool :=
  w.phoneOf row.userId = some phone && decide (start ≤ row.createdAt) &&
    decide (row.createdAt ≤ start + ONE_HOUR_MS)

/-- The limits on the stored codes of a phone: two of them are a cooldown apart, and an hour has no
more of them than the hourly limit. -/
structure WithinLimits (config : Config) (w : World ι) : Prop where
  cooled : ∀ k k' row row' phone, k ≠ k' → w.otpCodes.stored k = some row →
    w.otpCodes.stored k' = some row' → w.phoneOf row.userId = some phone →
      w.phoneOf row'.userId = some phone →
        (config.otpResendCooldownMs : ℤ) ≤ |row.createdAt - row'.createdAt|
  capped : ∀ phone start, (w.otpCodes.select none (w.inHour phone start)).length ≤
    config.otpRequestLimitPerHour

/-- The row, as it was in an earlier store. -/
def Inherited (w : World ι) (k : ℕ) (row : OtpCode) : Prop :=
  ∃ row₀, w.otpCodes.stored k = some row₀ ∧ row.birth = row₀.birth

omit [DecidableEq ι] in
theorem phoneOf_of_later (h : Later w t) {userId : ℕ} (hu : (w.users.stored userId).isSome) :
    t.phoneOf userId = w.phoneOf userId := by
  obtain ⟨u, hu⟩ := Option.isSome_iff_exists.1 hu
  rw [World.phoneOf, World.phoneOf, hu, h.users userId u hu]

omit [DecidableEq ι] in
theorem inHour_of_later (h : Later w t) (hw : Consistent w) {k : ℕ} {row row₀ : OtpCode}
    (hrow₀ : w.otpCodes.stored k = some row₀) (hbirth : row.birth = row₀.birth) (phone : String)
    (start : ℤ) : t.inHour phone start row = w.inHour phone start row₀ := by
  rw [World.inHour, World.inHour, OtpCode.userId_of_birth hbirth, OtpCode.createdAt_of_birth hbirth,
    phoneOf_of_later h (hw.owners k row₀ hrow₀)]

/-- The numbers of the rows of a phone in an hour. -/
def World.hour (w : World ι) (phone : String) (start : ℤ) : List ℕ :=
  (w.otpCodes.select none (w.inHour phone start)).map Keyed.id

theorem mem_hour {phone : String} {start : ℤ} {k : ℕ} : k ∈ w.hour phone start ↔
    ∃ row, w.otpCodes.stored k = some row ∧ w.inHour phone start row = true := by
  simp only [World.hour, List.mem_map, Table.mem_select, Cell.view_none]
  constructor
  · rintro ⟨⟨id, row⟩, ⟨hrow, hin⟩, rfl⟩
    exact ⟨row, hrow, hin⟩
  · rintro ⟨row, hrow, hin⟩
    exact ⟨⟨k, row⟩, ⟨hrow, hin⟩, rfl⟩

@[simp] theorem hour_length (phone : String) (start : ℤ) : (w.hour phone start).length =
    (w.otpCodes.select none (w.inHour phone start)).length :=
  List.length_map _

/-- Rows that were there before are within the limits. -/
theorem WithinLimits.of_inherited (hw : WithinLimits config w) (hc : Consistent w)
    (hlater : Later w t)
    (h : ∀ k row, t.otpCodes.stored k = some row → Inherited w k row) : WithinLimits config t where
  cooled := by
    intro k k' row row' phone hne hrow hrow' hphone hphone'
    obtain ⟨row₀, hrow₀, hbirth⟩ := h k row hrow
    obtain ⟨row₀', hrow₀', hbirth'⟩ := h k' row' hrow'
    rw [OtpCode.userId_of_birth hbirth, phoneOf_of_later hlater (hc.owners k row₀ hrow₀)] at hphone
    rw [OtpCode.userId_of_birth hbirth', phoneOf_of_later hlater (hc.owners k' row₀' hrow₀')]
      at hphone'
    rw [OtpCode.createdAt_of_birth hbirth, OtpCode.createdAt_of_birth hbirth']
    exact hw.cooled k k' row₀ row₀' phone hne hrow₀ hrow₀' hphone hphone'
  capped := by
    intro phone start
    refine le_trans ?_ ((hour_length phone start).trans_le (hw.capped phone start))
    refine Table.select_length_le fun k row hview hin ↦ ?_
    rw [Cell.view_none] at hview
    obtain ⟨row₀, hrow₀, hbirth⟩ := h k row hview
    exact mem_hour.2 ⟨row₀, hrow₀, (inHour_of_later hlater hc hrow₀ hbirth phone start) ▸ hin⟩

/-- One more row is within the limits, when it comes a cooldown after the rows of its phone, and
every hour before it has room. -/
theorem WithinLimits.of_created (hw : WithinLimits config w) (hc : Consistent w)
    (hlater : Later w t) {new : ℕ} {created : OtpCode} {phone : String}
    (h : ∀ k row, t.otpCodes.stored k = some row →
      Inherited w k row ∨ k = new ∧ row = created)
    (hphone : t.phoneOf created.userId = some phone)
    (hcooled : ∀ k row, w.otpCodes.stored k = some row → w.phoneOf row.userId = some phone →
      row.createdAt + config.otpResendCooldownMs ≤ created.createdAt)
    (hcapped : ∀ start, created.createdAt ≤ start + ONE_HOUR_MS →
      (w.hour phone start).length < config.otpRequestLimitPerHour) : WithinLimits config t where
  cooled := by
    -- A row from before was created at least the cooldown before the new one.
    have hpair : ∀ k row, t.otpCodes.stored k = some row → Inherited w k row →
        t.phoneOf row.userId = some phone →
          row.createdAt + config.otpResendCooldownMs ≤ created.createdAt := by
      rintro k row hrow ⟨row₀, hrow₀, hbirth⟩ hof
      rw [OtpCode.userId_of_birth hbirth, phoneOf_of_later hlater (hc.owners k row₀ hrow₀)] at hof
      rw [OtpCode.createdAt_of_birth hbirth]
      exact hcooled k row₀ hrow₀ hof
    intro k k' row row' phone' hne hrow hrow' hof hof'
    -- Two rows from before are as far apart as they were; the new row is the later one.
    rcases h k row hrow with hold | ⟨rfl, rfl⟩ <;> rcases h k' row' hrow' with hold' | ⟨rfl, rfl⟩
    · obtain ⟨row₀, hrow₀, hbirth⟩ := hold
      obtain ⟨row₀', hrow₀', hbirth'⟩ := hold'
      rw [OtpCode.userId_of_birth hbirth, phoneOf_of_later hlater (hc.owners k row₀ hrow₀)] at hof
      rw [OtpCode.userId_of_birth hbirth', phoneOf_of_later hlater (hc.owners k' row₀' hrow₀')]
        at hof'
      rw [OtpCode.createdAt_of_birth hbirth, OtpCode.createdAt_of_birth hbirth']
      exact hw.cooled k k' row₀ row₀' phone' hne hrow₀ hrow₀' hof hof'
    · rw [hphone] at hof'
      have hafter := hpair k row hrow hold (hof.trans hof'.symm)
      exact le_abs.2 (.inr (by omega))
    · rw [hphone] at hof
      have hafter := hpair k' row' hrow' hold' (hof'.trans hof.symm)
      exact le_abs.2 (.inl (by omega))
    · exact absurd rfl hne
  capped := by
    intro phone' start
    have hold : ∀ k row, t.otpCodes.stored k = some row → t.inHour phone' start row = true →
        Inherited w k row → k ∈ w.hour phone' start := by
      rintro k row hrow hin ⟨row₀, hrow₀, hbirth⟩
      exact mem_hour.2 ⟨row₀, hrow₀, (inHour_of_later hlater hc hrow₀ hbirth phone' start) ▸ hin⟩
    -- Only an hour that contains the new row gains by it, and the count had room there.
    by_cases hin : t.inHour phone' start created = true
    · simp only [World.inHour, Bool.and_eq_true, decide_eq_true_eq] at hin
      obtain ⟨⟨hof, -⟩, hend⟩ := hin
      obtain rfl : phone = phone' := Option.some.inj (hphone.symm.trans hof)
      calc (t.otpCodes.select none (t.inHour phone start)).length
          ≤ (new :: w.hour phone start).length := by
            refine Table.select_length_le fun k row hview hin ↦ ?_
            rw [Cell.view_none] at hview
            rcases h k row hview with hinherited | ⟨rfl, -⟩
            · exact List.mem_cons_of_mem _ (hold k row hview hin hinherited)
            · exact List.mem_cons_self
        _ ≤ config.otpRequestLimitPerHour := hcapped start hend
    · refine le_trans ?_ ((hour_length phone' start).trans_le (hw.capped phone' start))
      refine Table.select_length_le fun k row hview hrow ↦ ?_
      rw [Cell.view_none] at hview
      rcases h k row hview with hinherited | ⟨-, rfl⟩
      · exact hold k row hview hrow hinherited
      · exact absurd hrow hin

/-! ### No other request in between -/

/-- A check of the limits: the rows of the hour are counted, or one within the cooldown is looked
for. -/
def Op.Checks : Op → Prop
  | .otpCode (.countSince _ _) | .otpCode (.findLatestAfter _ _) => True
  | _ => False

/-- When a statement creates a row, the rows its phone has were all there when its thread made its
checks. -/
def unraced : Weather ι where
  stmt i x op s := ∀ data, op = .otpCode (.create data) → x.fault ≠ .before →
    (∀ id row, s.shared.otpCodes.stored id = some row →
      row.requestKeyHash ≠ data.requestKeyHash) →
    ∀ e ∈ s.history i, e.op.Checks → ∀ k row, s.shared.otpCodes.stored k = some row →
      s.shared.phoneOf row.userId = s.shared.phoneOf data.userId →
        (e.after.otpCodes.stored k).isSome
  crash _ _ := True

theorem latest_eq_none {ρ : Type} {createdAt : ρ → ℤ} {pick : ℕ} {rows : List (Keyed ρ)}
    (h : latest createdAt pick rows = none) : rows = [] := by
  by_contra hne
  obtain ⟨row, hrow, hmax⟩ := Set.exists_max_image {r | r ∈ rows} (fun r ↦ createdAt r.row)
    (List.finite_toSet rows) (List.exists_mem_of_ne_nil rows hne)
  have htop : row ∈ rows.filter fun r ↦ rows.all fun s ↦ decide (createdAt s.row ≤ createdAt r.row) :=
    List.mem_filter.2 ⟨hrow, List.all_eq_true.2 fun s hs ↦ decide_eq_true (hmax s hs)⟩
  rw [latest, List.getElem?_eq_none_iff] at h
  exact absurd (Nat.mod_lt pick (List.length_pos_of_mem htop)) (not_lt.2 h)

/-- The row created has a number that was free, so the statement was not lost. -/
theorem exec_created (h : exec crypto i x op w = some (r, t)) {data : NewOtpCode}
    (hop : op = .otpCode (.create data)) {row : OtpCode}
    (hrow : t.otpCodes.stored w.otpCodes.next = some row) : x.fault ≠ .before := by
  subst hop
  intro hfault
  simp only [exec, Op.fragile, if_true, hfault, Option.some.injEq, Prod.mk.injEq] at h
  obtain ⟨-, rfl⟩ := h
  have hstored : (w.otpCodes.cell w.otpCodes.next).stored = some row := hrow
  rw [w.otpCodes.fresh _ le_rfl] at hstored
  cases hstored

/-- The system between two statements: the codes are within the limits. -/
structure Limited (crypto : Crypto) (config : Config) (s : History ι) : Prop where
  chronicle : Chronicle crypto s
  consistent : Consistent s.shared
  earlier : ∀ e ∈ s.log, Consistent e.after
  within : WithinLimits config s.shared

variable {s : History ι}

/-- What was answered for the clock is in the past. -/
theorem Limited.now_le (hs : Limited crypto config s) {now : ℤ}
    (h : (⟨.host .now, .ok now⟩ : Exchange Statements) ∈ s.trace i) : now ≤ s.shared.now := by
  obtain ⟨e, -, -, x, hlater, hp⟩ := hs.chronicle.exchange h
  generalize e.after = t at hlater hp
  cases hp
  exact hlater.now

/-- Whom a request has upserted has the phone. -/
theorem Limited.user (hs : Limited crypto config s) {phone : String} {userId : ℕ} {user : User}
    (h : (⟨.user (.upsert phone), .ok ⟨userId, user⟩⟩ : Exchange Statements) ∈ s.trace i) :
    s.shared.phoneOf userId = some phone := by
  obtain ⟨e, -, -, x, hlater, hp⟩ := hs.chronicle.exchange h
  generalize e.after = t at hlater hp
  generalize e.before.elapse x.elapse = w at hp
  have hu : t.users.stored userId = some user ∧ user.phone = phone := by
    simp only [perform, UserStatement.perform] at hp
    split at hp
    · next found hfound =>
      cases hp
      exact userByPhone_eq_some hfound
    · cases hp
      refine ⟨?_, rfl⟩
      show ((w.users.insert none ⟨phone⟩).2.cell w.users.next).stored = _
      rw [Table.insert_cell_self]
      rfl
  rw [World.phoneOf, hlater.users userId user hu.1, Option.map_some, hu.2]

/-- An old row was the same when a check looked at it, as far as it is concerned. -/
theorem Limited.seen (hs : Limited crypto config s) {e : Happening ι} (he : e ∈ s.history i)
    (hlater : Later e.after s.shared) {k : ℕ} {row : OtpCode}
    (hrow : s.shared.otpCodes.stored k = some row) (hthere : (e.after.otpCodes.stored k).isSome) :
    ∃ row₀, e.after.otpCodes.stored k = some row₀ ∧ row.birth = row₀.birth ∧
      e.after.phoneOf row₀.userId = s.shared.phoneOf row.userId := by
  obtain ⟨row₀, hrow₀⟩ := Option.isSome_iff_exists.1 hthere
  have hlt : k < e.after.otpCodes.next := Table.lt_next_of_cell fun hempty ↦ by
    rw [Table.stored, hempty] at hrow₀
    cases hrow₀
  obtain ⟨row₁, hrow₁, hbirth⟩ := hlater.rows k row hrow hlt
  have howner := (hs.earlier e (State.mem_history.1 he).1).owners k row₁ hrow₁
  exact ⟨row₁, hrow₁, hbirth, by
    rw [OtpCode.userId_of_birth hbirth, phoneOf_of_later hlater howner]⟩

/-- The new row comes a cooldown after the rows its phone has. -/
theorem Limited.cooled (hs : Limited crypto config s) {data : NewOtpCode} {phone : String}
    {startedAt checkedAt : ℤ} {recent : ℕ} {user : User}
    (hchecked : Checked config (s.trace i) data phone startedAt checkedAt recent user)
    (hseen : ∀ e ∈ s.history i, e.op.Checks → ∀ k row, s.shared.otpCodes.stored k = some row →
      s.shared.phoneOf row.userId = some phone → (e.after.otpCodes.stored k).isSome)
    {k : ℕ} {row : OtpCode} (hrow : s.shared.otpCodes.stored k = some row)
    (hphone : s.shared.phoneOf row.userId = some phone) :
    row.createdAt + config.otpResendCooldownMs ≤ s.shared.now := by
  obtain ⟨e, he, hop, x, hlater, hp⟩ := hs.chronicle.exchange hchecked.cooled
  obtain ⟨row₀, hrow₀, hbirth, -⟩ := hs.seen he hlater hrow
    (hseen e he (by rw [hop]; trivial) k row hrow hphone)
  have huser : row.userId = data.userId := by
    obtain ⟨u, hu, hup⟩ := Option.map_eq_some_iff.1 hphone
    obtain ⟨u', hu', hup'⟩ := Option.map_eq_some_iff.1 (hs.user hchecked.user)
    exact hs.consistent.phones _ _ u u' hu hu' (hup.trans hup'.symm)
  generalize e.after = t at hlater hp hrow₀
  generalize e.before.elapse x.elapse = w at hp
  have hnone : (t.otpCodes.select none fun r ↦ r.userId = data.userId &&
      decide (checkedAt - (config.otpResendCooldownMs : ℤ) < r.createdAt)) = [] := by
    simp only [perform, OtpCodeStatement.perform, reply, Option.some.injEq, Prod.mk.injEq,
      Except.ok.injEq] at hp
    obtain ⟨hnone, rfl⟩ := hp
    exact latest_eq_none hnone
  have hold : ¬ checkedAt - (config.otpResendCooldownMs : ℤ) < row.createdAt := fun hlt ↦ by
    have hmem : (⟨k, row₀⟩ : Keyed OtpCode) ∈ t.otpCodes.select none fun r ↦
        r.userId = data.userId &&
          decide (checkedAt - (config.otpResendCooldownMs : ℤ) < r.createdAt) :=
      Table.mem_select.2 ⟨(Cell.view_none _).trans hrow₀, by
        simp [← OtpCode.userId_of_birth hbirth, ← OtpCode.createdAt_of_birth hbirth, huser, hlt]⟩
    rw [hnone] at hmem
    exact List.not_mem_nil hmem
  have hnow := hs.now_le hchecked.checked
  omega

/-- Every hour that ends now has room for the new row. -/
theorem Limited.capped (hs : Limited crypto config s) {data : NewOtpCode} {phone : String}
    {startedAt checkedAt : ℤ} {recent : ℕ} {user : User}
    (hchecked : Checked config (s.trace i) data phone startedAt checkedAt recent user)
    (hseen : ∀ e ∈ s.history i, e.op.Checks → ∀ k row, s.shared.otpCodes.stored k = some row →
      s.shared.phoneOf row.userId = some phone → (e.after.otpCodes.stored k).isSome)
    {start : ℤ} (hstart : s.shared.now ≤ start + ONE_HOUR_MS) :
    (s.shared.hour phone start).length < config.otpRequestLimitPerHour := by
  refine lt_of_le_of_lt ?_ hchecked.within
  obtain ⟨e, he, hop, x, hlater, hp⟩ := hs.chronicle.exchange hchecked.counted
  have hcount : recent = ((e.after.otpCodes.select none fun r ↦
      e.after.phoneOf r.userId = some phone &&
        decide (startedAt - ONE_HOUR_MS ≤ r.createdAt)).map Keyed.id).length := by
    rw [List.length_map]
    generalize e.after = t at hp
    simp only [perform, OtpCodeStatement.perform, reply, Option.some.injEq, Prod.mk.injEq,
      Except.ok.injEq] at hp
    obtain ⟨hcount, rfl⟩ := hp
    exact hcount.symm
  rw [hcount, hour_length]
  refine Table.select_length_le fun k row hview hin ↦ ?_
  rw [Cell.view_none] at hview
  simp only [World.inHour, Bool.and_eq_true, decide_eq_true_eq] at hin
  obtain ⟨⟨hphone, hfrom⟩, -⟩ := hin
  obtain ⟨row₀, hrow₀, hbirth, hof⟩ := hs.seen he hlater hview
    (hseen e he (by rw [hop]; trivial) k row hview hphone)
  refine List.mem_map.2 ⟨⟨k, row₀⟩, Table.mem_select.2 ⟨(Cell.view_none _).trans hrow₀, ?_⟩, rfl⟩
  have hnow := hs.now_le hchecked.started
  simp only [hof, hphone, decide_true, Bool.true_and, decide_eq_true_eq,
    ← OtpCode.createdAt_of_birth hbirth]
  omega

/-- **One statement.** -/
theorem Limited.after (hs : Limited crypto config s) (hop : LimitStatement config (s.trace i) op)
    (ha : unraced.stmt i x op s) (hx : exec crypto i x op s.shared = some (r, t)) :
    Limited crypto config (s.after i op r t) := by
  have hroot := hs.chronicle.rooted
  have hlater : Later s.shared t := exec_later hx hroot
  have hconsistent : Consistent t := exec_consistent hx hroot hs.consistent
  refine ⟨hs.chronicle.after hx, hconsistent, fun e he ↦ ?_, ?_⟩
  · rw [State.after_log, List.mem_append, List.mem_singleton] at he
    rcases he with he | rfl
    · exact hs.earlier e he
    · exact hconsistent
  show WithinLimits config t
  -- Either the statement has created no row, or it has created the next one.
  cases hnew : t.otpCodes.stored s.shared.otpCodes.next with
  | none =>
    refine hs.within.of_inherited hs.consistent hlater fun k row hrow ↦ ?_
    rcases exec_birth hx hroot hrow with hold | ⟨data, -, rfl, -⟩
    · exact hold
    · exact absurd (hnew.symm.trans hrow) nofun
  | some created =>
    have hfree : s.shared.otpCodes.stored s.shared.otpCodes.next = none :=
      congrArg Cell.stored (s.shared.otpCodes.fresh _ le_rfl)
    rcases exec_birth hx hroot hnew with ⟨row₀, hrow₀, -⟩ | ⟨data, hcreate, -, rfl, huser, hfresh⟩
    · exact absurd (hfree.symm.trans hrow₀) nofun
    -- The program creates a row only after its checks, which it has made itself.
    obtain ⟨phone, startedAt, checkedAt, recent, user, hchecked⟩ := hop data hcreate
    have hphone : s.shared.phoneOf data.userId = some phone := hs.user hchecked.user
    -- The checks have seen every row of the phone that is there now, by the restriction.
    have hseen : ∀ e ∈ s.history i, e.op.Checks → ∀ k row,
        s.shared.otpCodes.stored k = some row → s.shared.phoneOf row.userId = some phone →
          (e.after.otpCodes.stored k).isSome := fun e he hc k row hrow hof ↦
      ha data hcreate (exec_created hx hcreate hnew) hfresh e he hc k row hrow (hof.trans hphone.symm)
    have hnow : s.shared.now ≤ t.now := hlater.now
    have hrows : ∀ k row, t.otpCodes.stored k = some row → Inherited s.shared k row ∨
        k = s.shared.otpCodes.next ∧ row = data.row t.now := by
      intro k row hrow
      rcases exec_birth hx hroot hrow with hold | ⟨data', -, rfl, -⟩
      · exact .inl hold
      · exact .inr ⟨rfl, Option.some.inj (hrow.symm.trans hnew)⟩
    have hof : t.phoneOf (data.row t.now).userId = some phone :=
      (phoneOf_of_later hlater huser).trans hphone
    refine hs.within.of_created hs.consistent hlater hrows hof (fun k row hrow hof ↦ ?_)
      fun start hstart ↦ ?_
    · exact (hs.cooled hchecked hseen hrow hof).trans hnow
    · exact hs.capped hchecked hseen (hnow.trans hstart)

/-- A thread that is lost creates no rows. -/
theorem Limited.lost (hs : Limited crypto config s) (i : ι) :
    Limited crypto config (s.setShared (s.shared.rollback i)) := by
  have hlater : Later s.shared (s.shared.rollback i) := rollback_later s.shared i
  have hold : ∀ k row, (s.shared.rollback i).otpCodes.stored k = some row →
      Inherited s.shared k row := by
    intro k row hrow
    have hsaved : ((s.shared.otpCodes.rollback i).cell k).stored = some row := hrow
    rw [Table.rollback_cell, Cell.rollback_stored] at hsaved
    exact ⟨row, hsaved, rfl⟩
  refine ⟨hs.chronicle.lost i, ⟨hs.consistent.phones, fun k row hrow ↦ ?_, fun k row hrow ↦ ?_⟩,
    hs.earlier, hs.within.of_inherited hs.consistent hlater hold⟩
  · obtain ⟨row₀, hrow₀, hbirth⟩ := hold k row hrow
    rw [OtpCode.userId_of_birth hbirth]
    exact hs.consistent.owners k row₀ hrow₀
  · obtain ⟨row₀, hrow₀, hbirth⟩ := hold k row hrow
    rw [OtpCode.createdAt_of_birth hbirth]
    exact hs.consistent.past k row₀ hrow₀

theorem limited_start (now : ℤ) (countries : List Country) :
    Limited crypto config (⟨.empty now countries, []⟩ : History ι) where
  chronicle := chronicle_start now countries
  consistent := ⟨fun _ _ _ _ h ↦ (by cases h), fun _ _ h ↦ (by cases h), fun _ _ h ↦ (by cases h)⟩
  earlier := fun _ h ↦ absurd h List.not_mem_nil
  within := ⟨fun _ _ _ _ _ _ h ↦ (by cases h), fun _ _ ↦ Nat.zero_le _⟩

/-- **The limits hold where requests for a phone do not race.** In every run, with any calls,
failures and crashes, in which no other request for the phone creates a row between the checks of a
request and its own row. -/
theorem withinLimits_of_unraced (env : Env) (now : ℤ) (countries : List Country)
    (calls : ι → ApiCall) {c : System ι}
    (hc : System.Reaches env unraced (System.start env (.empty now countries) calls) c) :
    WithinLimits env.config c.state.shared :=
  (Run.invariant_keeps (P := fun _ ↦ LimitStatement env.config) (Q := fun _ _ _ ↦ True)
    (E := fun _ _ _ ↦ True) (I := Limited env.crypto env.config) hc
    (Config.keeps_start fun i ↦ program_limited (calls i)) (limited_start now countries)
    (fun _ _ _ _ _ _ hs hop ha hx ↦ hs.after hop ha hx) fun _ i hs _ ↦ hs.lost i).1.within

end Limits

namespace Demo

/-- Two requests for the same phone, each under a key of its own. -/
def raceCalls : Bool → ApiCall
  | false => requestOtp '1'
  | true => requestOtp '2'

/-- The two requests, and an empty database. -/
def raceStart : System Bool := System.start env (.empty 0 [⟨"NG", true⟩]) raceCalls

/-- `n` statements of one of the two, with nothing going wrong. -/
def turnsOf (i : Bool) (n : ℕ) : List (Turn Bool Choice) := List.replicate n ⟨i, {}⟩

/-- A row that is created without a race, as a test. -/
def allowUnraced : Bool → Op → History Bool → Bool
  | i, .otpCode (.create _), s => (s.history i).all fun e ↦
      (List.range s.shared.otpCodes.next).all fun k ↦
        (s.shared.otpCodes.stored k).isNone || (e.after.otpCodes.stored k).isSome
  | _, _, _ => true

theorem allowUnraced_stmt (i : Bool) (x : Choice) (op : Op) (s : History Bool)
    (h : allowUnraced i op s = true) : unraced.stmt i x op s := by
  rintro data rfl - - e he - k row hrow -
  have hlt : k < s.shared.otpCodes.next := Table.lt_next_of_cell fun hempty ↦ by
    rw [Table.stored, hempty] at hrow
    cases hrow
  have htest := List.all_eq_true.1 (List.all_eq_true.1 h e he) k (List.mem_range.2 hlt)
  simpa [hrow] using htest

/-- The second request comes when the first has been answered and the cooldown is over. -/
theorem queue_runs : (raceStart.turns (machine Bool crypto) allowUnraced
    (turnsOf false 18 ++ [⟨true, { elapse := 60000 }⟩] ++ turnsOf true 17)).isSome := by
  decide +kernel

end Demo

/-- The second request comes when the first is done, and is refused. -/
theorem withinLimits_of_unraced_queue : WithinLimits Demo.env.config
    (Demo.raceStart.afterTurns (machine Bool Demo.crypto) Demo.allowUnraced _
      Demo.queue_runs).state.shared :=
  withinLimits_of_unraced Demo.env 0 [⟨"NG", true⟩] Demo.raceCalls
    (Config.run_afterTurns Demo.allowUnraced_stmt Demo.queue_runs)

namespace Demo

/-- Both requests make their checks before one of them creates its row. -/
theorem race_runs : (raceStart.turns (machine Bool crypto) (fun _ _ _ ↦ true)
    (turnsOf false 10 ++ turnsOf true 11 ++ turnsOf false 1)).any (fun c ↦
      ∀ k ∈ [0, 1], (c.state.shared.otpCodes.stored k).map
        (fun row ↦ (row.createdAt, c.state.shared.phoneOf row.userId)) = some (0, some "+1")) =
          true := by
  decide +kernel

/-- Both have created their row. -/
def raced : System Bool :=
  raceStart.afterTurns (machine Bool crypto) (fun _ _ _ ↦ true) _ (Option.isSome_of_any race_runs)

end Demo

/-- **Two requests at the same time break the limits.** Each finds no code of the phone, and each
creates one, at the same instant. -/
theorem requests_race : Demo.key '1' ≠ Demo.key '2' ∧
    ∃ c, System.Reaches Demo.env .all Demo.raceStart c ∧
      ¬ WithinLimits Demo.env.config c.state.shared := by
  refine ⟨by decide, Demo.raced,
    Config.run_afterTurns (fun _ _ _ _ _ ↦ trivial) (Option.isSome_of_any Demo.race_runs),
    fun h ↦ ?_⟩
  have hcreated := of_decide_eq_true (Config.afterTurns_of_any Demo.race_runs)
  obtain ⟨row, hrow, heq⟩ := Option.map_eq_some_iff.1 (hcreated 0 (by simp))
  obtain ⟨row', hrow', heq'⟩ := Option.map_eq_some_iff.1 (hcreated 1 (by simp))
  obtain ⟨hcreatedAt, hphone⟩ := Prod.mk.inj heq
  obtain ⟨hcreatedAt', hphone'⟩ := Prod.mk.inj heq'
  have hcooled := h.cooled 0 1 row row' "+1" (by decide) hrow hrow' hphone hphone'
  rw [hcreatedAt, hcreatedAt'] at hcooled
  exact absurd hcooled (by decide)

end Stead
