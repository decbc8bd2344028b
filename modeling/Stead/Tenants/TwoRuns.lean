import Stead.Import.Coverage
import Stead.Tenants.Preferences

/-!
# Two runs

The operations of a user are left out of a sequence of requests. The run with them and the run
without them agree on the rows of every other user (`Alike`): a request that is left out changes no
such row, and one that is in both runs acts on the rows of its user alone.

## The induction

It is over the requests, for two stores that are alike. A request of the user who is left out is
executed in the first run only (`Alike.leftOut`); any other is executed in both, has the same answer
(`Alike.answer`) and leaves the stores alike (`Alike.both`), since on either store its outcome is
that on the rows of its user, which are the same. The other users' rows in the two stores may differ
in what belongs to the user who is left out.

Both runs need their identifiers: those that a request draws are new, and no two requests draw the
same (`DistinctIds`, `Ready`).
-/

namespace Stead

open Collections GoalsService

variable {runtime : Runtime} {r : TenantRequest} {requests : List TenantRequest}
  {s s' : TenantStore} {a b : ℕ}

/-! ### One request -/

theorem answer_only (h : Isolated r s (r.run runtime)) :
    r.answer runtime (s.only r.userId) = r.answer runtime s := by
  rw [TenantRequest.answer, TenantRequest.answer, h.alone]
  cases r.run runtime s <;> rfl

theorem after_only (h : Isolated r s (r.run runtime)) :
    r.after runtime (s.only r.userId) = (r.after runtime s).only r.userId := by
  rw [TenantRequest.after, TenantRequest.after, h.alone]
  cases r.run runtime s <;> rfl

/-- What a request may do to the tables. -/
theorem effect_after (hs : TenantsSound s) (h : Isolated r s (r.run runtime)) :
    Effect r s (r.after runtime s) := by
  unfold TenantRequest.after
  cases hrun : r.run runtime s with
  | error e => exact .refl hs
  | ok out => exact h.effect out.1 out.2 hrun

/-- The identifiers of a request stay unused when another one is carried out. -/
theorem Unused.after {r' : TenantRequest} (h : Unused r' s) (heffect : Effect r s s')
    (hids : ∀ k k', r.uuid k ≠ r'.uuid k') : Unused r' s' := by
  refine ⟨h.distinct, fun g hg k ↦ ?_, fun tx htx k ↦ ?_⟩
  · rcases heffect.goalIds g hg with ⟨g₀, hg₀, hid⟩ | ⟨k', hid⟩
    · exact hid ▸ h.goals g₀ hg₀ k
    · exact hid ▸ hids k' k
  · rcases heffect.transactionIds tx htx with ⟨tx₀, htx₀, hid⟩ | ⟨k', hid⟩
    · exact hid ▸ h.transactions tx₀ htx₀ k
    · exact hid ▸ hids k' k

/-! ### Requests -/

/-- The identifiers that requests draw are all distinct. -/
structure DistinctIds (requests : List TenantRequest) : Prop where
  each : ∀ r ∈ requests, Function.Injective r.uuid
  across : requests.Pairwise fun r r' ↦ ∀ k k', r.uuid k ≠ r'.uuid k'

/-- Tables before requests, none of whose identifiers is used yet. -/
structure Ready (requests : List TenantRequest) (s : TenantStore) : Prop where
  sound : TenantsSound s
  across : requests.Pairwise fun r r' ↦ ∀ k k', r.uuid k ≠ r'.uuid k'
  unused : ∀ r ∈ requests, Unused r s

theorem Ready.isolated (h : Ready (r :: requests) s) : Isolated r s (r.run runtime) :=
  isolated_run h.sound (h.unused r (List.mem_cons_self ..))

theorem Ready.effect (h : Ready (r :: requests) s) : Effect r s (r.after runtime s) :=
  effect_after h.sound h.isolated

theorem Ready.after (h : Ready (r :: requests) s) : Ready requests (r.after runtime s) where
  sound := h.effect.sound
  across := (List.pairwise_cons.1 h.across).2
  unused r' hr' :=
    (h.unused r' (List.mem_cons_of_mem r hr')).after h.effect ((List.pairwise_cons.1 h.across).1 r' hr')

/-- The tables stay sound under all requests. -/
theorem Ready.sound_after (h : Ready requests s) : TenantsSound (tenantsAfter runtime s requests) := by
  induction requests generalizing s with
  | nil => exact h.sound
  | cons r requests ih => exact ih h.after

/-- Two runs that agree on the rows of every user but `a`. -/
structure Alike (a : ℕ) (requests : List TenantRequest) (s s' : TenantStore) : Prop where
  left : Ready requests s
  right : Ready requests s'
  rows : ∀ b, b ≠ a → s'.only b = s.only b

/-- A request of `a` that is left out. -/
theorem Alike.leftOut (h : Alike a (r :: requests) s s') (runtime : Runtime) (ha : r.userId = a) :
    Alike a requests (r.after runtime s) s' where
  left := h.left.after
  right := ⟨h.right.sound, (List.pairwise_cons.1 h.right.across).2,
    fun r' hr' ↦ h.right.unused r' (List.mem_cons_of_mem r hr')⟩
  rows b hb := by rw [h.left.effect.others b (ha ▸ hb), h.rows b hb]

/-- A request of another user is answered alike. -/
theorem Alike.answer (h : Alike a (r :: requests) s s') (ha : r.userId ≠ a) :
    r.answer runtime s' = r.answer runtime s := by
  rw [← answer_only h.right.isolated, ← answer_only h.left.isolated, h.rows _ ha]

/-- A request of another user in both runs. -/
theorem Alike.both (h : Alike a (r :: requests) s s') (runtime : Runtime) (ha : r.userId ≠ a) :
    Alike a requests (r.after runtime s) (r.after runtime s') where
  left := h.left.after
  right := h.right.after
  rows b hb := by
    by_cases hbr : b = r.userId
    · rw [hbr, ← after_only h.right.isolated, ← after_only h.left.isolated, h.rows _ ha]
    · rw [h.left.effect.others b hbr, h.right.effect.others b hbr, h.rows b hb]

theorem answersTo_cons {userId : ℕ} {answer : Except TenantFailure TenantResponse}
    {answers : List (ℕ × Except TenantFailure TenantResponse)} :
    answersTo b ((userId, answer) :: answers) =
      if userId = b then answer :: answersTo b answers else answersTo b answers := by
  by_cases h : userId = b <;> simp [answersTo, h]

/-- **Two runs** give the other users the same answers and the same rows. -/
theorem Alike.run (h : Alike a requests s s') (hb : b ≠ a) :
    answersTo b (tenantAnswers runtime s' (requests.filter fun r ↦ r.userId ≠ a)) =
        answersTo b (tenantAnswers runtime s requests) ∧
      (tenantsAfter runtime s' (requests.filter fun r ↦ r.userId ≠ a)).only b =
        (tenantsAfter runtime s requests).only b := by
  induction requests generalizing s s' with
  | nil => exact ⟨rfl, h.rows b hb⟩
  | cons r requests ih =>
    by_cases ha : r.userId = a
    · obtain ⟨hanswers, hrows⟩ := ih (h.leftOut runtime ha)
      rw [List.filter_cons_of_neg (by simp [ha])]
      refine ⟨?_, hrows⟩
      rw [hanswers, tenantAnswers, answersTo_cons, if_neg fun hrb ↦ hb (hrb.symm.trans ha)]
    · obtain ⟨hanswers, hrows⟩ := ih (h.both runtime ha)
      rw [List.filter_cons_of_pos (by simp [ha])]
      refine ⟨?_, hrows⟩
      rw [tenantAnswers, tenantAnswers, answersTo_cons, answersTo_cons, hanswers, h.answer ha]

/-- The tables of users who have done nothing yet. -/
def TenantStore.ofUsers (users : List AccountUser) : TenantStore where
  users := users
  goals := []
  transactions := []
  alertPreferences := []
  consentPreferences := []
  consentRecords := []

/-- Tables with users alone are ready. -/
theorem ready_ofUsers (users : List AccountUser) (hids : DistinctIds requests) :
    Ready requests (.ofUsers users) where
  sound := ⟨⟨List.nodup_nil, fun _ hg ↦ absurd hg List.not_mem_nil, List.Pairwise.nil⟩,
    List.nodup_nil, fun _ htx ↦ absurd htx List.not_mem_nil⟩
  across := hids.across
  unused r hr := ⟨hids.each r hr, fun _ hg ↦ absurd hg List.not_mem_nil,
    fun _ htx ↦ absurd htx List.not_mem_nil⟩

/-- **Isolation of the users.** When the operations of a user are left out, every other user is
answered the same and has the same rows; and a transaction is linked to goals of its own user. The
identifiers that are generated are distinct, and the same in both runs. -/
theorem tenant_isolation (runtime : Runtime) (users : List AccountUser)
    (requests : List TenantRequest) (hids : DistinctIds requests) :
    (∀ a b, b ≠ a →
      answersTo b (tenantAnswers runtime (.ofUsers users)
          (requests.filter fun r ↦ r.userId ≠ a)) =
        answersTo b (tenantAnswers runtime (.ofUsers users) requests) ∧
      (tenantsAfter runtime (.ofUsers users) (requests.filter fun r ↦ r.userId ≠ a)).only b =
        (tenantsAfter runtime (.ofUsers users) requests).only b) ∧
    (tenantsAfter runtime (.ofUsers users) requests).Linked := by
  have hready := ready_ofUsers users hids
  exact ⟨fun a b hb ↦ (Alike.mk hready hready fun _ _ ↦ rfl).run hb, hready.sound_after.linked⟩

namespace Demo

/-- A runtime that takes every text for a date. -/
def plainRuntime : Runtime where
  platform := asciiPlatform
  storable := ⟨fun _ ↦ true, fun _ ↦ true⟩
  isoDate text := some text
  time text := textNumber text
  knowsTimeZone name := decide (name = "UTC")

/-- The users 1 and 2. -/
def twoUsers : List AccountUser :=
  [⟨1, "+2348030000001", none, 0, 0⟩, ⟨2, "+2348030000002", none, 0, 0⟩]

/-- The request number `n` of a user, with identifiers of its own. -/
def requestOf (n userId : ℕ) (op : TenantOp) : TenantRequest := ⟨userId, op, n, fun k ↦ 10 * k + n⟩

/-- Both users create a goal; the first one saves for the goal of the second, which fails, and then
ends it, which fails too; the second saves for its own. -/
def intruder : List TenantRequest :=
  [requestOf 1 1 (.createGoal ⟨"Rent", 500000, 90, none⟩),
    requestOf 2 2 (.createGoal ⟨"School", 800000, 120, some 250000⟩),
    requestOf 3 1 (.createTransaction ⟨.in, 1000, "2026-09-01".toList, some 2, none⟩),
    requestOf 4 1 (.endGoal 2 .cancelled),
    requestOf 5 2 (.createTransaction ⟨.in, 2000, "2026-09-02".toList, some 2, none⟩),
    requestOf 6 2 .getStability]

theorem intruder_distinct : DistinctIds intruder where
  each r hr := by
    simp only [intruder, List.mem_cons, List.not_mem_nil, or_false] at hr
    obtain rfl | rfl | rfl | rfl | rfl | rfl := hr <;> intro k k' h <;>
      simp only [requestOf] at h <;> omega
  across := by
    simp only [intruder, requestOf, List.pairwise_cons, List.mem_cons, List.not_mem_nil, or_false,
      forall_eq_or_imp, forall_eq]
    and_intros <;> first | exact List.Pairwise.nil | (intros; contradiction) | (intro k k'; grind)

end Demo

open Demo

/-- What user 1 asks for about the rows of user 2 changes nothing for user 2. -/
theorem tenant_isolation_intruder : DistinctIds intruder ∧
    (tenantsAfter plainRuntime (.ofUsers twoUsers) intruder).transactions.length = 1 ∧
    answersTo 2 (tenantAnswers plainRuntime (.ofUsers twoUsers)
        (intruder.filter fun r ↦ r.userId ≠ 1)) =
      answersTo 2 (tenantAnswers plainRuntime (.ofUsers twoUsers) intruder) :=
  ⟨intruder_distinct, by decide +kernel,
    ((tenant_isolation plainRuntime twoUsers intruder intruder_distinct).1 1 2 (by decide)).1⟩

end Stead
