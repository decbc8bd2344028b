import Stead.Model.Effects

/-!
# Chains of refresh tokens

What it is for the tokens of a user to form chains, one for each family: a token names its successor
when it is replaced (`LinearOn`). The tokens are given by a function from row numbers, which is the
committed table or the table as one transaction sees it; nothing here is about statements or
threads.

## Linear families

In a linear family every token but the last is revoked and names the next one, in the order of the
row numbers. So there is at most one live token, and it is the last (`LinearOn.live_unique`,
`LinearOn.replacedById_of_live`).

## What chains survive

A chain survives that its tokens are revoked (`LinearOn.aged`), that a family begins
(`LinearOn.begin`) and that its last token is replaced (`LinearOn.replace`). Between the insertion
of the new token and the link to it, it is the table with the link added that is linear (`linked`):
a rotation inserts before it links, and may fail in between.
-/

namespace Stead

/-- A version of a token and a later one: the columns that never change have not changed, and what
has been set is still set. -/
structure RefreshToken.Leads (r r' : RefreshToken) : Prop where
  userId : r'.userId = r.userId
  familyId : r'.familyId = r.familyId
  tokenHash : r'.tokenHash = r.tokenHash
  revoked : r.revokedAt.isSome → r'.revokedAt.isSome
  replaced : ∀ n, r.replacedById = some n → r'.replacedById = some n

/-- A token and the token some time later, not replaced in between. -/
structure RefreshToken.Aged (r r' : RefreshToken) : Prop extends r.Leads r' where
  replacedById : r'.replacedById = r.replacedById

theorem RefreshToken.Leads.refl (r : RefreshToken) : r.Leads r :=
  ⟨rfl, rfl, rfl, fun h ↦ h, fun _ h ↦ h⟩

theorem RefreshToken.Leads.trans {r r' r'' : RefreshToken} (h : r.Leads r') (h' : r'.Leads r'') :
    r.Leads r'' :=
  ⟨h'.userId.trans h.userId, h'.familyId.trans h.familyId, h'.tokenHash.trans h.tokenHash,
    fun hr ↦ h'.revoked (h.revoked hr), fun n hn ↦ h'.replaced n (h.replaced n hn)⟩

theorem RefreshToken.Aged.refl (r : RefreshToken) : r.Aged r := ⟨.refl r, rfl⟩

theorem RefreshToken.Aged.revoke (r : RefreshToken) (at_ : ℤ) :
    r.Aged { r with revokedAt := some at_ } :=
  ⟨⟨rfl, rfl, rfl, fun _ ↦ rfl, fun _ h ↦ h⟩, rfl⟩

/-- The tokens of a user are linear: a replaced token is revoked and names a later token of its
family, and the tokens of a family follow one another in the order of their insertion. -/
structure LinearOn (u : ℕ) (f : ℕ → Option RefreshToken) : Prop where
  replaced : ∀ a r n, f a = some r → r.userId = u → r.replacedById = some n →
    r.revokedAt.isSome ∧ a < n ∧ ∃ r', f n = some r' ∧ r'.userId = u ∧ r'.familyId = r.familyId
  ordered : ∀ a b r r', a < b → f a = some r → f b = some r' → r.userId = u → r'.userId = u →
    r'.familyId = r.familyId → ∃ n, r.replacedById = some n ∧ n ≤ b

/-- The tokens of a user in `g` are those in `f`, some time later. -/
structure AgedOn (u : ℕ) (f g : ℕ → Option RefreshToken) : Prop where
  later : ∀ k r, f k = some r → r.userId = u → ∃ r', g k = some r' ∧ r.Aged r'
  earlier : ∀ k r', g k = some r' → r'.userId = u → ∃ r, f k = some r ∧ r.Aged r'

section Linear

variable {u : ℕ} {f g : ℕ → Option RefreshToken}

/-- A table ages token by token. -/
theorem AgedOn.of_forall (h : ∀ k, g k = f k ∨ ∃ r r', f k = some r ∧ g k = some r' ∧ r.Aged r') :
    AgedOn u f g := by
  refine ⟨fun k r hr _ ↦ ?_, fun k r' hr' _ ↦ ?_⟩
  · rcases h k with he | ⟨r₀, r', h₀, hg, ha⟩
    · exact ⟨r, he.trans hr, .refl r⟩
    · exact ⟨r', hg, Option.some.inj (h₀.symm.trans hr) ▸ ha⟩
  · rcases h k with he | ⟨r, r₀, hf, h₀, ha⟩
    · exact ⟨r', he ▸ hr', .refl r'⟩
    · exact ⟨r, hf, Option.some.inj (h₀.symm.trans hr') ▸ ha⟩

/-- **Revoking keeps chains.** -/
theorem LinearOn.aged (h : LinearOn u f) (hfg : AgedOn u f g) : LinearOn u g := by
  refine ⟨fun a r' n hr' hu hn ↦ ?_, fun a b r r' hab hr hr' hu hu' hF ↦ ?_⟩
  · obtain ⟨r, hr, ha⟩ := hfg.earlier a r' hr' hu
    obtain ⟨hrev, hlt, s, hs, hsu, hsF⟩ :=
      h.replaced a r n hr (ha.userId.symm.trans hu) (ha.replacedById.symm.trans hn)
    obtain ⟨s', hs', has⟩ := hfg.later n s hs hsu
    exact ⟨ha.revoked hrev, hlt, s', hs', has.userId.trans hsu,
      has.familyId.trans (hsF.trans ha.familyId.symm)⟩
  · obtain ⟨r₀, hr₀, ha⟩ := hfg.earlier a r hr hu
    obtain ⟨r₀', hr₀', ha'⟩ := hfg.earlier b r' hr' hu'
    obtain ⟨n, hn, hle⟩ := h.ordered a b r₀ r₀' hab hr₀ hr₀' (ha.userId.symm.trans hu)
      (ha'.userId.symm.trans hu') (ha'.familyId.symm.trans (hF.trans ha.familyId))
    exact ⟨n, ha.replacedById.trans hn, hle⟩

/-- A live token has not been replaced. -/
theorem LinearOn.replacedById_of_live (h : LinearOn u f) {a : ℕ} {r : RefreshToken}
    (ha : f a = some r) (hu : r.userId = u) (hlive : r.revokedAt = none) :
    r.replacedById = none := by
  by_contra hne
  obtain ⟨n, hn⟩ := Option.ne_none_iff_exists'.1 hne
  have := (h.replaced a r n ha hu hn).1
  simp [hlive] at this

/-- **A chain has one live token at most.** -/
theorem LinearOn.live_unique (h : LinearOn u f) {a b : ℕ} {r r' : RefreshToken}
    (ha : f a = some r) (hb : f b = some r') (hu : r.userId = u) (hu' : r'.userId = u)
    (hF : r'.familyId = r.familyId) (hr : r.revokedAt = none) (hr' : r'.revokedAt = none) :
    a = b := by
  rcases lt_trichotomy a b with hab | hab | hba
  · obtain ⟨n, hn, -⟩ := h.ordered a b r r' hab ha hb hu hu' hF
    cases (h.replacedById_of_live ha hu hr).symm.trans hn
  · exact hab
  · obtain ⟨n, hn, -⟩ := h.ordered b a r' r hba hb ha hu' hu hF.symm
    cases (h.replacedById_of_live hb hu' hr').symm.trans hn

/-- The table with a link added. -/
def linked (a n : ℕ) (f : ℕ → Option RefreshToken) (k : ℕ) : Option RefreshToken :=
  if k = a then (f k).map fun r ↦ { r with replacedById := some n } else f k

theorem linked_of_ne {a n k : ℕ} (h : k ≠ a) : linked a n f k = f k := if_neg h

theorem linked_self {a n : ℕ} : linked a n f a =
    (f a).map fun r ↦ { r with replacedById := some n } := if_pos rfl

theorem AgedOn.linked (h : AgedOn u f g) (a n : ℕ) :
    AgedOn u (linked a n f) (linked a n g) := by
  have hlink : ∀ {r r' : RefreshToken}, r.Aged r' →
      ({ r with replacedById := some n } : RefreshToken).Aged { r' with replacedById := some n } :=
    fun h ↦ ⟨⟨h.userId, h.familyId, h.tokenHash, h.revoked, fun _ h ↦ h⟩, rfl⟩
  refine ⟨fun k r hr hu ↦ ?_, fun k r' hr' hu ↦ ?_⟩
  · by_cases hk : k = a
    · subst hk
      rw [linked_self] at hr ⊢
      obtain ⟨r₀, hr₀, rfl⟩ := Option.map_eq_some_iff.1 hr
      obtain ⟨r', hr', ha⟩ := h.later k r₀ hr₀ hu
      exact ⟨_, congrArg _ hr', hlink ha⟩
    · rw [linked_of_ne hk] at hr ⊢
      exact h.later k r hr hu
  · by_cases hk : k = a
    · subst hk
      rw [linked_self] at hr' ⊢
      obtain ⟨r₀', hr₀', rfl⟩ := Option.map_eq_some_iff.1 hr'
      obtain ⟨r, hr, ha⟩ := h.earlier k r₀' hr₀' hu
      exact ⟨_, congrArg _ hr, hlink ha⟩
    · rw [linked_of_ne hk] at hr' ⊢
      exact h.earlier k r' hr' hu

/-- **A family begins** with a token that no other token shares its family with. -/
theorem LinearOn.begin (h : LinearOn u f) {n : ℕ} {r : RefreshToken} (hn : f n = none)
    (hgn : g n = some r) (hg : ∀ k, k ≠ n → g k = f k) (hr : r.replacedById = none)
    (hfresh : ∀ k r', f k = some r' → r'.familyId ≠ r.familyId) : LinearOn u g := by
  refine ⟨fun a s m hs hu hm ↦ ?_, fun a b s s' hab hs hs' hu hu' hF ↦ ?_⟩
  · have han : a ≠ n := by
      rintro rfl
      obtain rfl := Option.some.inj (hgn.symm.trans hs)
      cases hr.symm.trans hm
    obtain ⟨hrev, hlt, t, ht, htu⟩ := h.replaced a s m (hg a han ▸ hs) hu hm
    have hmn : m ≠ n := by
      rintro rfl
      cases hn.symm.trans ht
    exact ⟨hrev, hlt, t, (hg m hmn).trans ht, htu⟩
  · by_cases han : a = n
    · subst han
      rw [hg b (by omega)] at hs'
      cases hgn.symm.trans hs
      exact absurd hF (hfresh b s' hs')
    · rw [hg a han] at hs
      by_cases hbn : b = n
      · subst hbn
        cases hgn.symm.trans hs'
        exact absurd hF.symm (hfresh a s hs)
      · rw [hg b hbn] at hs'
        exact h.ordered a b s s' hab hs hs' hu hu' hF

/-- **The last token of a family is replaced**: once the new token is inserted, the table with the
link added is linear. -/
theorem LinearOn.replace (h : LinearOn u f) {a n : ℕ} {r s : RefreshToken} (ha : f a = some r)
    (hu : r.userId = u) (hrev : r.revokedAt.isSome) (hlast : r.replacedById = none)
    (hn : f n = none) (hnew : ∀ k r', f k = some r' → k < n) (hgn : g n = some s)
    (hg : ∀ k, k ≠ n → g k = f k) (hsu : s.userId = u) (hsF : s.familyId = r.familyId)
    (hs : s.replacedById = none) : LinearOn u (linked a n g) := by
  have han : a ≠ n := fun he ↦ by cases hn.symm.trans (he ▸ ha)
  have hga : linked a n g a = some { r with replacedById := some n } := by
    rw [linked_self, hg a han, ha]
    rfl
  -- No token of the family comes after the one that is replaced.
  have htop : ∀ b s', f b = some s' → s'.userId = u → s'.familyId = r.familyId → b ≤ a := by
    intro b s' hb hbu hbF
    by_contra hlt
    obtain ⟨m, hm, -⟩ := h.ordered a b r s' (by omega) ha hb hu hbu hbF
    cases hlast.symm.trans hm
  have hold : ∀ b s', b ≠ a → b ≠ n → linked a n g b = some s' → f b = some s' := by
    intro b s' hba hbn hb
    rw [linked_of_ne hba, hg b hbn] at hb
    exact hb
  refine ⟨fun b t m ht htu hm ↦ ?_, fun b c t t' hbc ht ht' htu htu' hF ↦ ?_⟩
  · by_cases hba : b = a
    · subst hba
      cases hga.symm.trans ht
      cases hm
      exact ⟨hrev, hnew b r ha, s, (linked_of_ne (Ne.symm han)).trans hgn, hsu, hsF⟩
    · have hbn : b ≠ n := by
        rintro rfl
        rw [linked_of_ne hba, hgn] at ht
        cases ht
        cases hs.symm.trans hm
      obtain ⟨htr, hlt, t', ht', htu', htF⟩ := h.replaced b t m (hold b t hba hbn ht) htu hm
      refine ⟨htr, hlt, ?_⟩
      by_cases hma : m = a
      · subst hma
        cases ha.symm.trans ht'
        exact ⟨_, hga, hu, htF⟩
      · have hmn : m ≠ n := (hnew m t' ht').ne
        exact ⟨t', by rw [linked_of_ne hma, hg m hmn, ht'], htu', htF⟩
  · by_cases hcn : c = n
    · subst hcn
      rw [linked_of_ne (Ne.symm han), hgn] at ht'
      cases ht'
      by_cases hba : b = a
      · subst hba
        cases hga.symm.trans ht
        exact ⟨c, rfl, le_rfl⟩
      · have hb := hold b t hba (by omega) ht
        have hle := htop b t hb htu (hF.symm.trans hsF)
        obtain ⟨m, hm, hma⟩ := h.ordered b a t r (by omega) hb ha htu hu (hsF.symm.trans hF)
        exact ⟨m, hm, hma.trans (hnew a r ha).le⟩
    · have hbn : b ≠ n := by
        rintro rfl
        by_cases hca : c = a
        · exact absurd (hnew a r ha) (by omega)
        · exact absurd (hnew c t' (hold c t' hca hcn ht')) (by omega)
      by_cases hca : c = a
      · subst hca
        cases hga.symm.trans ht'
        exact h.ordered b c t r hbc (hold b t (by omega) hbn ht) ha htu hu hF
      · have hc := hold c t' hca hcn ht'
        by_cases hba : b = a
        · subst hba
          cases hga.symm.trans ht
          exact absurd (htop c t' hc htu' hF) (by omega)
        · exact h.ordered b c t t' hbc (hold b t hba hbn ht) hc htu htu' hF

end Linear

end Stead
