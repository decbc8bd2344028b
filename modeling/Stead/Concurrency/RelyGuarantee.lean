import Stead.Concurrency.System

/-!
# Rely and guarantee

A program logic for threads over a shared store. A `Protocol` fixes what all threads agree on: an
*invariant* of the state and a *guarantee* every step of a thread gives to the others. A thread is
`Safe` in a state when, whatever the others do in between, each statement it issues keeps the
invariant and gives the guarantee, and its answer meets the postcondition.

The rely of a thread is not a separate relation to be chosen: it is what the other threads
actually do (`Move`), under their guarantee and the invariant. So facts about the machine, such as
that nobody writes a row another transaction has locked, need no mention in the guarantee.

## Soundness

`AllSafe.run` is the reason for the definitions: when every thread is safe at the start, then in
every run the invariant holds throughout and every thread stays safe. So every step gives the
guarantee (`AllSafe.along`), and every answer and every error meets its postcondition
(`AllSafe.answer`, `AllSafe.error`).

## Triples

`Protocol.Triple` packages safety for proofs about programs, with one rule for each way of building
a program. A precondition has to be `Stable`, kept by the steps of the others; what is said of the
history of the thread alone always is (`Stable.history`), and what nobody takes back is `Lasting`
and can be carried through any program (`Triple.lasting`).

A protocol can be strengthened by a further invariant (`Protocol.strengthen`), and the triples of
the weaker one remain.
-/

namespace Concurrency

open Relation

variable {S : Interface} {ι κ σ ε α β : Type}

/-- What the threads of a machine agree on, over the runs that meet a restriction. -/
structure Protocol (M : Machine S ι κ σ) (A : Restriction S ι κ σ) where
  /-- The invariant of the state. -/
  Inv : State S ι σ → Prop
  /-- What a step of thread `i` guarantees to the others. -/
  Guar : ι → State S ι σ → State S ι σ → Prop
  /-- Losing a thread keeps the invariant and gives the guarantee. -/
  crash_ok : ∀ i s, Inv s → A.crash i s → Inv (s.setShared (M.crash i s.shared)) ∧
    Guar i s (s.setShared (M.crash i s.shared))

namespace Protocol

variable {M : Machine S ι κ σ} {A : Restriction S ι κ σ} (P : Protocol M A)

/-- A step of a thread other than `i`. -/
structure Rely (i : ι) (s s' : State S ι σ) : Prop where
  /-- Some other thread moved, and gave its guarantee. -/
  move : ∃ j, j ≠ i ∧ Move M A j s s' ∧ P.Guar j s s'
  /-- The invariant held before. -/
  inv : P.Inv s
  /-- The invariant holds after. -/
  inv' : P.Inv s'

/-- Any number of steps of other threads. -/
abbrev Relies (i : ι) : State S ι σ → State S ι σ → Prop := ReflTransGen (P.Rely i)

/-- What the others do keeps the invariant. -/
theorem Relies.inv {P : Protocol M A} {i : ι} {s s' : State S ι σ} (h : P.Relies i s s')
    (hs : P.Inv s) : P.Inv s' := by
  cases h with
  | refl => exact hs
  | tail _ h => exact h.inv'

/-- A thread running the program is safe in the state: its statements keep the invariant and give
the guarantee, and it ends in `Q` or in `E`, whatever the others do. -/
def Safe (i : ι) (Q : α → State S ι σ → Prop) (E : ε → State S ι σ → Prop) :
    Prog S ε α → State S ι σ → Prop
  | .pure a, s => ∀ s', P.Relies i s s' → Q a s'
  | .throw e, s => ∀ s', P.Relies i s s' → E e s'
  | .stmt op k, s => ∀ s', P.Relies i s s' → ∀ κ r t, A.stmt i κ op s' →
      M.exec i κ op s'.shared = some (r, t) →
        P.Inv (s'.after i op r t) ∧ P.Guar i s' (s'.after i op r t) ∧
          Safe i Q E (k r) (s'.after i op r t)

variable {P}
variable {i : ι} {Q Q' : α → State S ι σ → Prop} {E E' : ε → State S ι σ → Prop}

/-- Safety survives what the others do. -/
theorem Safe.relies {p : Prog S ε α} {s s' : State S ι σ} (h : P.Safe i Q E p s)
    (hr : P.Relies i s s') : P.Safe i Q E p s' := by
  cases p with
  | pure a => exact fun t ht ↦ h t (hr.trans ht)
  | throw e => exact fun t ht ↦ h t (hr.trans ht)
  | stmt op k => exact fun t ht ↦ h t (hr.trans ht)

/-- Less may be concluded at the end. -/
theorem Safe.mono {p : Prog S ε α} {s : State S ι σ} (h : P.Safe i Q E p s) (hs : P.Inv s)
    (hQ : ∀ a s, P.Inv s → Q a s → Q' a s) (hE : ∀ e s, P.Inv s → E e s → E' e s) :
    P.Safe i Q' E' p s := by
  induction p generalizing s with
  | pure a => exact fun t ht ↦ hQ a t (ht.inv hs) (h t ht)
  | throw e => exact fun t ht ↦ hE e t (ht.inv hs) (h t ht)
  | stmt op k ih =>
    intro t ht c r u ha hx
    obtain ⟨hi, hg, hk⟩ := h t ht c r u ha hx
    exact ⟨hi, hg, ih r hk hi⟩

/-! ### Soundness -/

/-- Every thread is safe, with its own postconditions, and the invariant holds. -/
def AllSafe (P : Protocol M A) (Q : ι → α → State S ι σ → Prop) (E : ι → ε → State S ι σ → Prop)
    (c : Config S ι σ ε α) : Prop :=
  P.Inv c.state ∧ ∀ i p, c.progs i = some p → P.Safe i (Q i) (E i) p c.state

variable {Qs : ι → α → State S ι σ → Prop} {Es : ι → ε → State S ι σ → Prop}

variable [DecidableEq ι] in
/-- **One step.** The thread that moves stays safe by definition, and gives the guarantee the
others rely on to stay safe. -/
theorem AllSafe.step {c c' : Config S ι σ ε α} (h : P.AllSafe Qs Es c) (hc : Step M A c c') :
    P.AllSafe Qs Es c' ∧ ∃ i, Move M A i c.state c'.state ∧ P.Guar i c.state c'.state := by
  obtain ⟨hinv, hsafe⟩ := h
  cases hc with
  | @stmt i x op k r t hp ha hx =>
    obtain ⟨hi, hg, hk⟩ := hsafe i _ hp _ .refl x r t ha hx
    refine ⟨⟨hi, fun j p hj ↦ ?_⟩, i, .stmt ha hx, hg⟩
    by_cases hij : j = i
    · subst hij
      rw [Config.after_progs_self, Option.some.injEq] at hj
      exact hj ▸ hk
    · rw [Config.after_progs_of_ne _ hij] at hj
      exact (hsafe j p hj).relies (.single ⟨⟨i, Ne.symm hij, .stmt ha hx, hg⟩, hinv, hi⟩)
  | @crash i op k hp ha =>
    obtain ⟨hi, hg⟩ := P.crash_ok i c.state hinv ha
    refine ⟨⟨hi, fun j p hj ↦ ?_⟩, i, .crash ha, hg⟩
    by_cases hij : j = i
    · subst hij
      simp at hj
    · rw [Config.lose_progs_of_ne _ hij] at hj
      exact (hsafe j p hj).relies (.single ⟨⟨i, Ne.symm hij, .crash ha, hg⟩, hinv, hi⟩)

variable [DecidableEq ι] in
/-- **Soundness.** In every run from a configuration in which all threads are safe, all threads
remain safe; in particular the invariant holds. -/
theorem AllSafe.run {c c' : Config S ι σ ε α} (h : P.AllSafe Qs Es c) (hc : Run M A c c') :
    P.AllSafe Qs Es c' := by
  induction hc with
  | refl => exact h
  | tail _ hs ih => exact (ih.step hs).1

variable [DecidableEq ι] in
/-- A relation that every guaranteed step is contained in holds along every run. -/
theorem AllSafe.along {R : State S ι σ → State S ι σ → Prop} (hrefl : ∀ s, R s s)
    (htrans : ∀ s t u, R s t → R t u → R s u)
    (hR : ∀ i s s', P.Inv s → P.Inv s' → Move M A i s s' → P.Guar i s s' → R s s')
    {c c' : Config S ι σ ε α} (h : P.AllSafe Qs Es c) (hc : Run M A c c') :
    R c.state c'.state := by
  induction hc with
  | refl => exact hrefl _
  | tail hb hs ih =>
    obtain ⟨hsafe, i, hm, hg⟩ := (h.run hb).step hs
    exact htrans _ _ _ ih (hR i _ _ (h.run hb).1 hsafe.1 hm hg)

/-- An answer meets the postcondition of its thread. -/
theorem AllSafe.answer {c : Config S ι σ ε α} (h : P.AllSafe Qs Es c) {i : ι} {a : α}
    (ha : c.Answered i (.ok a)) : Qs i a c.state := by
  obtain ⟨p, hp, ho⟩ := ha
  cases p with
  | pure b =>
    simp only [Prog.outcome, Option.some.injEq, Except.ok.injEq] at ho
    exact ho ▸ h.2 i _ hp _ .refl
  | throw e => simp [Prog.outcome] at ho
  | stmt op k => simp [Prog.outcome] at ho

/-- A thrown error meets the error postcondition of its thread. -/
theorem AllSafe.error {c : Config S ι σ ε α} (h : P.AllSafe Qs Es c) {i : ι} {e : ε}
    (ha : c.Answered i (.error e)) : Es i e c.state := by
  obtain ⟨p, hp, ho⟩ := ha
  cases p with
  | pure b => simp [Prog.outcome] at ho
  | throw b =>
    simp only [Prog.outcome, Option.some.injEq, Except.error.injEq] at ho
    exact ho ▸ h.2 i _ hp _ .refl
  | stmt op k => simp [Prog.outcome] at ho

/-! ### Triples -/

/-- An assertion no other thread can falsify. -/
def Stable (P : Protocol M A) (i : ι) (R : State S ι σ → Prop) : Prop :=
  ∀ s s', P.Rely i s s' → R s → R s'

/-- A stable condition is kept through any number of steps of the others. -/
theorem Stable.relies {R : State S ι σ → Prop} (h : P.Stable i R) {s s' : State S ι σ}
    (hr : P.Relies i s s') (hs : R s) : R s' := by
  induction hr with
  | refl => exact hs
  | tail _ h' ih => exact h _ _ h' ih

theorem Stable.and {R R' : State S ι σ → Prop} (h : P.Stable i R) (h' : P.Stable i R') :
    P.Stable i fun s ↦ R s ∧ R' s :=
  fun s s' hr hs ↦ ⟨h s s' hr hs.1, h' s s' hr hs.2⟩

theorem Stable.all {γ : Sort*} {R : γ → State S ι σ → Prop} (h : ∀ x, P.Stable i (R x)) :
    P.Stable i fun s ↦ ∀ x, R x s :=
  fun s s' hr hs x ↦ h x s s' hr (hs x)

/-- What does not depend on the state. -/
theorem Stable.const {p : Prop} : P.Stable i fun _ ↦ p := fun _ _ _ hp ↦ hp

variable [DecidableEq ι] in
/-- What a thread has executed is no matter of the others. -/
theorem Rely.history {s s' : State S ι σ} (h : P.Rely i s s') : s'.history i = s.history i := by
  obtain ⟨j, hj, hm, -⟩ := h.move
  cases hm with
  | stmt ha hx => exact State.after_history_of_ne _ hj _ _ _
  | crash ha => exact State.setShared_history _ _ _

variable [DecidableEq ι] in
/-- What a thread has done itself is stable. -/
theorem Stable.history {H : List (Event S ι σ) → Prop} : P.Stable i fun s ↦ H (s.history i) := by
  intro s s' hr hs
  show H (s'.history i)
  rw [hr.history]
  exact hs

/-- The program is safe in every state that meets the invariant and the precondition. -/
def Triple (P : Protocol M A) (i : ι) (Pre : State S ι σ → Prop) (p : Prog S ε α)
    (Q : α → State S ι σ → Prop) (E : ε → State S ι σ → Prop) : Prop :=
  ∀ s, P.Inv s → Pre s → P.Safe i Q E p s

variable {Pre Pre' : State S ι σ → Prop}

/-- A program that has ended. -/
theorem Triple.pure {a : α} (hst : P.Stable i Pre) (h : ∀ s, P.Inv s → Pre s → Q a s) :
    P.Triple i Pre (.pure a : Prog S ε α) Q E :=
  fun _ hs hp t ht ↦ h t (ht.inv hs) (hst.relies ht hp)

theorem Triple.throw {e : ε} (hst : P.Stable i Pre) (h : ∀ s, P.Inv s → Pre s → E e s) :
    P.Triple i Pre (.throw e : Prog S ε α) Q E :=
  fun _ hs hp t ht ↦ h t (ht.inv hs) (hst.relies ht hp)

/-- **One statement**: the precondition is stable, the statement keeps the invariant, gives the
guarantee and establishes the precondition of what follows. -/
theorem Triple.stmt {op : S.Op} {k : S.Resp op → Prog S ε α}
    (Mid : S.Resp op → State S ι σ → Prop) (hst : P.Stable i Pre)
    (hop : ∀ s κ r t, P.Inv s → Pre s → A.stmt i κ op s → M.exec i κ op s.shared = some (r, t) →
      P.Inv (s.after i op r t) ∧ P.Guar i s (s.after i op r t) ∧ Mid r (s.after i op r t))
    (hk : ∀ r, P.Triple i (Mid r) (k r) Q E) : P.Triple i Pre (.stmt op k) Q E := by
  intro s hs hp t ht c r u ha hx
  obtain ⟨hi, hg, hm⟩ := hop t c r u (ht.inv hs) (hst.relies ht hp) ha hx
  exact ⟨hi, hg, hk r _ hi hm⟩

/-- **Consequence**, where the invariant may be used. -/
theorem Triple.conseq {p : Prog S ε α} (h : P.Triple i Pre p Q E)
    (hpre : ∀ s, P.Inv s → Pre' s → Pre s) (hQ : ∀ a s, P.Inv s → Q a s → Q' a s)
    (hE : ∀ e s, P.Inv s → E e s → E' e s) : P.Triple i Pre' p Q' E' :=
  fun s hs hp ↦ (h s hs (hpre s hs hp)).mono hs hQ hE

theorem Triple.pre {p : Prog S ε α} (h : P.Triple i Pre p Q E)
    (hpre : ∀ s, P.Inv s → Pre' s → Pre s) : P.Triple i Pre' p Q E :=
  fun s hs hp ↦ h s hs (hpre s hs hp)

theorem Triple.post {p : Prog S ε α} (h : P.Triple i Pre p Q E)
    (hQ : ∀ a s, P.Inv s → Q a s → Q' a s) (hE : ∀ e s, P.Inv s → E e s → E' e s) :
    P.Triple i Pre p Q' E' :=
  h.conseq (fun _ _ h ↦ h) hQ hE

theorem Triple.ite {c : Prop} [Decidable c] {p q : Prog S ε α} (hp : c → P.Triple i Pre p Q E)
    (hq : ¬ c → P.Triple i Pre q Q E) : P.Triple i Pre (if c then p else q) Q E := by
  split
  · exact hp ‹_›
  · exact hq ‹_›

/-- A precondition may be assumed of the state it is used in. -/
theorem Triple.assume {p : Prog S ε α} {c : Prop} (h : c → P.Triple i Pre p Q E) :
    P.Triple i (fun s ↦ c ∧ Pre s) p Q E :=
  fun s hs hp ↦ h hp.1 s hs hp.2

/-- What is known of some value is known of one. -/
theorem Triple.exists {γ : Sort*} {R : γ → State S ι σ → Prop} {p : Prog S ε α}
    (h : ∀ x, P.Triple i (R x) p Q E) : P.Triple i (fun s ↦ ∃ x, R x s) p Q E :=
  fun s hs ⟨x, hx⟩ ↦ h x s hs hx

/-- **Sequencing.** -/
theorem Triple.bind {p : Prog S ε β} {f : β → Prog S ε α} {R : β → State S ι σ → Prop}
    (hp : P.Triple i Pre p R E) (hf : ∀ b, P.Triple i (R b) (f b) Q E) :
    P.Triple i Pre (p >>= f) Q E := by
  have key : ∀ (p : Prog S ε β) (s), P.Inv s → P.Safe i R E p s →
      P.Safe i Q E (p >>= f) s := by
    intro p
    induction p with
    | pure b => exact fun s hs h ↦ hf b s hs (h s .refl)
    | throw e => exact fun s hs h ↦ h
    | stmt op k ih =>
      intro s hs h t ht c r u ha hx
      obtain ⟨hi, hg, hk⟩ := h t ht c r u ha hx
      exact ⟨hi, hg, ih r _ hi hk⟩
  exact fun s hs hpre ↦ key p s hs (hp s hs hpre)

/-- **Handling an error**: the handler starts from what the body's errors guarantee. -/
theorem Triple.tryCatch {p : Prog S ε α} {h : ε → Prog S ε α} {R : ε → State S ι σ → Prop}
    (hp : P.Triple i Pre p Q R) (hh : ∀ e, P.Triple i (R e) (h e) Q E) :
    P.Triple i Pre (p.tryCatch h) Q E := by
  have key : ∀ (p : Prog S ε α) (s), P.Inv s → P.Safe i Q R p s →
      P.Safe i Q E (p.tryCatch h) s := by
    intro p
    induction p with
    | pure b => exact fun s hs h ↦ h
    | throw e => exact fun s hs h ↦ hh e s hs (h s .refl)
    | stmt op k ih =>
      intro s hs h t ht c r u ha hx
      obtain ⟨hi, hg, hk⟩ := h t ht c r u ha hx
      exact ⟨hi, hg, ih r _ hi hk⟩
  exact fun s hs hpre ↦ key p s hs (hp s hs hpre)

/-- **A loop** along a list keeps what each iteration keeps. -/
theorem Triple.forEach {γ : Type} {xs : List γ} {body : γ → Prog S ε Unit}
    (hst : P.Stable i Pre) (h : ∀ x ∈ xs, P.Triple i Pre (body x) (fun _ ↦ Pre) E) :
    P.Triple i Pre (Prog.forEach xs body) (fun _ ↦ Pre) E := by
  induction xs with
  | nil => exact .pure hst fun _ _ h ↦ h
  | cons x rest ih =>
    exact .bind (h x (by simp)) fun _ ↦ ih fun y hy ↦ h y (List.mem_cons_of_mem x hy)

/-- A family of programs with a triple each starts out safe. -/
theorem AllSafe.start {t : σ} {progs : ι → Prog S ε α} (Pres : ι → State S ι σ → Prop)
    (hinv : P.Inv ⟨t, []⟩) (hpre : ∀ i, Pres i ⟨t, []⟩)
    (h : ∀ i, P.Triple i (Pres i) (progs i) (Qs i) (Es i)) :
    P.AllSafe Qs Es (Config.start t progs) := by
  refine ⟨hinv, fun i p hp ↦ ?_⟩
  cases hp
  exact h i _ hinv (hpre i)

/-- **Harmless programs.** When every statement a program can issue keeps the invariant, gives the
guarantee and keeps a stable assertion, the whole program keeps the assertion. -/
theorem Triple.of_all {p : Prog S ε α} {C : S.Op → Prop} (hp : p.All C) (hst : P.Stable i Pre)
    (hop : ∀ op, C op → ∀ s κ r t, P.Inv s → Pre s → A.stmt i κ op s →
      M.exec i κ op s.shared = some (r, t) →
        P.Inv (s.after i op r t) ∧ P.Guar i s (s.after i op r t) ∧ Pre (s.after i op r t)) :
    P.Triple i Pre p (fun _ ↦ Pre) (fun _ ↦ Pre) := by
  induction p with
  | pure a => exact .pure hst fun _ _ h ↦ h
  | throw e => exact .throw hst fun _ _ h ↦ h
  | stmt op k ih => exact .stmt (fun _ ↦ Pre) hst (hop op hp.1) fun r ↦ ih r (hp.2 r)

/-- **The frame rule.** A stable assertion that the statements of a program keep may be assumed
throughout. -/
theorem Triple.frame {p : Prog S ε α} {C : S.Op → Prop} {R : State S ι σ → Prop}
    (h : P.Triple i Pre p Q E) (hp : p.All C) (hst : P.Stable i R)
    (hop : ∀ op, C op → ∀ s κ r t, P.Inv s → P.Inv (s.after i op r t) →
      P.Guar i s (s.after i op r t) → A.stmt i κ op s →
        M.exec i κ op s.shared = some (r, t) → R s → R (s.after i op r t)) :
    P.Triple i (fun s ↦ Pre s ∧ R s) p (fun a s ↦ Q a s ∧ R s) fun e s ↦ E e s ∧ R s := by
  have key : ∀ (p : Prog S ε α), p.All C → ∀ s, P.Inv s → P.Safe i Q E p s → R s →
      P.Safe i (fun a s ↦ Q a s ∧ R s) (fun e s ↦ E e s ∧ R s) p s := by
    intro p
    induction p with
    | pure a => exact fun _ s hs h hR t ht ↦ ⟨h t ht, hst.relies ht hR⟩
    | throw e => exact fun _ s hs h hR t ht ↦ ⟨h t ht, hst.relies ht hR⟩
    | stmt op k ih =>
      intro hp s hs h hR t ht c r u ha hx
      obtain ⟨hi, hg, hk⟩ := h t ht c r u ha hx
      exact ⟨hi, hg, ih r (hp.2 r) _ hi hk
        (hop op hp.1 t c r u (ht.inv hs) hi hg ha hx (hst.relies ht hR))⟩
  exact fun s hs hpre ↦ key p hp s hs (h s hs hpre.1) hpre.2

/-- An assertion that holds from now on, whoever moves. -/
def Lasting (P : Protocol M A) (R : State S ι σ → Prop) : Prop :=
  ∀ j s s', P.Inv s → P.Inv s' → Move M A j s s' → P.Guar j s s' → R s → R s'

/-- What lasts is stable. -/
theorem Lasting.stable {R : State S ι σ → Prop} (h : P.Lasting R) : P.Stable i R := by
  intro s s' hr hs
  obtain ⟨j, -, hm, hg⟩ := hr.move
  exact h j s s' hr.inv hr.inv' hm hg hs

variable [DecidableEq ι] in
/-- What holds from now on holds at the end of every run. -/
theorem AllSafe.lasting {R : State S ι σ → Prop} (hR : P.Lasting R) {c c' : Config S ι σ ε α}
    (h : P.AllSafe Qs Es c) (hc : Run M A c c') (hs : R c.state) : R c'.state :=
  h.along (R := fun s s' ↦ R s → R s') (fun _ h ↦ h) (fun _ _ _ h h' hs ↦ h' (h hs))
    (fun i s s' hs hs' hm hg ↦ hR i s s' hs hs' hm hg) hc hs

/-- What lasts is there at the end. -/
theorem Triple.lasting {p : Prog S ε α} {R : State S ι σ → Prop} (h : P.Triple i Pre p Q E)
    (hR : P.Lasting R) :
    P.Triple i (fun s ↦ Pre s ∧ R s) p (fun a s ↦ Q a s ∧ R s) fun e s ↦ E e s ∧ R s :=
  h.frame (C := fun _ ↦ True) p.all_true hR.stable
    fun _ _ s _ _ _ hs hs' hg ha hx ↦ hR i s _ hs hs' (.stmt ha hx) hg

/-! ### A further invariant -/

section Strengthen

variable {J : State S ι σ → Prop}
  {hcrash : ∀ i s, J s → A.crash i s → J (s.setShared (M.crash i s.shared))}

/-- The protocol with a further invariant, which the loss of a thread keeps. -/
def strengthen (P : Protocol M A) (J : State S ι σ → Prop)
    (hcrash : ∀ i s, J s → A.crash i s → J (s.setShared (M.crash i s.shared))) : Protocol M A where
  Inv s := P.Inv s ∧ J s
  Guar := P.Guar
  crash_ok i s hs ha :=
    ⟨⟨(P.crash_ok i s hs.1 ha).1, hcrash i s hs.2 ha⟩, (P.crash_ok i s hs.1 ha).2⟩

/-- The steps under the stronger protocol are steps under the weaker one. -/
theorem Relies.of_strengthen {s s' : State S ι σ}
    (h : (P.strengthen J hcrash).Relies i s s') : P.Relies i s s' :=
  ReflTransGen.mono (fun _ _ h ↦ ⟨h.move, h.inv.1, h.inv'.1⟩) _ _ h

/-- What was stable remains stable under the stronger invariant. -/
theorem Stable.strengthen {R : State S ι σ → Prop} (h : P.Stable i R) :
    (P.strengthen J hcrash).Stable i R :=
  fun _ _ hr hs ↦ h _ _ ⟨hr.move, hr.inv.1, hr.inv'.1⟩ hs

/-- **A program whose statements keep the further invariant** by themselves has the triples it had
without. -/
theorem Triple.strengthen {p : Prog S ε α} {C : S.Op → Prop} (h : P.Triple i Pre p Q E)
    (hp : p.All C) (hJ : ∀ op, C op → ∀ s κ r t, J s → A.stmt i κ op s →
      M.exec i κ op s.shared = some (r, t) → J (s.after i op r t)) :
    (P.strengthen J hcrash).Triple i Pre p Q E := by
  have key : ∀ (p : Prog S ε α), p.All C → ∀ s, (P.strengthen J hcrash).Inv s →
      P.Safe i Q E p s → (P.strengthen J hcrash).Safe i Q E p s := by
    intro p
    induction p with
    | pure a => exact fun _ s _ h t ht ↦ h t ht.of_strengthen
    | throw e => exact fun _ s _ h t ht ↦ h t ht.of_strengthen
    | stmt op k ih =>
      intro hp s hs h t ht c r u ha hx
      obtain ⟨hi, hg, hk⟩ := h t ht.of_strengthen c r u ha hx
      have hi' : (P.strengthen J hcrash).Inv (t.after i op r u) :=
        ⟨hi, hJ op hp.1 t c r u (ht.inv hs).2 ha hx⟩
      exact ⟨hi', hg, ih r (hp.2 r) _ hi' hk⟩
  exact fun s hs hpre ↦ key p hp s hs (h s hs.1 hpre)

end Strengthen

end Protocol

end Concurrency
