import Mathlib.Data.List.Nodup
import Stead.Concurrency.System

/-!
# One thread at a time

What a program does when nobody comes in between. `Prog.Ends` is total correctness: under all
choices of a kind, each statement can be executed when its turn comes, and the program ends in the
postcondition.

Nothing here is needed to know what cannot happen, which is a matter of every interleaving. It says
what can be made to happen from a state, however that state was reached.

## One thread

The rules of `Ends` follow the text of the program, with what it ends with handed on
(`Prog.Ends.bind`, `Prog.Ends.tryCatch`); what a program keeps by itself, and what it ends with by
itself, may be added (`Prog.Ends.keeps`, `Prog.Ends.of_outcome`). Programs are well founded, so a
thread that runs alone answers (`Prog.Ends.answers`), and its answer meets the postcondition
(`Solo.answered`).

## Many threads

Threads may take turns: `InTurn` lets each thread of a list run alone until it has answered. What is
to hold with so many turns left is carried from one turn to the next (`inTurn_ends`), so a measure
of what is left to do becomes a number of turns.
-/

namespace Concurrency

variable {S : Interface} {ι κ σ ε α β : Type} {M : Machine S ι κ σ} {F : κ → Prop} {i : ι}

/-- Run alone from the state, the program ends in `Q`, under all choices that meet `F`. -/
def Prog.Ends (M : Machine S ι κ σ) (F : κ → Prop) (i : ι) (Q : Except ε α → State S ι σ → Prop) :
    Prog S ε α → State S ι σ → Prop
  | .pure a, s => Q (.ok a) s
  | .throw e, s => Q (.error e) s
  | .stmt op k, s => (∃ x, F x ∧ (M.exec i x op s.shared).isSome) ∧
      ∀ x r t, F x → M.exec i x op s.shared = some (r, t) →
        (k r).Ends M F i Q (s.after i op r t)

namespace Prog.Ends

variable {Q Q' : Except ε α → State S ι σ → Prop} {p : Prog S ε α} {s : State S ι σ}

/-- Less may be concluded at the end. -/
theorem mono (h : p.Ends M F i Q s) (hQ : ∀ o s, Q o s → Q' o s) : p.Ends M F i Q' s := by
  induction p generalizing s with
  | pure a => exact hQ _ _ h
  | throw e => exact hQ _ _ h
  | stmt op k ih => exact ⟨h.1, fun x r t hx he ↦ ih r (h.2 x r t hx he)⟩

/-- Sequencing: what the first program ends in is where the second starts. -/
theorem bind {R : Except ε α → State S ι σ → Prop} {Q : Except ε β → State S ι σ → Prop}
    {f : α → Prog S ε β} (hp : p.Ends M F i R s)
    (hok : ∀ a s, R (.ok a) s → (f a).Ends M F i Q s)
    (herr : ∀ e s, R (.error e) s → Q (.error e) s) : (p >>= f).Ends M F i Q s := by
  induction p generalizing s with
  | pure a => exact hok a s hp
  | throw e => exact herr e s hp
  | stmt op k ih => exact ⟨hp.1, fun x r t hx he ↦ ih r (hp.2 x r t hx he)⟩

/-- A handler runs from where the error was thrown. -/
theorem tryCatch {R : Except ε α → State S ι σ → Prop} {f : ε → Prog S ε α}
    (hp : p.Ends M F i R s) (hok : ∀ a s, R (.ok a) s → Q (.ok a) s)
    (herr : ∀ e s, R (.error e) s → (f e).Ends M F i Q s) : (p.tryCatch f).Ends M F i Q s := by
  induction p generalizing s with
  | pure a => exact hok a s hp
  | throw e => exact herr e s hp
  | stmt op k ih => exact ⟨hp.1, fun x r t hx he ↦ ih r (hp.2 x r t hx he)⟩

/-- A handler of a program that throws nothing does not run. -/
theorem tryCatch_of_ok {f : ε → Prog S ε α} (hp : p.Ends M F i Q s)
    (herr : ∀ e s, ¬ Q (.error e) s) : (p.tryCatch f).Ends M F i Q s :=
  hp.tryCatch (fun _ _ h ↦ h) fun e s h ↦ absurd h (herr e s)

/-- What every statement keeps holds in the end as well. -/
theorem keeps {I : State S ι σ → Prop} (h : p.Ends M F i Q s) (hs : I s)
    (hstep : ∀ s x op r t, I s → M.exec i x op s.shared = some (r, t) → I (s.after i op r t)) :
    p.Ends M F i (fun o s ↦ Q o s ∧ I s) s := by
  induction p generalizing s with
  | pure a => exact ⟨h, hs⟩
  | throw e => exact ⟨h, hs⟩
  | stmt op k ih =>
    exact ⟨h.1, fun x r t hx he ↦ ih r (h.2 x r t hx he) (hstep s x op r t hs he)⟩

/-- A program that has ended is where it should be. -/
theorem of_outcome (h : p.Ends M F i Q s) {o : Except ε α} (ho : p.outcome = some o) : Q o s := by
  cases p with
  | pure a =>
    cases ho
    exact h
  | throw e =>
    cases ho
    exact h
  | stmt op k => cases ho

end Prog.Ends

variable [DecidableEq ι]

/-! ### A thread alone -/

/-- A step of thread `i` under a choice that meets `F`. -/
inductive SoloStep (M : Machine S ι κ σ) (F : κ → Prop) (i : ι) :
    Config S ι σ ε α → Config S ι σ ε α → Prop
  | stmt {c : Config S ι σ ε α} {x : κ} {op : S.Op} {k : S.Resp op → Prog S ε α} {r : S.Resp op}
      {t : σ} (hp : c.progs i = some (.stmt op k)) (hx : F x)
      (he : M.exec i x op c.state.shared = some (r, t)) : SoloStep M F i c (c.after i op r t (k r))

/-- Any number of steps of thread `i`, and none of others. -/
abbrev Solo (M : Machine S ι κ σ) (F : κ → Prop) (i : ι) :
    Config S ι σ ε α → Config S ι σ ε α → Prop :=
  Relation.ReflTransGen (SoloStep M F i)

section Alone

variable {Q : Except ε α → State S ι σ → Prop} {p : Prog S ε α} {c c' : Config S ι σ ε α}

/-- A thread alone makes a run. -/
theorem Solo.run {A : Restriction S ι κ σ} (h : Solo M F i c c')
    (hA : ∀ x op s, F x → A.stmt i x op s) : Run M A c c' := by
  induction h with
  | refl => exact .refl
  | tail _ hs ih =>
    cases hs with
    | stmt hp hx he => exact ih.tail (.stmt hp (hA _ _ _ hx) he)

/-- The others are left where they are. -/
theorem Solo.others (h : Solo M F i c c') {j : ι} (hj : j ≠ i) : c'.progs j = c.progs j := by
  induction h with
  | refl => rfl
  | tail _ hs ih =>
    cases hs with
    | stmt _ _ _ => exact (Config.after_progs_of_ne _ hj _ _ _ _).trans ih

/-- **The rest of a program** ends where the program does. -/
theorem Solo.ends (h : Solo M F i c c') (hp : c.progs i = some p) (hQ : p.Ends M F i Q c.state) :
    ∃ p', c'.progs i = some p' ∧ p'.Ends M F i Q c'.state := by
  induction h with
  | refl => exact ⟨p, hp, hQ⟩
  | tail _ hs ih =>
    obtain ⟨p', hp', hQ'⟩ := ih
    cases hs with
    | stmt hstmt hx he =>
      obtain rfl := Option.some.inj (hp'.symm.trans hstmt)
      exact ⟨_, Config.after_progs_self .., hQ'.2 _ _ _ hx he⟩

/-- Its answer meets the postcondition. -/
theorem Solo.answered (h : Solo M F i c c') (hp : c.progs i = some p)
    (hQ : p.Ends M F i Q c.state) {o : Except ε α} (ho : c'.Answered i o) : Q o c'.state := by
  obtain ⟨p', hp', hQ'⟩ := h.ends hp hQ
  obtain ⟨p'', hp'', ho⟩ := ho
  obtain rfl := Option.some.inj (hp'.symm.trans hp'')
  exact hQ'.of_outcome ho

/-- **A thread that runs alone answers.** -/
theorem Prog.Ends.answers (hQ : p.Ends M F i Q c.state) (hp : c.progs i = some p) :
    ∃ c' o, Solo M F i c c' ∧ c'.Answered i o := by
  induction p generalizing c with
  | pure a => exact ⟨c, .ok a, .refl, _, hp, rfl⟩
  | throw e => exact ⟨c, .error e, .refl, _, hp, rfl⟩
  | stmt op k ih =>
    obtain ⟨⟨x, hx, hsome⟩, hk⟩ := hQ
    obtain ⟨⟨r, t⟩, he⟩ := Option.isSome_iff_exists.1 hsome
    obtain ⟨c', o, hc', ho⟩ := ih r (c := c.after i op r t (k r)) (hk x r t hx he)
      (Config.after_progs_self ..)
    exact ⟨c', o, .head (.stmt hp hx he) hc', ho⟩

end Alone

/-! ### Threads in turn -/

/-- The threads of the list run alone until they have answered, one after the other. -/
inductive InTurn (M : Machine S ι κ σ) (F : κ → Prop) :
    List ι → Config S ι σ ε α → Config S ι σ ε α → Prop
  | nil (c : Config S ι σ ε α) : InTurn M F [] c c
  | cons {i : ι} {rest : List ι} {c d e : Config S ι σ ε α} {o : Except ε α}
      (hturn : Solo M F i c d) (ho : d.Answered i o) (hrest : InTurn M F rest d e) :
      InTurn M F (i :: rest) c e

section Turns

variable {l : List ι} {c c' : Config S ι σ ε α}

/-- Turns make a run. -/
theorem InTurn.run {A : Restriction S ι κ σ} (h : InTurn M F l c c')
    (hA : ∀ i x op s, F x → A.stmt i x op s) : Run M A c c' := by
  induction h with
  | nil c => exact .refl
  | cons hturn _ _ ih => exact (hturn.run (hA _)).trans ih

/-- The threads that are not in the list are where they were. -/
theorem InTurn.others (h : InTurn M F l c c') {j : ι} (hj : j ∉ l) :
    c'.progs j = c.progs j := by
  induction h with
  | nil c => rfl
  | cons hturn _ _ ih =>
    rw [List.mem_cons, not_or] at hj
    obtain ⟨hi, hrest⟩ := hj
    exact (ih hrest).trans (hturn.others hi)

/-- **What is to hold with so many turns left** holds after every turn, when each program carries it
over its turn. The turns can be taken, all of them. -/
theorem inTurn_ends {I : ℕ → State S ι σ → Prop} {P : Except ε α → Prop}
    {progs : ι → Prog S ε α} (hl : l.Nodup) (hp : ∀ i ∈ l, c.progs i = some (progs i))
    (hI : I l.length c.state)
    (hturn : ∀ i ∈ l, ∀ n s, I (n + 1) s →
      (progs i).Ends M F i (fun o s ↦ P o ∧ I n s) s) :
    (∃ c', InTurn M F l c c') ∧ ∀ c', InTurn M F l c c' →
      I 0 c'.state ∧ ∀ i ∈ l, ∃ o, c'.Answered i o ∧ P o := by
  induction l generalizing c with
  | nil =>
    refine ⟨⟨c, .nil c⟩, fun c' hc' ↦ ?_⟩
    cases hc'
    exact ⟨hI, fun i hi ↦ absurd hi List.not_mem_nil⟩
  | cons i rest ih =>
    obtain ⟨hi, hrest⟩ := List.nodup_cons.1 hl
    have hends := hturn i List.mem_cons_self rest.length c.state hI
    have hfirst := hp i List.mem_cons_self
    -- The rest starts where the first thread has answered, with its programs as they were.
    have hnext : ∀ d o, Solo M F i c d → d.Answered i o → P o ∧
        (∃ c', InTurn M F rest d c') ∧ ∀ c', InTurn M F rest d c' →
          I 0 c'.state ∧ ∀ i ∈ rest, ∃ o, c'.Answered i o ∧ P o := by
      intro d o hd ho
      obtain ⟨hpost, hId⟩ := hd.answered hfirst hends ho
      refine ⟨hpost, ih hrest (fun j hj ↦ ?_) hId
        fun j hj ↦ hturn j (List.mem_cons_of_mem i hj)⟩
      rw [hd.others (ne_of_mem_of_not_mem hj hi)]
      exact hp j (List.mem_cons_of_mem i hj)
    refine ⟨?_, fun c' hc' ↦ ?_⟩
    · obtain ⟨d, o, hd, ho⟩ := hends.answers hfirst
      obtain ⟨c', hc'⟩ := (hnext d o hd ho).2.1
      exact ⟨c', .cons hd ho hc'⟩
    · cases hc' with
      | @cons _ _ _ d _ o hd ho hc' =>
        obtain ⟨hpost, -, hall⟩ := hnext d o hd ho
        obtain ⟨hzero, hanswers⟩ := hall c' hc'
        refine ⟨hzero, fun j hj ↦ ?_⟩
        rcases List.mem_cons.1 hj with rfl | hj
        · obtain ⟨p, hp, hout⟩ := ho
          exact ⟨o, ⟨p, (hc'.others hi).trans hp, hout⟩, hpost⟩
        · exact hanswers j hj

end Turns

end Concurrency
