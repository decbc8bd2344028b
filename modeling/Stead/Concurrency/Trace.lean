import Stead.Concurrency.System

/-!
# Statements in the light of earlier answers

What a program issues next depends on the answers it has had, and what it ends with does too. So
there are facts about a thread that no condition on single statements can express: that it revokes a
token only after it was answered with one, that it answers with a value it has read.

## Keeping to a trace

`Prog.Keeps P Q E` extends `Prog.All` by the answers: `P` is a condition on a statement and the
*trace* of the statements and answers before it, `Q` and `E` are conditions on a value or an error
and the whole trace. Its rules are those of `All`, with the trace handed on (`Keeps.bind`,
`Keeps.tryCatch`, `Keeps.ite`); parts that need no attention are done with `All.keeps` and
`All.keeps_append`, which only say how the trace is extended.

A program over any store keeps what it keeps by itself (`Step.keeps`), so the conditions hold in
every run, of each thread with the trace it has in the state.

## Invariants that rest on it

`Run.invariant_keeps` is the rule for an invariant of the state: it may use, for each statement,
what its thread has been answered before. `Run.invariant_running` has in addition a part for each
running thread, which the statements of the others keep. What an answered call has done is read off
its trace at the end (`Config.Keeps.answer`, `Config.Keeps.thrown`).

`Prog.execute` runs a program alone.
-/

namespace Concurrency

variable {S : Interface} {ι κ σ ε α β : Type}

/-- A statement with its answer. -/
abbrev Exchange (S : Interface) := Σ op : S.Op, S.Resp op

namespace State

variable [DecidableEq ι]

/-- The statements of thread `i` with their answers, in order. -/
def trace (s : State S ι σ) (i : ι) : List (Exchange S) :=
  (s.history i).map fun e ↦ ⟨e.op, e.resp⟩

@[simp] theorem after_trace_self (s : State S ι σ) (i : ι) (op : S.Op) (r : S.Resp op) (t : σ) :
    (s.after i op r t).trace i = s.trace i ++ [⟨op, r⟩] := by
  simp [trace]

/-- A statement leaves the traces of the other threads alone. -/
theorem after_trace_of_ne (s : State S ι σ) {i j : ι} (h : j ≠ i) (op : S.Op) (r : S.Resp op)
    (t : σ) : (s.after j op r t).trace i = s.trace i := by
  rw [trace, after_history_of_ne _ h, trace]

/-- What a thread has been answered after a step: what it had been answered, or the answer to the
step. -/
theorem mem_trace_after {s : State S ι σ} {i j : ι} {op : S.Op} {r : S.Resp op} {t : σ}
    {e : Exchange S} (h : e ∈ (s.after i op r t).trace j) :
    e ∈ s.trace j ∨ j = i ∧ e = ⟨op, r⟩ := by
  by_cases hij : i = j
  · subst hij
    rw [after_trace_self, List.mem_append, List.mem_singleton] at h
    exact h.imp_right fun h ↦ ⟨rfl, h⟩
  · rw [after_trace_of_ne _ hij] at h
    exact .inl h

/-- Traces only grow. -/
theorem trace_prefix_after (s : State S ι σ) (i j : ι) (op : S.Op) (r : S.Resp op) (t : σ) :
    s.trace j <+: (s.after i op r t).trace j := by
  by_cases hij : i = j
  · subst hij
    exact ⟨[⟨op, r⟩], (after_trace_self s i op r t).symm⟩
  · exact ⟨[], by rw [after_trace_of_ne _ hij, List.append_nil]⟩

@[simp] theorem setShared_trace (s : State S ι σ) (t : σ) (i : ι) :
    (s.setShared t).trace i = s.trace i := rfl

end State

namespace Prog

/-- Every statement the program can issue meets `P` after the trace before it, every value it can
return meets `Q`, and every error it can throw meets `E`. -/
def Keeps (P : List (Exchange S) → S.Op → Prop) (Q : List (Exchange S) → α → Prop)
    (E : List (Exchange S) → ε → Prop) : List (Exchange S) → Prog S ε α → Prop
  | trace, .pure a => Q trace a
  | trace, .throw e => E trace e
  | trace, .stmt op k => P trace op ∧ ∀ r, Keeps P Q E (trace ++ [⟨op, r⟩]) (k r)

variable {P : List (Exchange S) → S.Op → Prop} {Q : List (Exchange S) → α → Prop}
  {R : List (Exchange S) → β → Prop} {E : List (Exchange S) → ε → Prop}
  {trace : List (Exchange S)}

/-- One program after another, with the trace of the first. -/
theorem Keeps.bind {p : Prog S ε β} {f : β → Prog S ε α} (hp : p.Keeps P R E trace)
    (hf : ∀ trace a, R trace a → (f a).Keeps P Q E trace) : (p >>= f).Keeps P Q E trace := by
  induction p generalizing trace with
  | pure a => exact hf trace a hp
  | throw e => exact hp
  | stmt op k ih => exact ⟨hp.1, fun r ↦ ih r (hp.2 r)⟩

/-- A handler goes on with the trace up to the error. -/
theorem Keeps.tryCatch {p : Prog S ε α} {h : ε → Prog S ε α} {F : List (Exchange S) → ε → Prop}
    (hp : p.Keeps P Q F trace) (hh : ∀ trace e, F trace e → (h e).Keeps P Q E trace) :
    (p.tryCatch h).Keeps P Q E trace := by
  induction p generalizing trace with
  | pure a => exact hp
  | throw e => exact hh trace e hp
  | stmt op k ih => exact ⟨hp.1, fun r ↦ ih r (hp.2 r)⟩

/-- Less may be concluded at the end. -/
theorem Keeps.mono {Q' : List (Exchange S) → α → Prop} {E' : List (Exchange S) → ε → Prop}
    {p : Prog S ε α} (h : p.Keeps P Q E trace) (hQ : ∀ trace a, Q trace a → Q' trace a)
    (hE : ∀ trace e, E trace e → E' trace e) : p.Keeps P Q' E' trace := by
  induction p generalizing trace with
  | pure a => exact hQ trace a h
  | throw e => exact hE trace e h
  | stmt op k ih => exact ⟨h.1, fun r ↦ ih r (h.2 r)⟩

/-- What is concluded at the end may rest on the trace at the beginning, which the program has added
to. -/
theorem Keeps.mono_prefix {F : List (Exchange S) → α → Prop} {G : List (Exchange S) → ε → Prop}
    {p : Prog S ε α} (h : p.Keeps P F G trace)
    (hQ : ∀ trace' a, trace <+: trace' → F trace' a → Q trace' a)
    (hE : ∀ trace' e, trace <+: trace' → G trace' e → E trace' e) : p.Keeps P Q E trace := by
  induction p generalizing trace with
  | pure a => exact hQ trace a (List.prefix_refl _) h
  | throw e => exact hE trace e (List.prefix_refl _) h
  | stmt op k ih =>
    have hstep : ∀ r, trace <+: trace ++ [⟨op, r⟩] := fun _ ↦ List.prefix_append _ _
    exact ⟨h.1, fun r ↦ ih r (h.2 r) (fun trace' a hext ↦ hQ trace' a ((hstep r).trans hext))
      fun trace' e hext ↦ hE trace' e ((hstep r).trans hext)⟩

/-- Less may be asked of the statements. -/
theorem Keeps.weaken {P' : List (Exchange S) → S.Op → Prop} {p : Prog S ε α}
    (h : p.Keeps P Q E trace) (hP : ∀ trace op, P trace op → P' trace op) :
    p.Keeps P' Q E trace := by
  induction p generalizing trace with
  | pure a => exact h
  | throw e => exact h
  | stmt op k ih => exact ⟨hP _ _ h.1, fun r ↦ ih r (h.2 r)⟩

theorem Keeps.ite {c : Prop} [Decidable c] {p q : Prog S ε α} (hp : c → p.Keeps P Q E trace)
    (hq : ¬ c → q.Keeps P Q E trace) : (if c then p else q).Keeps P Q E trace := by
  split
  · exact hp ‹_›
  · exact hq ‹_›

/-- A condition on statements that does not look at the trace: what a program adds to the trace
meets it. -/
theorem All.keeps_append {C : S.Op → Prop} {p : Prog S ε α} (h : p.All C)
    (hP : ∀ rest op, (∀ e ∈ rest, C e.1) → C op → P (trace ++ rest) op) :
    p.Keeps P (fun trace' _ ↦ ∃ rest, trace' = trace ++ rest ∧ ∀ e ∈ rest, C e.1)
      (fun trace' _ ↦ ∃ rest, trace' = trace ++ rest ∧ ∀ e ∈ rest, C e.1) trace := by
  suffices hrest : ∀ rest, (∀ e ∈ rest, C e.1) →
      p.Keeps P (fun trace' _ ↦ ∃ rest, trace' = trace ++ rest ∧ ∀ e ∈ rest, C e.1)
        (fun trace' _ ↦ ∃ rest, trace' = trace ++ rest ∧ ∀ e ∈ rest, C e.1) (trace ++ rest) by
    simpa using hrest [] (by simp)
  induction p with
  | pure a => exact fun rest hr ↦ ⟨rest, rfl, hr⟩
  | throw e => exact fun rest hr ↦ ⟨rest, rfl, hr⟩
  | stmt op k ih =>
    refine fun rest hr ↦ ⟨hP rest op hr h.1, fun r ↦ ?_⟩
    rw [List.append_assoc]
    exact ih r (h.2 r) _ (List.forall_mem_append.2 ⟨hr, by simpa using h.1⟩)

/-- Statements of a kind keep what the kind implies. -/
theorem All.keeps {C : S.Op → Prop} {p : Prog S ε α} (h : p.All C)
    (hP : ∀ trace' op, trace <+: trace' → C op → P trace' op) :
    p.Keeps P (fun trace' _ ↦ trace <+: trace') (fun trace' _ ↦ trace <+: trace') trace :=
  (h.keeps_append fun rest op _ hop ↦ hP _ op (List.prefix_append _ rest) hop).mono
    (fun _ _ h ↦ h.elim fun _ h ↦ h.1 ▸ List.prefix_append _ _)
    fun _ _ h ↦ h.elim fun _ h ↦ h.1 ▸ List.prefix_append _ _

theorem All.keeps_bind {C : S.Op → Prop} {p : Prog S ε β} {f : β → Prog S ε α} (h : p.All C)
    (hP : ∀ trace' op, trace <+: trace' → C op → P trace' op)
    (hf : ∀ trace' b, trace <+: trace' → (f b).Keeps P Q E trace')
    (hE : ∀ trace' e, trace <+: trace' → E trace' e) : (p >>= f).Keeps P Q E trace :=
  .bind ((h.keeps hP).mono (fun _ _ hext ↦ hext) hE) hf

/-- What every statement meets, whatever was answered before. -/
theorem Keeps.and_all {C : S.Op → Prop} {p : Prog S ε α} (h : p.Keeps P Q E trace) (hC : p.All C) :
    p.Keeps (fun trace op ↦ P trace op ∧ C op) Q E trace := by
  induction p generalizing trace with
  | pure a => exact h
  | throw e => exact h
  | stmt op k ih => exact ⟨⟨h.1, hC.1⟩, fun r ↦ ih r (h.2 r) (hC.2 r)⟩

/-- Two things that are kept are kept together. -/
theorem Keeps.and {P' : List (Exchange S) → S.Op → Prop} {Q' : List (Exchange S) → α → Prop}
    {E' : List (Exchange S) → ε → Prop} {p : Prog S ε α} (h : p.Keeps P Q E trace)
    (h' : p.Keeps P' Q' E' trace) :
    p.Keeps (fun trace op ↦ P trace op ∧ P' trace op) (fun trace a ↦ Q trace a ∧ Q' trace a)
      (fun trace e ↦ E trace e ∧ E' trace e) trace := by
  induction p generalizing trace with
  | pure a => exact ⟨h, h'⟩
  | throw e => exact ⟨h, h'⟩
  | stmt op k ih => exact ⟨⟨h.1, h'.1⟩, fun r ↦ ih r (h.2 r) (h'.2 r)⟩

/-- Run a program alone, to its end. -/
def execute (exec : (op : S.Op) → σ → S.Resp op × σ) : Prog S ε α → σ → Except ε α × σ
  | .pure a, s => (.ok a, s)
  | .throw e, s => (.error e, s)
  | .stmt op k, s => (k (exec op s).1).execute exec (exec op s).2

theorem execute_bind (exec : (op : S.Op) → σ → S.Resp op × σ) (p : Prog S ε β)
    (f : β → Prog S ε α) (s : σ) : (p >>= f).execute exec s =
      match p.execute exec s with
      | (.ok b, t) => (f b).execute exec t
      | (.error e, t) => (.error e, t) := by
  induction p generalizing s with
  | pure b => rfl
  | throw e => rfl
  | stmt op k ih => exact ih _ _

end Prog

section Runs

variable [DecidableEq ι] {M : Machine S ι κ σ} {A : Restriction S ι κ σ}
  {P : ι → List (Exchange S) → S.Op → Prop} {Q : ι → List (Exchange S) → α → Prop}
  {E : ι → List (Exchange S) → ε → Prop}

/-- What the running threads will still do, after what they have done. -/
def Config.Keeps (c : Config S ι σ ε α) (P : ι → List (Exchange S) → S.Op → Prop)
    (Q : ι → List (Exchange S) → α → Prop) (E : ι → List (Exchange S) → ε → Prop) : Prop :=
  ∀ i p, c.progs i = some p → p.Keeps (P i) (Q i) (E i) (c.state.trace i)

/-- Threads that have not begun, with no trace. -/
theorem Config.keeps_start {t : σ} {progs : ι → Prog S ε α}
    (h : ∀ i, (progs i).Keeps (P i) (Q i) (E i) []) : (Config.start t progs).Keeps P Q E := by
  intro i p hp
  cases hp
  exact h i

/-- **A step** keeps the threads to what they keep. -/
theorem Step.keeps {c c' : Config S ι σ ε α} (h : Step M A c c') (hc : c.Keeps P Q E) :
    c'.Keeps P Q E := by
  intro j p hj
  cases h with
  | @stmt i x op k r t hp ha hx =>
    by_cases hij : j = i
    · subst hij
      rw [Config.after_progs_self, Option.some.injEq] at hj
      rw [Config.after_state, State.after_trace_self]
      exact hj ▸ (hc j _ hp).2 r
    · rw [Config.after_progs_of_ne _ hij] at hj
      rw [Config.after_state, State.after_trace_of_ne _ (Ne.symm hij)]
      exact hc j p hj
  | @crash i op k hp ha =>
    by_cases hij : j = i
    · subst hij
      simp at hj
    · rw [Config.lose_progs_of_ne _ hij] at hj
      exact hc j p hj

/-- **An invariant that rests on what the threads have been answered.** -/
theorem Run.invariant_keeps {I : State S ι σ → Prop} {c c' : Config S ι σ ε α}
    (h : Run M A c c') (hc : c.Keeps P Q E) (h0 : I c.state)
    (hstmt : ∀ s i x op r t, I s → P i (s.trace i) op → A.stmt i x op s →
      M.exec i x op s.shared = some (r, t) → I (s.after i op r t))
    (hcrash : ∀ s i, I s → A.crash i s → I (s.setShared (M.crash i s.shared))) :
    I c'.state ∧ c'.Keeps P Q E := by
  induction h with
  | refl => exact ⟨h0, hc⟩
  | tail _ hs ih =>
    refine ⟨?_, hs.keeps ih.2⟩
    cases hs with
    | stmt hp ha hx => exact hstmt _ _ _ _ _ _ ih.1 (ih.2 _ _ hp).1 ha hx
    | crash hp ha => exact hcrash _ _ ih.1 ha

/-- **An invariant with a part for each running thread.** What `J` says of a thread that is lost is
of no concern, so `J` may rest on what the loss of the thread undoes. The steps of the others keep
it. -/
theorem Run.invariant_running {I : State S ι σ → Prop} {J : ι → State S ι σ → Prop}
    {c c' : Config S ι σ ε α} (h : Run M A c c') (hc : c.Keeps P Q E) (h0 : I c.state)
    (hJ0 : ∀ i, c.progs i ≠ none → J i c.state)
    (hstmt : ∀ s i x op r t, I s → J i s → P i (s.trace i) op → A.stmt i x op s →
      M.exec i x op s.shared = some (r, t) → I (s.after i op r t) ∧ J i (s.after i op r t))
    (hothers : ∀ s s' i j, j ≠ i → I s → Move M A j s s' → J i s → J i s')
    (hcrash : ∀ s i, I s → A.crash i s → I (s.setShared (M.crash i s.shared))) :
    (I c'.state ∧ ∀ i, c'.progs i ≠ none → J i c'.state) ∧ c'.Keeps P Q E := by
  induction h with
  | refl => exact ⟨⟨h0, hJ0⟩, hc⟩
  | tail _ hs ih =>
    obtain ⟨⟨hI, hJ⟩, hkeeps⟩ := ih
    refine ⟨?_, hs.keeps hkeeps⟩
    cases hs with
    | @stmt i x op k r t hp ha hx =>
      have hrunning : _ ≠ none := fun hnone ↦ Option.some_ne_none _ (hp.symm.trans hnone)
      obtain ⟨hI', hJ'⟩ := hstmt _ _ _ _ _ _ hI (hJ i hrunning) (hkeeps _ _ hp).1 ha hx
      refine ⟨hI', fun j hj ↦ ?_⟩
      by_cases hij : i = j
      · exact hij ▸ hJ'
      · rw [Config.after_progs_of_ne _ (Ne.symm hij)] at hj
        exact hothers _ _ j i hij hI (.stmt ha hx) (hJ j hj)
    | @crash i op k hp ha =>
      refine ⟨hcrash _ _ hI ha, fun j hj ↦ ?_⟩
      by_cases hij : i = j
      · subst hij
        simp at hj
      · rw [Config.lose_progs_of_ne _ (Ne.symm hij)] at hj
        exact hothers _ _ j i hij hI (.crash ha) (hJ j hj)

/-- What a thread that has answered was answered itself. -/
theorem Config.Keeps.answer {c : Config S ι σ ε α} (h : c.Keeps P Q E) {i : ι} {a : α}
    (ha : c.Answered i (.ok a)) : Q i (c.state.trace i) a := by
  obtain ⟨p, hp, ho⟩ := ha
  cases p with
  | pure b =>
    simp only [Prog.outcome, Option.some.injEq, Except.ok.injEq] at ho
    exact ho ▸ h i _ hp
  | throw e => simp [Prog.outcome] at ho
  | stmt op k => simp [Prog.outcome] at ho

/-- An error that a thread has thrown. -/
theorem Config.Keeps.thrown {c : Config S ι σ ε α} (h : c.Keeps P Q E) {i : ι} {e : ε}
    (he : c.Answered i (.error e)) : E i (c.state.trace i) e := by
  obtain ⟨p, hp, ho⟩ := he
  cases p with
  | pure b => simp [Prog.outcome] at ho
  | throw e' =>
    simp only [Prog.outcome, Option.some.injEq, Except.error.injEq] at ho
    exact ho ▸ h i _ hp
  | stmt op k => simp [Prog.outcome] at ho

end Runs

end Concurrency
