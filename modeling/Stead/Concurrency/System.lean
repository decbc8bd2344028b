import Mathlib.Logic.Relation
import Mathlib.Logic.Function.Basic
import Mathlib.Order.Nat
import Stead.Concurrency.Program

/-!
# Threads interleaving over a shared store

A family of programs, one for each *thread*, runs over one shared store. A step lets one thread
issue its next statement, which the store executes atomically, or makes a running thread crash.
Nothing fixes the order of the steps: a run is any sequence of them, so a fact proved of every run
holds of every interleaving.

Nothing creates threads. The family is indexed by a type of any size and a thread that has not
taken a step has not started yet, so one family stands for any number of calls arriving at any
time.

## The log

Every executed statement is recorded in the *log* with the thread that issued it, the response it
got, and the store before and after. The machine never reads the log; statements about runs do. The
log only grows (`Run.log_prefix`), every event in it was an executed statement
(`Run.exec_of_mem`), and the run can be cut at any of them (`Run.moment`): what was true then is
read off the configuration at the cut.

## Restrictions

A `Restriction` picks the runs in which each step meets a condition on the state it is taken in.
`Restriction.all` picks every run, and `Restriction.within` adds a condition on the states.

## Invariants and schedules

`Run.invariant` is the rule for a property of the shared store that every statement keeps, when the
programs issue only statements of a kind (`Config.Issues`). For runs on fixed inputs,
`Config.turns` takes a list of turns and computes where they lead, and `Config.run_afterTurns` makes
a run of it.
-/

namespace Concurrency

variable {S : Interface} {ι κ σ ε α : Type}

/-- A statement that was executed: who issued it, what the answer was and what it did. -/
structure Event (S : Interface) (ι σ : Type) where
  /-- The thread that issued the statement. -/
  thread : ι
  /-- The store the statement was executed on. -/
  before : σ
  /-- The statement. -/
  op : S.Op
  /-- The response. -/
  resp : S.Resp op
  /-- The store it left. -/
  after : σ

/-- The shared store and the record of what has been executed on it. -/
structure State (S : Interface) (ι σ : Type) where
  /-- The shared store. -/
  shared : σ
  /-- The statements executed so far, oldest first. -/
  log : List (Event S ι σ)

namespace State

/-- The state after thread `i` executed `op`. -/
def after (s : State S ι σ) (i : ι) (op : S.Op) (r : S.Resp op) (t : σ) : State S ι σ where
  shared := t
  log := s.log ++ [⟨i, s.shared, op, r, t⟩]

/-- The state after a change of the store that no statement made. -/
def setShared (s : State S ι σ) (t : σ) : State S ι σ := { s with shared := t }

@[simp] theorem after_shared (s : State S ι σ) (i : ι) (op : S.Op) (r : S.Resp op) (t : σ) :
    (s.after i op r t).shared = t := rfl

@[simp] theorem after_log (s : State S ι σ) (i : ι) (op : S.Op) (r : S.Resp op) (t : σ) :
    (s.after i op r t).log = s.log ++ [⟨i, s.shared, op, r, t⟩] := rfl

@[simp] theorem setShared_shared (s : State S ι σ) (t : σ) : (s.setShared t).shared = t := rfl

@[simp] theorem setShared_log (s : State S ι σ) (t : σ) : (s.setShared t).log = s.log := rfl

section History

variable [DecidableEq ι]

/-- What thread `i` has executed so far. -/
def history (s : State S ι σ) (i : ι) : List (Event S ι σ) :=
  s.log.filter fun e ↦ e.thread = i

/-- A thread's events are those of the log that it has issued. -/
theorem mem_history {s : State S ι σ} {i : ι} {e : Event S ι σ} :
    e ∈ s.history i ↔ e ∈ s.log ∧ e.thread = i := by
  simp [history]

@[simp] theorem after_history_self (s : State S ι σ) (i : ι) (op : S.Op) (r : S.Resp op) (t : σ) :
    (s.after i op r t).history i = s.history i ++ [⟨i, s.shared, op, r, t⟩] := by
  simp [history]

/-- The statement of one thread is not in the history of another. -/
theorem after_history_of_ne (s : State S ι σ) {i j : ι} (h : j ≠ i) (op : S.Op)
    (r : S.Resp op) (t : σ) : (s.after j op r t).history i = s.history i := by
  simp [history, h]

@[simp] theorem setShared_history (s : State S ι σ) (t : σ) (i : ι) :
    (s.setShared t).history i = s.history i := rfl

end History

section Log

variable {s : State S ι σ} {i : ι} {op : S.Op} {r : S.Resp op} {t : σ}

/-- An executed statement is an earlier one or the last. -/
theorem getElem?_after {p : ℕ} {e : Event S ι σ} (h : (s.after i op r t).log[p]? = some e) :
    s.log[p]? = some e ∨ p = s.log.length ∧ e = ⟨i, s.shared, op, r, t⟩ := by
  rw [State.after_log, List.getElem?_append] at h
  split at h
  · exact .inl h
  · next hp =>
    rw [List.getElem?_eq_some_iff] at h
    obtain ⟨hlt, rfl⟩ := h
    rw [List.length_singleton] at hlt
    exact .inr ⟨by omega, by simp⟩

/-- What is in the log stays where it is. -/
theorem getElem?_after_of_some {p : ℕ} {e : Event S ι σ} (h : s.log[p]? = some e) :
    (s.after i op r t).log[p]? = some e := by
  have hp : p < s.log.length := (List.getElem?_eq_some_iff.1 h).1
  rw [State.after_log, List.getElem?_append_left hp]
  exact h

/-- The statement just executed is the last one. -/
theorem getElem?_after_last : (s.after i op r t).log[s.log.length]? =
    some ⟨i, s.shared, op, r, t⟩ := by
  rw [State.after_log, List.getElem?_append_right le_rfl, Nat.sub_self]
  rfl

end Log

end State

/-- The semantics of the statements. A statement is executed for a thread under a *choice*, which
settles what the outside world decides (how much time has passed, which value a generator returns,
whether the statement fails); `none` means the statement has to wait. -/
structure Machine (S : Interface) (ι κ σ : Type) where
  /-- Execute one statement of a thread. -/
  exec : ι → κ → (op : S.Op) → σ → Option (S.Resp op × σ)
  /-- What the store does when a thread is lost. -/
  crash : ι → σ → σ

/-- A condition on the steps of a run: on the thread, the choice, the statement and the state the
step is taken in. -/
structure Restriction (S : Interface) (ι κ σ : Type) where
  /-- Thread `i` may execute the statement now, under this choice. -/
  stmt : ι → κ → S.Op → State S ι σ → Prop
  /-- Thread `i` may crash now. -/
  crash : ι → State S ι σ → Prop

/-- No condition: every run. -/
def Restriction.all : Restriction S ι κ σ := ⟨fun _ _ _ _ ↦ True, fun _ _ ↦ True⟩

/-- The runs that in addition only pass through states that meet `C`. -/
def Restriction.within (A : Restriction S ι κ σ) (C : State S ι σ → Prop) :
    Restriction S ι κ σ :=
  ⟨fun i κ op s ↦ A.stmt i κ op s ∧ C s, fun i s ↦ A.crash i s ∧ C s⟩

/-- What one thread does to the state in one step, its own program aside. -/
inductive Move (M : Machine S ι κ σ) (A : Restriction S ι κ σ) (i : ι) :
    State S ι σ → State S ι σ → Prop
  | stmt {s : State S ι σ} {x : κ} {op : S.Op} {r : S.Resp op} {t : σ} (ha : A.stmt i x op s)
      (hx : M.exec i x op s.shared = some (r, t)) : Move M A i s (s.after i op r t)
  | crash {s : State S ι σ} (ha : A.crash i s) :
      Move M A i s (s.setShared (M.crash i s.shared))

/-- A state together with what is left of each thread's program; `none` for a thread that
crashed. -/
structure Config (S : Interface) (ι σ ε α : Type) where
  /-- The store and the log. -/
  state : State S ι σ
  /-- What is left of each thread's program. -/
  progs : ι → Option (Prog S ε α)

namespace Config

variable [DecidableEq ι]

/-- The start: a store, an empty log, and a whole program for each thread. -/
def start (t : σ) (progs : ι → Prog S ε α) : Config S ι σ ε α where
  state := ⟨t, []⟩
  progs i := some (progs i)

/-- Thread `i` has answered with `o`. -/
def Answered (c : Config S ι σ ε α) (i : ι) (o : Except ε α) : Prop :=
  ∃ p, c.progs i = some p ∧ p.outcome = some o

/-- The configuration after thread `i` executed `op` and went on with `p`. -/
def after (c : Config S ι σ ε α) (i : ι) (op : S.Op) (r : S.Resp op) (t : σ)
    (p : Prog S ε α) : Config S ι σ ε α where
  state := c.state.after i op r t
  progs := Function.update c.progs i (some p)

/-- The configuration after thread `i` was lost and the store became `t`. -/
def lose (c : Config S ι σ ε α) (i : ι) (t : σ) : Config S ι σ ε α where
  state := c.state.setShared t
  progs := Function.update c.progs i none

@[simp] theorem after_state (c : Config S ι σ ε α) (i : ι) (op : S.Op) (r : S.Resp op) (t : σ)
    (p : Prog S ε α) : (c.after i op r t p).state = c.state.after i op r t := rfl

@[simp] theorem lose_state (c : Config S ι σ ε α) (i : ι) (t : σ) :
    (c.lose i t).state = c.state.setShared t := rfl

@[simp] theorem after_progs_self (c : Config S ι σ ε α) (i : ι) (op : S.Op) (r : S.Resp op)
    (t : σ) (p : Prog S ε α) : (c.after i op r t p).progs i = some p :=
  Function.update_self ..

/-- The other threads are where they were. -/
theorem after_progs_of_ne (c : Config S ι σ ε α) {i j : ι} (h : j ≠ i) (op : S.Op)
    (r : S.Resp op) (t : σ) (p : Prog S ε α) : (c.after i op r t p).progs j = c.progs j :=
  Function.update_of_ne h ..

@[simp] theorem lose_progs_self (c : Config S ι σ ε α) (i : ι) (t : σ) :
    (c.lose i t).progs i = none :=
  Function.update_self ..

/-- The loss of a thread leaves the others where they were. -/
theorem lose_progs_of_ne (c : Config S ι σ ε α) {i j : ι} (h : j ≠ i) (t : σ) :
    (c.lose i t).progs j = c.progs j :=
  Function.update_of_ne h ..

end Config

variable [DecidableEq ι]

/-- One step of a run: a thread with a statement to issue executes it, or crashes. -/
inductive Step (M : Machine S ι κ σ) (A : Restriction S ι κ σ) :
    Config S ι σ ε α → Config S ι σ ε α → Prop
  | stmt {c : Config S ι σ ε α} {i : ι} {x : κ} {op : S.Op} {k : S.Resp op → Prog S ε α}
      {r : S.Resp op} {t : σ} (hp : c.progs i = some (.stmt op k)) (ha : A.stmt i x op c.state)
      (hx : M.exec i x op c.state.shared = some (r, t)) : Step M A c (c.after i op r t (k r))
  | crash {c : Config S ι σ ε α} {i : ι} {op : S.Op} {k : S.Resp op → Prog S ε α}
      (hp : c.progs i = some (.stmt op k)) (ha : A.crash i c.state) :
      Step M A c (c.lose i (M.crash i c.state.shared))

/-- A run: any number of steps. -/
abbrev Run (M : Machine S ι κ σ) (A : Restriction S ι κ σ) :
    Config S ι σ ε α → Config S ι σ ε α → Prop :=
  Relation.ReflTransGen (Step M A)

/-- A step is a move of the state. -/
theorem Step.move {M : Machine S ι κ σ} {A : Restriction S ι κ σ} {c c' : Config S ι σ ε α}
    (h : Step M A c c') : ∃ i, Move M A i c.state c'.state := by
  cases h with
  | stmt hp ha hx => exact ⟨_, .stmt ha hx⟩
  | crash hp ha => exact ⟨_, .crash ha⟩

/-- A step under a restriction is one under a weaker one. -/
theorem Step.mono {M : Machine S ι κ σ} {A B : Restriction S ι κ σ} {c c' : Config S ι σ ε α}
    (h : Step M A c c') (hs : ∀ i κ op, A.stmt i κ op c.state → B.stmt i κ op c.state)
    (hc : ∀ i, A.crash i c.state → B.crash i c.state) : Step M B c c' := by
  cases h with
  | stmt hp ha hx => exact .stmt hp (hs _ _ _ ha) hx
  | crash hp ha => exact .crash hp (hc _ ha)

/-- A run under a restriction is a run. -/
theorem Run.all {M : Machine S ι κ σ} {A : Restriction S ι κ σ} {c c' : Config S ι σ ε α}
    (h : Run M A c c') : Run M .all c c' := by
  induction h with
  | refl => exact .refl
  | tail _ hs ih => exact ih.tail (hs.mono (fun _ _ _ _ ↦ trivial) fun _ _ ↦ trivial)

omit [DecidableEq ι] in
theorem Move.mono {M : Machine S ι κ σ} {A B : Restriction S ι κ σ} {i : ι}
    {s s' : State S ι σ} (h : Move M A i s s') (hs : ∀ κ op, A.stmt i κ op s → B.stmt i κ op s)
    (hc : A.crash i s → B.crash i s) : Move M B i s s' := by
  cases h with
  | stmt ha hx => exact .stmt (hs _ _ ha) hx
  | crash ha => exact .crash (hc ha)

/-- **Using what is already known.** When every state of the runs from `c₀` meets `C`, these runs
may be taken to be restricted to states that do. -/
theorem Run.within {M : Machine S ι κ σ} {A : Restriction S ι κ σ} {C : State S ι σ → Prop}
    {c₀ c : Config S ι σ ε α} (hC : ∀ c, Run M A c₀ c → C c.state) (h : Run M A c₀ c) :
    Run M (A.within C) c₀ c := by
  induction h with
  | refl => exact .refl
  | @tail b d hb hd ih =>
    exact ih.tail (hd.mono (fun _ _ _ ha ↦ ⟨ha, hC b hb⟩) fun _ ha ↦ ⟨ha, hC b hb⟩)

/-! ### Looking back on a run -/

section Past

variable {M : Machine S ι κ σ} {A : Restriction S ι κ σ} {c c' : Config S ι σ ε α}

/-- What is on the record stays there. -/
theorem Run.log_prefix (h : Run M A c c') : c.state.log <+: c'.state.log := by
  induction h with
  | refl => exact List.prefix_refl _
  | tail _ hs ih =>
    cases hs with
    | stmt _ _ _ => exact ih.trans (List.prefix_append _ _)
    | crash _ _ => exact ih

/-- An event stays where it is in the log. -/
theorem Run.getElem?_log (h : Run M A c c') {p : ℕ} {e : Event S ι σ}
    (he : c.state.log[p]? = some e) : c'.state.log[p]? = some e := by
  obtain ⟨rest, hrest⟩ := h.log_prefix
  rw [← hrest, List.getElem?_append_left (List.getElem?_eq_some_iff.1 he).1]
  exact he

/-- A thread that is lost stays lost. -/
theorem Run.lost (h : Run M A c c') {i : ι} (hi : c.progs i = none) : c'.progs i = none := by
  induction h with
  | refl => exact hi
  | tail _ hs ih =>
    cases hs with
    | @stmt j _ _ _ _ _ hp _ _ =>
      have hij : j ≠ i := by
        rintro rfl
        cases ih.symm.trans hp
      rw [Config.after_progs_of_ne _ hij.symm]
      exact ih
    | @crash j _ _ hp _ =>
      have hij : j ≠ i := by
        rintro rfl
        cases ih.symm.trans hp
      rw [Config.lose_progs_of_ne _ hij.symm]
      exact ih

/-- The moment of a run in which a statement on the record was executed. -/
structure Moment (M : Machine S ι κ σ) (A : Restriction S ι κ σ) (c c' : Config S ι σ ε α) (p : ℕ)
    (e : Event S ι σ) (c₁ c₂ : Config S ι σ ε α) : Prop where
  before : Run M A c c₁
  after : Run M A c₂ c'
  position : c₁.state.log.length = p
  shared : c₁.state.shared = e.before
  state : c₂.state = c₁.state.after e.thread e.op e.resp e.after
  running : c₁.progs e.thread ≠ none
  step : Step M A c₁ c₂
  exec : ∃ x, M.exec e.thread x e.op e.before = some (e.resp, e.after)

/-- What comes after the moment, its statement included. -/
theorem Moment.run {p : ℕ} {e : Event S ι σ} {c₁ c₂ : Config S ι σ ε α}
    (h : Moment M A c c' p e c₁ c₂) : Run M A c₁ c' := .head h.step h.after

/-- What was in the log at the moment came before it. -/
theorem Moment.log_lt {p : ℕ} {e : Event S ι σ} {c₁ c₂ : Config S ι σ ε α}
    (h : Moment M A c c' p e c₁ c₂) {m : ℕ} {f : Event S ι σ} (hf : c₁.state.log[m]? = some f) :
    m < p :=
  h.position ▸ (List.getElem?_eq_some_iff.1 hf).1

/-- What is on the record before the moment. -/
theorem Moment.getElem?_log {p : ℕ} {e : Event S ι σ} {c₁ c₂ : Config S ι σ ε α}
    (h : Moment M A c c' p e c₁ c₂) {m : ℕ} {f : Event S ι σ} (hf : c'.state.log[m]? = some f)
    (hm : m < p) : c₁.state.log[m]? = some f := by
  obtain ⟨rest, hrest⟩ := Run.log_prefix h.run
  rw [← hrest, List.getElem?_append_left (h.position ▸ hm)] at hf
  exact hf

/-- **Every statement on the record has its moment**, if it was executed in the run. -/
theorem Run.moment (h : Run M A c c') {p : ℕ} {e : Event S ι σ}
    (he : c'.state.log[p]? = some e) (hp : c.state.log.length ≤ p) :
    ∃ c₁ c₂, Moment M A c c' p e c₁ c₂ := by
  induction h with
  | refl => exact absurd (List.getElem?_eq_some_iff.1 he).1 (not_lt_of_ge hp)
  | @tail b d hb hs ih =>
    have hearlier : b.state.log[p]? = some e → ∃ c₁ c₂, Moment M A c d p e c₁ c₂ := by
      intro hbe
      obtain ⟨c₁, c₂, hm⟩ := ih hbe
      exact ⟨c₁, c₂, { hm with after := hm.after.tail hs }⟩
    cases hs with
    | stmt hprog ha hx =>
      rcases State.getElem?_after he with hbe | ⟨rfl, rfl⟩
      · exact hearlier hbe
      · have hrunning : b.progs _ ≠ none := fun hnone ↦ by cases hnone.symm.trans hprog
        exact ⟨b, _, hb, .refl, rfl, rfl, rfl, hrunning, .stmt hprog ha hx, _, hx⟩
    | crash _ _ => exact hearlier he

/-- Every statement on the record of a whole run was executed. -/
theorem Run.exec_of_mem {t : σ} {progs : ι → Prog S ε α} (h : Run M A (.start t progs) c)
    {e : Event S ι σ} (he : e ∈ c.state.log) :
    ∃ x, M.exec e.thread x e.op e.before = some (e.resp, e.after) := by
  obtain ⟨p, hp⟩ := List.getElem?_of_mem he
  obtain ⟨_, _, hm⟩ := h.moment hp (Nat.zero_le p)
  exact hm.exec

/-- **What a thread had executed before** a statement on its record. -/
theorem Run.moment_history (h : Run M A c c') {i : ι} (hstart : c.state.history i = [])
    {before rest : List (Event S ι σ)} {e : Event S ι σ}
    (he : c'.state.history i = before ++ e :: rest) :
    ∃ p c₁ c₂, Moment M A c c' p e c₁ c₂ ∧ c₁.state.history i = before := by
  induction h generalizing rest with
  | refl => exact absurd (hstart.symm.trans he) (by simp)
  | @tail b d hb hs ih =>
    have hearlier : ∀ rest', b.state.history i = before ++ e :: rest' →
        ∃ p c₁ c₂, Moment M A c d p e c₁ c₂ ∧ c₁.state.history i = before := by
      intro rest' hbe
      obtain ⟨p, c₁, c₂, hm, hbefore⟩ := ih hbe
      exact ⟨p, c₁, c₂, { hm with after := hm.after.tail hs }, hbefore⟩
    cases hs with
    | @stmt j x op k r t hprog ha hx =>
      by_cases hij : j = i
      · subst hij
        rw [Config.after_state, State.after_history_self] at he
        -- The statement is the last one, or it was on the record before.
        rcases List.eq_nil_or_concat rest with rfl | ⟨rest', f, rfl⟩
        · obtain ⟨hbefore, hlast⟩ := List.append_inj' he rfl
          cases hlast
          have hrunning : b.progs j ≠ none := fun hnone ↦ by cases hnone.symm.trans hprog
          exact ⟨_, b, _, ⟨hb, .refl, rfl, rfl, rfl, hrunning, .stmt hprog ha hx, _, hx⟩, hbefore⟩
        · rw [List.concat_eq_append, ← List.cons_append, ← List.append_assoc] at he
          exact hearlier rest' (List.append_inj' he rfl).1
      · rw [Config.after_state, State.after_history_of_ne _ hij] at he
        exact hearlier rest he
    | crash _ _ => exact hearlier rest he

end Past

/-! ### Invariants that rest on the statements alone -/

/-- Every statement a running thread can still issue meets the condition of the thread. -/
def Config.Issues (c : Config S ι σ ε α) (C : ι → S.Op → Prop) : Prop :=
  ∀ i p, c.progs i = some p → p.All (C i)

omit [DecidableEq ι] in
/-- Threads that have not begun issue what their programs can. -/
theorem Config.issues_start {t : σ} {progs : ι → Prog S ε α} {C : ι → S.Op → Prop}
    (h : ∀ i, (progs i).All (C i)) : (Config.start t progs).Issues C := by
  intro i p hp
  cases hp
  exact h i

/-- A step leaves the programs to what they can issue. -/
theorem Step.issues {M : Machine S ι κ σ} {A : Restriction S ι κ σ} {C : ι → S.Op → Prop}
    {c c' : Config S ι σ ε α} (h : Step M A c c') (hc : c.Issues C) : c'.Issues C := by
  intro j p hj
  cases h with
  | @stmt i x op k r t hp ha hx =>
    by_cases hij : j = i
    · subst hij
      rw [Config.after_progs_self, Option.some.injEq] at hj
      exact hj ▸ (hc j _ hp).2 r
    · rw [Config.after_progs_of_ne _ hij] at hj
      exact hc j p hj
  | @crash i op k hp ha =>
    by_cases hij : j = i
    · subst hij
      simp at hj
    · rw [Config.lose_progs_of_ne _ hij] at hj
      exact hc j p hj

/-- **An invariant that every statement keeps.** When each statement the threads can issue keeps
`I`, and so does the loss of a thread, then `I` holds throughout every run. -/
theorem Run.invariant {M : Machine S ι κ σ} {A : Restriction S ι κ σ} {C : ι → S.Op → Prop}
    {I : State S ι σ → Prop} {c c' : Config S ι σ ε α} (h : Run M A c c') (hc : c.Issues C)
    (h0 : I c.state)
    (hstmt : ∀ s i x op r t, I s → C i op → A.stmt i x op s →
      M.exec i x op s.shared = some (r, t) → I (s.after i op r t))
    (hcrash : ∀ s i, I s → A.crash i s → I (s.setShared (M.crash i s.shared))) :
    I c'.state ∧ c'.Issues C := by
  induction h with
  | refl => exact ⟨h0, hc⟩
  | tail _ hs ih =>
    refine ⟨?_, hs.issues ih.2⟩
    cases hs with
    | stmt hp ha hx => exact hstmt _ _ _ _ _ _ ih.1 (ih.2 _ _ hp).1 ha hx
    | crash hp ha => exact hcrash _ _ ih.1 ha

/-! ### Executing a schedule -/

/-- What a scheduler decides: which thread runs next and under which choice. -/
structure Turn (ι κ : Type) where
  /-- The thread that runs. -/
  thread : ι
  /-- The choice its statement is executed under. -/
  choice : κ

/-- Execute one turn; nothing when the thread has no statement to issue, has to wait, or is not
allowed to issue the statement in this state. -/
def Config.turn (M : Machine S ι κ σ) (allow : ι → S.Op → State S ι σ → Bool)
    (c : Config S ι σ ε α) (a : Turn ι κ) : Option (Config S ι σ ε α) :=
  match c.progs a.thread with
  | some (.stmt op k) =>
    if allow a.thread op c.state then
      match M.exec a.thread a.choice op c.state.shared with
      | some (r, t) => some (c.after a.thread op r t (k r))
      | none => none
    else none
  | _ => none

/-- Execute a schedule, turn after turn. -/
def Config.turns (M : Machine S ι κ σ) (allow : ι → S.Op → State S ι σ → Bool)
    (c : Config S ι σ ε α) : List (Turn ι κ) → Option (Config S ι σ ε α)
  | [] => some c
  | a :: rest =>
    match c.turn M allow a with
    | some c' => c'.turns M allow rest
    | none => none

/-- The configuration a schedule ends in. -/
def Config.afterTurns (M : Machine S ι κ σ) (allow : ι → S.Op → State S ι σ → Bool)
    (c : Config S ι σ ε α) (as : List (Turn ι κ)) (h : (c.turns M allow as).isSome) :
    Config S ι σ ε α :=
  (c.turns M allow as).get h

section Schedules

variable {M : Machine S ι κ σ} {A : Restriction S ι κ σ} {allow : ι → S.Op → State S ι σ → Bool}

/-- A turn that is allowed is a step. -/
theorem Config.step_of_turn {c c' : Config S ι σ ε α} {a : Turn ι κ}
    (hallow : ∀ op s, allow a.thread op s = true → A.stmt a.thread a.choice op s)
    (h : c.turn M allow a = some c') : Step M A c c' := by
  unfold Config.turn at h
  split at h
  · split at h
    · split at h
      · cases h
        exact .stmt (by assumption) (hallow _ _ (by assumption)) (by assumption)
      · cases h
    · cases h
  · cases h

/-- A schedule that can be executed is a run. -/
theorem Config.run_of_turns {as : List (Turn ι κ)}
    (hallow : ∀ a ∈ as, ∀ op s, allow a.thread op s = true → A.stmt a.thread a.choice op s) :
    ∀ {c c' : Config S ι σ ε α}, c.turns M allow as = some c' → Run M A c c' := by
  induction as with
  | nil =>
    intro c c' h
    cases h
    exact .refl
  | cons a rest ih =>
    intro c c' h
    unfold Config.turns at h
    split at h
    · exact .head (Config.step_of_turn (hallow a List.mem_cons_self) (by assumption))
        (ih (fun b hb ↦ hallow b (List.mem_cons_of_mem _ hb)) h)
    · cases h

/-- A list of turns that are allowed is a run. -/
theorem Config.run_schedule {c : Config S ι σ ε α} {as : List (Turn ι κ)}
    (hallow : ∀ a ∈ as, ∀ op s, allow a.thread op s = true → A.stmt a.thread a.choice op s)
    (h : (c.turns M allow as).isSome) : Run M A c (c.afterTurns M allow as h) :=
  run_of_turns hallow (Option.some_get h).symm

/-- **A schedule is a run**: what is computed from it is reached. -/
theorem Config.run_afterTurns (hallow : ∀ i x op s, allow i op s = true → A.stmt i x op s)
    {c : Config S ι σ ε α} {as : List (Turn ι κ)} (h : (c.turns M allow as).isSome) :
    Run M A c (c.afterTurns M allow as h) :=
  run_schedule (fun a _ ↦ hallow a.thread a.choice) h

/-- A test that the end of the turns passes. -/
theorem Config.afterTurns_of_any {c : Config S ι σ ε α} {as : List (Turn ι κ)}
    {P : Config S ι σ ε α → Bool} (h : (c.turns M allow as).any P = true) :
    P (c.afterTurns M allow as (Option.isSome_of_any h)) = true :=
  Option.get_of_any_eq_true P _ h

end Schedules

omit [DecidableEq ι] in
/-- Whether a thread has answered is read off its program. -/
theorem Config.answered_iff {c : Config S ι σ ε α} {i : ι} {o : Except ε α} :
    c.Answered i o ↔ (c.progs i).bind Prog.outcome = some o :=
  Option.bind_eq_some_iff.symm

end Concurrency
