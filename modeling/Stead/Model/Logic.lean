import Stead.Concurrency.RelyGuarantee
import Stead.Concurrency.Trace
import Stead.Model.Footprint

/-!
# Reasoning about calls

The rules of `Concurrency.RelyGuarantee` and `Concurrency.Trace` for the constructs calls are
written in: a statement whose error is thrown, and a computation without statements.

## Two kinds of judgement

A triple says what holds of the state before and after a part of a call, whatever other threads do
in between as far as they keep to the rely. `Keeps` says what the statements of a part are, in terms
of those before them, whatever they are answered. Both have one rule for a statement that is
followed by a continuation and one for a computation that may throw; the constructs of programs
(`tryCatch`, loops, conditionals) have theirs in `Concurrency`.
-/

namespace Stead

open Concurrency Protocol

variable {ι : Type} [DecidableEq ι] {crypto : Crypto} {A : Weather ι}
  {P : Protocol (machine ι crypto) A} {i : ι} {α β : Type} {Pre : History ι → Prop}
  {Q : α → History ι → Prop} {E : Failure → History ι → Prop}

/-- **A statement and what follows it.** What is known after it may depend on its answer; an error
is thrown. -/
theorem triple_run_bind {op : Op} {f : op.Ret → Call α} (Mid : op.Ret → History ι → Prop)
    (Err : StatementError → History ι → Prop) (hst : P.Stable i Pre)
    (hop : ∀ s x r t, P.Inv s → Pre s → A.stmt i x op s →
      exec crypto i x op s.shared = some (r, t) →
        P.Inv (s.after i op r t) ∧ P.Guar i s (s.after i op r t) ∧
          (∀ a, r = .ok a → Mid a (s.after i op r t)) ∧
            ∀ e, r = .error e → Err e (s.after i op r t))
    (hk : ∀ a, P.Triple i (Mid a) (f a) Q E)
    (he : ∀ e, P.Triple i (Err e) (.throw (.statement e) : Call α) Q E) :
    P.Triple i Pre (run op >>= f) Q E := by
  refine .stmt (fun r s ↦ (∀ a, r = .ok a → Mid a s) ∧ ∀ e, r = .error e → Err e s) hst hop
    fun r ↦ ?_
  cases r with
  | ok a => exact (hk a).pre fun _ _ h ↦ h.1 a rfl
  | error e => exact (he e).pre fun _ _ h ↦ h.2 e rfl

/-- A statement whose answer is the value. -/
theorem triple_run {op : Op} {Q : op.Ret → History ι → Prop}
    (Mid : op.Ret → History ι → Prop) (Err : StatementError → History ι → Prop)
    (hst : P.Stable i Pre)
    (hop : ∀ s x r t, P.Inv s → Pre s → A.stmt i x op s →
      exec crypto i x op s.shared = some (r, t) →
        P.Inv (s.after i op r t) ∧ P.Guar i s (s.after i op r t) ∧
          (∀ a, r = .ok a → Mid a (s.after i op r t)) ∧
            ∀ e, r = .error e → Err e (s.after i op r t))
    (hk : ∀ a, P.Triple i (Mid a) (.pure a : Call op.Ret) Q E)
    (he : ∀ e, P.Triple i (Err e) (.throw (.statement e) : Call op.Ret) Q E) :
    P.Triple i Pre (run op) Q E := by
  refine .stmt (fun r s ↦ (∀ a, r = .ok a → Mid a s) ∧ ∀ e, r = .error e → Err e s) hst hop
    fun r ↦ ?_
  cases r with
  | ok a => exact (hk a).pre fun _ _ h ↦ h.1 a rfl
  | error e => exact (he e).pre fun _ _ h ↦ h.2 e rfl

/-- A computation without statements. -/
theorem triple_lift_bind {x : Except Failure α} {f : α → Call β} {Q : β → History ι → Prop}
    (hok : ∀ a, x = .ok a → P.Triple i Pre (f a) Q E)
    (herr : ∀ e, x = .error e → P.Triple i Pre (.throw e : Call β) Q E) :
    P.Triple i Pre (lift x >>= f) Q E := by
  cases x with
  | ok a => exact hok a rfl
  | error e => exact herr e rfl

/-! ### In the light of earlier answers -/

section Keeps

variable {C : List (Exchange Statements) → Op → Prop} {R : List (Exchange Statements) → β → Prop}
  {F : List (Exchange Statements) → Failure → Prop} {trace : List (Exchange Statements)}

/-- **A statement** with a continuation: allowed here, and the rest after any answer. -/
theorem keeps_run_bind {op : Op} {f : op.Ret → Call β} (hop : C trace op)
    (hk : ∀ a, (f a).Keeps C R F (trace ++ [⟨op, .ok a⟩]))
    (hF : ∀ e, F (trace ++ [⟨op, .error e⟩]) (.statement e)) :
    (run op >>= f).Keeps C R F trace := by
  refine ⟨hop, fun r ↦ ?_⟩
  cases r with
  | ok a => exact hk a
  | error e => exact hF e

/-- A computation that may throw, with a continuation. -/
theorem keeps_lift_bind {x : Except Failure α} {f : α → Call β}
    (hk : ∀ a, x = .ok a → (f a).Keeps C R F trace) (hF : ∀ e, F trace e) :
    (lift x >>= f).Keeps C R F trace := by
  cases x with
  | ok a => exact hk a rfl
  | error e => exact hF e

end Keeps

end Stead
