import Mathlib.Logic.Basic
import Mathlib.Tactic.TypeStar

/-!
# Sequential programs as trees of statements

A *program* is what one client of a shared store does: it issues statements one at a time, reads
the response of each, and ends with a value or with a thrown error. It is the free monad over an
interface of statements, with exceptions: nothing here says what a statement does, so the same
tree is run under any semantics and any interleaving.

Trees are well founded: a program that loops does so along a list it has already read
(`Prog.forEach`).

## What a program can issue

`Prog.All P p` says that every statement the program can issue, on any responses whatever, meets
`P`. It is the sequential half of the frame rule: a program whose statements are all harmless
needs no further reasoning. There is one rule for each way in which programs are put together
(`All.bind`, `All.tryCatch`, `All.ite`, `All.forEach`, `All.translate`), so that a proof of `All`
follows the text of the program.

## What it gives

`Prog.Gives Q p` says the same of the value a program ends with, on any responses. `All.bind_gives`
has both, for programs whose statements depend on a value computed before.

Simplification unfolds `bind` on constructors and stops there: a program stays the expression it is
written as until a rule takes it apart.
-/

namespace Concurrency

/-- The statements a store understands, and the type of the response to each. -/
structure Interface where
  /-- A statement, with its arguments. -/
  Op : Type
  /-- What the store answers to a statement. -/
  Resp : Op → Type

/-- A program over an interface: a value, a thrown error, or a statement and what is done with
its response. -/
inductive Prog (S : Interface) (ε α : Type) where
  | pure (a : α)
  | throw (e : ε)
  | stmt (op : S.Op) (k : S.Resp op → Prog S ε α)

namespace Prog

variable {S : Interface} {ε α β : Type}

/-- Sequencing. A thrown error skips the rest. -/
def bind : Prog S ε α → (α → Prog S ε β) → Prog S ε β
  | .pure a, f => f a
  | .throw e, _ => .throw e
  | .stmt op k, f => .stmt op fun r ↦ (k r).bind f

/-- Run the handler on a thrown error. -/
def tryCatch : Prog S ε α → (ε → Prog S ε α) → Prog S ε α
  | .pure a, _ => .pure a
  | .throw e, h => h e
  | .stmt op k, h => .stmt op fun r ↦ (k r).tryCatch h

instance : Monad (Prog S ε) where
  pure := .pure
  bind := bind

instance : MonadExceptOf ε (Prog S ε) where
  throw := .throw
  tryCatch := tryCatch

@[simp] theorem pure_eq (a : α) : (Pure.pure a : Prog S ε α) = .pure a := rfl

@[simp] theorem throw_eq (e : ε) : (MonadExcept.throw e : Prog S ε α) = .throw e := rfl

@[simp] theorem throwThe_eq (e : ε) : (MonadExceptOf.throw e : Prog S ε α) = .throw e := rfl

@[simp] theorem pure_bind (a : α) (f : α → Prog S ε β) : (Prog.pure a >>= f) = f a := rfl

@[simp] theorem throw_bind (e : ε) (f : α → Prog S ε β) :
    ((.throw e : Prog S ε α) >>= f) = .throw e := rfl

@[simp] theorem stmt_bind (op : S.Op) (k : S.Resp op → Prog S ε α) (f : α → Prog S ε β) :
    (Prog.stmt op k >>= f) = .stmt op fun r ↦ k r >>= f := rfl

@[simp] theorem map_eq_bind (f : α → β) (p : Prog S ε α) :
    f <$> p = p >>= fun a ↦ .pure (f a) := rfl

/-- Programs that follow one another may be grouped either way. -/
theorem bind_assoc {γ : Type} (p : Prog S ε α) (f : α → Prog S ε β) (g : β → Prog S ε γ) :
    (p >>= f) >>= g = p >>= fun a ↦ f a >>= g := by
  induction p with
  | pure a => rfl
  | throw e => rfl
  | stmt op k ih => exact congrArg (Prog.stmt op) (funext ih)

/-- The outcome of a finished program; nothing while a statement is still to be issued. -/
def outcome : Prog S ε α → Option (Except ε α)
  | .pure a => some (.ok a)
  | .throw e => some (.error e)
  | .stmt _ _ => none

/-! ### Statements a program can issue -/

/-- Every statement the program can issue, on any responses, meets `P`. -/
def All (P : S.Op → Prop) : Prog S ε α → Prop
  | .pure _ => True
  | .throw _ => True
  | .stmt op k => P op ∧ ∀ r, (k r).All P

variable {P Q : S.Op → Prop}

@[simp] theorem all_pure (a : α) : (Prog.pure a : Prog S ε α).All P := trivial

@[simp] theorem all_throw (e : ε) : (Prog.throw e : Prog S ε α).All P := trivial

@[simp] theorem all_stmt {op : S.Op} {k : S.Resp op → Prog S ε α} :
    (Prog.stmt op k).All P ↔ P op ∧ ∀ r, (k r).All P := Iff.rfl

theorem all_true (p : Prog S ε α) : p.All fun _ ↦ True := by
  induction p with
  | pure a => trivial
  | throw e => trivial
  | stmt op k ih => exact ⟨trivial, ih⟩

theorem All.mono {p : Prog S ε α} (h : p.All P) (hPQ : ∀ op, P op → Q op) : p.All Q := by
  induction p with
  | pure a => trivial
  | throw e => trivial
  | stmt op k ih => exact ⟨hPQ op h.1, fun r ↦ ih r (h.2 r)⟩

theorem All.bind {p : Prog S ε α} {f : α → Prog S ε β} (hp : p.All P)
    (hf : ∀ a, (f a).All P) : (p >>= f).All P := by
  induction p with
  | pure a => exact hf a
  | throw e => trivial
  | stmt op k ih => exact ⟨hp.1, fun r ↦ ih r (hp.2 r)⟩

theorem All.tryCatch {p : Prog S ε α} {h : ε → Prog S ε α} (hp : p.All P)
    (hh : ∀ e, (h e).All P) : (p.tryCatch h).All P := by
  induction p with
  | pure a => trivial
  | throw e => exact hh e
  | stmt op k ih => exact ⟨hp.1, fun r ↦ ih r (hp.2 r)⟩

theorem All.ite {c : Prop} [Decidable c] {p q : Prog S ε α} (hp : c → p.All P)
    (hq : ¬ c → q.All P) : (if c then p else q).All P := by
  split
  · exact hp ‹_›
  · exact hq ‹_›

/-- Every value the program can return, on any responses, meets `Q`. -/
def Gives (Q : α → Prop) : Prog S ε α → Prop
  | .pure a => Q a
  | .throw _ => True
  | .stmt _ k => ∀ r, (k r).Gives Q

/-- What a program gives is what the next one starts from. -/
theorem Gives.bind {Q : α → Prop} {R : β → Prop} {p : Prog S ε α} {f : α → Prog S ε β}
    (hp : p.Gives Q) (hf : ∀ a, Q a → (f a).Gives R) : (p >>= f).Gives R := by
  induction p with
  | pure a => exact hf a hp
  | throw e => trivial
  | stmt op k ih => exact fun r ↦ ih r (hp r)

/-- Sequencing after a program whose values are known. -/
theorem All.bind_gives {Q : α → Prop} {p : Prog S ε α} {f : α → Prog S ε β} (hp : p.All P)
    (hq : p.Gives Q) (hf : ∀ a, Q a → (f a).All P) : (p >>= f).All P := by
  induction p with
  | pure a => exact hf a hq
  | throw e => trivial
  | stmt op k ih => exact ⟨hp.1, fun r ↦ ih r (hp.2 r) (hq r)⟩

/-- A loop along a list, one iteration after the other. -/
def forEach (xs : List α) (body : α → Prog S ε Unit) : Prog S ε Unit :=
  match xs with
  | [] => .pure ()
  | x :: rest => body x >>= fun _ ↦ forEach rest body

theorem All.forEach {xs : List α} {body : α → Prog S ε Unit}
    (h : ∀ x ∈ xs, (body x).All P) : (Prog.forEach xs body).All P := by
  induction xs with
  | nil => trivial
  | cons x rest ih =>
    exact All.bind (h x (by simp)) fun _ ↦ ih fun y hy ↦ h y (List.mem_cons_of_mem x hy)

/-! ### A program over a larger interface -/

/-- The same program over an interface that has its statements among others. -/
def translate {T : Interface} (f : S.Op → T.Op) (g : ∀ op, T.Resp (f op) → S.Resp op) :
    Prog S ε α → Prog T ε α
  | .pure a => .pure a
  | .throw e => .throw e
  | .stmt op k => .stmt (f op) fun r ↦ (k (g op r)).translate f g

/-- A program whose statements are statements of another interface. -/
theorem All.translate {T : Interface} {f : S.Op → T.Op} {g : ∀ op, T.Resp (f op) → S.Resp op}
    {R : T.Op → Prop} {p : Prog S ε α} (h : p.All P) (hf : ∀ op, P op → R (f op)) :
    (p.translate f g).All R := by
  induction p with
  | pure a => trivial
  | throw e => trivial
  | stmt op k ih => exact ⟨hf op h.1, fun r ↦ ih (g op r) (h.2 (g op r))⟩

end Prog

end Concurrency
