import Mathlib.Data.List.TakeWhile

/-!
# Texts and numbers

Texts as lists of characters, with the white space of the language: `String.prototype.trim` removes
it at both ends, and `\s` in a pattern matches the same characters.

## Blank texts

A text is blank if nothing is left of it without white space (`nonblank`), and the lemmas say that
what is trimmed, reversed or appended is blank just if its parts are. A text in which a separator
does not occur can be told apart from what precedes the separator (`append_separator_inj`), which is
how the texts that are hashed determine what they are made of. Where an example needs a digest that
confuses nothing, it takes the text itself, as a number (`Demo.textNumber`).

## Numbers

Numbers of the language that count as exact are bounded by `MAX_SAFE_INTEGER`.
-/

namespace Stead

/-- `Number.MAX_SAFE_INTEGER` -/
def MAX_SAFE_INTEGER : ℕ := 9007199254740991

/-- A text as a list of its characters. -/
abbrev Text := List Char

/-- The white space `String.prototype.trim` removes. -/
def isTrimmed (c : Char) : Bool :=
  c.toNat ∈ [9, 10, 11, 12, 13, 32, 160, 5760, 8232, 8233, 8239, 8287, 12288, 65279] ||
    (8192 ≤ c.toNat && c.toNat ≤ 8202)

/-- `text.trim()` -/
def trim (text : List Char) : List Char :=
  ((text.dropWhile isTrimmed).reverse.dropWhile isTrimmed).reverse

/-- A text with a character that is not white space. -/
def nonblank (text : Text) : Bool := text.any fun c ↦ !isTrimmed c

/-- A text that is dropped as a whole is blank. -/
theorem dropWhile_isTrimmed_eq_nil {text : Text} :
    text.dropWhile isTrimmed = [] ↔ nonblank text = false := by
  rw [List.dropWhile_eq_nil_iff, nonblank, List.any_eq_false]
  simp

theorem nonblank_reverse (text : Text) : nonblank text.reverse = nonblank text := List.any_reverse

theorem nonblank_append (text text' : Text) :
    nonblank (text ++ text') = (nonblank text || nonblank text') := List.any_append

theorem nonblank_dropWhile (text : Text) : nonblank (text.dropWhile isTrimmed) = nonblank text := by
  induction text with
  | nil => rfl
  | cons c text ih =>
    rw [List.dropWhile_cons]
    split
    · next hc => rw [ih, nonblank, nonblank, List.any_cons, hc, Bool.not_true, Bool.false_or]
    · rfl

theorem nonblank_trim (text : Text) : nonblank (trim text) = nonblank text := by
  rw [trim, nonblank_reverse, nonblank_dropWhile, nonblank_reverse, nonblank_dropWhile]

/-- `text.trim().length > 0` -/
theorem trim_ne_nil {text : Text} : trim text ≠ [] ↔ nonblank text = true := by
  rw [← nonblank_trim]
  refine ⟨fun h ↦ ?_, fun h he ↦ by rw [he] at h; cases h⟩
  by_contra hblank
  rw [Bool.not_eq_true, nonblank_trim, ← dropWhile_isTrimmed_eq_nil] at hblank
  exact h (by rw [trim, hblank]; rfl)

/-! ### Separators -/

section Separators

variable {separator : Char} {text text' rest rest' : Text}

/-- What precedes the first separator is determined. -/
theorem separator_append_inj (h : separator ∉ text) (h' : separator ∉ text')
    (heq : text ++ separator :: rest = text' ++ separator :: rest') : text = text' ∧ rest = rest' := by
  induction text generalizing text' with
  | nil =>
    cases text' with
    | nil => exact ⟨rfl, (List.cons.inj heq).2⟩
    | cons c text' => exact absurd ((List.cons.inj heq).1 ▸ List.mem_cons_self ..) h'
  | cons c text ih =>
    cases text' with
    | nil => exact absurd ((List.cons.inj heq).1 ▸ List.mem_cons_self ..) h
    | cons c' text' =>
      obtain rfl := (List.cons.inj heq).1
      obtain ⟨rfl, hrest⟩ := ih (fun hmem ↦ h (List.mem_cons_of_mem _ hmem))
        (fun hmem ↦ h' (List.mem_cons_of_mem _ hmem)) (List.cons.inj heq).2
      exact ⟨rfl, hrest⟩

/-- What follows the last separator is determined. -/
theorem append_separator_inj (h : separator ∉ rest) (h' : separator ∉ rest')
    (heq : text ++ separator :: rest = text' ++ separator :: rest') : text = text' ∧ rest = rest' := by
  have hreverse : rest.reverse ++ separator :: text.reverse =
      rest'.reverse ++ separator :: text'.reverse := by
    have := congrArg List.reverse heq
    simpa using this
  obtain ⟨hrest, htext⟩ := separator_append_inj (mt List.mem_reverse.1 h) (mt List.mem_reverse.1 h')
    hreverse
  exact ⟨List.reverse_inj.1 htext, List.reverse_inj.1 hrest⟩

end Separators

/-! ### Texts as numbers -/

namespace Demo

/-- A text as a number. -/
def textNumber (text : Text) : ℕ := text.foldr (fun c n ↦ 1114112 * n + c.toNat + 1) 0

/-- Different texts have different numbers. -/
theorem textNumber_injective : Function.Injective textNumber := by
  intro text
  induction text with
  | nil =>
    intro text' h
    cases text' with
    | nil => rfl
    | cons c text' => exact absurd h (Nat.succ_ne_zero _).symm
  | cons c text ih =>
    intro text' h
    cases text' with
    | nil => exact absurd h (Nat.succ_ne_zero _)
    | cons c' text' =>
      have hcode : 1114112 * textNumber text + c.toNat + 1 =
          1114112 * textNumber text' + c'.toNat + 1 := h
      have hc : ∀ c : Char, c.toNat < 1114112 := fun c ↦ by
        rcases c.valid with hlow | ⟨-, hhigh⟩
        · exact Nat.lt_of_lt_of_le hlow (by decide)
        · exact hhigh
      have hlt := hc c
      have hlt' := hc c'
      rw [ih (by omega : textNumber text = textNumber text'), Char.toNat_inj.1 (by omega : c.toNat = c'.toNat)]

end Demo

end Stead
