import Mathlib.Data.List.Infix

/-!
# Texts with a separator

A list is compared with one that has a separator, where the parts before the separator are free of
it. Equality, and being a prefix, come down to the parts. The digits of a number are free of
everything that is not a digit, and determine the number.
-/

namespace Vts.Lib

open List

variable {α : Type} {separator : α} {first other rest more : List α}

theorem split_first_iff (free : separator ∉ first) (alsoFree : separator ∉ other) :
    first ++ separator :: rest = other ++ separator :: more ↔ first = other ∧ rest = more := by
  induction first generalizing other with
  | nil =>
    cases other with
    | nil => simp
    | cons head other =>
      rw [mem_cons, not_or] at alsoFree
      simp [alsoFree.1]
  | cons head first ih =>
    rw [mem_cons, not_or] at free
    cases other with
    | nil => simp [Ne.symm free.1]
    | cons second other =>
      rw [mem_cons, not_or] at alsoFree
      simp [ih free.2 alsoFree.2, and_assoc]

theorem prefix_split_first_iff (free : separator ∉ first) (alsoFree : separator ∉ other) :
    first ++ separator :: rest <+: other ++ separator :: more ↔ first = other ∧ rest <+: more := by
  simp only [List.IsPrefix, append_assoc, cons_append, split_first_iff free alsoFree,
    exists_and_left]

/-- Two texts of which the parts after the separator do not have it are split alike. -/
theorem split_last {front back other rest : List α}
    (same : front ++ separator :: back = other ++ separator :: rest) (free : separator ∉ back)
    (alsoFree : separator ∉ rest) : front = other ∧ back = rest := by
  rcases append_eq_append_iff.mp same with ⟨middle, rfl, tail⟩ | ⟨middle, rfl, tail⟩
  · cases middle with
    | nil => exact ⟨(append_nil _).symm, (List.cons.inj tail).2⟩
    | cons first middle =>
      refine absurd ?_ free
      rw [(List.cons.inj tail).2]
      exact mem_append_right _ mem_cons_self
  · cases middle with
    | nil => exact ⟨append_nil _, (List.cons.inj tail).2.symm⟩
    | cons first middle =>
      refine absurd ?_ alsoFree
      rw [(List.cons.inj tail).2]
      exact mem_append_right _ mem_cons_self

/-! ## Decimal numbers -/

theorem isDigit_of_mem_digits {number : Nat} {char : Char}
    (listed : char ∈ Nat.toDigits 10 number) : char.isDigit = true :=
  Nat.isDigit_of_mem_toDigits (by decide) (by decide) listed

/-- No digit is a sign, a space or a separator. -/
theorem not_mem_digits {number : Nat} {char : Char} (nonDigit : char.isDigit = false) :
    char ∉ Nat.toDigits 10 number := by
  intro listed
  rw [isDigit_of_mem_digits listed] at nonDigit
  cases nonDigit

theorem digits_inj {number another : Nat} :
    Nat.toDigits 10 number = Nat.toDigits 10 another ↔ number = another := by
  constructor
  · intro same
    have value := congrArg (fun digits => Nat.ofDigitChars 10 digits 0) same
    simpa only [Nat.ofDigitChars_ten_toDigits] using value
  · intro same
    rw [same]

end Vts.Lib
