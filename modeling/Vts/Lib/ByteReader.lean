/-!
# Readers of a byte stream

A reader takes a byte string and either fails or returns a value and the bytes
after it. Readers form a monad, so a parser reads as the imperative code it
models. Two properties are closed under composition: a reader that never gives
back more bytes than it took, and a reader that fails only in allowed ways.
-/

namespace Vts.Lib

universe u
variable {ε α β : Type}

/-- A reader with failures in `ε`. -/
def ByteReader (ε α : Type) : Type := List UInt8 → Except ε (α × List UInt8)

variable {first : ByteReader ε α} {next : α → ByteReader ε β}

namespace ByteReader

instance : Monad (ByteReader ε) where
  pure value := fun stream => .ok (value, stream)
  bind first next := fun stream =>
    match first stream with
    | .error failure => .error failure
    | .ok (value, rest) => next value rest

/-- A reader that always fails. -/
def fail (failure : ε) : ByteReader ε α := fun _ => .error failure

section

variable {stream : List UInt8} {failure : ε} {allowed : ε → Prop} (value : α)

@[simp] theorem pure_run (stream : List UInt8) :
    (pure value : ByteReader ε α) stream = .ok (value, stream) := rfl

@[simp] theorem fail_run (failure : ε) (stream : List UInt8) :
    (fail failure : ByteReader ε α) stream = .error failure := rfl

theorem bind_run (first : ByteReader ε α) (next : α → ByteReader ε β) (stream : List UInt8) :
    (first >>= next) stream =
      match first stream with
      | .error failure => .error failure
      | .ok (value, rest) => next value rest := rfl

/-- Run past a reader that succeeds. -/
theorem bind_ok {rest : List UInt8} {value : α} (read : first stream = .ok (value, rest)) :
    (first >>= next) stream = next value rest := by
  rw [bind_run, read]

theorem bind_error (failed : first stream = .error failure) :
    (first >>= next) stream = .error failure := by
  rw [bind_run, failed]

/-- A composition succeeds exactly when both parts do. -/
theorem bind_eq_ok {result : β × List UInt8} :
    (first >>= next) stream = .ok result ↔
      ∃ value rest, first stream = .ok (value, rest) ∧ next value rest = .ok result := by
  rw [bind_run]
  cases outcome : first stream with
  | error failure => simp
  | ok pair =>
    obtain ⟨value, rest⟩ := pair
    simp [and_assoc]

/-- A composition fails in its first part, or in its second part after the first. -/
theorem bind_eq_error :
    (first >>= next) stream = .error failure ↔
      first stream = .error failure ∨
        ∃ value rest, first stream = .ok (value, rest) ∧ next value rest = .error failure := by
  rw [bind_run]
  cases outcome : first stream with
  | error other => simp
  | ok pair =>
    obtain ⟨value, rest⟩ := pair
    simp [and_assoc]

/-- The reader never returns a longer stream. -/
def Consumes (reader : ByteReader ε α) : Prop :=
  ∀ stream value rest, reader stream = .ok (value, rest) → rest.length ≤ stream.length

/-- The reader fails only with allowed failures. -/
def FailsOnly (allowed : ε → Prop) (reader : ByteReader ε α) : Prop :=
  ∀ stream failure, reader stream = .error failure → allowed failure

theorem consumes_pure : Consumes (pure value : ByteReader ε α) := by
  intro stream other rest read
  simp only [pure_run, Except.ok.injEq, Prod.mk.injEq] at read
  exact Nat.le_of_eq (congrArg List.length read.2.symm)

theorem consumes_fail (failure : ε) : Consumes (fail failure : ByteReader ε α) := by
  intro stream value rest read
  simp at read

theorem Consumes.bind (left : Consumes first) (right : ∀ value, Consumes (next value)) :
    Consumes (first >>= next) := by
  intro stream value rest read
  obtain ⟨middle, remaining, firstRead, nextRead⟩ := bind_eq_ok.mp read
  exact Nat.le_trans (right middle remaining value rest nextRead)
    (left stream middle remaining firstRead)

theorem FailsOnly.bind (left : FailsOnly allowed first)
    (right : ∀ value, FailsOnly allowed (next value)) : FailsOnly allowed (first >>= next) := by
  intro stream failure failed
  rcases bind_eq_error.mp failed with firstFailed | ⟨value, rest, _, nextFailed⟩
  · exact left stream failure firstFailed
  · exact right value rest failure nextFailed

end

end ByteReader

end Vts.Lib
