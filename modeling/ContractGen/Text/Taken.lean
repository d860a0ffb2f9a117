/-!
# Partial reading

A reader takes something off the front of a list of characters or tokens. What it returns says
what is left and proves that it consumed something, so every loop over readers ends. The facts in
`Reading` compose such proofs, reader after reader.
-/

namespace ContractGen

/-- A value read off the front of `input`, and what is left after it. -/
structure Taken {τ : Type} (α : Type) (input : List τ) where
  value : α
  rest : List τ
  /-- Something was consumed. -/
  lt : rest.length < input.length

/-- What is left after something that may be absent. -/
abbrev Left {τ : Type} (input : List τ) : Type :=
  { rest : List τ // rest.length ≤ input.length }

namespace Reading

variable {τ : Type} {a : τ} {input first rest left : List τ}

/-- Reading an element leaves less. -/
theorem rest_lt :
    rest.length < (a :: rest).length :=
  Nat.lt_succ_self rest.length

/-- What is left after more than an element was read. -/
theorem lt_cons_of_lt
    (h : left.length < rest.length) :
    left.length < (a :: rest).length :=
  Nat.lt_succ_of_lt h

/-- What is left after an element and something that may be absent. -/
theorem lt_cons_of_le
    (h : left.length ≤ rest.length) :
    left.length < (a :: rest).length :=
  Nat.lt_succ_of_le h

/-- Two readers, both of which read something. -/
theorem lt_of_lt_lt
    (h₁ : first.length < input.length)
    (h₂ : left.length < first.length) :
    left.length < input.length :=
  Nat.lt_trans h₂ h₁

/-- Two readers, the first of which reads something. -/
theorem lt_of_lt_le
    (h₁ : first.length < input.length)
    (h₂ : left.length ≤ first.length) :
    left.length < input.length :=
  Nat.lt_of_le_of_lt h₂ h₁

/-- Two readers, the second of which reads something. -/
theorem lt_of_le_lt
    (h₁ : first.length ≤ input.length)
    (h₂ : left.length < first.length) :
    left.length < input.length :=
  Nat.lt_of_lt_of_le h₂ h₁

/-- Reading something leaves no more. -/
theorem le_of_lt
    (h : left.length < input.length) :
    left.length ≤ input.length :=
  Nat.le_of_lt h

/-- Passing over an element leaves no more. -/
theorem tail_le :
    input.tail.length ≤ input.length := by
  rw [List.length_tail]
  exact Nat.sub_le _ _

/-- What is left by a reader after an element was passed over. -/
theorem lt_of_lt_tail
    (h : left.length < input.tail.length) :
    left.length < input.length :=
  Nat.lt_of_lt_of_le h tail_le

end Reading

namespace Left

variable {τ : Type}

/-- Nothing was read. -/
def whole (input : List τ) : Left input :=
  ⟨input, Nat.le_refl _⟩

/-- One element was read. -/
def one (a : τ) (rest : List τ) : Left (a :: rest) :=
  ⟨rest, Nat.le_succ _⟩

/-- The first element was passed over, if there is one. -/
def tail (input : List τ) : Left input :=
  ⟨input.tail, Reading.tail_le⟩

/-- Some elements were passed over. -/
def drop (n : Nat) (input : List τ) : Left input :=
  ⟨input.drop n, (List.drop_sublist n input).length_le⟩

end Left

namespace Taken

variable {τ α : Type} {rest : List τ}

/-- A value of one element. -/
def one (value : α) (a : τ) (rest : List τ) : Taken α (a :: rest) :=
  ⟨value, rest, Reading.rest_lt⟩

/-- A value read after one more element. -/
def cons (a : τ) (t : Taken α rest) : Taken α (a :: rest) :=
  ⟨t.value, t.rest, Reading.lt_cons_of_lt t.lt⟩

end Taken

/-- What is left after the elements of a class at the front. -/
def skipWhile {τ : Type} (p : τ → Bool) (input : List τ) : Left input :=
  ⟨input.dropWhile p, (List.dropWhile_sublist p).length_le⟩

end ContractGen
