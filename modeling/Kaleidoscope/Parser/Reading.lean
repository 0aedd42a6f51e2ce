/-
  What a recognizer answers.

  - `Reading`: a value, or what was looked for in vain, and in both cases the tokens left unread;
  - `Reading.map`: the value in another form.
-/
import Kaleidoscope.Token.Basic

namespace Kaleidoscope

/-- What a recognizer answers on tokens fewer than `bound`, or as many. A value has used up at
least one of them. -/
inductive Reading (α : Type) (bound : Nat) where
  /-- A value, and the tokens after it. -/
  | accept (value : α) (rest : List Token) (progress : rest.length < bound)
  /-- What was looked for in vain, and the tokens from the one that stands there instead. -/
  | reject (expected : Expectation) (rest : List Token) (bounded : rest.length ≤ bound)

namespace Reading

/-- The value in another form. -/
def map {α β : Type} {bound : Nat} (f : α → β) : Reading α bound → Reading β bound
  | accept value rest h => .accept (f value) rest h
  | reject expected rest h => .reject expected rest h

end Reading

end Kaleidoscope
