/-
  The grammar, as recognizers of token lists.

  - `primary`: one operand;
  - `climb`: operators that bind at least as tightly as a threshold, with their operands;
  - `expression`: an operand and all operators after it;
  - `arguments`: the arguments of a call;
  - `prototype`: a name and parameters in parentheses;
  - `definition`, `declaration`: a prototype behind its keyword, with and without a body;
  - `construct`: the piece of a program that the first token announces.
-/
import Kaleidoscope.Construct
import Kaleidoscope.Parser.Reading

namespace Kaleidoscope.Parser

/-! ## Expressions -/

/-- What stands where an expression should start. -/
def unexpected : List Token → Expectation
  | [] => .expression Token.Kind.endOfInput.name
  | t :: _ => .expression t.kind.name

mutual

/-- A number, a variable, a call, or an expression in parentheses. -/
def primary (ts : List Token) : Reading Expr ts.length :=
  match ts with
  | [] => .reject (unexpected []) [] (Nat.le_refl _)
  | t :: us =>
    match t.kind with
    | .number value => .accept (.number value) us (by simp)
    | .identifier =>
      match us with
      | [] => .accept (.identifier t.text) [] (by simp)
      | u :: vs =>
        if u.is '(' then
          match vs with
          | [] => .reject (unexpected []) [] (by simp)
          | v :: ws =>
            if v.is ')' then .accept (.call t.text []) ws (by simp; omega)
            else
              match arguments (v :: ws) with
              | .accept args rest h => .accept (.call t.text args) rest (by simp at h ⊢; omega)
              | .reject expected rest h => .reject expected rest (by simp at h ⊢; omega)
        else .accept (.identifier t.text) (u :: vs) (by simp)
    | _ =>
      if t.is '(' then
        match expression us with
        | .reject expected rest h => .reject expected rest (by simp; omega)
        | .accept value [] _ => .reject .groupClose [] (by simp)
        | .accept value (v :: rest) h =>
          if v.is ')' then .accept value rest (by simp at h ⊢; omega)
          else .reject .groupClose (v :: rest) (by simp at h ⊢; omega)
      else .reject (unexpected (t :: us)) (t :: us) (Nat.le_refl _)
termination_by 4 * ts.length

/-- Extends `left` by operators that bind at least as tightly as `least`, with their operands. -/
def climb (least : Nat) (left : Expr) (ts : List Token) : Reading Expr (ts.length + 1) :=
  match ts with
  | [] => .accept left [] (by simp)
  | t :: us =>
    match t.operator? with
    | none => .accept left (t :: us) (by simp)
    | some op =>
      if op.precedence < least then .accept left (t :: us) (by simp)
      else
        match primary us with
        | .reject expected rest h => .reject expected rest (by simp; omega)
        | .accept operand rest h =>
          match climb (op.precedence + 1) operand rest with
          | .reject expected rest' h' => .reject expected rest' (by simp; omega)
          | .accept right rest' h' =>
            match climb least (.binary op left right) rest' with
            | .reject expected rest'' h'' => .reject expected rest'' (by simp; omega)
            | .accept value rest'' h'' => .accept value rest'' (by simp; omega)
termination_by 4 * ts.length + 3

/-- An operand, extended by all operators that follow. -/
def expression (ts : List Token) : Reading Expr ts.length :=
  match primary ts with
  | .reject expected rest h => .reject expected rest h
  | .accept operand rest h =>
    match climb 0 operand rest with
    | .reject expected rest' h' => .reject expected rest' (by omega)
    | .accept value rest' h' => .accept value rest' (by omega)
termination_by 4 * ts.length + 1

/-- One or more arguments with commas between them, and the parenthesis that closes them. -/
def arguments (ts : List Token) : Reading (List Expr) ts.length :=
  match expression ts with
  | .reject expected rest h => .reject expected rest h
  | .accept _ [] h => .reject .argumentsClose [] (by simp)
  | .accept value (t :: us) h =>
    if t.is ',' then
      have : us.length < ts.length := by simp at h; omega
      match arguments us with
      | .reject expected rest h' => .reject expected rest (by simp at h; omega)
      | .accept values rest h' => .accept (value :: values) rest (by simp at h; omega)
    else if t.is ')' then .accept [value] us (by simp at h; omega)
    else .reject .argumentsClose (t :: us) (by simp at h ⊢; omega)
termination_by 4 * ts.length + 2

end

/-! ## The pieces of a program -/

/-- A name, and parameters in parentheses, with nothing but blanks between them. -/
def prototype (ts : List Token) : Reading Prototype ts.length :=
  match ts with
  | [] => .reject .functionName [] (Nat.le_refl _)
  | t :: us =>
    if t.kind = .identifier then
      match us with
      | [] => .reject .parametersOpen [] (by simp)
      | u :: vs =>
        if u.is '(' then
          have shorter : (vs.dropWhile (·.kind = .identifier)).length ≤ vs.length :=
            (List.dropWhile_sublist _).length_le
          match _h : vs.dropWhile (·.kind = .identifier) with
          | [] => .reject .parametersClose [] (by simp)
          | w :: rest =>
            if w.is ')' then
              .accept ⟨t.text, (vs.takeWhile (·.kind = .identifier)).map (·.text)⟩ rest
                (by rw [_h] at shorter; simp at shorter ⊢; omega)
            else
              .reject .parametersClose (w :: rest) (by rw [_h] at shorter; simp at shorter ⊢; omega)
        else .reject .parametersOpen (u :: vs) (by simp)
    else .reject .functionName (t :: us) (Nat.le_refl _)

/-- The keyword of a definition, a prototype and a body. -/
def definition (ts : List Token) : Reading (Prototype × Expr) ts.length :=
  match ts with
  | [] => .reject .definitionKeyword [] (Nat.le_refl _)
  | t :: us =>
    if t.kind = .define then
      match prototype us with
      | .reject expected rest h => .reject expected rest (by simp; omega)
      | .accept proto rest h =>
        match expression rest with
        | .reject expected rest' h' => .reject expected rest' (by simp; omega)
        | .accept body rest' h' => .accept (proto, body) rest' (by simp; omega)
    else .reject .definitionKeyword (t :: us) (Nat.le_refl _)

/-- The keyword of a declaration and a prototype. -/
def declaration (ts : List Token) : Reading Prototype ts.length :=
  match ts with
  | [] => .reject .declarationKeyword [] (Nat.le_refl _)
  | t :: us =>
    if t.kind = .declare then
      match prototype us with
      | .reject expected rest h => .reject expected rest (by simp; omega)
      | .accept proto rest h => .accept proto rest (by simp; omega)
    else .reject .declarationKeyword (t :: us) (Nat.le_refl _)

/-- The construct that the first token announces. -/
def construct (ts : List Token) : Reading Construct ts.length :=
  match ts with
  | [] => (expression []).map .evaluation
  | t :: us =>
    match t.kind with
    | .define => (definition (t :: us)).map fun (proto, body) => .definition proto body
    | .declare => (declaration (t :: us)).map .declaration
    | _ => (expression (t :: us)).map .evaluation

end Kaleidoscope.Parser
