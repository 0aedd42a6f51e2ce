/-
  What can go wrong, by cause, and the wording.

  - `Error`: every failure of reading, parsing, checking and emitting;
  - `Error.message`: the wording of each;
  - `Error.isMistake`: whether the source program is to blame; all else is a failure of the tool or
    of a tree that was built by hand.
-/
import Kaleidoscope.Location
import Kaleidoscope.Operator

namespace Kaleidoscope

/-- What is wrong with a token. -/
inductive LexicalProblem where
  /-- A number with two or more dots. -/
  | numberFormat
  /-- A number without a digit, or beyond the largest finite one. -/
  | numberValue
  /-- A problem that another source of tokens words itself. -/
  | worded (text : String)
  deriving DecidableEq, Repr

/-- The wording of a lexical problem. -/
def LexicalProblem.message : LexicalProblem → String
  | numberFormat => "wrong number format"
  | numberValue => "invalid number"
  | worded text => text

/-- What the parser looked for in vain. -/
inductive Expectation where
  /-- The keyword of a definition. -/
  | definitionKeyword
  /-- The keyword of a declaration. -/
  | declarationKeyword
  /-- The name of a function. -/
  | functionName
  /-- The parenthesis that opens the parameters. -/
  | parametersOpen
  /-- The parenthesis that closes the parameters. -/
  | parametersClose
  /-- The first token of an expression; `found` names the token that stands there. -/
  | expression (found : String)
  /-- The parenthesis that closes an expression. -/
  | groupClose
  /-- A comma or the parenthesis that closes the arguments. -/
  | argumentsClose
  /-- An expectation in words. -/
  | worded (text : String)
  deriving DecidableEq, Repr

/-- The wording of an expectation. -/
def Expectation.message : Expectation → String
  | definitionKeyword => "expected 'def'"
  | declarationKeyword => "expected 'extern'"
  | functionName => "expected function name in prototype"
  | parametersOpen => "expected '(' in prototype"
  | parametersClose => "expected ')' in prototype"
  | expression found => "unknown token " ++ found ++ " when expecting an expression"
  | groupClose => "expected ')'"
  | argumentsClose => "expected ')' or ',' in argument list"
  | worded text => text

/-- A failure, by its cause. -/
inductive Error where
  /-- A token that cannot be read. -/
  | lexical (loc : Location) (problem : LexicalProblem) (text : String)
  /-- A token where another one was expected. -/
  | syntactic (loc : Location) (expected : Expectation)
  /-- A name that nothing declares; `what` says what was looked for. -/
  | undefined (what name : String)
  /-- A wrong number of arguments or parameters. -/
  | arity (name : String) (want got : Int)
  /-- An operator that the language does not have. -/
  | operation (op : OpCode)
  /-- A second body for a function. -/
  | redefinition (name : String)
  /-- A prototype with two parameters of one name. -/
  | duplicateParameter (function parameter : String)
  /-- A function with the name of a runtime function. -/
  | reservedName (name : String)
  /-- A tree with a hole. -/
  | absentNode
  /-- A node that the language does not have, by the name of its kind. -/
  | foreignNode (kind : String)
  /-- An expression that is emitted while no function is being built. -/
  | noBlock
  /-- A node that was to be a function, and is an expression. -/
  | noFunction
  /-- A function whose results cannot be numbered. -/
  | numbering (function reason : String)
  /-- A lowering that was given up. -/
  | aborted (reason : String)
  /-- A source that cannot be read. -/
  | reading (name reason : String)
  /-- A file that cannot be written. -/
  | writing (name reason : String)
  /-- A failure that another source of tokens words itself. -/
  | worded (text : String)
  deriving DecidableEq, Repr

namespace Error

/-- What an undefined variable is called. -/
def undefinedVariable (name : String) : Error := .undefined "variable" name

/-- What an undefined function is called. -/
def undefinedFunction (name : String) : Error := .undefined "function" name

/-- The wording of a failure. -/
def message : Error → String
  | lexical loc problem text => loc.text ++ " " ++ problem.message ++ ": '" ++ text ++ "'"
  | syntactic loc expected => loc.text ++ " " ++ expected.message
  | undefined what name => "undefined " ++ what ++ ": " ++ name
  | arity name want got =>
    "incorrect number of arguments for '" ++ name ++ "': want " ++ toString want ++ ", got " ++
      toString got
  | operation op => "undefined operation: '" ++ op.text ++ "'"
  | redefinition name => "function cannot be redefined: " ++ name
  | duplicateParameter function parameter =>
    "duplicate parameter '" ++ parameter ++ "' in '" ++ function ++ "'"
  | reservedName name => "name is reserved by the runtime: " ++ name
  | absentNode => "cannot lower a nil node"
  | foreignNode kind => "unknown node " ++ kind
  | noBlock => "expression lowered outside of a function body"
  | noFunction => "expected a function"
  | numbering function reason => "numbering " ++ function ++ ": " ++ reason
  | aborted reason => "lowering aborted: " ++ reason
  | reading name reason => "reading " ++ name ++ ": " ++ reason
  | writing name reason => "writing " ++ name ++ ": " ++ reason
  | worded text => text

/-- Whether the source program is to blame. -/
def isMistake : Error → Bool
  | lexical .. | syntactic .. | undefined .. | arity .. | operation .. | redefinition ..
  | duplicateParameter .. | reservedName .. => true
  | absentNode | foreignNode .. | noBlock | noFunction | numbering .. | aborted ..
  | reading .. | writing .. | worded .. => false

end Error

end Kaleidoscope
