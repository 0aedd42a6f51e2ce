/-
  The S-expression of a construct, by recursion on its tree.

  - `Expr.sexpr`: the text of an expression, without nodes and without a pass;
  - `SExpr.computes`: a node is written so from the texts of its parts;
  - `Construct.sexpr`, `Construct.toSExpr_eq`: the same for constructs;
  - `toList_binary`, `toList_call`, `toList_prototype`, `toList_definition`, `toList_declaration`:
    the texts as characters.
-/
import Kaleidoscope.Proofs.Lowering.Fresh
import Kaleidoscope.SExpr

namespace Kaleidoscope

mutual

/-- The text of an expression. -/
def Expr.sexpr : Expr → String
  | .number value => SExpr.literal value
  | .identifier name => name
  | .binary op left right => SExpr.binary (OpCode.ofOperator op).text left.sexpr right.sexpr
  | .call callee args => SExpr.call callee (Expr.sexprs args)

/-- The texts of expressions. -/
def Expr.sexprs : List Expr → List String
  | [] => []
  | e :: es => e.sexpr :: Expr.sexprs es

end

/-- The text of a construct. One without a name is written as its body. -/
def Construct.sexpr : Construct → String
  | .definition proto body =>
    if proto.isAnonymous then body.sexpr
    else SExpr.definition (SExpr.prototype proto) body.sexpr
  | .declaration proto => SExpr.declaration (SExpr.prototype proto)
  | .evaluation body => body.sexpr

namespace SExpr

theorem backend_binary (op : OpCode) : backend.binary op = (do
    let left ← Plan.lower 0
    let right ← Plan.lower 1
    return binary op.text left right) := rfl

theorem backend_call (callee : String) (count : Nat) : backend.call callee count = (do
    let args ← Plan.lowerFrom 0 count
    return call callee args) := rfl

theorem backend_function (p : Prototype) : backend.function (some p) = (do
    let body ← Plan.lower 1
    if p.isAnonymous then return body
    else
      let proto ← Plan.lower 0
      return definition proto body) := rfl

/-- The result is the text of the expression. There is no state. -/
def Written (e : Expr) (_ : Unit) (text : String) (_ : Unit) : Prop := text = e.sexpr

theorem chain_written (es : List Expr) : Chain Written es () (Expr.sexprs es) () := by
  induction es with
  | nil => exact .nil
  | cons e es ih => exact .cons rfl ih

/-- Each expression is written from the texts of its parts. -/
theorem computes : backend.Computes Written where
  number {value _ r _} h _ := by
    rw [show r = literal value from h]
    rfl
  identifier {name _ r _} h _ := by
    rw [show r = name from h]
    rfl
  binary {op left right _ r _} h := by
    refine ⟨left.sexpr, (), right.sexpr, (), rfl, rfl, fun a c p p₁ p₂ hleft hright => ?_⟩
    simp only [backend_binary, Plan.run_bind, Plan.run_lower [a, c] _ _ (i := 0) rfl, hleft,
      Action.andThen_ok, Plan.run_lower [a, c] _ _ (i := 1) rfl, hright, Plan.run_pure,
      show r = (Expr.binary op left right).sexpr from h, Expr.sexpr]
  call {callee args _ r _} h := by
    refine ⟨Expr.sexprs args, (), chain_written args, fun actions p p₁ hlength hargs => ?_⟩
    rw [backend_call, ← hlength, Plan.run_bind, Plan.run_lowerFrom_zero, hargs,
      show r = (Expr.call callee args).sexpr from h, Expr.sexpr]
    rfl

/-- A function is written as its body, or as a definition if it has a name. -/
theorem toSExpr_function (p : Prototype) (body : Expr) (n : NodeId) :
    (Node.function ⟨(body.toTerm n).2 + 1, .proto (body.toTerm n).2 p, (body.toTerm n).1⟩).toSExpr =
      if p.isAnonymous then body.sexpr else definition (prototype p) body.sexpr := by
  have hwritten : Written body () body.sexpr () := rfl
  obtain ⟨pass, hbody, hkept⟩ := computes.run_toTerm body n Pass.empty.enter hwritten
    fun id _ _ => Pass.result?_empty id
  have hproto : pass.result? (body.toTerm n).2 = none :=
    (hkept _ (Or.inr (Nat.le_refl _))).trans (Pass.result?_empty _)
  unfold Node.toSExpr Node.lowerFresh Node.lower
  simp only [Node.action, FunctionNode.action, visit_of_missing (Pass.result?_empty _),
    ProtoNode.content?, backend_function, Plan.run_bind,
    Plan.run_lower [_, body.toTerm n |>.1.action _] _ _ (i := 1) rfl, hbody, Action.andThen_ok]
  cases p.isAnonymous with
  | true => simp only [if_true, Plan.run_pure, settle]
  | false =>
    have hwrites : (ProtoNode.proto (body.toTerm n).2 p).action backend () pass =
        (.ok (prototype p), (), (pass.enter.record (body.toTerm n).2 (prototype p)).leave) :=
      visit_of_missing hproto
    simp only [Bool.false_eq_true, if_false, Plan.run_bind,
      Plan.run_lower [ProtoNode.action backend (.proto (body.toTerm n).2 p), _] _ _ (i := 0) rfl,
      hwrites, Action.andThen_ok, Plan.run_pure, settle]

end SExpr

/-- **The text of a construct is that of its tree.** -/
theorem Construct.toSExpr_eq (c : Construct) : c.toSExpr = c.sexpr := by
  cases c with
  | definition proto body => exact SExpr.toSExpr_function proto body NodeId.first
  | evaluation body => exact SExpr.toSExpr_function Prototype.anonymous body NodeId.first
  | declaration proto =>
    simp only [Construct.toSExpr, Construct.sexpr, ProtoNode.toSExpr]
    congr 1

/-! ## The texts as characters -/

namespace SExpr

/-- Texts with a space before each. -/
def spaced (texts : List String) : List Char := texts.flatMap fun text => ' ' :: text.toList

theorem spaced_cons (text : String) (texts : List String) :
    spaced (text :: texts) = ' ' :: (text.toList ++ spaced texts) := rfl

theorem toList_join_spaced (texts : List String) :
    (String.join (texts.map (" " ++ ·))).toList = spaced texts := by
  rw [String.toList_join, List.flatMap_map]
  congr 1
  funext text
  rw [String.toList_append]
  rfl

/-- Only the first of the texts has no space before it. -/
theorem toList_intercalate_spaced (text : String) (texts : List String) :
    (" ".intercalate (text :: texts)).toList = text.toList ++ spaced texts := by
  rw [String.toList_intercalate]
  induction texts generalizing text with
  | nil => simp [spaced]
  | cons next texts ih =>
    rw [spaced_cons, ← ih next, List.map_cons, List.map_cons, List.intercalate_cons_cons,
      List.append_assoc]
    rfl

theorem toList_binary (op : Operator) (left right : String) :
    (binary (OpCode.ofOperator op).text left right).toList =
      '(' :: op.symbol :: (spaced [left, right] ++ [')']) := by
  have htext : (OpCode.ofOperator op).text = String.singleton op.symbol := by cases op <;> rfl
  simp [binary, htext, spaced]

theorem toList_call (callee : String) (args : List String) :
    (call callee args).toList = '(' :: ("call".toList ++ (spaced (callee :: args) ++ [')'])) := by
  simp only [call, String.toList_append, toList_join_spaced]
  simp [spaced_cons]

theorem toList_prototype (p : Prototype) :
    (prototype p).toList = p.name.toList ++ '(' :: ((spaced p.params).tail ++ [')']) := by
  obtain ⟨name, params⟩ := p
  cases params with
  | nil => simp [prototype, spaced]
  | cons param params =>
    simp only [prototype, String.toList_append, toList_intercalate_spaced]
    simp [spaced_cons]

theorem toList_definition (proto body : String) :
    (definition proto body).toList = '(' :: ("def".toList ++ (spaced [proto, body] ++ [')'])) := by
  simp [definition, spaced]

theorem toList_declaration (proto : String) :
    (declaration proto).toList = '(' :: ("extern".toList ++ (spaced [proto] ++ [')'])) := by
  simp [declaration, spaced]

end SExpr

end Kaleidoscope
