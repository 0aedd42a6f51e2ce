/-
  How names are spelled.

  - `IsName`: the texts that the lexer reads as names;
  - `Expr.Named`, `Prototype.Named`, `Construct.Named`: all names in it satisfy a predicate;
  - `named_of_mem_eventsFrom`: the names in what the parser delivers are texts of the tokens;
  - `Construct.Parsed`: the constructs that the parser delivers for some source text. Their names are
    spelled like names.
-/
import Kaleidoscope.Parser.Events
import Mathlib.Data.List.Infix
import Mathlib.Data.List.TakeWhile

namespace Kaleidoscope

/-- A text that the lexer reads as a name: a letter, and letters or digits after it. -/
def IsName (name : String) : Prop :=
  ∃ c cs, name.toList = c :: cs ∧ Text.isLetter c = true ∧ ∀ d ∈ c :: cs, Lexer.inName d = true

theorem IsName.no_underscore {name : String} (h : IsName name) : '_' ∉ name.toList := by
  obtain ⟨c, cs, hlist, -, hall⟩ := h
  intro hmem
  have hunderscore := hall '_' (hlist ▸ hmem)
  exact absurd hunderscore (by decide)

/-- A letter is neither a digit nor a sign. -/
theorem isLetter_eq_false {c : Char} (h : c.isDigit = true ∨ c = '-' ∨ c = '+') :
    Text.isLetter c = false := by
  -- the digits and the signs come before the first letter
  have htable : ∀ n ≤ 57, Text.letterRanges.holds n = false := by decide
  refine htable c.toNat ?_
  rcases h with h | rfl | rfl
  · simp only [Char.isDigit, Bool.and_eq_true, decide_eq_true_eq] at h
    exact h.2
  · decide
  · decide

/-! ## The names in a construct -/

mutual

/-- All names in the expression satisfy `P`. -/
def Expr.Named (P : String → Prop) : Expr → Prop
  | .number _ => True
  | .identifier name => P name
  | .binary _ left right => left.Named P ∧ right.Named P
  | .call callee args => P callee ∧ Expr.AllNamed P args

/-- All names in the expressions satisfy `P`. -/
def Expr.AllNamed (P : String → Prop) : List Expr → Prop
  | [] => True
  | e :: es => e.Named P ∧ Expr.AllNamed P es

end

/-- All names in the prototype satisfy `P`. -/
structure Prototype.Named (P : String → Prop) (p : Prototype) : Prop where
  name : P p.name
  params : ∀ param ∈ p.params, P param

/-- All names in the construct satisfy `P`. -/
def Construct.Named (P : String → Prop) : Construct → Prop
  | .definition proto body => proto.Named P ∧ body.Named P
  | .declaration proto => proto.Named P
  | .evaluation body => body.Named P

/-! ## What the parser delivers -/

/-- The token's text satisfies `P` if it is a name. -/
def Token.Spells (P : String → Prop) (t : Token) : Prop := t.kind = .identifier → P t.text

/-- A value is good, and the tokens that are left spell names that satisfy `P`. -/
def Reading.Yields {α : Type} {bound : Nat} (P : String → Prop) (good : α → Prop) :
    Reading α bound → Prop
  | .accept value rest _ => good value ∧ ∀ t ∈ rest, t.Spells P
  | .reject _ rest _ => ∀ t ∈ rest, t.Spells P

theorem Reading.Yields.map {P : String → Prop} {α β : Type} {bound : Nat}
    {good : α → Prop} {good' : β → Prop} {r : Reading α bound} (h : r.Yields P good) {f : α → β}
    (hf : ∀ value, good value → good' (f value)) :
    (r.map f).Yields P good' := by
  cases r with
  | accept value rest _ => exact ⟨hf value h.1, h.2⟩
  | reject expected rest _ => exact h

namespace Parser
variable {P : String → Prop}

mutual

theorem primary_yields (ts : List Token) (h : ∀ t ∈ ts, t.Spells P) :
    (primary ts).Yields P (Expr.Named P) := by
  unfold primary
  split
  · exact h
  · rename_i t us
    have hus : ∀ t ∈ us, t.Spells P := fun u hu => h u (List.mem_cons_of_mem _ hu)
    split
    · exact ⟨trivial, hus⟩
    · rename_i hkind
      have htext : P t.text := h t List.mem_cons_self hkind
      split
      · exact ⟨htext, hus⟩
      · rename_i u vs
        split
        · split
          · exact List.forall_mem_nil _
          · rename_i v ws
            have hws : ∀ t ∈ v :: ws, t.Spells P := fun w hw => hus w (List.mem_cons_of_mem _ hw)
            split
            · exact ⟨⟨htext, trivial⟩, fun w hw => hws w (List.mem_cons_of_mem _ hw)⟩
            · have hargs := arguments_yields (v :: ws) hws
              split
              · rename_i args rest _ heq
                rw [heq] at hargs
                exact ⟨⟨htext, hargs.1⟩, hargs.2⟩
              · rename_i expected rest _ heq
                rw [heq] at hargs
                exact hargs
        · exact ⟨htext, hus⟩
    · split
      · have hexpression := expression_yields us hus
        split
        · rename_i expected rest _ heq
          rw [heq] at hexpression
          exact hexpression
        · exact List.forall_mem_nil _
        · rename_i value v rest _ heq
          rw [heq] at hexpression
          split
          · exact ⟨hexpression.1, fun w hw => hexpression.2 w (List.mem_cons_of_mem _ hw)⟩
          · exact hexpression.2
      · exact h
termination_by 4 * ts.length

theorem climb_yields (least : Nat) (left : Expr) (ts : List Token) (hleft : left.Named P)
    (h : ∀ t ∈ ts, t.Spells P) : (climb least left ts).Yields P (Expr.Named P) := by
  unfold climb
  split
  · exact ⟨hleft, h⟩
  · rename_i t us
    have hus : ∀ t ∈ us, t.Spells P := fun u hu => h u (List.mem_cons_of_mem _ hu)
    split
    · exact ⟨hleft, h⟩
    · rename_i op _
      split
      · exact ⟨hleft, h⟩
      · have hprimary := primary_yields us hus
        split
        · rename_i heq
          rw [heq] at hprimary
          exact hprimary
        · rename_i operand rest hrest heq
          rw [heq] at hprimary
          have hshorter : rest.length < (t :: us).length := Nat.lt_succ_of_lt hrest
          have hright := climb_yields (op.precedence + 1) operand rest hprimary.1 hprimary.2
          split
          · rename_i heq'
            rw [heq'] at hright
            exact hright
          · rename_i right rest' hrest' heq'
            rw [heq'] at hright
            have hshorter' : rest'.length < (t :: us).length :=
              Nat.lt_of_lt_of_le hrest' hshorter
            have hwhole := climb_yields least (.binary op left right) rest' ⟨hleft, hright.1⟩ hright.2
            split
            · rename_i heq''
              rw [heq''] at hwhole
              exact hwhole
            · rename_i heq''
              rw [heq''] at hwhole
              exact hwhole
termination_by 4 * ts.length + 3

theorem expression_yields (ts : List Token) (h : ∀ t ∈ ts, t.Spells P) :
    (expression ts).Yields P (Expr.Named P) := by
  have hprimary := primary_yields ts h
  unfold expression
  split
  · rename_i heq
    rw [heq] at hprimary
    exact hprimary
  · rename_i operand rest hrest heq
    rw [heq] at hprimary
    have hclimb := climb_yields 0 operand rest hprimary.1 hprimary.2
    split
    · rename_i heq'
      rw [heq'] at hclimb
      exact hclimb
    · rename_i heq'
      rw [heq'] at hclimb
      exact hclimb
termination_by 4 * ts.length + 1

theorem arguments_yields (ts : List Token) (h : ∀ t ∈ ts, t.Spells P) :
    (arguments ts).Yields P (Expr.AllNamed P) := by
  have hexpression := expression_yields ts h
  unfold arguments
  split
  · rename_i heq
    rw [heq] at hexpression
    exact hexpression
  · exact List.forall_mem_nil _
  · rename_i value t us hus heq
    rw [heq] at hexpression
    have htail : ∀ t ∈ us, t.Spells P := fun u hu => hexpression.2 u (List.mem_cons_of_mem _ hu)
    split
    · have hshorter : us.length < ts.length := by simp at hus; omega
      have harguments := arguments_yields us htail
      split
      · rename_i heq'
        rw [heq'] at harguments
        exact harguments
      · rename_i heq'
        rw [heq'] at harguments
        exact ⟨⟨hexpression.1, harguments.1⟩, harguments.2⟩
    · split
      · exact ⟨⟨hexpression.1, trivial⟩, htail⟩
      · exact hexpression.2
termination_by 4 * ts.length + 2

end

theorem prototype_yields (ts : List Token) (h : ∀ t ∈ ts, t.Spells P) :
    (prototype ts).Yields P (Prototype.Named P) := by
  unfold prototype
  split
  · exact h
  · rename_i t us
    split
    · rename_i hkind
      split
      · exact List.forall_mem_nil _
      · rename_i u vs
        have hvs : ∀ t ∈ vs, t.Spells P := fun v hv =>
          h v (List.mem_cons_of_mem _ (List.mem_cons_of_mem _ hv))
        split
        · split
          · exact List.forall_mem_nil _
          · rename_i w rest heq
            have hrest : ∀ t ∈ w :: rest, t.Spells P := fun v hv =>
              hvs v ((List.dropWhile_sublist _).subset (heq ▸ hv))
            split
            · refine ⟨⟨h t List.mem_cons_self hkind, ?_⟩,
                fun v hv => hrest v (List.mem_cons_of_mem _ hv)⟩
              intro param hparam
              obtain ⟨v, hv, rfl⟩ := List.mem_map.1 hparam
              exact hvs v ((List.takeWhile_sublist _).subset hv)
                (by simpa using List.mem_takeWhile_imp hv)
            · exact hrest
        · exact fun v hv => h v (List.mem_cons_of_mem _ hv)
    · exact h

theorem definition_yields (ts : List Token) (h : ∀ t ∈ ts, t.Spells P) :
    (definition ts).Yields P fun d => d.1.Named P ∧ d.2.Named P := by
  unfold definition
  split
  · exact h
  · rename_i t us
    split
    · have hproto := prototype_yields us fun u hu => h u (List.mem_cons_of_mem _ hu)
      split
      · rename_i heq
        rw [heq] at hproto
        exact hproto
      · rename_i proto rest hrest heq
        rw [heq] at hproto
        have hbody := expression_yields rest hproto.2
        split
        · rename_i heq'
          rw [heq'] at hbody
          exact hbody
        · rename_i heq'
          rw [heq'] at hbody
          exact ⟨⟨hproto.1, hbody.1⟩, hbody.2⟩
    · exact h

theorem declaration_yields (ts : List Token) (h : ∀ t ∈ ts, t.Spells P) :
    (declaration ts).Yields P (Prototype.Named P) := by
  unfold declaration
  split
  · exact h
  · rename_i t us
    split
    · have hproto := prototype_yields us fun u hu => h u (List.mem_cons_of_mem _ hu)
      split
      · rename_i heq
        rw [heq] at hproto
        exact hproto
      · rename_i heq
        rw [heq] at hproto
        exact hproto
    · exact h

theorem construct_yields (ts : List Token) (h : ∀ t ∈ ts, t.Spells P) :
    (construct ts).Yields P (Construct.Named P) := by
  unfold construct
  split
  · exact (expression_yields _ h).map fun _ hvalue => hvalue
  · split
    · exact (definition_yields _ h).map fun _ hvalue => hvalue
    · exact (declaration_yields _ h).map fun _ hvalue => hvalue
    · exact (expression_yields _ h).map fun _ hvalue => hvalue

/-- **The names in what the parser delivers are texts of the tokens.** -/
theorem named_of_mem_eventsFrom (finish : Option Location) (ts : List Token)
    (h : ∀ t ∈ ts, t.Spells P) {c : Construct} (hc : .construct c ∈ (eventsFrom finish ts).1) :
    c.Named P := by
  fun_induction eventsFrom finish ts with
  | case1 => cases hc
  | case2 => cases hc
  | case3 t us _ _ ih => exact ih (fun u hu => h u (List.mem_cons_of_mem _ hu)) hc
  | case4 t us _ _ value rest _ heq events left hevents ih =>
    have hyields := construct_yields _ h
    rw [heq] at hyields
    rcases List.mem_cons.1 hc with hc | hc
    · injection hc with hc
      exact hc ▸ hyields.1
    · rw [hevents] at ih
      exact ih hyields.2 hc
  | case5 t us _ _ expected rest _ heq events left hevents ih =>
    have hyields := construct_yields _ h
    rw [heq] at hyields
    rcases List.mem_cons.1 hc with hc | hc
    · cases hc
    · rw [hevents] at ih
      exact ih (fun u hu => hyields u (List.mem_of_mem_drop hu)) hc

end Parser

/-! ## What the lexer reads -/

namespace Lexer

theorem read_spells (l : Lexer) : l.read.1.Spells IsName := by
  unfold read
  split
  · intro hkind; cases hkind
  · rename_i c cs hrest
    split
    · rename_i hletter
      intro _
      have hrun : l.run inName = c :: cs.takeWhile inName := by
        rw [run, hrest, List.takeWhile_cons_of_pos (by simp [inName, hletter])]
      have htext : (nameToken (String.ofList (l.run inName)) l.loc).text =
          String.ofList (l.run inName) := by
        unfold nameToken
        split
        · rfl
        · split <;> rfl
      refine ⟨c, cs.takeWhile inName, ?_, hletter, ?_⟩
      · show (nameToken (String.ofList (l.run inName)) l.loc).text.toList = _
        rw [htext, hrun, String.toList_ofList]
      · rw [← hrun]
        exact fun d hd => List.mem_takeWhile_imp hd
    · split
      · intro hkind
        exfalso
        revert hkind
        simp only [numberToken]
        split
        · exact Token.Kind.noConfusion
        · split <;> exact Token.Kind.noConfusion
      · intro hkind; cases hkind

/-- What holds of every token that is read holds of all tokens up to the end of input. -/
theorem forall_mem_drain {P : Token → Prop} (h : ∀ l : Lexer, P l.read.1) (l : Lexer) :
    ∀ t ∈ l.drain.1, P t := by
  fun_induction drain l with
  | case1 l t l' hnext hend =>
    intro u hu
    have hread := h l.skipGap
    rw [List.mem_singleton.1 hu]
    rwa [show l.skipGap.read = (t, l') from hnext] at hread
  | case2 l t l' hnext hend tokens last hdrain ih =>
    rw [hdrain] at ih
    intro u hu
    rcases List.mem_cons.1 hu with rfl | hu
    · have hread := h l.skipGap
      rwa [show l.skipGap.read = (u, l') from hnext] at hread
    · exact ih u hu

theorem drain_spells (l : Lexer) : ∀ t ∈ l.drain.1, t.Spells IsName :=
  forall_mem_drain read_spells l

end Lexer

/-- The parser delivers the construct for some source text. -/
def Construct.Parsed (c : Construct) : Prop :=
  ∃ source, .construct c ∈ (Parser.ofBytes source).events.1

/-- **The names in a parsed construct are spelled like names.** -/
theorem Construct.Parsed.named {c : Construct} (h : c.Parsed) : c.Named IsName := by
  obtain ⟨source, hc⟩ := h
  refine Parser.named_of_mem_eventsFrom _ _ (fun t ht => ?_) hc
  exact Lexer.drain_spells (Lexer.ofBytes source) t (List.mem_of_mem_dropLast ht)

end Kaleidoscope
