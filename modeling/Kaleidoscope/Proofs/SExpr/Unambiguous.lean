/-
  The S-expression of a construct tells the construct.

  - `Binary64.Unsigned`, `Expr.Plain`, `Construct.Plain`: names are spelled like names, and numbers
    are finite and have no sign. The keywords are not excluded as names;
  - `Construct.Parsed.plain`: what the parser delivers is plain;
  - `SExpr.Closed`: what comes after a name or a number does not extend it;
  - `SExpr.Shape`: what the first two characters of a text tell;
  - `SExpr.expr_unique`: a text starts with one expression at most;
  - `Construct.toSExpr_unambiguous`: no two plain constructs have the same text.
-/
import Kaleidoscope.Proofs.Binary64.Layout
import Kaleidoscope.Proofs.Parser.Segment
import Kaleidoscope.Proofs.SExpr.Text
import Kaleidoscope.Proofs.Token.Join

namespace Kaleidoscope

/-! ## Plain constructs -/

/-- A finite number with the sign bit clear. -/
structure Binary64.Unsigned (x : Binary64) : Prop where
  positive : x.negative = false
  finite : x.rank < Binary64.infinityRank

mutual

/-- Names are spelled like names, and numbers are finite and have no sign. -/
def Expr.Plain : Expr → Prop
  | .number value => value.Unsigned
  | .identifier name => IsName name
  | .binary _ left right => left.Plain ∧ right.Plain
  | .call callee args => IsName callee ∧ Expr.AllPlain args

/-- All expressions are plain. -/
def Expr.AllPlain : List Expr → Prop
  | [] => True
  | e :: es => e.Plain ∧ Expr.AllPlain es

end

/-- The names and the expression of the construct are plain. -/
def Construct.Plain : Construct → Prop
  | .definition proto body => proto.Named IsName ∧ body.Plain
  | .declaration proto => proto.Named IsName
  | .evaluation body => body.Plain

/-! ## What the parser delivers -/

/-- A name is spelled like one, and a number is finite and has no sign. -/
structure Token.Plain (t : Token) : Prop where
  name : t.kind = .identifier → IsName t.text
  number : ∀ value, t.kind = .number value → value.Unsigned

theorem Binary64.unsigned_ofRun? {run : List Char} {x : Binary64} (h : ofRun? run = some x) :
    x.Unsigned := by
  unfold ofRun? at h
  simp only at h
  split at h
  · cases h
  · split at h
    · rename_i hfinite
      cases h
      obtain ⟨hrank, hsign⟩ := ofRank_spec hfinite
      exact ⟨hsign, by rwa [hrank]⟩
    · cases h

theorem Lexer.read_plain (l : Lexer) : l.read.1.Plain where
  name := l.read_spells
  number value hkind := by
    unfold read at hkind
    split at hkind
    · cases hkind
    · split at hkind
      · unfold nameToken at hkind
        split at hkind
        · cases hkind
        · split at hkind <;> cases hkind
      · split at hkind
        · simp only [numberToken] at hkind
          split at hkind
          · cases hkind
          · split at hkind
            · rename_i hrun
              cases hkind
              exact Binary64.unsigned_ofRun? hrun
            · cases hkind
        · cases hkind

mutual

theorem Derives.plain : ∀ {level : Nat} {ts : List Token} {e : Expr}, Derives level ts e →
    (∀ t ∈ ts, t.Plain) → e.Plain
  | _, _, _, .operation hleft _ _ hright, hts =>
    ⟨hleft.plain fun t ht => hts t (List.mem_append_left _ ht),
      hright.plain fun t ht => hts t (List.mem_append_right _ (List.mem_cons_of_mem _ ht))⟩
  | _, _, _, .tighter _ h, hts => h.plain hts
  | _, _, _, .number ht, hts => (hts _ List.mem_cons_self).number _ ht
  | _, _, _, .identifier ht, hts => (hts _ List.mem_cons_self).name ht
  | _, _, _, .emptyCall ht _ _, hts => ⟨(hts _ List.mem_cons_self).name ht, trivial⟩
  | _, _, _, .call ht _ hargs _, hts =>
    ⟨(hts _ List.mem_cons_self).name ht, hargs.plain fun t ht =>
      hts t (List.mem_cons_of_mem _ (List.mem_cons_of_mem _ (List.mem_append_left _ ht)))⟩
  | _, _, _, .group _ h _, hts =>
    h.plain fun t ht => hts t (List.mem_cons_of_mem _ (List.mem_append_left _ ht))

theorem DerivesArguments.plain : ∀ {ts : List Token} {es : List Expr}, DerivesArguments ts es →
    (∀ t ∈ ts, t.Plain) → Expr.AllPlain es
  | _, _, .last h, hts => ⟨h.plain hts, trivial⟩
  | _, _, .cons h _ hs, hts =>
    ⟨h.plain fun t ht => hts t (List.mem_append_left _ ht),
      hs.plain fun t ht => hts t (List.mem_append_right _ (List.mem_cons_of_mem _ ht))⟩

end

theorem DerivesPrototype.plain {ts : List Token} {proto : Prototype} (h : DerivesPrototype ts proto)
    (hts : ∀ t ∈ ts, t.Plain) : proto.Named IsName := by
  obtain ⟨ht, -, hparams, -⟩ := h
  simp only [List.forall_mem_cons, List.forall_mem_append] at hts
  obtain ⟨hname, -, hplain, -⟩ := hts
  exact ⟨hname.name ht, List.forall_mem_map.2 fun w hw => (hplain w hw).name (hparams w hw)⟩

theorem DerivesConstruct.plain {ts : List Token} {c : Construct} (h : DerivesConstruct ts c)
    (hts : ∀ t ∈ ts, t.Plain) : c.Plain := by
  cases h with
  | definition _ hproto hbody =>
    simp only [List.forall_mem_cons, List.forall_mem_append] at hts
    exact ⟨hproto.plain hts.2.1, hbody.plain hts.2.2⟩
  | declaration _ hproto => exact hproto.plain (List.forall_mem_cons.1 hts).2
  | evaluation hbody => exact hbody.plain hts

theorem Parser.Factors.plain {finish : Option Location} {segments : List Parser.Segment}
    {ts : List Token} (h : Parser.Factors finish segments ts) (hts : ∀ t ∈ ts, t.Plain)
    {c : Construct} (hc : .construct c ∈ segments.filterMap Parser.Segment.event?) : c.Plain := by
  induction h with
  | nil => cases hc
  | @cons s rest segments hs hrest ih =>
    obtain ⟨hfirst, hlater⟩ := List.forall_mem_append.1 hts
    obtain ⟨s', hmem, hevent⟩ := List.mem_filterMap.1 hc
    rcases List.mem_cons.1 hmem with rfl | hmem
    · cases s' with
      | construct c' tokens =>
        cases hevent
        exact hs.1.plain hfirst
      | separator t => cases hevent
      | failure e read offending => cases hevent
    · exact ih hlater (List.mem_filterMap.2 ⟨s', hmem, hevent⟩)

/-- What the parser delivers is plain. -/
theorem Construct.Parsed.plain {c : Construct} (h : c.Parsed) : c.Plain := by
  obtain ⟨source, hc⟩ := h
  have hinside := (Lexer.ofBytes source).tokens_inside
  obtain ⟨segments, hfactors, hevents⟩ :=
    Parser.exists_factors (Parser.ofBytes source).finish _ hinside
  refine hfactors.plain (fun t ht => ?_) (c := c) ?_
  · exact Lexer.forall_mem_drain Lexer.read_plain _ t (List.mem_of_mem_dropLast ht)
  · have hconstructs : (Parser.ofBytes source).events.1 = segments.filterMap _ :=
      congrArg Prod.fst hevents
    rwa [← hconstructs]

namespace SExpr

/-! ## Names and numbers -/

/-- The characters that names and numbers consist of are neither parentheses nor spaces. -/
def isBare (c : Char) : Bool := c != '(' && c != ')' && c != ' '

/-- What comes after a name or a number does not extend it. -/
def Closed (rest : List Char) : Prop := ∀ c ∈ rest.head?, isBare c = false

theorem closed_nil : Closed [] := nofun

theorem closed_space (rest : List Char) : Closed (' ' :: rest) := by
  rintro c ⟨⟩
  rfl

theorem closed_close (rest : List Char) : Closed (')' :: rest) := by
  rintro c ⟨⟩
  rfl

theorem closed_spaced (texts : List String) (rest : List Char) :
    Closed (spaced texts ++ ')' :: rest) := by
  cases texts with
  | nil => exact closed_close rest
  | cons text texts => exact closed_space _

theorem isBare_of {p : Char → Bool} (hopen : p '(' = false) (hclose : p ')' = false)
    (hspace : p ' ' = false) {c : Char} (hc : p c = true) : isBare c = true := by
  simp only [isBare, bne_of_holds hc hopen, bne_of_holds hc hclose, bne_of_holds hc hspace,
    Bool.and_self]

theorem isBare_of_inName {c : Char} (h : Lexer.inName c = true) : isBare c = true :=
  isBare_of (by decide) (by decide) (by decide) h

theorem isBare_of_isNumeric {c : Char} (h : isNumeric c = true) : isBare c = true :=
  isBare_of rfl rfl rfl h

theorem name_bare {name : String} (h : IsName name) : ∀ c ∈ name.toList, isBare c = true := by
  obtain ⟨c, cs, hlist, -, hall⟩ := h
  rw [hlist]
  exact fun d hd => isBare_of_inName (hall d hd)

/-- A name ends where it is closed. -/
theorem name_unique {name name' : String} (h : IsName name) (h' : IsName name')
    {rest rest' : List Char} (hrest : Closed rest) (hrest' : Closed rest')
    (heq : name.toList ++ rest = name'.toList ++ rest') : name = name' ∧ rest = rest' := by
  obtain ⟨hname, hafter⟩ := split_unique (name_bare h) (name_bare h') hrest hrest' heq
  exact ⟨String.toList_inj.1 hname, hafter⟩

theorem literal_eq_write {x : Binary64} (h : x.Unsigned) :
    literal x = layout.write (Binary64.digits x.rank).1 (Binary64.digits x.rank).2 := by
  have hnan : x.isNaN = false := decide_eq_false (Nat.not_lt_of_lt h.finite)
  have hinfinite : x.isInfinite = false := beq_false_of_ne (Nat.ne_of_lt h.finite)
  simp only [literal, hnan, hinfinite, Binary64.signed, h.positive, Bool.false_eq_true, if_false]

theorem literal_spec {x : Binary64} (h : x.Unsigned) :
    ∃ c cs, (literal x).toList = c :: cs ∧ c.isDigit = true ∧
      ∀ d ∈ (literal x).toList, isBare d = true := by
  rw [literal_eq_write h]
  obtain ⟨c, cs, hlist, hdigit, hall⟩ := Binary64.write_digits_spec layout x.rank
  refine ⟨c, cs, hlist, hdigit, fun d hd => isBare_of_isNumeric (hall d ?_)⟩
  rwa [hlist] at hd

theorem literal_injective {x y : Binary64} (hx : x.Unsigned) (hy : y.Unsigned)
    (h : literal x = literal y) : x = y := by
  rw [literal_eq_write hx, literal_eq_write hy] at h
  have hrank := Binary64.eq_of_write_digits layout h
  have hbits : ∀ {z : Binary64}, z.Unsigned → z.rank = z.bits.toNat := fun hz =>
    Nat.mod_eq_of_lt (Nat.lt_of_not_le (of_decide_eq_false hz.positive))
  rw [hbits hx, hbits hy] at hrank
  obtain ⟨bits⟩ := x
  obtain ⟨bits'⟩ := y
  rw [show bits = bits' from UInt64.toNat_inj.1 hrank]

/-- A number ends where it is closed. -/
theorem literal_unique {x y : Binary64} (hx : x.Unsigned) (hy : y.Unsigned) {rest rest' : List Char}
    (hrest : Closed rest) (hrest' : Closed rest')
    (heq : (literal x).toList ++ rest = (literal y).toList ++ rest') : x = y ∧ rest = rest' := by
  obtain ⟨_, _, -, -, hxbare⟩ := literal_spec hx
  obtain ⟨_, _, -, -, hybare⟩ := literal_spec hy
  obtain ⟨htext, hafter⟩ := split_unique hxbare hybare hrest hrest' heq
  exact ⟨literal_injective hx hy (String.toList_inj.1 htext), hafter⟩

/-! ## Shapes -/

/-- The kinds of texts. -/
inductive Shape where
  | number
  | identifier
  | operation (op : Operator)
  | call
  | definition
  | declaration

/-- The shape that the start of a text tells. -/
def shapeOf : List Char → Shape
  | '(' :: c :: _ =>
    match Operator.ofSymbol? c with
    | some op => .operation op
    | none => if c = 'c' then .call else if c = 'd' then .definition else .declaration
  | c :: _ => if c.isDigit then .number else .identifier
  | [] => .identifier

theorem shapeOf_bare {c : Char} (h : isBare c = true) (cs : List Char) :
    shapeOf (c :: cs) = if c.isDigit then .number else .identifier := by
  unfold shapeOf
  split
  · rename_i heq
    cases heq
    cases h
  · rename_i heq
    cases heq
    rfl
  · rename_i heq
    cases heq

end SExpr

/-- The shape of the text of an expression. -/
def Expr.shape : Expr → SExpr.Shape
  | .number _ => .number
  | .identifier _ => .identifier
  | .binary op _ _ => .operation op
  | .call _ _ => .call

namespace SExpr

/-- The start of its text tells the shape of an expression. -/
theorem shapeOf_sexpr {e : Expr} (h : e.Plain) (rest : List Char) :
    shapeOf (e.sexpr.toList ++ rest) = e.shape := by
  cases e with
  | number x =>
    obtain ⟨c, cs, hlist, hdigit, hall⟩ := literal_spec h
    rw [Expr.sexpr, hlist, List.cons_append,
      shapeOf_bare (hall c (by rw [hlist]; exact List.mem_cons_self)), if_pos hdigit]
    rfl
  | identifier name =>
    obtain ⟨c, cs, hlist, hletter, hall⟩ := h
    have hdigit : ¬c.isDigit = true := fun hdigit => by
      rw [isLetter_eq_false (Or.inl hdigit)] at hletter
      cases hletter
    rw [Expr.sexpr, hlist, List.cons_append,
      shapeOf_bare (isBare_of_inName (hall c List.mem_cons_self)), if_neg hdigit]
    rfl
  | binary op left right =>
    rw [Expr.sexpr, toList_binary, List.cons_append, List.cons_append, shapeOf]
    simp only [Operator.ofSymbol?_symbol]
    rfl
  | call callee args =>
    rw [Expr.sexpr, toList_call]
    rfl

/-! ## Expressions -/

theorem shape_unique {e e' : Expr} (he : e.Plain) (he' : e'.Plain) {rest rest' : List Char}
    (heq : e.sexpr.toList ++ rest = e'.sexpr.toList ++ rest') : e.shape = e'.shape := by
  rw [← shapeOf_sexpr he rest, heq, shapeOf_sexpr he']

mutual

/-- **A text starts with one expression at most**, if what follows is closed. -/
theorem expr_unique : ∀ (e e' : Expr) (rest rest' : List Char), e.Plain → e'.Plain →
    Closed rest → Closed rest' → e.sexpr.toList ++ rest = e'.sexpr.toList ++ rest' →
    e = e' ∧ rest = rest'
  | .number x, e', rest, rest' => by
    intro he he' hrest hrest' heq
    have hshape := shape_unique he he' heq
    cases e' with
    | number y =>
      simp only [Expr.sexpr] at heq
      obtain ⟨rfl, rfl⟩ := literal_unique he he' hrest hrest' heq
      exact ⟨rfl, rfl⟩
    | _ => cases hshape
  | .identifier name, e', rest, rest' => by
    intro he he' hrest hrest' heq
    have hshape := shape_unique he he' heq
    cases e' with
    | identifier name' =>
      simp only [Expr.sexpr] at heq
      obtain ⟨rfl, rfl⟩ := name_unique he he' hrest hrest' heq
      exact ⟨rfl, rfl⟩
    | _ => cases hshape
  | .binary op left right, e', rest, rest' => by
    intro he he' _ _ heq
    have hshape := shape_unique he he' heq
    cases e' with
    | binary op' left' right' =>
      cases hshape
      simp only [Expr.sexpr, toList_binary, spaced, List.flatMap_cons, List.flatMap_nil,
        List.append_nil, List.cons_append, List.append_assoc, List.nil_append, List.cons.injEq,
        true_and] at heq
      obtain ⟨rfl, hright⟩ := expr_unique left _ _ _ he.1 he'.1 (closed_space _)
        (closed_space _) heq
      obtain ⟨rfl, hafter⟩ := expr_unique right _ _ _ he.2 he'.2 (closed_close _) (closed_close _)
        (List.tail_eq_of_cons_eq hright)
      exact ⟨rfl, List.tail_eq_of_cons_eq hafter⟩
    | _ => cases hshape
  | .call callee args, e', rest, rest' => by
    intro he he' _ _ heq
    have hshape := shape_unique he he' heq
    cases e' with
    | call callee' args' =>
      simp only [Expr.sexpr, toList_call, spaced_cons, List.cons_append, List.append_assoc,
        List.nil_append, List.cons.injEq, List.append_cancel_left_eq, true_and] at heq
      obtain ⟨rfl, hargs⟩ := name_unique he.1 he'.1 (closed_spaced _ _) (closed_spaced _ _) heq
      obtain ⟨rfl, hafter⟩ := exprs_unique args _ _ _ he.2 he'.2 hargs
      exact ⟨rfl, hafter⟩
    | _ => cases hshape

/-- The same for expressions up to a parenthesis that closes them. -/
theorem exprs_unique : ∀ (es es' : List Expr) (rest rest' : List Char),
    Expr.AllPlain es → Expr.AllPlain es' →
    spaced (Expr.sexprs es) ++ ')' :: rest = spaced (Expr.sexprs es') ++ ')' :: rest' →
    es = es' ∧ rest = rest'
  | [], es', rest, rest' => by
    intro _ _ heq
    cases es' with
    | nil => exact ⟨rfl, List.tail_eq_of_cons_eq heq⟩
    | cons e' es' => cases heq
  | e :: es, es', rest, rest' => by
    intro hes hes' heq
    cases es' with
    | nil => cases heq
    | cons e' es' =>
      simp only [Expr.sexprs, spaced_cons, List.cons_append, List.append_assoc, List.cons.injEq,
        true_and] at heq
      obtain ⟨rfl, hlater⟩ := expr_unique e _ _ _ hes.1 hes'.1 (closed_spaced _ _)
        (closed_spaced _ _) heq
      obtain ⟨rfl, hafter⟩ := exprs_unique es _ _ _ hes.2 hes'.2 hlater
      exact ⟨rfl, hafter⟩

end

/-! ## Prototypes and constructs -/

/-- Names are the texts of variables. -/
theorem sexprs_identifiers (names : List String) :
    Expr.sexprs (names.map .identifier) = names := by
  induction names with
  | nil => rfl
  | cons name names ih => rw [List.map_cons, Expr.sexprs, ih, Expr.sexpr]

theorem plain_identifiers {names : List String} (h : ∀ name ∈ names, IsName name) :
    Expr.AllPlain (names.map .identifier) := by
  induction names with
  | nil => trivial
  | cons name names ih =>
    obtain ⟨hname, hnames⟩ := List.forall_mem_cons.1 h
    exact ⟨hname, ih hnames⟩

/-- Names with spaces between them end at the parenthesis that closes them. -/
theorem names_unique {names names' : List String} (h : ∀ name ∈ names, IsName name)
    (h' : ∀ name ∈ names', IsName name) {rest rest' : List Char}
    (heq : (spaced names).tail ++ ')' :: rest = (spaced names').tail ++ ')' :: rest') :
    names = names' ∧ rest = rest' := by
  -- a name does not start with the parenthesis
  have hnot : ∀ {name : String} {cs ds : List Char}, IsName name →
      ')' :: cs ≠ name.toList ++ ds := by
    rintro name cs ds ⟨c, cs', hlist, -, hall⟩ heq
    rw [hlist] at heq
    cases heq
    exact absurd (isBare_of_inName (hall ')' List.mem_cons_self)) (by decide)
  have hfull : spaced names ++ ')' :: rest = spaced names' ++ ')' :: rest' := by
    cases names with
    | nil =>
      cases names' with
      | nil => exact heq
      | cons name' names' =>
        rw [spaced_cons, List.tail_cons, List.append_assoc] at heq
        exact absurd heq (hnot (h' name' List.mem_cons_self))
    | cons name names =>
      cases names' with
      | nil =>
        rw [spaced_cons, List.tail_cons, List.append_assoc] at heq
        exact absurd heq.symm (hnot (h name List.mem_cons_self))
      | cons name' names' => exact congrArg (' ' :: ·) heq
  rw [← sexprs_identifiers names, ← sexprs_identifiers names'] at hfull
  obtain ⟨hnames, hafter⟩ := exprs_unique _ _ _ _ (plain_identifiers h) (plain_identifiers h') hfull
  exact ⟨(List.map_injective_iff.2 fun _ _ => Expr.identifier.inj) hnames, hafter⟩

/-- A text starts with one prototype at most. -/
theorem prototype_unique {p q : Prototype} (hp : p.Named IsName) (hq : q.Named IsName)
    {rest rest' : List Char} (heq : (prototype p).toList ++ rest = (prototype q).toList ++ rest') :
    p = q ∧ rest = rest' := by
  have hopen : ∀ cs : List Char, Closed ('(' :: cs) := by
    rintro cs c ⟨⟩
    rfl
  simp only [toList_prototype, List.append_assoc, List.cons_append, List.nil_append] at heq
  obtain ⟨hname, hparams⟩ := name_unique hp.name hq.name (hopen _) (hopen _) heq
  obtain ⟨hparams, hafter⟩ := names_unique hp.params hq.params (List.tail_eq_of_cons_eq hparams)
  obtain ⟨name, params⟩ := p
  obtain ⟨name', params'⟩ := q
  rw [show name = name' from hname, show params = params' from hparams]
  exact ⟨rfl, hafter⟩

end SExpr

/-- The shape of the text of a construct. -/
def Construct.shape : Construct → SExpr.Shape
  | .definition _ _ => .definition
  | .declaration _ => .declaration
  | .evaluation body => body.shape

theorem Construct.Plain.sexpr_definition {proto : Prototype} {body : Expr}
    (h : (Construct.definition proto body).Plain) :
    (Construct.definition proto body).sexpr =
      SExpr.definition (SExpr.prototype proto) body.sexpr := by
  have hnamed : proto.isAnonymous = false := by
    obtain ⟨c, cs, hlist, -⟩ := h.1.name
    rw [Prototype.isAnonymous, String.isEmpty_eq_false_iff]
    rintro hempty
    rw [hempty] at hlist
    cases hlist
  rw [Construct.sexpr, hnamed]
  rfl

/-- The start of its text tells the shape of a construct. -/
theorem SExpr.shapeOf_construct {c : Construct} (h : c.Plain) :
    shapeOf c.sexpr.toList = c.shape := by
  cases c with
  | definition proto body => rw [h.sexpr_definition, toList_definition]; rfl
  | declaration proto => rw [Construct.sexpr, toList_declaration]; rfl
  | evaluation body =>
    have hshape := shapeOf_sexpr (e := body) h []
    rwa [List.append_nil] at hshape

namespace Construct

/-- No two plain constructs have the same text. -/
theorem Plain.eq_of_sexpr {c d : Construct} (hc : c.Plain) (hd : d.Plain)
    (h : c.sexpr = d.sexpr) : c = d := by
  have hshape : c.shape = d.shape := by
    rw [← SExpr.shapeOf_construct hc, h, SExpr.shapeOf_construct hd]
  cases c with
  | definition proto body =>
    cases d with
    | definition proto' body' =>
      rw [hc.sexpr_definition, hd.sexpr_definition] at h
      have heq := congrArg String.toList h
      simp only [SExpr.toList_definition, SExpr.spaced_cons, List.cons_append, List.append_assoc,
        List.cons.injEq, List.append_cancel_left_eq, true_and] at heq
      obtain ⟨rfl, hbody⟩ := SExpr.prototype_unique hc.1 hd.1 heq
      obtain ⟨rfl, -⟩ := SExpr.expr_unique body body' _ _ hc.2 hd.2 (SExpr.closed_spaced [] [])
        (SExpr.closed_spaced [] []) (List.tail_eq_of_cons_eq hbody)
      rfl
    | declaration proto' => cases hshape
    | evaluation body' => cases body' <;> cases hshape
  | declaration proto =>
    cases d with
    | definition proto' body' => cases hshape
    | declaration proto' =>
      have heq := congrArg String.toList h
      simp only [Construct.sexpr, SExpr.toList_declaration, SExpr.spaced_cons, List.cons_append,
        List.append_assoc, List.cons.injEq, List.append_cancel_left_eq, true_and] at heq
      obtain ⟨rfl, -⟩ := SExpr.prototype_unique hc hd heq
      rfl
    | evaluation body' => cases body' <;> cases hshape
  | evaluation body =>
    cases d with
    | definition proto' body' => cases body <;> cases hshape
    | declaration proto' => cases body <;> cases hshape
    | evaluation body' =>
      have heq := congrArg (fun text => text.toList ++ []) h
      obtain ⟨rfl, -⟩ := SExpr.expr_unique body body' [] [] hc hd SExpr.closed_nil
        SExpr.closed_nil heq
      rfl

/-- **S-expressions are unambiguous.** Constructs whose names are spelled like names and whose
numbers are finite and have no sign are the same if their texts are, and the parser delivers no
others. -/
theorem toSExpr_unambiguous :
    (∀ c : Construct, c.Parsed → c.Plain) ∧
      ∀ c d : Construct, c.Plain → d.Plain → c.toSExpr = d.toSExpr → c = d := by
  refine ⟨fun c hc => hc.plain, fun c d hc hd h => ?_⟩
  rw [toSExpr_eq, toSExpr_eq] at h
  exact hc.eq_of_sexpr hd h

/-- A function may be named like the mark of a call. -/
theorem toSExpr_calls :
    (evaluation (.call "call" [.identifier "x"])).toSExpr ≠
      (evaluation (.call "x" [.identifier "call"])).toSExpr := by
  have hcall : IsName "call" :=
    ⟨'c', ['a', 'l', 'l'], rfl, by decide, List.all_eq_true.1 (by decide)⟩
  have hx : IsName "x" := ⟨'x', [], rfl, by decide, List.all_eq_true.1 (by decide)⟩
  have hplain : (evaluation (.call "call" [.identifier "x"])).Plain := ⟨hcall, hx, trivial⟩
  have hplain' : (evaluation (.call "x" [.identifier "call"])).Plain := ⟨hx, hcall, trivial⟩
  intro h
  exact absurd (toSExpr_unambiguous.2 _ _ hplain hplain' h) (by decide)

end Construct

end Kaleidoscope
