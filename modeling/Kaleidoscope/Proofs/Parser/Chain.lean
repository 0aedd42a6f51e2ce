/-
  Chains of operators and operands, read at any threshold.

  - `Link`: an operator and the operand after it, with their tokens;
  - `Chained`: links in front of other tokens. Each operand is read where it stands, and no operator
    comes after the last one. `Chained.of_derives`: so it is with all operands that the grammar
    derives;
  - `Split`: a chain taken apart at the last of its operators of least precedence. There is one way
    to do so, and `split` finds it;
  - `splitTree`: the tree of a chain, split there and likewise on both sides;
  - `splitTree_absorb`: tighter operators make up the right operand of the one before them, and what
    comes after them takes the whole as its left operand;
  - `climb_chained`: at a threshold, the links are taken up to the first that does not bind tightly
    enough, and their tree is read.
-/
import Kaleidoscope.Proofs.Parser.Earliest

namespace Kaleidoscope.Parser

/-! ## Links -/

/-- An operator and the operand after it, with their tokens. -/
structure Link where
  sign : Token
  op : Operator
  /-- The tokens of the operand. -/
  operand : List Token
  /-- What they are read as. -/
  value : Expr
  spelled : sign.operator? = some op

/-- Whether the operator binds at least as tightly as `least`. -/
def Link.binds (least : Nat) (l : Link) : Bool := least ≤ l.op.precedence

theorem Link.binds_iff {least : Nat} {l : Link} :
    l.binds least = true ↔ least ≤ l.op.precedence := by
  simp only [Link.binds, decide_eq_true_eq]

/-- The tokens of links, one after another. -/
def chainTokens (links : List Link) : List Token := links.flatMap fun l => l.sign :: l.operand

@[simp] theorem chainTokens_nil : chainTokens [] = [] := rfl

theorem chainTokens_cons (l : Link) (links : List Link) (rest : List Token) :
    chainTokens (l :: links) ++ rest = l.sign :: (l.operand ++ (chainTokens links ++ rest)) := by
  simp [chainTokens]

/-- The links stand in front of `rest`: each operand is read where it stands, neither more of the
tokens nor less, and no operator comes after the last one. -/
inductive Chained (rest : List Token) : List Link → Prop
  | nil (hnone : operatorAhead? rest = none) : Chained rest []
  | cons {l : Link} {links : List Link}
      (hoperand : reader primary (l.operand ++ (chainTokens links ++ rest)) =
        .ok l.value (chainTokens links ++ rest))
      (h : Chained rest links) : Chained rest (l :: links)

namespace Chained
variable {rest : List Token} {links : List Link}

/-- Operands that the grammar derives are read, unless the last one is a name and `rest` makes it
the callee of a call. -/
theorem of_derives (hlinks : ∀ l ∈ links, Derives 5 l.operand l.value)
    (hnone : operatorAhead? rest = none) (hapart : ∀ l ∈ links.getLast?, Apart l.operand rest) :
    Chained rest links := by
  induction links with
  | nil => exact .nil hnone
  | cons l links ih =>
    obtain ⟨hl, hlinks⟩ := List.forall_mem_cons.1 hlinks
    cases links with
    | nil => exact .cons (primary_iff.2 ⟨l.operand, rfl, hl, hapart l rfl⟩) (.nil hnone)
    | cons k links =>
      refine .cons (primary_iff.2 ⟨l.operand, rfl, hl, fun _ _ _ => ?_⟩) (ih hlinks hapart)
      -- an operator is no parenthesis
      rw [chainTokens_cons, starts_cons]
      exact Token.is_eq_false (Token.operator?_eq_some.1 k.spelled) (by cases k.op <;> decide)

theorem dropWhile (h : Chained rest links) (p : Link → Bool) :
    Chained rest (links.dropWhile p) := by
  induction h with
  | nil hnone => exact .nil hnone
  | @cons l links hoperand h ih =>
    rw [List.dropWhile_cons]
    split
    · exact ih
    · exact .cons hoperand h

/-- A chain stops every climb that its first operator does not bind tightly enough for. -/
theorem stops (h : Chained rest links) (least : Nat)
    (hfirst : ∀ l ∈ links.head?, ¬l.binds least = true) :
    Stops least (chainTokens links ++ rest) := by
  intro op hop
  cases h with
  | nil hnone =>
    rw [chainTokens_nil, List.nil_append, hnone] at hop
    cases hop
  | @cons l links hoperand h =>
    rw [chainTokens_cons, operatorAhead?_cons, l.spelled] at hop
    cases hop
    exact Nat.lt_of_not_le fun hle => hfirst l rfl (Link.binds_iff.2 hle)

end Chained

section
variable {least tighter : Nat} (hle : least ≤ tighter) (links : List Link)
include hle

theorem binds_of_takeWhile : ∀ l ∈ links.takeWhile (Link.binds tighter), l.binds least = true := by
  intro l hl
  have htighter := List.all_eq_true.1 List.all_takeWhile l hl
  exact Link.binds_iff.2 (Nat.le_trans hle (Link.binds_iff.1 htighter))

/-- The links that bind as tightly as `least` begin with those that bind as tightly as `tighter`. -/
theorem takeWhile_binds : links.takeWhile (Link.binds least) =
    links.takeWhile (Link.binds tighter) ++
      (links.dropWhile (Link.binds tighter)).takeWhile (Link.binds least) := by
  calc links.takeWhile (Link.binds least)
      = (links.takeWhile (Link.binds tighter) ++
          links.dropWhile (Link.binds tighter)).takeWhile (Link.binds least) := by
        rw [List.takeWhile_append_dropWhile]
    _ = _ := List.takeWhile_append_of_pos (binds_of_takeWhile hle links)

theorem dropWhile_binds : links.dropWhile (Link.binds least) =
    (links.dropWhile (Link.binds tighter)).dropWhile (Link.binds least) := by
  calc links.dropWhile (Link.binds least)
      = (links.takeWhile (Link.binds tighter) ++
          links.dropWhile (Link.binds tighter)).dropWhile (Link.binds least) := by
        rw [List.takeWhile_append_dropWhile]
    _ = _ := List.dropWhile_append_of_pos (binds_of_takeWhile hle links)

end

/-! ## Splitting -/

/-- A chain taken apart at the last of its operators of least precedence. -/
@[ext] structure Split (links : List Link) where
  before : List Link
  link : Link
  after : List Link
  whole : before ++ link :: after = links
  before_le : ∀ l ∈ before, link.op.precedence ≤ l.op.precedence
  after_lt : ∀ l ∈ after, link.op.precedence < l.op.precedence

namespace Split
variable {links : List Link}

/-- No operator of the chain binds looser than the one where it is split. -/
theorem link_le (s : Split links) : ∀ l ∈ links, s.link.op.precedence ≤ l.op.precedence := by
  intro l hl
  rw [← s.whole, List.mem_append, List.mem_cons] at hl
  rcases hl with hbefore | rfl | hafter
  · exact s.before_le l hbefore
  · exact Nat.le_refl _
  · exact Nat.le_of_lt (s.after_lt l hafter)

/-- Of two ways to split a chain, neither splits it later. -/
theorem eq_nil_of_append {s s' : Split links} {more : List Link}
    (h : s'.before = s.before ++ more) : more = [] := by
  cases more with
  | nil => rfl
  | cons l more =>
    have hwhole : s.before ++ s.link :: s.after =
        s.before ++ l :: (more ++ s'.link :: s'.after) := by
      refine s.whole.trans (s'.whole.symm.trans ?_)
      rw [h, List.append_assoc, List.cons_append]
    obtain ⟨hlink, hafter⟩ := List.cons.inj (List.append_cancel_left hwhole)
    have hlt := s.after_lt s'.link (by simp [hafter])
    have hle := s'.before_le s.link (by simp [h, hlink])
    exact absurd hlt (Nat.not_lt.2 hle)

/-- **There is one way to split a chain.** -/
instance : Subsingleton (Split links) where
  allEq s s' := by
    have hwhole := s.whole.trans s'.whole.symm
    have hbefore : s.before = s'.before := by
      rcases List.append_eq_append_iff.1 hwhole with ⟨more, h, -⟩ | ⟨more, h, -⟩
      · rw [h, eq_nil_of_append h, List.append_nil]
      · rw [h, eq_nil_of_append h, List.append_nil]
    rw [hbefore] at hwhole
    obtain ⟨hlink, hafter⟩ := List.cons.inj (List.append_cancel_left hwhole)
    exact Split.ext hbefore hlink hafter

theorem length_lt (s : Split links) :
    s.before.length < links.length ∧ s.after.length < links.length := by
  have hwhole := congrArg List.length s.whole
  simp only [List.length_append, List.length_cons] at hwhole
  omega

end Split

/-- Splits a chain that has a first link. -/
def split (l : Link) : (links : List Link) → Split (l :: links)
  | [] => ⟨[], l, [], rfl, by simp, by simp⟩
  | k :: links =>
    let s := split k links
    if h : s.link.op.precedence ≤ l.op.precedence then
      ⟨l :: s.before, s.link, s.after, by simp [s.whole],
        List.forall_mem_cons.2 ⟨h, s.before_le⟩, s.after_lt⟩
    else
      ⟨[], l, k :: links, rfl, by simp,
        fun m hm => Nat.lt_of_lt_of_le (Nat.lt_of_not_le h) (s.link_le m hm)⟩

/-- The tree of a chain to the right of `left`: the chain is split at the last of its operators of
least precedence, and so are both sides of it. -/
def splitTree (left : Expr) : List Link → Expr
  | [] => left
  | l :: links =>
    let s := split l links
    .binary s.link.op (splitTree left s.before) (splitTree s.link.value s.after)
termination_by links => links.length
decreasing_by
  · exact s.length_lt.1
  · exact s.length_lt.2

@[simp] theorem splitTree_nil (left : Expr) : splitTree left [] = left := by rw [splitTree]

theorem splitTree_split {links : List Link} (s : Split links) (left : Expr) :
    splitTree left links =
      .binary s.link.op (splitTree left s.before) (splitTree s.link.value s.after) := by
  cases links with
  | nil => cases List.append_eq_nil_iff.1 s.whole |>.2
  | cons l links => rw [splitTree, Subsingleton.elim s (split l links)]

/-- **What binds tighter than the operator before it belongs to its right operand.** The operator
and both its operands are then the left operand of whatever binds no tighter. -/
theorem splitTree_absorb {l : Link} {tight : List Link}
    (htight : ∀ m ∈ tight, l.op.precedence < m.op.precedence) (left : Expr) :
    ∀ loose : List Link, (∀ m ∈ loose.head?, m.op.precedence ≤ l.op.precedence) →
      splitTree left (l :: (tight ++ loose)) =
        splitTree (.binary l.op left (splitTree l.value tight)) loose
  | [], _ => by
    let whole : Split (l :: (tight ++ [])) := ⟨[], l, tight, by simp, by simp, htight⟩
    rw [splitTree_split whole, splitTree_nil, splitTree_nil]
  | k :: loose, hloose => by
    -- the first of `loose` binds no tighter than `l`, so the loosest operator is one of `loose`
    have s := split k loose
    have hk : k.op.precedence ≤ l.op.precedence := hloose k rfl
    have hl : s.link.op.precedence ≤ l.op.precedence :=
      Nat.le_trans (s.link_le k List.mem_cons_self) hk
    have hbefore : ∀ m ∈ l :: (tight ++ s.before), s.link.op.precedence ≤ m.op.precedence := by
      simp only [List.forall_mem_cons, List.forall_mem_append]
      exact ⟨hl, fun m hm => Nat.le_of_lt (Nat.lt_of_le_of_lt hl (htight m hm)), s.before_le⟩
    let whole : Split (l :: (tight ++ k :: loose)) :=
      ⟨l :: (tight ++ s.before), s.link, s.after, by simp [s.whole], hbefore, s.after_lt⟩
    have hhead : ∀ m ∈ s.before.head?, m.op.precedence ≤ l.op.precedence := by
      intro m hm
      obtain ⟨before, hcons⟩ := List.head?_eq_some_iff.1 hm
      have hwhole := s.whole
      rw [hcons] at hwhole
      exact (List.cons.inj hwhole).1 ▸ hk
    calc splitTree left (l :: (tight ++ k :: loose))
        = .binary s.link.op (splitTree left (l :: (tight ++ s.before)))
            (splitTree s.link.value s.after) := splitTree_split whole left
      _ = .binary s.link.op (splitTree (.binary l.op left (splitTree l.value tight)) s.before)
            (splitTree s.link.value s.after) := by
          rw [splitTree_absorb htight left s.before hhead]
      _ = splitTree (.binary l.op left (splitTree l.value tight)) (k :: loose) :=
          (splitTree_split s _).symm
termination_by loose => loose.length
decreasing_by exact s.length_lt.1

/-- Of the links that bind as tightly as `least`, the tighter ones after the first make up its right
operand, and the others take what it comes to as left operand. -/
theorem splitTree_takeWhile {least : Nat} {l : Link} (hle : least ≤ l.op.precedence) (left : Expr)
    (links : List Link) :
    splitTree left ((l :: links).takeWhile (Link.binds least)) =
      splitTree
        (.binary l.op left (splitTree l.value (links.takeWhile (Link.binds (l.op.precedence + 1)))))
        ((links.dropWhile (Link.binds (l.op.precedence + 1))).takeWhile (Link.binds least)) := by
  have htight : ∀ m ∈ links.takeWhile (Link.binds (l.op.precedence + 1)),
      l.op.precedence < m.op.precedence := fun m hm =>
    Link.binds_iff.1 (binds_of_takeWhile (Nat.le_refl _) links m hm)
  have hloose : ∀ m ∈ ((links.dropWhile (Link.binds (l.op.precedence + 1))).takeWhile
      (Link.binds least)).head?, m.op.precedence ≤ l.op.precedence := by
    intro m hm
    rw [List.head?_takeWhile] at hm
    have hfirst := List.head?_dropWhile_not (Link.binds (l.op.precedence + 1)) links
    rw [(Option.filter_eq_some_iff.1 hm).1] at hfirst
    exact Nat.le_of_not_lt fun hlt => Bool.false_ne_true (hfirst.symm.trans (Link.binds_iff.2 hlt))
  rw [List.takeWhile_cons_of_pos (Link.binds_iff.2 hle), takeWhile_binds (Nat.le_succ_of_le hle)]
  exact splitTree_absorb htight left _ hloose

/-! ## Reading -/

/-- A link that binds tightly enough is read together with the tighter ones after it. -/
theorem reader_climb_link {least : Nat} {l : Link} {links : List Link} {rest mid : List Token}
    {right : Expr} (hle : least ≤ l.op.precedence)
    (hoperand : reader primary (l.operand ++ (chainTokens links ++ rest)) =
      .ok l.value (chainTokens links ++ rest))
    (hright : reader (climb (l.op.precedence + 1) l.value) (chainTokens links ++ rest) =
      .ok right mid) (left : Expr) :
    reader (climb least left) (chainTokens (l :: links) ++ rest) =
      reader (climb least (.binary l.op left right)) mid := by
  rw [chainTokens_cons, reader_climb_operator l.spelled hle, Reader.bind_of_ok hoperand,
    Reader.bind_of_ok hright]

/-- **Operators at every threshold.** Whatever the threshold and the left operand are, of a chain of
operators and operands exactly the longest run from its start is read in which every operator binds
at least as tightly as the threshold. The tree is that of the run: it is split at the last of its
operators of least precedence, and so are both sides. -/
theorem climb_chained (least : Nat) (left : Expr) {links : List Link} {rest : List Token}
    (h : Chained rest links) :
    reader (climb least left) (chainTokens links ++ rest) =
      .ok (splitTree left (links.takeWhile (Link.binds least)))
        (chainTokens (links.dropWhile (Link.binds least)) ++ rest) := by
  induction hlength : links.length using Nat.strongRecOn generalizing least left links with
  | ind n ih =>
    cases h with
    | nil hnone =>
      rw [List.takeWhile_nil, List.dropWhile_nil, splitTree_nil]
      exact reader_climb_stop ((Chained.nil hnone).stops least fun _ hfirst => by cases hfirst) left
    | @cons l links hoperand h =>
      by_cases hbinds : l.binds least = true
      · have hle := Link.binds_iff.1 hbinds
        have hlt : links.length < n := by rw [← hlength]; exact Nat.lt_succ_self _
        -- the tighter links are read first, and then the climb goes on with the others
        have hright := ih _ hlt (l.op.precedence + 1) l.value h rfl
        have hothers : (links.dropWhile (Link.binds (l.op.precedence + 1))).length < n :=
          Nat.lt_of_le_of_lt (List.dropWhile_sublist _).length_le hlt
        rw [reader_climb_link hle hoperand hright left, splitTree_takeWhile hle,
          List.dropWhile_cons_of_pos hbinds, dropWhile_binds (Nat.le_succ_of_le hle)]
        exact ih _ hothers least _ (h.dropWhile _) rfl
      · have hstops := (Chained.cons hoperand h).stops least fun _ hfirst => by
          cases hfirst
          exact hbinds
        rw [List.takeWhile_cons_of_neg hbinds, List.dropWhile_cons_of_neg hbinds, splitTree_nil]
        exact reader_climb_stop hstops left

namespace Link

/-- A link whose token spells the operator and no more. -/
def plain (op : Operator) (operand : List Token) (value : Expr) : Link :=
  ⟨Token.ofSymbol op.symbol, op, operand, value, Token.operator?_eq_some.2 (Token.is_ofSymbol _)⟩

/-- A link with a variable. -/
def ofName (op : Operator) (name : String) : Link := plain op [Token.named name] (.identifier name)

theorem derives_ofName (op : Operator) (name : String) :
    Derives 5 (ofName op name).operand (ofName op name).value :=
  Derives.identifier (t := Token.named name) rfl

end Link

/-- The chain `- y * f(z) / w - a * (u < v) < b`. -/
def mixed : List Link :=
  [.ofName .subtract "y",
    .plain .multiply [.named "f", .ofSymbol '(', .named "z", .ofSymbol ')']
      (.call "f" [.identifier "z"]),
    .ofName .divide "w", .ofName .subtract "a",
    .plain .multiply [.ofSymbol '(', .named "u", .ofSymbol '<', .named "v", .ofSymbol ')']
      (.binary .less (.identifier "u") (.identifier "v")),
    .ofName .less "b"]

/-- To the right of `x`, sums and all that binds tighter are read as
`(x - y * (f(z) / w)) - a * (u < v)`, and the comparison is left. -/
theorem climb_mixed :
    Chained [Token.semicolon] mixed ∧
      reader (climb 2 (.identifier "x")) (chainTokens mixed ++ [Token.semicolon]) =
        .ok (.binary .subtract
            (.binary .subtract (.identifier "x") (.binary .multiply (.identifier "y")
              (.binary .divide (.call "f" [.identifier "z"]) (.identifier "w"))))
            (.binary .multiply (.identifier "a")
              (.binary .less (.identifier "u") (.identifier "v"))))
          (chainTokens [.ofName .less "b"] ++ [Token.semicolon]) := by
  have hcall : Derives 5 [.named "f", .ofSymbol '(', .named "z", .ofSymbol ')']
      (.call "f" [.identifier "z"]) :=
    .call rfl rfl (.last ((Derives.identifier rfl).loosen (by decide))) rfl
  have hgroup : Derives 5 [.ofSymbol '(', .named "u", .ofSymbol '<', .named "v", .ofSymbol ')']
      (.binary .less (.identifier "u") (.identifier "v")) :=
    .group rfl (.operation ((Derives.identifier rfl).loosen (by decide)) (by decide) rfl
      ((Derives.identifier rfl).loosen (by decide))) rfl
  have hchained : Chained [Token.semicolon] mixed := by
    refine .of_derives ?_ rfl fun _ _ _ _ _ => rfl
    simp only [mixed, List.forall_mem_cons]
    exact ⟨Link.derives_ofName _ _, hcall, Link.derives_ofName _ _, Link.derives_ofName _ _, hgroup,
      Link.derives_ofName _ _, List.forall_mem_nil _⟩
  have htree : splitTree (.identifier "x") (mixed.takeWhile (Link.binds 2)) =
      .binary .subtract
        (.binary .subtract (.identifier "x") (.binary .multiply (.identifier "y")
          (.binary .divide (.call "f" [.identifier "z"]) (.identifier "w"))))
        (.binary .multiply (.identifier "a")
          (.binary .less (.identifier "u") (.identifier "v"))) := by
    decide +kernel
  have hleft : mixed.dropWhile (Link.binds 2) = [.ofName .less "b"] := rfl
  have hread := climb_chained 2 (.identifier "x") hchained
  rw [htree, hleft] at hread
  exact ⟨hchained, hread⟩

end Kaleidoscope.Parser
