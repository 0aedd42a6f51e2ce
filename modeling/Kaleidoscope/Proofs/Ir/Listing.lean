/-
  What the module lists, and how it is written.

  - `Function.Own`: a function whose instructions take constants, and its own parameters and results;
  - `functionText_congr`, `write_congr`: the text of such a function depends on nothing else;
  - `Builder.listing`: the entries of the module, each with its function as it is written;
  - `Builder.Advances`: the one step that each kind of construct makes on the listing;
  - `Regular.advances`: a construct without a fault makes its step, and no other;
  - `Writable.writeEntries_texts`: the entries are written one by one, each by the text of its function.
-/
import Kaleidoscope.Proofs.Ir.Accept

namespace Kaleidoscope.Ir

/-! ## Functions that take only what is their own -/

/-- A constant, or a parameter or a result of that function. -/
def Value.Own (serial : Nat) : Value → Prop
  | .constant _ => True
  | .param k _ => k = serial
  | .result k _ _ => k = serial
  | .function _ => False

/-- What an instruction takes. -/
def Instr.operands : Instr → List Value
  | .arithmetic _ left right | .compare _ left right => [left, right]
  | .call _ args => args
  | .widen x | .toInteger x | .printLine x | .printCharacter x => [x]

/-- All that the block takes is the function's own. -/
structure Block.Own (serial : Nat) (block : Block) : Prop where
  instrs : ∀ i ∈ block.instrs.toList, ∀ v ∈ i.operands, v.Own serial
  returned : ∀ v ∈ block.returned, v.Own serial

/-- All that the function takes is its own. -/
def Function.Own (serial : Nat) (f : Function) : Prop := ∀ block ∈ f.blocks, block.Own serial

theorem Value.Available.own {F : Frame} {count : Nat} {v : Value} (h : v.Available F count) :
    v.Own F.serial := by
  cases v with
  | constant x => trivial
  | param serial index => exact h.1
  | result serial block index => exact h.1
  | function serial => exact h

theorem Instr.Correct.own {b : Builder} {F : Frame} {count : Nat} {i : Instr}
    (h : i.Correct b F count) : ∀ v ∈ i.operands, v.Own F.serial := by
  intro v hv
  cases i with
  | arithmetic op left right | compare op left right =>
    rcases List.mem_pair.1 hv with rfl | rfl
    · exact h.1.own
    · exact h.2.own
  | widen bit => exact List.mem_singleton.1 hv ▸ Value.Available.own h
  | call callee args => exact (h.2 v hv).own
  | toInteger x | printLine x | printCharacter x => exact absurd h id

theorem Function.Correct.own {b : Builder} {serial : Nat} {f : Function} (h : f.Correct b serial) :
    f.Own serial := by
  intro block hblock
  rcases h with h | ⟨block', v, hblocks, hreturned, hvalue, hcode⟩
  · rw [h] at hblock; cases hblock
  · rw [hblocks, List.mem_singleton] at hblock
    subst hblock
    refine ⟨fun i hi => ?_, fun w hw => ?_⟩
    · obtain ⟨k, hk⟩ := List.mem_iff_getElem?.1 hi
      exact (hcode k i hk).own
    · rw [hreturned] at hw
      exact Option.some.inj hw ▸ hvalue.own

theorem Function.own_of_bodiless {f : Function} (h : f.blocks = []) (serial : Nat) :
    f.Own serial := by
  intro block hblock
  rw [h] at hblock; cases hblock

theorem Function.numbered_of_bodiless {f : Function} (h : f.blocks = []) : f.numbered = f := by
  obtain ⟨name, params, blocks, dropped⟩ := f
  subst h
  rfl

theorem Function.Own.numbered {serial : Nat} {f : Function} (h : f.Own serial) :
    f.numbered.Own serial := by
  intro block hblock
  obtain ⟨block', hmem, rfl⟩ := List.mem_map.1 hblock
  exact ⟨(h block' hmem).instrs, (h block' hmem).returned⟩

/-- The function with those parameters and the code of a body, as it is written. -/
def Function.filled (f : Function) (serial : Nat) (params : List String) (body : Expr) : Function :=
  let (code, value) := body.code ⟨serial, f.dropped, params⟩ 0
  ((f.withParams params).withBody code (some value)).numbered

namespace Builder

/-- An instruction of a block, with its position, as a line. -/
def lineText (b : Builder) (block : Block) (line : Instr × Nat) : String :=
  "\t%" ++ toString (block.number line.2) ++ " = " ++ b.instrText line.1 ++ "\n"

theorem blockText_of_returned {b : Builder} {block : Block} {v : Value}
    (h : block.returned = some v) :
    b.blockText block = .ok ("entry:\n" ++
      String.join (block.instrs.toList.zipIdx.map (b.lineText block)) ++ "\tret " ++
      b.typedText v) := by
  unfold blockText
  rw [h]
  rfl

theorem blockText_of_open {b : Builder} {block : Block} (h : block.returned = none) :
    b.blockText block = .error (.unterminated
      (String.join (block.instrs.toList.zipIdx.map (b.lineText block)))) := by
  unfold blockText
  rw [h]
  rfl

section
variable {b b' : Builder} {serial : Nat} (h : b.function? serial = b'.function? serial)
include h

theorem valueText_congr {v : Value} (hv : v.Own serial) : b.valueText v = b'.valueText v := by
  cases v with
  | constant x => rfl
  | param k index => rw [valueText, valueText, show k = serial from hv, h]
  | result k block index => rw [valueText, valueText, show k = serial from hv, h]
  | function k => exact absurd hv id

theorem instrText_congr {i : Instr} (hi : ∀ v ∈ i.operands, v.Own serial) :
    b.instrText i = b'.instrText i := by
  have hvalue : ∀ v ∈ i.operands, b.valueText v = b'.valueText v := fun v hv =>
    valueText_congr h (hi v hv)
  unfold instrText
  cases i with
  | arithmetic op left right | compare op left right =>
    dsimp only
    rw [hvalue left (List.mem_cons_self ..),
      hvalue right (List.mem_cons_of_mem _ (List.mem_singleton_self _))]
  | widen x | toInteger x | printCharacter x =>
    dsimp only
    rw [hvalue x (List.mem_singleton_self _)]
  | printLine x =>
    dsimp only [typedText]
    rw [hvalue x (List.mem_singleton_self _)]
  | call callee args =>
    dsimp only
    rw [List.map_congr_left fun v hv => show b.typedText v = b'.typedText v by
      rw [typedText, typedText, hvalue v hv]]

theorem blockText_congr {block : Block} (hblock : block.Own serial) :
    b.blockText block = b'.blockText block := by
  have hlines : block.instrs.toList.zipIdx.map (b.lineText block) =
      block.instrs.toList.zipIdx.map (b'.lineText block) := by
    refine List.map_congr_left fun line hline => ?_
    have hinstr : line.1 ∈ block.instrs.toList := List.fst_mem_of_mem_zipIdx hline
    rw [lineText, lineText, instrText_congr h (hblock.instrs line.1 hinstr)]
  cases hreturned : block.returned with
  | none => rw [blockText_of_open hreturned, blockText_of_open hreturned, hlines]
  | some v =>
    rw [blockText_of_returned hreturned, blockText_of_returned hreturned, hlines, typedText,
      typedText, valueText_congr h (hblock.returned v hreturned)]

/-- **The text of a function that takes only what is its own** depends on nothing else. -/
theorem functionText_congr {f : Function} (hf : f.Own serial) :
    b.functionText f = b'.functionText f := by
  have hblocks : ∀ blocks : List Block, (∀ block ∈ blocks, block.Own serial) →
      blocks.mapM b.blockText = blocks.mapM b'.blockText := by
    intro blocks hown
    induction blocks with
    | nil => rw [List.mapM_nil, List.mapM_nil]
    | cons block blocks ih =>
      obtain ⟨hblock, hrest⟩ := List.forall_mem_cons.1 hown
      rw [List.mapM_cons, List.mapM_cons, blockText_congr h hblock, ih hrest]
  unfold functionText
  rw [hblocks f.blocks hf]

end

/-! ## Texts -/

/-- A function that is its own has the same text wherever it is the same, numbers apart. -/
theorem write_congr {b b' : Builder} {serial : Nat} {f f' : Function}
    (hf : b.function? serial = some f) (hf' : b'.function? serial = some f')
    (hsame : f.numbered = f'.numbered) (hcomplete : f.Complete) (hcomplete' : f'.Complete)
    (hown : f.Own serial) : (b.write serial).1 = (b'.write serial).1 := by
  simp only [write, hf, hf', hcomplete.renumber, hcomplete'.renumber, ← hsame]
  have hput := function?_put_self hf f.numbered
  have hput' := function?_put_self hf' f.numbered
  exact functionText_congr (hput.trans hput'.symm) hown.numbered

/-- A function that has its numbers is written as it was when it got them. -/
theorem write_again {b b' : Builder} {serial : Nat} {text : String}
    (h : b.write serial = (.ok text, b')) {f : Function} (hf : b'.function? serial = some f)
    (hcomplete : f.Complete) (hnumbered : f.numbered = f) : (b'.write serial).1 = .ok text := by
  cases hbefore : b.function? serial with
  | none =>
    simp only [write, hbefore, Prod.mk.injEq] at h
    rw [← h.2, hbefore] at hf
    cases hf
  | some g =>
    rcases hg : g.renumber with ⟨g', clash⟩
    simp only [write, hbefore, hg] at h
    have hput : b.modifyFunction serial (fun _ => g') = b.put serial g' := rfl
    cases clash with
    | some c => simp at h
    | none =>
      simp only [Prod.mk.injEq] at h
      obtain ⟨htext, rfl⟩ := h
      rw [hput, function?_put_self hbefore] at hf
      injection hf with hf
      subst hf
      simp only [write, hput, function?_put_self hbefore, hcomplete.renumber, hnumbered]
      show ((b.put serial g').put serial g').functionText g' = .ok text
      rw [put_put]
      exact htext

/-! ## The listing -/

/-- The function of an entry as it is written. -/
def written? (b : Builder) : Entry → Option Function
  | .library _ => none
  | .function serial => (b.function? serial).map Function.numbered

/-- What the module lists, in order, with the functions as they are written. -/
def listing (b : Builder) : List (Entry × Option Function) := b.entries.map fun e => (e, b.written? e)

/-- No function of that name is listed. -/
def Unlisted (b : Builder) (name : String) : Prop := ∀ e f, (e, some f) ∈ b.listing → f.name ≠ name

/-- The one step that a construct makes on the listing, if `k` expressions at top level come before
it. -/
inductive Advances (b b' : Builder) (k : Nat) : Construct → Prop where
  /-- A declaration of a new name adds a function without a body. -/
  | declares {p : Prototype} {serial : Nat} : b.Unlisted p.name →
      b'.listing = b.listing ++ [(.function serial, some (.declared p.name p.params))] →
      Advances b b' k (.declaration p)
  /-- A declaration of a known name changes nothing. -/
  | knows {p : Prototype} {e : Entry} {f : Function} : (e, some f) ∈ b.listing → f.name = p.name →
      b'.listing = b.listing → Advances b b' k (.declaration p)
  /-- A definition of a new name adds a function with a body. -/
  | defines {p : Prototype} {body : Expr} {serial : Nat} : b.Unlisted p.name →
      b'.listing = b.listing ++ [(.function serial,
        some ((Function.declared p.name p.params).filled serial p.params body))] →
      Advances b b' k (.definition p body)
  /-- A definition of a name that is only declared gives its function the body, and the new names of
  the parameters, where it stands. -/
  | completes {p : Prototype} {body : Expr} {i serial : Nat} {f : Function} :
      b.listing[i]? = some (.function serial, some f) → f.name = p.name → f.blocks = [] →
      f.params.length = p.params.length →
      b'.listing = b.listing.set i (.function serial, some (f.filled serial p.params body)) →
      Advances b b' k (.definition p body)
  /-- An expression at top level adds a function of the next number. -/
  | evaluates {body : Expr} {serial : Nat} :
      b'.listing = b.listing ++ [(.function serial,
        some ((Function.declared (anonymousName k) []).filled serial [] body))] →
      Advances b b' k (.evaluation body)

theorem mem_listing {b : Builder} {e : Entry} {f : Function} :
    (e, some f) ∈ b.listing ↔ e ∈ b.entries ∧ b.written? e = some f := by
  simp only [listing, List.mem_map, Prod.mk.injEq]
  constructor
  · rintro ⟨e', he', rfl, hf⟩; exact ⟨he', hf⟩
  · rintro ⟨he, hf⟩; exact ⟨e, he, rfl, hf⟩

theorem getElem?_listing (b : Builder) (i : Nat) :
    b.listing[i]? = b.entries[i]?.map fun e => (e, b.written? e) := by
  rw [listing, List.getElem?_map]

/-- A name is listed if it is known. -/
theorem Regular.unlisted_iff {b : Builder} (h : b.Regular) {name : String} :
    b.Unlisted name ↔ b.find? name = none := by
  constructor
  · intro hunlisted
    by_contra hfind
    obtain ⟨⟨serial, f⟩, hfind⟩ := Option.ne_none_iff_exists'.1 hfind
    obtain ⟨hget, hf⟩ := find?_eq_some.1 hfind
    obtain ⟨g, hg, hname⟩ := h.sound.known hget
    rw [hf] at hg
    injection hg with hg
    refine hunlisted (.function serial) f.numbered (mem_listing.2 ⟨h.listed hget, ?_⟩)
      (hg ▸ hname)
    rw [written?, hf]; rfl
  · intro hfind e f hmem hname
    obtain ⟨hentry, hf⟩ := mem_listing.1 hmem
    cases e with
    | library g => cases hf
    | function serial =>
      obtain ⟨g, hg, hget⟩ := h.named hentry
      rw [written?, hg] at hf
      injection hf with hf
      have hknown : b.find? name = some (serial, g) :=
        find?_eq_some.2 ⟨by rwa [← hname, ← hf], hg⟩
      rw [hfind] at hknown; cases hknown

/-! ## One construct -/

/-- The function of a prototype is new and only declared, or it is known. -/
theorem target_cases (b : Builder) (p : Prototype) :
    (∃ name, b.target p = .declared name p.params) ∨
      b.function? (b.declared p).1 = some (b.target p) := by
  unfold target
  cases hname : p.isAnonymous with
  | true => exact .inl ⟨_, rfl⟩
  | false =>
    cases hfind : b.find? p.name with
    | none => exact .inl ⟨_, rfl⟩
    | some found =>
      rw [(declared_of_known hname hfind).1]
      exact .inr (find?_eq_some.1 hfind).2

theorem function?_accept_ne {b : Builder} {c : Construct} {serial : Nat}
    (h : serial ≠ (b.declared c.proto).1) : (b.accept c).function? serial = b.function? serial :=
  (function?_put_other (Ne.symm h) _).trans (function?_declared_ne h)

theorem function?_accept_self (b : Builder) (c : Construct) :
    (b.accept c).function? (b.declared c.proto).1 = some (b.outcome c).numbered :=
  function?_put_self (function?_declared b c.proto) _

theorem written?_accept_ne {b : Builder} {c : Construct} {e : Entry}
    (h : e ≠ .function (b.declared c.proto).1) : (b.accept c).written? e = b.written? e := by
  cases e with
  | library f => rfl
  | function serial =>
    rw [written?, written?, function?_accept_ne fun heq => h (heq ▸ rfl)]

theorem written?_accept_self (b : Builder) (c : Construct) :
    (b.accept c).written? (.function (b.declared c.proto).1) = some (b.outcome c).numbered := by
  rw [written?, function?_accept_self]
  exact congrArg some (Function.numbered_numbered _)

/-- What the module lists stays where it is. -/
theorem entries_accept (b : Builder) (c : Construct) : b.entries <+: (b.accept c).entries := by
  show b.entries <+: (b.declared c.proto).2.entries
  unfold declared
  split
  · exact List.prefix_append _ _
  · split
    · exact List.prefix_refl _
    · exact List.prefix_append _ _

theorem anonymous_accept (b : Builder) (c : Construct) :
    (b.accept c).anonymous = if c.proto.isAnonymous then b.anonymous + 1 else b.anonymous := by
  show (b.declared c.proto).2.anonymous = _
  unfold declared
  split
  · rfl
  · split <;> rfl

/-- A construct with a new function adds it at the end. -/
theorem Regular.listing_accept_new {b : Builder} (h : b.Regular) {c : Construct}
    (hnew : b.isNew c.proto = true) :
    (b.accept c).listing =
      b.listing ++ [(.function (b.declared c.proto).1, some (b.outcome c).numbered)] := by
  obtain ⟨hserial, hentries⟩ := declared_of_isNew hnew
  have hothers : ∀ e ∈ b.entries, (b.accept c).written? e = b.written? e := by
    intro e he
    refine written?_accept_ne ?_
    rintro rfl
    obtain ⟨f, hf, -⟩ := h.named he
    have := function?_lt hf
    omega
  have haccept : (b.accept c).entries = b.entries ++ [.function (b.declared c.proto).1] :=
    hentries.trans (by rw [hserial])
  rw [listing, haccept, List.map_append, List.map_singleton, written?_accept_self, listing,
    List.map_congr_left fun e he => by rw [hothers e he]]

/-- A construct whose function is known changes nothing but that function. -/
theorem Regular.listing_accept_known {b : Builder} (h : b.Regular) {c : Construct}
    (hname : c.proto.isAnonymous = false) {serial i : Nat} {f : Function}
    (hfind : b.find? c.proto.name = some (serial, f)) (hi : b.entries[i]? = some (.function serial)) :
    (b.accept c).listing =
      b.listing.set i (.function serial, some (b.outcome c).numbered) := by
  have hdeclared := (declared_of_known hname hfind).1
  have hserial : (b.declared c.proto).1 = serial := by rw [hdeclared]
  have haccept : (b.accept c).entries = b.entries := by
    show (b.declared c.proto).2.entries = _
    rw [hdeclared]
  refine List.ext_getElem? fun j => ?_
  rw [getElem?_listing, haccept, List.getElem?_set]
  split
  · rename_i hj
    subst hj
    have hlt : i < b.listing.length := by
      rw [listing, List.length_map]
      exact (List.getElem?_eq_some_iff.1 hi).1
    rw [hi, if_pos hlt, Option.map_some, ← hserial, written?_accept_self]
  · rename_i hj
    rw [getElem?_listing]
    cases he : b.entries[j]? with
    | none => rfl
    | some e =>
      rw [Option.map_some, Option.map_some, written?_accept_ne]
      rintro rfl
      rw [hserial, ← hi] at he
      exact hj ((List.getElem?_inj (List.getElem?_eq_some_iff.1 hi).1 h.nodup).1 he.symm)

theorem outcome_filled {b : Builder} {c : Construct} {body : Expr} (hbody : c.body? = some body) :
    (b.outcome c).numbered =
      (b.target c.proto).filled (b.declared c.proto).1 c.proto.params body := by
  rw [outcome_of_body hbody]
  rfl

theorem isAnonymous_of_isName {p : Prototype} (h : IsName p.name) : p.isAnonymous = false := by
  obtain ⟨c, cs, hlist, -⟩ := h
  rw [Prototype.isAnonymous, Bool.eq_false_iff, ne_eq, String.isEmpty_iff]
  intro hempty
  rw [hempty] at hlist
  cases hlist

/-- Where a known function stands in the module. -/
theorem Regular.exists_position {b : Builder} (h : b.Regular) {name : String} {serial : Nat}
    {f : Function} (hfind : b.find? name = some (serial, f)) :
    ∃ i : Nat, b.entries[i]? = some (.function serial) ∧
      b.listing[i]? = some (.function serial, some f.numbered) ∧ f.name = name := by
  obtain ⟨hget, hf⟩ := find?_eq_some.1 hfind
  obtain ⟨g, hg, hname⟩ := h.sound.known hget
  rw [hf] at hg
  injection hg with hg
  obtain ⟨i, hi⟩ := List.mem_iff_getElem?.1 (h.listed hget)
  refine ⟨i, hi, ?_, hg ▸ hname⟩
  rw [getElem?_listing, hi, Option.map_some, written?, hf]
  rfl

section
variable {b : Builder} (h : b.Regular)
include h

theorem Regular.advances_declaration {p : Prototype} (hp : p.Named IsName) :
    b.Advances (b.accept (.declaration p)) b.anonymous (.declaration p) := by
  have hname := isAnonymous_of_isName hp.name
  have houtcome : b.outcome (.declaration p) = b.target p := outcome_of_declaration rfl
  cases hfind : b.find? p.name with
  | none =>
    have hnew : b.isNew p = true := by simp [isNew, hfind]
    have htarget : b.target p = .declared p.name p.params := by simp [target, hname, hfind]
    have hlisting := h.listing_accept_new (c := .declaration p) hnew
    rw [houtcome, htarget, Function.numbered_of_bodiless rfl] at hlisting
    exact .declares (h.unlisted_iff.2 hfind) hlisting
  | some found =>
    obtain ⟨serial, f⟩ := found
    obtain ⟨i, hi, hlisted, hfname⟩ := h.exists_position hfind
    have hlisting := h.listing_accept_known (c := .declaration p) hname hfind hi
    rw [houtcome, (declared_of_known hname hfind).2] at hlisting
    refine .knows (List.mem_of_getElem? hlisted) hfname (hlisting.trans ?_)
    obtain ⟨hlt, heq⟩ := List.getElem?_eq_some_iff.1 hlisted
    rw [← heq, List.set_getElem_self]

theorem Regular.advances_definition {p : Prototype} (hp : p.Named IsName) {body : Expr}
    (hconflict : Directory.definitionConflict? b.signature? p = none) :
    b.Advances (b.accept (.definition p body)) b.anonymous (.definition p body) := by
  have hname := isAnonymous_of_isName hp.name
  have houtcome : (b.outcome (.definition p body)).numbered =
      (b.target p).filled (b.declared p).1 p.params body := outcome_filled rfl
  obtain ⟨hblocks, hparams⟩ := target_of_conflict hconflict
  cases hfind : b.find? p.name with
  | none =>
    have hnew : b.isNew p = true := by simp [isNew, hfind]
    have htarget : b.target p = .declared p.name p.params := by simp [target, hname, hfind]
    have hlisting := h.listing_accept_new (c := .definition p body) hnew
    rw [houtcome, htarget] at hlisting
    exact .defines (h.unlisted_iff.2 hfind) hlisting
  | some found =>
    obtain ⟨serial, f⟩ := found
    obtain ⟨i, hi, hlisted, hfname⟩ := h.exists_position hfind
    obtain ⟨hdeclared, htarget⟩ := declared_of_known hname hfind
    have hlisting := h.listing_accept_known (c := .definition p body) hname hfind hi
    rw [houtcome, htarget, hdeclared] at hlisting
    rw [htarget] at hblocks hparams
    rw [Function.numbered_of_bodiless hblocks] at hlisted
    exact .completes hlisted hfname hblocks hparams hlisting

theorem Regular.advances_evaluation (body : Expr) :
    b.Advances (b.accept (.evaluation body)) b.anonymous (.evaluation body) := by
  have hlisting := h.listing_accept_new (c := .evaluation body) rfl
  rw [outcome_filled rfl] at hlisting
  exact .evaluates hlisting

/-- **A construct without a fault makes its one step on the listing.** -/
theorem Regular.advances {c : Construct} (hc : c.Named IsName)
    (hfault : c.fault? b.signature? = none) : b.Advances (b.accept c) b.anonymous c := by
  cases c with
  | declaration p => exact h.advances_declaration hc
  | definition p body => exact h.advances_definition hc.1 (h.opens hc hfault rfl).1.conflict
  | evaluation body => exact h.advances_evaluation body

end

/-! ## The text of the module -/

/-- Every function can be written, and takes only what is its own. -/
structure Writable (b : Builder) : Prop where
  complete : ∀ {serial f}, b.function? serial = some f → f.Complete
  own : ∀ {serial f}, b.function? serial = some f → f.Own serial

theorem Writable.put_numbered {b : Builder} (h : b.Writable) {serial : Nat} {f : Function}
    (hf : b.function? serial = some f) : (b.put serial f.numbered).Writable := by
  have hcases : ∀ {k g}, (b.put serial f.numbered).function? k = some g →
      b.function? k = some g ∨ (k = serial ∧ g = f.numbered) := by
    intro k g hg
    by_cases hk : serial = k
    · subst hk
      rw [function?_put_self hf] at hg
      exact .inr ⟨rfl, (Option.some.inj hg).symm⟩
    · exact .inl ((function?_put_other hk _).symm.trans hg)
  refine ⟨fun {k g} hg => ?_, fun {k g} hg => ?_⟩
  · rcases hcases hg with hg | ⟨rfl, rfl⟩
    · exact h.complete hg
    · exact (h.complete hf).numbered
  · rcases hcases hg with hg | ⟨rfl, rfl⟩
    · exact h.own hg
    · exact (h.own hf).numbered

/-- Numbering a function changes no text. -/
theorem Writable.write_put_numbered {b : Builder} (h : b.Writable) {serial other : Nat}
    {f g : Function} (hf : b.function? serial = some f) (hg : b.function? other = some g) :
    ((b.put serial f.numbered).write other).1 = (b.write other).1 := by
  by_cases hk : serial = other
  · subst hk
    rw [hf] at hg
    injection hg with hg
    subst hg
    exact write_congr (function?_put_self hf _) hf (Function.numbered_numbered f)
      (h.complete hf).numbered (h.complete hf) (h.own hf).numbered
  · exact write_congr ((function?_put_other hk _).trans hg) hg rfl (h.complete hg) (h.complete hg)
      (h.own hg)

/-- **Entries are written one by one**: writing one does not change the text of another. -/
theorem Writable.writeEntries_texts {b : Builder} (h : b.Writable) {entries : List Entry}
    (hentries : ∀ serial, .function serial ∈ entries → ∃ f, b.function? serial = some f) :
    ∃ texts b', b.writeEntries entries = (.ok texts, b') ∧ texts.length = entries.length ∧
      ∀ i serial : Nat, entries[i]? = some (.function serial) →
        ∃ text, texts[i]? = some text ∧ (b.write serial).1 = .ok text := by
  induction entries generalizing b with
  | nil => exact ⟨[], b, rfl, rfl, fun i serial hi => by simp at hi⟩
  | cons e entries ih =>
    have hrest : ∀ serial, .function serial ∈ entries → ∃ f, b.function? serial = some f :=
      fun serial hmem => hentries serial (List.mem_cons_of_mem _ hmem)
    cases e with
    | library f =>
      obtain ⟨texts, b', hwrite, hlength, htexts⟩ := ih h hrest
      refine ⟨libraryText f :: texts, b', ?_, by rw [List.length_cons, List.length_cons, hlength],
        fun i serial hi => ?_⟩
      · simp only [writeEntries, writeEntry, hwrite]
      · cases i with
        | zero => cases hi
        | succ i => exact htexts i serial hi
    | function k =>
      obtain ⟨f, hf⟩ := hentries k List.mem_cons_self
      obtain ⟨text, hfirst⟩ := write_of_complete hf (h.complete hf)
      have hknown : ∀ serial, .function serial ∈ entries →
          ∃ g, (b.put k f.numbered).function? serial = some g := by
        intro serial hmem
        obtain ⟨g, hg⟩ := hrest serial hmem
        rw [function?_put, hg]
        split
        · exact ⟨_, rfl⟩
        · exact ⟨_, rfl⟩
      obtain ⟨texts, b', hwrite, hlength, htexts⟩ := ih (h.put_numbered hf) hknown
      refine ⟨text :: texts, b', ?_, by rw [List.length_cons, List.length_cons, hlength],
        fun i serial hi => ?_⟩
      · simp only [writeEntries, writeEntry, hfirst, hwrite]
      · cases i with
        | zero =>
          injection hi with hi
          injection hi with hi
          subst hi
          exact ⟨text, rfl, by rw [hfirst]⟩
        | succ i =>
          obtain ⟨text', htext, hother⟩ := htexts i serial hi
          obtain ⟨g, hg⟩ := hrest serial (List.mem_of_getElem? hi)
          exact ⟨text', htext, (h.write_put_numbered hf hg).symm.trans hother⟩

theorem Writable.initial : Builder.initial.Writable where
  complete hf := Regular.initial.complete hf
  own {serial f} hf := by
    rw [function?, initial_eq, List.getElem?_toArray] at hf
    intro block hblock
    rcases serial with _ | _ | serial
    · injection hf with hf
      rw [← hf] at hblock
      rw [List.mem_singleton.1 hblock]
      constructor <;> simp [Instr.operands, Value.Own]
    · injection hf with hf
      rw [← hf] at hblock
      rw [List.mem_singleton.1 hblock]
      constructor <;> simp [Instr.operands, Value.Own]
    · cases hf

/-- A construct without a fault leaves every function writable. -/
theorem Writable.accept {b : Builder} (h : b.Writable) (hregular : b.Regular) {c : Construct}
    (hc : c.Named IsName) (hfault : c.fault? b.signature? = none) : (b.accept c).Writable := by
  refine ⟨fun hf => (hregular.accept hc hfault).complete hf, fun {serial f} hf => ?_⟩
  by_cases hserial : serial = (b.declared c.proto).1
  · subst hserial
    rw [function?_accept_self] at hf
    injection hf with hf
    subst hf
    refine Function.Own.numbered ?_
    cases hbody : c.body? with
    | none =>
      rw [outcome_of_declaration hbody]
      rcases target_cases b c.proto with ⟨name, htarget⟩ | hknown
      · exact Function.own_of_bodiless (by rw [htarget]; rfl) _
      · exact h.own hknown
    | some body => exact (hregular.correct_outcome hc hfault hbody).own
  · exact h.own ((function?_accept_ne hserial).symm.trans hf)

end Builder

end Kaleidoscope.Ir
