/-
  The local names of functions.

  The parameters of a function, the label of its block and the numbers of its results share one
  namespace. The label is always the same, and a program may give that name to a parameter.

  - `Function.locals`: the local names of a function;
  - `Builder.textBy`, `Builder.blockText_eq`: those of a block are the names by which it is written;
  - `Function.locals_nodup_iff`: where the parameters are different names, the label is the only name
    that can be there twice;
  - `Builder.Signed`: the parameters of all functions that a program adds are different names;
  - `run_locals_nodup_iff`: after any source texts, a function that a program added has its local
    names only once exactly if no parameter of it is called like the label.
-/
import Kaleidoscope.Proofs.Session.Growth

namespace Kaleidoscope

/-! ## Names and numbers -/

/-- No name is the text of a number. -/
theorem IsName.ne_toString {name : String} (h : IsName name) (n : Nat) : name ≠ toString n := by
  rintro rfl
  obtain ⟨c, cs, hlist, hletter, -⟩ := h
  have hdigit : c.isDigit = true := by
    refine Nat.isDigit_of_mem_toDigits (b := 10) (n := n) (by decide) (by decide) ?_
    rw [← Nat.toList_repr, show n.repr.toList = c :: cs from hlist]
    exact List.mem_cons_self
  rw [isLetter_eq_false (.inl hdigit)] at hletter; cases hletter

theorem nodup_range'_toString (start count : Nat) :
    ((List.range' start count).map fun n => toString n).Nodup :=
  List.Pairwise.map _ (fun _ _ hne heq => hne (Ir.Builder.toString_injective heq))
    (List.nodup_range' 1)

namespace Ir

/-! ## Local names -/

/-- The label of the block of every function. -/
def blockLabel : String := "entry"

theorem blockLabel_isName : IsName blockLabel := by
  have hall : ['e', 'n', 't', 'r', 'y'].all Lexer.inName = true := by decide +kernel
  exact ⟨'e', ['n', 't', 'r', 'y'], rfl, by decide +kernel, List.all_eq_true.1 hall⟩

/-- The names of the results of a block. -/
def Block.resultNames (block : Block) : List String :=
  (List.range block.instrs.size).map fun k => toString (block.number k)

/-- The names that a function has for itself: its parameters, and the label and the results of each
block. -/
def Function.locals (f : Function) : List String :=
  f.params ++ f.blocks.flatMap fun block => blockLabel :: block.resultNames

/-- The text of a complete block by the names of its label and of its results. -/
def Builder.textBy (b : Builder) (label : String) (results : List String) (instrs : List Instr)
    (v : Value) : String :=
  label ++ ":\n" ++
    String.join (List.zipWith (fun name i => "\t%" ++ name ++ " = " ++ b.instrText i ++ "\n")
      results instrs) ++ "\tret " ++ b.typedText v

theorem Builder.blockText_eq (b : Builder) {block : Block} {v : Value}
    (h : block.returned = some v) :
    b.blockText block = .ok (b.textBy blockLabel block.resultNames block.instrs.toList v) := by
  have hlines : block.instrs.toList.zipIdx.map (b.lineText block) =
      List.zipWith (fun name i => "\t%" ++ name ++ " = " ++ b.instrText i ++ "\n")
        block.resultNames block.instrs.toList := by
    refine List.ext_getElem (by simp [Block.resultNames]) fun k _ _ => ?_
    simp only [Block.resultNames, List.getElem_map, List.getElem_zipIdx, List.getElem_zipWith,
      List.getElem_range, Nat.zero_add, Builder.lineText]
  rw [Builder.blockText_of_returned h, hlines]
  rfl

theorem Block.resultNames_numbered (block : Block) (next : Nat) :
    (block.numbered next).resultNames =
      (List.range' next block.instrs.size).map fun n => toString n := by
  refine List.ext_getElem (by simp [resultNames, Block.numbered]) fun k hk _ => ?_
  have hlt : k < block.instrs.size := by simpa [resultNames, Block.numbered] using hk
  simp [resultNames, Block.numbered, Block.number, hlt]

/-- The parameters are names, each of them only once. -/
structure Function.Signed (f : Function) : Prop where
  nodup : f.params.Nodup
  named : ∀ param ∈ f.params, IsName param

/-- **Only the label can be there twice.** -/
theorem Function.locals_nodup_iff {f : Function} (hsigned : f.Signed) (hcomplete : f.Complete)
    (hbody : f.blocks ≠ []) : f.numbered.locals.Nodup ↔ blockLabel ∉ f.params := by
  obtain ⟨block, -, hblocks, -⟩ := hcomplete.resolve_left hbody
  have hlocals : f.numbered.locals = f.params ++
      blockLabel :: (List.range' f.unnamed block.instrs.size).map fun n => toString n := by
    simp only [locals, numbered, hblocks, List.map_cons, List.map_nil, List.flatMap_cons,
      List.flatMap_nil, List.append_nil, Block.resultNames_numbered]
  rw [hlocals, List.nodup_append]
  constructor
  · rintro ⟨-, -, hapart⟩ hlabel
    exact hapart _ hlabel _ List.mem_cons_self rfl
  · intro hlabel
    refine ⟨hsigned.nodup, List.nodup_cons.2 ⟨?_, nodup_range'_toString _ _⟩, ?_⟩
    · intro hmem
      obtain ⟨n, -, hn⟩ := List.mem_map.1 hmem
      exact blockLabel_isName.ne_toString n hn.symm
    · rintro param hparam name hname rfl
      rcases List.mem_cons.1 hname with rfl | hname
      · exact hlabel hparam
      · obtain ⟨n, -, hn⟩ := List.mem_map.1 hname
        exact (hsigned.named _ hparam).ne_toString n hn.symm

/-! ## The parameters of functions -/

namespace Builder

/-- The parameters of all functions that a program adds are names, each of them only once. -/
def Signed (b : Builder) : Prop :=
  ∀ {serial f}, builtins.length ≤ serial → b.function? serial = some f → f.Signed

theorem Signed.initial : Builder.initial.Signed := by
  intro serial f hadded hf
  rw [function?_initial_of_le hadded] at hf; cases hf

/-- The parameters of a construct without a fault. -/
theorem signed_of_fault? {b : Builder} {c : Construct} (hc : c.Named IsName)
    (hfault : c.fault? b.signature? = none) (f : Function) : (f.withParams c.proto.params).Signed where
  nodup := (Prototype.fault?_eq_none_iff.1 (Construct.proto_fault? hfault)).2
  named := by
    cases c with
    | declaration p => exact hc.params
    | definition p body => exact hc.1.params
    | evaluation body => exact fun param hparam => absurd hparam List.not_mem_nil

/-- A construct without a fault keeps it so. -/
theorem Signed.accept {b : Builder} {c : Construct} (hc : c.Named IsName)
    (hfault : c.fault? b.signature? = none) (h : b.Signed) : (b.accept c).Signed := by
  intro serial f hadded hf
  by_cases hserial : serial = (b.declared c.proto).1
  · subst hserial
    rw [function?_accept_self] at hf
    injection hf with hf
    subst hf
    have hproto := signed_of_fault? hc hfault (b.target c.proto)
    cases hbody : c.body? with
    | none =>
      rw [outcome_of_declaration hbody]
      rcases target_cases b c.proto with ⟨name, htarget⟩ | hknown
      · rw [htarget]
        exact ⟨hproto.nodup, hproto.named⟩
      · exact ⟨(h hadded hknown).nodup, (h hadded hknown).named⟩
    | some body =>
      rw [outcome_of_body hbody]
      exact ⟨hproto.nodup, hproto.named⟩
  · exact h hadded ((function?_accept_ne hserial).symm.trans hf)

end Builder

end Ir

namespace Session

open Ir (Builder)

theorem signed_run (sources : List ByteArray) : (run .ir sources).builder.Signed :=
  (Steady.evaluate_keeps (Q := (·.builder.Signed))
    (Steady.handle_keeps fun _ hc hfault h => h.accept hc hfault) (.initial .ir)
    Builder.Signed.initial sources).1

/-- **When the local names of a function are all different.** Take the module after any source texts,
and in it a function with a body that is not built in. It has one block, which is written by the
label and by the names of the results. The function has its local names only once exactly if no
parameter of it is called like the label. -/
theorem run_locals_nodup_iff (sources : List ByteArray) {serial : Nat} {f : Ir.Function}
    (hlisted : (.function serial, some f) ∈ (run .ir sources).builder.listing)
    (hadded : .function serial ∉ Builder.initial.entries) (hbody : f.blocks ≠ []) :
    let final := (run .ir sources).builder
    ∃ block v, f.blocks = [block] ∧
      final.blockText block =
        .ok (final.textBy Ir.blockLabel block.resultNames block.instrs.toList v) ∧
      (f.locals.Nodup ↔ Ir.blockLabel ∉ f.params) := by
  intro final
  obtain ⟨-, hwritten⟩ := Builder.mem_listing.1 hlisted
  obtain ⟨g, hg, rfl⟩ := Option.map_eq_some_iff.1 hwritten
  have hcomplete := (Steady.run .ir sources).builder.complete hg
  have hsigned := signed_run sources (Builder.builtins_length_le hadded) hg
  obtain ⟨block, v, hblocks, hreturned, -⟩ := hcomplete.numbered.resolve_left hbody
  refine ⟨block, v, hblocks, final.blockText_eq hreturned,
    Ir.Function.locals_nodup_iff hsigned hcomplete fun hnone => hbody ?_⟩
  rw [Ir.Function.numbered, hnone, List.map_nil]

/-- A parameter with the name of the label. -/
theorem run_locals_clash : ∃ (serial : Nat) (f : Ir.Function),
    (.function serial, some f) ∈ (run .ir ["def f(entry) entry".toUTF8]).builder.listing ∧
      .function serial ∉ Builder.initial.entries ∧ f.blocks ≠ [] ∧
      f.locals = ["entry", "entry"] ∧ ¬f.locals.Nodup := by
  have hlisted : (.function 2, some ⟨"f", ["entry"], [⟨#[], some (.param 2 0), []⟩], 0⟩) ∈
      (run .ir ["def f(entry) entry".toUTF8]).builder.listing := by
    decide +kernel
  obtain ⟨-, -, -, -, hnodup⟩ := run_locals_nodup_iff _ hlisted (by decide) (by decide)
  refine ⟨2, _, hlisted, by decide, by decide, rfl, ?_⟩
  rw [hnodup]
  decide

end Session

end Kaleidoscope
