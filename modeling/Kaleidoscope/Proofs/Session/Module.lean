/-
  The module of a session.

  - `run_wellFormed`: the module is well formed after any source texts;
  - `Steady.settled_handle`: a function that has a body keeps it, whatever construct comes next;
  - `settled_run`: so the function of a construct that is accepted is there at the end;
  - `run_executes`: at the end of a session, the function of every construct that was accepted on the
    way computes what its body means.
-/
import Kaleidoscope.Proofs.Session.Step

namespace Kaleidoscope.Session

universe u

open Ir (Builder)

/-- **The module is well formed after any source texts.** -/
theorem run_wellFormed (sources : List ByteArray) : (run .ir sources).builder.WellFormed :=
  (Steady.run .ir sources).builder.wellFormed

/-! ## Functions that have a body, and constructs that are accepted -/

namespace Steady
variable {s : Session} {mode : EmitMode} {c : Construct} {serial : Nat} {f : Ir.Function}

theorem settled_handle (h : s.Steady mode) (hc : c.Named IsName)
    (hf : s.builder.Settled serial f) : (s.handle c).session.builder.Settled serial f :=
  handle_keeps (Q := (·.Settled serial f))
    (fun hregular hc hfault hf => hf.accept hregular hc hfault) h hc hf

/-- A construct that is accepted has no fault. -/
theorem fault?_of_acceptance (h : s.Steady mode) {text : String}
    (hevents : (s.handle c).events = acceptance c text) : c.fault? s.checker.global? = none := by
  cases hfault : c.fault? s.checker.global? with
  | none => rfl
  | some e =>
    obtain ⟨checker, hturn, -⟩ := h.handle_of_fault hfault
    rw [hturn] at hevents
    cases congrArg List.length hevents

end Steady

/-! ## Meaning -/

/-- The name of the function that a construct makes: its own, or that of the next expression at top
level. -/
def functionName (b : Builder) (c : Construct) : String :=
  if c.proto.isAnonymous then Builder.anonymousName b.anonymous else c.proto.name

theorem functionName_eq {b : Builder} (h : b.Sound) (c : Construct) :
    (b.target c.proto).name = functionName b c := by
  unfold functionName
  cases hname : c.proto.isAnonymous with
  | true =>
    simp only [Builder.target, hname, if_true]; rfl
  | false => exact h.target_name hname

/-- A construct that is accepted in the course of a session has no fault, and its function is there
at the end. -/
theorem settled_run (earlier : List ByteArray) (source : ByteArray) (later : List ByteArray)
    {before after : List Parser.Event} {c : Construct} {body : Expr} {text : String}
    (hevents : (Parser.ofBytes source).events.1 = before ++ .construct c :: after)
    (hbody : c.body? = some body)
    (haccepted : (((run .ir earlier).follow before).session.handle c).events = acceptance c text) :
    let now := ((run .ir earlier).follow before).session.builder
    now.Regular ∧ c.Named IsName ∧ c.fault? now.signature? = none ∧
      (run .ir (earlier ++ source :: later)).builder.Settled (now.declared c.proto).1
        (now.outcome c).numbered := by
  intro now
  have hnamed := allNamed_events source
  rw [hevents] at hnamed
  have hbefore : AllNamed before := fun c hc => hnamed c (List.mem_append_left _ hc)
  have hc : c.Named IsName := hnamed c (List.mem_append_right _ List.mem_cons_self)
  have hafter : AllNamed after := fun c hc =>
    hnamed c (List.mem_append_right _ (List.mem_cons_of_mem _ hc))
  have hearlier := Steady.run .ir earlier
  have hnow := (hearlier.follow hbefore).1
  have hfault := hnow.fault?_of_acceptance haccepted
  obtain ⟨checker, text', hturn, -⟩ := hnow.handle_of_right hc hfault
  rw [fault?_congr (hnow.agree rfl) hc] at hfault
  refine ⟨hnow.builder, hc, hfault, ?_⟩
  -- the function is settled after the construct, after its source text, and at the end
  have hhandled : (((run .ir earlier).follow before).session.handle c).session.builder =
      now.accept c := by
    rw [hturn]; rfl
  have hsettled := hhandled ▸ hnow.builder.settled_accept hc hfault hbody
  obtain ⟨hstays, hsteady, -⟩ := Steady.follow_keeps (Q := (·.builder.Settled _ _))
    Steady.settled_handle (hnow.handle hc).1 hsettled hafter
  have hsource : ((run .ir earlier).evaluate source).session =
      ((((run .ir earlier).follow before).session.handle c).session.follow after).session := by
    rw [evaluate, hevents, hearlier.follow_append hbefore, hnow.follow_construct hc]
  rw [← hsource] at hstays hsteady
  have hends := (Steady.evaluate_keeps (Q := (·.builder.Settled _ _)) Steady.settled_handle hsteady
    hstays later).1
  rwa [run, List.foldl_append]

/-- **The emitted code means what the source says.** Take a session of source texts, and in one of
them a definition or an expression at top level that is accepted when its turn comes. At the end of
the session the module lists its function, with the parameters of the definition and one complete
block. On every machine, with any arguments and after any calls, executing the function gives the
value of the body, its parameters bound to the arguments, and makes the same calls in the same
order. -/
theorem run_executes (earlier : List ByteArray) (source : ByteArray) (later : List ByteArray)
    {before after : List Parser.Event} {c : Construct} {body : Expr} {text : String}
    (hevents : (Parser.ofBytes source).events.1 = before ++ .construct c :: after)
    (hbody : c.body? = some body)
    (haccepted : (((run .ir earlier).follow before).session.handle c).events = acceptance c text) :
    let now := ((run .ir earlier).follow before).session.builder
    let final := (run .ir (earlier ++ source :: later)).builder
    ∃ serial f block v, final.find? (functionName now c) = some (serial, f) ∧
      .function serial ∈ final.entries ∧ f.params = c.proto.params ∧
      f.blocks = [block] ∧ block.returned = some v ∧
      ∀ {α β : Type u} (m : Machine α β) (args : List α) (calls : List (Call α)),
        args.length = c.proto.params.length →
          ∃ x calls', body.evaluate m (bindParams c.proto.params args) calls = some (x, calls') ∧
            f.execute m serial args calls = some (x, calls') := by
  intro now final
  obtain ⟨hnow, hc, hfault, hfinal⟩ := settled_run earlier source later hevents hbody haccepted
  have hfunction : (now.outcome c).numbered.name = functionName now c :=
    (hnow.outcome hc hfault).1.trans (functionName_eq hnow.sound c)
  obtain ⟨g, hg, hget⟩ := (Steady.run .ir (earlier ++ source :: later)).builder.named hfinal.listed
  rw [hfinal.known] at hg
  injection hg with hg
  rw [← hg, hfunction] at hget
  have hblocks := congrArg (fun f => f.numbered.blocks) (Builder.outcome_of_body (b := now) hbody)
  have hparams := congrArg (fun f => f.numbered.params) (Builder.outcome_of_body (b := now) hbody)
  exact ⟨_, _, _, _, Builder.find?_eq_some.2 ⟨hget, hfinal.known⟩, hfinal.listed, hparams, hblocks,
    rfl, fun m args calls hargs => hnow.execute_outcome hc hfault hbody m hargs calls⟩

/-- A machine of integers, on which a call gives the number of calls before it. -/
def countingMachine : Machine Int Bool where
  constant _ := 0
  arithmetic
    | .add, x, y => x + y
    | .subtract, x, y => x - y
    | .multiply, x, y => x * y
    | .divide, x, y => x / y
  compare
    | .less, x, y => x < y
    | .greater, x, y => x > y
  widen bit := if bit then 1 else 0
  call _ _ calls := calls.length

/-- A definition with two calls of itself. -/
def difference : Construct :=
  .definition ⟨"f", ["x", "y"]⟩ (.binary .subtract
    (.call "f" [.identifier "x", .identifier "y"]) (.call "f" [.identifier "y", .identifier "x"]))

/-- The left call comes first, and the right one is subtracted from it. -/
theorem run_executes_difference :
    let final := (run .ir ["def f(x y) f(x, y) - f(y, x)".toUTF8]).builder
    ∃ serial f, final.find? "f" = some (serial, f) ∧
      f.execute countingMachine serial [7, 8] [] =
        some (-1, [⟨"f", [7, 8], 0⟩, ⟨"f", [8, 7], 1⟩]) := by
  have hevents : (Parser.ofBytes "def f(x y) f(x, y) - f(y, x)".toUTF8).events.1 =
      [] ++ [.construct difference] := by
    decide +kernel
  have haccepted : (((run .ir []).follow []).session.handle difference).events =
      acceptance difference ("define double @f(double %x, double %y) \x7b\nentry:\n" ++
        "\t%0 = call double @f(double %x, double %y)\n" ++
        "\t%1 = call double @f(double %y, double %x)\n" ++
        "\t%2 = fsub double %0, %1\n\tret double %2\n\x7d") := by
    decide +kernel
  obtain ⟨serial, f, -, -, hfind, -, -, -, -, hexecute⟩ :=
    run_executes [] _ [] hevents rfl haccepted
  obtain ⟨x, calls, heval, hrun⟩ := hexecute countingMachine [7, 8] [] rfl
  refine ⟨serial, f, hfind, ?_⟩
  rw [hrun, ← heval]
  rfl

end Kaleidoscope.Session
