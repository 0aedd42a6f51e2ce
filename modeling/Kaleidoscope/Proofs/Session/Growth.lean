/-
  How the module of a session grows.

  - `eventsOf`, `run_eq_follow`: the pieces of all source texts, and the session after them;
  - `Turn.evaluations`: how many expressions at top level were accepted. The builder counts them;
  - `Shows`, `Shows.follow`: a function with a body stays where it is listed, and as it is written;
  - `run_advances`: each construct that is accepted makes its one step on the listing of the module,
    and the text of a function with a body is the same from then on.
-/
import Kaleidoscope.Proofs.Ir.Listing
import Kaleidoscope.Proofs.Session.Module

namespace Kaleidoscope.Session

open Ir (Builder)

/-! ## Sessions as runs of pieces -/

/-- What the parser brings about for source texts, one after another. -/
def eventsOf (sources : List ByteArray) : List Parser.Event :=
  sources.flatMap fun source => (Parser.ofBytes source).events.1

theorem allNamed_eventsOf (sources : List ByteArray) : AllNamed (eventsOf sources) := by
  intro c hc
  obtain ⟨source, -, hmem⟩ := List.mem_flatMap.1 hc
  exact allNamed_events source c hmem

/-- **A session is a run of the pieces of its source texts.** -/
theorem run_eq_follow (mode : EmitMode) (sources : List ByteArray) :
    run mode sources = ((initial mode).follow (eventsOf sources)).session := by
  suffices hfrom : ∀ {s : Session}, s.Steady mode →
      sources.foldl (fun s source => (s.evaluate source).session) s =
        (s.follow (eventsOf sources)).session from hfrom (.initial mode)
  intro s hs
  induction sources generalizing s with
  | nil => rfl
  | cons source sources ih =>
    have hnamed := allNamed_events source
    calc sources.foldl (fun s source => (s.evaluate source).session) (s.evaluate source).session
      _ = ((s.evaluate source).session.follow (eventsOf sources)).session := ih (hs.follow hnamed).1
      _ = (s.follow ((Parser.ofBytes source).events.1 ++ eventsOf sources)).session :=
          (hs.follow_append hnamed _).symm

/-! ## The expressions at top level -/

/-- How many expressions at top level were accepted. -/
def Turn.evaluations (t : Turn) : Nat :=
  t.events.count (.diagnostic ⟨.info, ConstructKind.evaluation.message⟩)

namespace Steady
variable {s : Session}

theorem anonymous_handle (h : s.Steady .ir) {c : Construct} (hc : c.Named IsName) :
    (s.handle c).session.builder.anonymous = s.builder.anonymous + (s.handle c).evaluations := by
  cases hfault : c.fault? s.checker.global? with
  | some e =>
    obtain ⟨checker, hturn, -⟩ := h.handle_of_fault hfault
    have hmistake := Construct.isMistake_of_fault? hfault
    have hnone : (s.handle c).evaluations = 0 := by
      rw [hturn]
      refine List.count_eq_zero.2 ?_
      simp [Event.ofError, Diagnostic.ofError, Severity.ofError, hmistake]
    rw [hnone, hturn, Nat.add_zero]
  | none =>
    obtain ⟨checker, text, hturn, -⟩ := h.handle_of_right hc hfault
    rw [hturn]
    show (s.builder.accept c).anonymous = _
    rw [Builder.anonymous_accept]
    cases c with
    | declaration p =>
      rw [if_neg (by simp [Construct.proto, Builder.isAnonymous_of_isName hc.name])]
      rfl
    | definition p body =>
      rw [if_neg (by simp [Construct.proto, Builder.isAnonymous_of_isName hc.1.name])]
      rfl
    | evaluation body => rfl

/-- **The builder counts the expressions at top level that were accepted.** -/
theorem anonymous_follow (h : s.Steady .ir) {events : List Parser.Event}
    (hevents : AllNamed events) :
    (s.follow events).session.builder.anonymous =
      s.builder.anonymous + (s.follow events).evaluations := by
  induction events generalizing s with
  | nil => rfl
  | cons event events ih =>
    have hrest : AllNamed events := fun c hc => hevents c (List.mem_cons_of_mem _ hc)
    cases event with
    | report e =>
      have hother : (s.follow (.report e :: events)).evaluations = (s.follow events).evaluations :=
        List.count_cons_of_ne (by simp)
      rw [hother]
      exact ih h hrest
    | construct c =>
      have hc := hevents c List.mem_cons_self
      rw [h.follow_construct hc]
      show ((s.handle c).session.follow events).session.builder.anonymous = _
      rw [ih (h.handle hc).1 hrest, h.anonymous_handle hc, Nat.add_assoc]
      exact congrArg _ List.count_append.symm

end Steady

/-! ## Functions that stay -/

/-- The `i`-th entry of the module is that function, which has a body, and all functions of the module
can be written. -/
structure Shows (b : Builder) (i serial : Nat) (f : Ir.Function) : Prop where
  place : b.entries[i]? = some (.function serial)
  settled : b.Settled serial f
  writable : b.Writable

namespace Shows
variable {b : Builder} {i serial : Nat} {f : Ir.Function}

theorem listing (h : Shows b i serial f) : b.listing[i]? = some (.function serial, some f) := by
  rw [Builder.getElem?_listing, h.place, Option.map_some, Builder.written?, h.settled.known,
    Option.map_some, h.settled.numbered]

theorem accept {c : Construct} (hregular : b.Regular) (hc : c.Named IsName)
    (hfault : c.fault? b.signature? = none) (h : Shows b i serial f) :
    Shows (b.accept c) i serial f where
  place := by
    obtain ⟨more, hmore⟩ := Builder.entries_accept b c
    rw [← hmore, List.getElem?_append_left (List.getElem?_eq_some_iff.1 h.place).1]
    exact h.place
  settled := h.settled.accept hregular hc hfault
  writable := h.writable.accept hregular hc hfault

/-- Where the function is shown at two times, it is written alike. -/
theorem write_eq {b' : Builder} (h : Shows b i serial f) (h' : Shows b' i serial f) :
    (b'.write serial).1 = (b.write serial).1 :=
  Builder.write_congr h'.settled.known h.settled.known rfl (h'.writable.complete h'.settled.known)
    (h.writable.complete h.settled.known) (h'.writable.own h'.settled.known)

/-- The text of the module has the text of the function in its place. -/
theorem writeModule (h : Shows b i serial f) (hregular : b.Regular) {text : String}
    (htext : (b.write serial).1 = .ok text) :
    ∃ texts, b.writeModule.1 = .ok ("\n\n".intercalate (Ir.formatGlobal :: texts) ++ "\n") ∧
      texts.length = b.listing.length ∧ texts[i]? = some text := by
  obtain ⟨texts, b', hwrite, hlength, htexts⟩ := h.writable.writeEntries_texts
    fun serial hentry => (hregular.named hentry).imp fun _ hf => hf.1
  obtain ⟨text', hi, htext'⟩ := htexts i serial h.place
  rw [htext] at htext'
  injection htext' with htext'
  refine ⟨texts, ?_, ?_, htext' ▸ hi⟩
  · simp only [Builder.writeModule, hwrite]
  · rw [hlength, Builder.listing, List.length_map]

/-- **A function that is shown stays as it is**: after any pieces it is listed where it was, written
as it was, and so it stands in the text of the module. -/
theorem follow {s : Session} (hs : s.Steady .ir) (h : Shows s.builder i serial f) {text : String}
    (htext : (s.builder.write serial).1 = .ok text) {events : List Parser.Event}
    (hevents : AllNamed events) :
    let final := (s.follow events).session.builder
    final.listing[i]? = some (.function serial, some f) ∧ (final.write serial).1 = .ok text ∧
      ∃ texts, final.writeModule.1 = .ok ("\n\n".intercalate (Ir.formatGlobal :: texts) ++ "\n") ∧
        texts.length = final.listing.length ∧ texts[i]? = some text := by
  intro final
  obtain ⟨hshown, hsteady, -⟩ := Steady.follow_keeps (Q := (Shows ·.builder i serial f))
    (Steady.handle_keeps Shows.accept) hs h hevents
  have hwrite : (final.write serial).1 = .ok text := (h.write_eq hshown).trans htext
  exact ⟨hshown.listing, hwrite, hshown.writeModule hsteady.builder hwrite⟩

end Shows

/-- All functions can be written after any pieces. -/
theorem writable_follow {events : List Parser.Event} (hevents : AllNamed events) :
    ((initial .ir).follow events).session.builder.Writable :=
  (Steady.follow_keeps (Q := (·.builder.Writable))
    (Steady.handle_keeps fun hregular hc hfault h => h.accept hregular hc hfault) (.initial .ir)
    Builder.Writable.initial hevents).1

/-- What is written for a construct that is accepted is the text of its function. -/
theorem Steady.text_of_acceptance {s : Session} (h : s.Steady .ir) {c : Construct}
    (hc : c.Named IsName) {text : String} (haccepted : (s.handle c).events = acceptance c text) :
    c.fault? s.builder.signature? = none ∧ (s.handle c).session.builder = s.builder.accept c ∧
      ((s.builder.accept c).write (s.builder.declared c.proto).1).1 = .ok text := by
  have hfault := h.fault?_of_acceptance haccepted
  obtain ⟨checker, text', hturn, hemission, -⟩ := h.handle_of_right hc hfault
  rw [fault?_congr (h.agree rfl) hc] at hfault
  obtain ⟨text'', b', hlower, hwrite⟩ := h.builder.accept_eq hc hfault
  -- the texts of the emission, of the acceptance and of the function are one
  have hsame : text'' = text' := by
    simp only [Session.emission, emitIr, hlower, hwrite, Prod.mk.injEq, Emission.text.injEq] at hemission
    exact hemission.1
  have htext : text' = text := by
    rw [hturn] at haccepted
    simpa [acceptance] using haccepted
  refine ⟨hfault, by rw [hturn]; rfl, ?_⟩
  have hself := Builder.function?_accept_self s.builder c
  rw [← htext, ← hsame]
  exact Builder.write_again hwrite hself ((h.builder.accept hc hfault).complete hself)
    (Ir.Function.numbered_numbered _)

/-- **Each construct that is accepted makes its one step, and what is written stays.** Take a session
of source texts, and a piece of them that is accepted when its turn comes. Then the listing of the
module makes the step of the construct, where the number of an expression at top level is how many
were accepted before it. If the construct has a body, its function stays where it is listed, at any
later time of the session it is written as it was then, and so it stands in the text of the
module. -/
theorem run_advances (sources : List ByteArray) {before after : List Parser.Event} {c : Construct}
    {text : String} (hevents : eventsOf sources = before ++ .construct c :: after)
    (haccepted : (((initial .ir).follow before).session.handle c).events = acceptance c text) :
    let past := (initial .ir).follow before
    let now := past.session.builder
    let next := (past.session.handle c).session.builder
    run .ir sources = ((initial .ir).follow (before ++ .construct c :: after)).session ∧
      now.Advances next past.evaluations c ∧
      (c.body? ≠ none → ∃ (i serial : Nat) (f : Ir.Function),
        next.listing[i]? = some (.function serial, some f) ∧
        f.name = functionName now c ∧ f.blocks ≠ [] ∧
        ∀ soon late, after = soon ++ late →
          let final := ((initial .ir).follow (before ++ .construct c :: soon)).session.builder
          final.listing[i]? = some (.function serial, some f) ∧
            (final.write serial).1 = .ok text ∧
            ∃ texts,
              final.writeModule.1 = .ok ("\n\n".intercalate (Ir.formatGlobal :: texts) ++ "\n") ∧
              texts.length = final.listing.length ∧ texts[i]? = some text) := by
  intro past now next
  have hnamed := allNamed_eventsOf sources
  rw [hevents] at hnamed
  have hbefore : AllNamed before := fun c hc => hnamed c (List.mem_append_left _ hc)
  have hc : c.Named IsName := hnamed c (List.mem_append_right _ List.mem_cons_self)
  have hnow := ((Steady.initial .ir).follow hbefore).1
  obtain ⟨hfault, hnext, htext⟩ := hnow.text_of_acceptance hc haccepted
  have hcount : now.anonymous = past.evaluations :=
    ((Steady.initial .ir).anonymous_follow hbefore).trans (Nat.zero_add _)
  have hwritable : (now.accept c).Writable :=
    (writable_follow hbefore).accept hnow.builder hc hfault
  refine ⟨by rw [run_eq_follow, hevents], ?_, fun hbody => ?_⟩
  · rw [← hcount]
    show now.Advances (past.session.handle c).session.builder _ _
    rw [hnext]
    exact hnow.builder.advances hc hfault
  · obtain ⟨body, hbody⟩ := Option.ne_none_iff_exists'.1 hbody
    have hsettled := hnow.builder.settled_accept hc hfault hbody
    obtain ⟨i, hi⟩ := List.mem_iff_getElem?.1 hsettled.listed
    have hshows : Shows next i (now.declared c.proto).1 (now.outcome c).numbered := by
      show Shows (past.session.handle c).session.builder _ _ _
      rw [hnext]
      exact ⟨hi, hsettled, hwritable⟩
    refine ⟨i, _, _, hshows.listing,
      (hnow.builder.outcome hc hfault).1.trans (functionName_eq hnow.builder.sound c),
      hsettled.body, fun soon late hafter => ?_⟩
    have hsoon : AllNamed soon := fun c hc => hnamed c (List.mem_append_right _
      (List.mem_cons_of_mem _ (hafter ▸ List.mem_append_left _ hc)))
    have hwrite : (next.write (now.declared c.proto).1).1 = .ok text := by
      show ((past.session.handle c).session.builder.write _).1 = _
      rw [hnext]
      exact htext
    have hfinal : ((initial .ir).follow (before ++ .construct c :: soon)).session =
        ((past.session.handle c).session.follow soon).session := by
      rw [(Steady.initial .ir).follow_append hbefore, hnow.follow_construct hc]
    rw [hfinal]
    exact hshows.follow (hnow.handle hc).1 hwrite hsoon

/-- A definition with another name for the parameter than the declaration before it. -/
def renamed : Construct := .definition ⟨"f", ["y"]⟩ (.identifier "y")

/-- The function keeps its place between the others, and its text. -/
theorem run_advances_renamed :
    let final := (run .ir ["extern f(x) extern g() g()".toUTF8, "def f(y) y g()".toUTF8]).builder
    ∃ (i serial : Nat) (f : Ir.Function), f.name = "f" ∧
      final.listing[i]? = some (.function serial, some f) ∧
      (final.write serial).1 =
        .ok "define double @f(double %y) \x7b\nentry:\n\tret double %y\n\x7d" := by
  have hevents : eventsOf ["extern f(x) extern g() g()".toUTF8, "def f(y) y g()".toUTF8] =
      [.construct (.declaration ⟨"f", ["x"]⟩), .construct (.declaration ⟨"g", []⟩),
          .construct (.evaluation (.call "g" []))] ++
        .construct renamed :: [.construct (.evaluation (.call "g" []))] := by
    decide +kernel
  have haccepted : (((initial .ir).follow
        [.construct (.declaration ⟨"f", ["x"]⟩), .construct (.declaration ⟨"g", []⟩),
          .construct (.evaluation (.call "g" []))]).session.handle renamed).events =
      acceptance renamed "define double @f(double %y) \x7b\nentry:\n\tret double %y\n\x7d" := by
    decide +kernel
  obtain ⟨hrun, -, hstays⟩ := run_advances _ hevents haccepted
  obtain ⟨i, serial, f, -, hname, -, hlater⟩ := hstays (by simp [renamed, Construct.body?])
  obtain ⟨hlisting, hwrite, -⟩ := hlater _ [] (List.append_nil _).symm
  refine ⟨i, serial, f, hname, ?_, ?_⟩
  · rw [hrun]
    exact hlisting
  · rw [hrun]
    exact hwrite

end Kaleidoscope.Session
